import BeeApi.UserAuth.TwoFactor

/-!
# Limits of the second factor

Every backup code is accepted once in every run.  The limit of wrong codes and the setting itself are
kept while every save finds the setting as it was read, and no wrong code is checked while another one
waits to be saved.
-/

namespace BeeApi.TwoFactor

open List

/-- What an attempt may not do to the codes, the limit and the setting. -/
structure Kept (s : State) : Prop where
  once : s.history.accepted.Nodup
  limited : ∀ n, s.history.window = some n → n ≤ maxFailAttempts
  gone : s.history.deleted = true → s.row = none
  enabled : s.history.switchedOn = true → ∃ r, s.row = some r ∧ r.isEnabled = true

namespace State

/-- Wrong codes that were checked and are not counted in the row yet. -/
def unsaved (s : State) : ℕ := s.clients.countP (·.unsavedFailure)

/-- The row was not written or deleted since the copy was read. -/
def upToDate (s : State) (c : Copy) : Bool := c.version = s.history.writes

end State

/-- A wrong code is checked only while no other one waits to be saved, a save finds the setting as it
was read, and `Enable` takes back no failed attempts short of a lock. -/
def fresh (env : Env) (s : State) : Action → Bool
  | .validateTOTPAndUpdateUsage i code =>
    match s.clients[i]? with
    | some (.holds c) =>
      c.twoFA.isLocked s.now || validateTOTPCode env c.twoFA.secret code s.now || s.unsaved = 0
    | _ => true
  | .validateBackupCodeAndUpdateUsage i code =>
    match s.clients[i]? with
    | some (.holds c) =>
      c.twoFA.isLocked s.now || !validBackupCodeFormat env code || (s.findCode env code).isSome ||
        s.unsaved = 0
    | _ => true
  | .useBackupCode i =>
    match s.clients[i]? with
    | some (.claiming _ codeId) => s.claimable codeId || s.unsaved = 0
    | _ => true
  | .save i =>
    match s.clients[i]? with
    | some (.saving c _ _) => s.upToDate c
    | _ => true
  | .enable _ => s.row.all fun r => r.failedAttempts = 0 || maxFailAttempts ≤ r.failedAttempts
  | _ => true

/-! ## Steps -/

section Steps

variable {env : Env} {s s' : State}

variable {i : ℕ}

theorem of_validateTOTP {code : String}
    (h : step env s (.validateTOTPAndUpdateUsage i code) = some s') :
    ∃ c, s.clients[i]? = some (.holds c) ∧ (c.twoFA.isLocked s.now = true ∧ s' = s ∨
      c.twoFA.isLocked s.now = false ∧
        s' = s.checked i c (validateTOTPCode env c.twoFA.secret code s.now)) := by
  dsimp only [step] at h
  split at h
  · rename_i c hclient
    refine ⟨c, hclient, ?_⟩
    split_ifs at h with hlocked
    · exact .inl ⟨hlocked, (Option.some.inj h).symm⟩
    · exact .inr ⟨Bool.eq_false_iff.2 hlocked, (Option.some.inj h).symm⟩
  · cases h

theorem of_validateBackupCode {code : String}
    (h : step env s (.validateBackupCodeAndUpdateUsage i code) = some s') :
    ∃ c, s.clients[i]? = some (.holds c) ∧ (s' = s ∨
      c.twoFA.isLocked s.now = false ∧ validBackupCodeFormat env code = true ∧
        ((∃ bc, s' = s.setClient i (.claiming c bc)) ∨
          s.findCode env code = none ∧ s' = s.checked i c false)) := by
  dsimp only [step] at h
  split at h
  · rename_i c hclient
    refine ⟨c, hclient, ?_⟩
    split_ifs at h with hrefused
    · exact .inl (Option.some.inj h).symm
    · rw [Bool.or_eq_true, not_or, Bool.not_eq_true, Bool.not_eq_true', Bool.not_eq_false] at hrefused
      refine .inr ⟨hrefused.1, hrefused.2, ?_⟩
      split at h
      · rename_i bc hfind
        exact .inl ⟨bc.id, (Option.some.inj h).symm⟩
      · rename_i hfind
        exact .inr ⟨hfind, (Option.some.inj h).symm⟩
  · cases h

theorem of_useBackupCode (h : step env s (.useBackupCode i) = some s') :
    ∃ c codeId, s.clients[i]? = some (.claiming c codeId) ∧
      s' = (s.useCode codeId).checked i c (s.claimable codeId) := by
  dsimp only [step] at h
  split at h
  · rename_i c codeId hclient
    exact ⟨c, codeId, hclient, (Option.some.inj h).symm⟩
  · cases h

theorem of_save (h : step env s (.save i) = some s') :
    ∃ c t valid, s.clients[i]? = some (.saving c t valid) ∧
      (s.row.any (·.id = t.id) = true ∧ s' = s.stored i c t ∨
        s.row.any (·.id = t.id) = false ∧ s' = s.setClient i (.inserting c t valid)) := by
  dsimp only [step] at h
  split at h
  · rename_i c t valid hclient
    refine ⟨c, t, valid, hclient, ?_⟩
    split_ifs at h with hrow
    · exact .inl ⟨hrow, (Option.some.inj h).symm⟩
    · exact .inr ⟨Bool.eq_false_iff.2 hrow, (Option.some.inj h).symm⟩
  · cases h

theorem of_insert (h : step env s (.insert i) = some s') :
    ∃ c t valid, s.clients[i]? = some (.inserting c t valid) ∧ s' = s.stored i c t := by
  dsimp only [step] at h
  split at h
  · rename_i c t valid hclient
    exact ⟨c, t, valid, hclient, (Option.some.inj h).symm⟩
  · cases h

theorem of_disableTwoFA (h : step env s (.disableTwoFA i) = some s') :
    ∃ c, s.clients[i]? = some (.disabling c) ∧ (s' = { s with
          row := none
          codes := []
          clients := s.clients.set i (.holds c)
          history := { s.history with
            writes := s.history.writes + 1
            deleted := true
            switchedOn := false } } ∨
        s' = { s with codes := [], clients := s.clients.set i (.holds c) }) := by
  dsimp only [step] at h
  split at h
  · rename_i c hclient
    refine ⟨c, hclient, ?_⟩
    cases h
    split_ifs
    · exact .inl rfl
    · exact .inr rfl
  · cases h

theorem of_enable (h : step env s (.enable i) = some s') :
    ∃ c, s.clients[i]? = some (.holds c) ∧ ((∃ r, s.row = some r ∧ s' = { s with
          row := some r.enable
          clients := s.clients.set i (.holds { twoFA := c.twoFA.enable, version := c.version + 1 })
          history := { s.history with
            writes := s.history.writes + 1
            switchedOn := true } }) ∨
        s.row ≠ some c.twoFA ∧ s' = s.setClient i (.holds { c with twoFA := c.twoFA.enable })) := by
  dsimp only [step] at h
  split at h
  · rename_i c hclient
    refine ⟨c, hclient, ?_⟩
    split_ifs at h with hrow
    · cases hr : s.row with
      | none =>
        rw [hr] at hrow
        cases hrow
      | some r =>
        rw [hr] at h
        exact .inl ⟨r, rfl, (Option.some.inj h).symm⟩
    · refine .inr ⟨fun hr => hrow ?_, (Option.some.inj h).symm⟩
      rw [hr, Option.any_some]
      exact decide_eq_true rfl
  · cases h

end Steps

/-! ## Backup codes -/

/-- An accepted code is not unused any more. -/
structure CodesOk (s : State) : Prop where
  once : s.history.accepted.Nodup
  accepted_lt : ∀ id ∈ s.history.accepted, id < s.nextCodeId
  id_lt : ∀ bc ∈ s.codes, bc.id < s.nextCodeId
  used : ∀ bc ∈ s.codes, bc.id ∈ s.history.accepted → bc.unused = false

variable {s s' : State} {i : ℕ} {t : TwoFA}

theorem CodesOk.congr (h : CodesOk s) (hcodes : s'.codes = s.codes)
    (hnext : s'.nextCodeId = s.nextCodeId) (haccepted : s'.history.accepted = s.history.accepted) :
    CodesOk s' := by
  refine ⟨?_, ?_, ?_, ?_⟩
  · rw [haccepted]
    exact h.once
  · rw [haccepted, hnext]
    exact h.accepted_lt
  · rw [hcodes, hnext]
    exact h.id_lt
  · rw [hcodes, haccepted]
    exact h.used

theorem CodesOk.useCode (h : CodesOk s) (codeId : ℕ) : CodesOk (s.useCode codeId) := by
  have hmem : ∀ bc ∈ (s.useCode codeId).codes, ∃ bc' ∈ s.codes, bc'.id = bc.id ∧
      (bc.unused = true → bc'.unused = true ∧ bc.id ≠ codeId) := by
    intro bc hbc
    obtain ⟨bc', hbc', rfl⟩ := mem_map.1 hbc
    refine ⟨bc', hbc', ?_, fun hunused => ?_⟩
    · split_ifs <;> rfl
    · split_ifs at hunused with hcode
      · cases hunused
      · rw [if_neg hcode]
        refine ⟨hunused, fun hid => hcode ?_⟩
        rw [hunused, Bool.and_true]
        exact decide_eq_true hid
  have hclaimed : s.claimable codeId = true → codeId ∉ s.history.accepted ∧ codeId < s.nextCodeId := by
    intro hclaimable
    have hone : s.codes.countP (fun bc => bc.id = codeId && bc.unused) = 1 :=
      of_decide_eq_true hclaimable
    obtain ⟨bc, hbc, hcode⟩ := countP_pos_iff.1 (hone ▸ Nat.one_pos)
    rw [Bool.and_eq_true, decide_eq_true_eq] at hcode
    refine ⟨fun hacc => ?_, hcode.1 ▸ h.id_lt bc hbc⟩
    have hused := h.used bc hbc (hcode.1 ▸ hacc)
    rw [hcode.2] at hused
    cases hused
  have haccepted : ∀ id ∈ (s.useCode codeId).history.accepted,
      id ∈ s.history.accepted ∨ id = codeId ∧ s.claimable codeId = true := by
    intro id hid
    rcases mem_append.1 hid with hid | hid
    · exact .inl hid
    · split_ifs at hid with hclaimable
      · exact .inr ⟨mem_singleton.1 hid, hclaimable⟩
      · cases hid
  refine ⟨?_, fun id hid => ?_, fun bc hbc => ?_, fun bc hbc hid => ?_⟩
  · show (s.history.accepted ++ if s.claimable codeId then [codeId] else []).Nodup
    split_ifs with hclaimable
    · refine nodup_append.2 ⟨h.once, by simp, ?_⟩
      rintro a ha b hb rfl
      obtain rfl := mem_singleton.1 hb
      exact (hclaimed hclaimable).1 ha
    · rw [append_nil]
      exact h.once
  · rcases haccepted id hid with hid | ⟨rfl, hclaimable⟩
    · exact h.accepted_lt id hid
    · exact (hclaimed hclaimable).2
  · obtain ⟨bc', hbc', hid, -⟩ := hmem bc hbc
    exact hid ▸ h.id_lt bc' hbc'
  · obtain ⟨bc', hbc', hsame, hunused⟩ := hmem bc hbc
    by_contra hnot
    obtain ⟨hunused', hne⟩ := hunused (Bool.not_eq_false _ ▸ hnot)
    rcases haccepted _ hid with hold | ⟨heq, -⟩
    · have hused := h.used bc' hbc' (hsame ▸ hold)
      rw [hunused'] at hused
      cases hused
    · exact hne heq

theorem CodesOk.createBackupCodes (h : CodesOk s) (hashes : List String)
    (hstep : step env s (.createBackupCodes hashes) = some s') : CodesOk s' := by
  cases hstep
  have hmem : ∀ bc ∈ ((s.codes.map fun bc => { bc with deletedAt := bc.deletedAt.or (some s.now) }) ++
      hashes.mapIdx fun i hash => ({ id := s.nextCodeId + i, codeHash := hash } : TwoFABackupCode)),
      (∃ bc' ∈ s.codes, bc.id = bc'.id ∧ bc.unused = false) ∨
        s.nextCodeId ≤ bc.id ∧ bc.id < s.nextCodeId + hashes.length := by
    intro bc hbc
    rcases mem_append.1 hbc with hbc | hbc
    · obtain ⟨bc', hbc', rfl⟩ := mem_map.1 hbc
      refine .inl ⟨bc', hbc', rfl, ?_⟩
      simp [TwoFABackupCode.unused]
    · obtain ⟨i, hi, rfl⟩ := mem_mapIdx.1 hbc
      exact .inr ⟨Nat.le_add_right _ _, Nat.add_lt_add_left hi _⟩
  refine ⟨h.once, fun id hid => ?_, fun bc hbc => ?_, fun bc hbc hid => ?_⟩
  · exact (h.accepted_lt id hid).trans_le (Nat.le_add_right _ _)
  · rcases hmem bc hbc with ⟨bc', hbc', hid, -⟩ | ⟨-, hlt⟩
    · exact hid ▸ (h.id_lt bc' hbc').trans_le (Nat.le_add_right _ _)
    · exact hlt
  · rcases hmem bc hbc with ⟨_, _, -, hunused⟩ | ⟨hle, -⟩
    · exact hunused
    · exact absurd (h.accepted_lt _ hid) (Nat.not_lt.2 hle)

theorem CodesOk.step {env : Env} {a : Action} (h : CodesOk s) (hstep : step env s a = some s') :
    CodesOk s' := by
  cases a with
  | getTwoFAByUserId disable =>
    dsimp only [TwoFactor.step] at hstep
    split at hstep
    · cases hstep
      exact h.congr rfl rfl rfl
    · cases hstep
      exact h
  | validateTOTPAndUpdateUsage i code =>
    obtain ⟨c, -, ⟨-, rfl⟩ | ⟨-, rfl⟩⟩ := of_validateTOTP hstep
    · exact h
    · exact h.congr rfl rfl rfl
  | validateBackupCodeAndUpdateUsage i code =>
    obtain ⟨c, -, rfl | ⟨-, -, ⟨bc, rfl⟩ | ⟨-, rfl⟩⟩⟩ := of_validateBackupCode hstep
    · exact h
    · exact h.congr rfl rfl rfl
    · exact h.congr rfl rfl rfl
  | useBackupCode i =>
    obtain ⟨c, codeId, -, rfl⟩ := of_useBackupCode hstep
    exact (h.useCode codeId).congr rfl rfl rfl
  | save i =>
    obtain ⟨c, t, valid, -, ⟨-, rfl⟩ | ⟨-, rfl⟩⟩ := of_save hstep <;> exact h.congr rfl rfl rfl
  | insert i =>
    obtain ⟨c, t, valid, -, rfl⟩ := of_insert hstep
    exact h.congr rfl rfl rfl
  | disableTwoFA i =>
    obtain ⟨c, -, rfl | rfl⟩ := of_disableTwoFA hstep <;>
      exact ⟨h.once, h.accepted_lt, by simp, by simp⟩
  | enable i =>
    obtain ⟨c, -, ⟨r, -, rfl⟩ | ⟨-, rfl⟩⟩ := of_enable hstep <;> exact h.congr rfl rfl rfl
  | createBackupCodes hashes => exact h.createBackupCodes hashes hstep
  | wait d =>
    cases hstep
    exact h.congr rfl rfl rfl

/-! ## The limit and the setting -/

/-- What a row counts towards the limit; a row that has reached it was locked. -/
def TwoFA.counted (r : TwoFA) : ℕ := if r.failedAttempts < maxFailAttempts then r.failedAttempts else 0

/-- The same of a setting that may be gone, with which no more than its last attempts are. -/
def State.counted (s : State) : ℕ := s.row.elim (maxFailAttempts - 1) TwoFA.counted

/-- An attempt goes on, and saves its copy changed, only when the copy was not locked. -/
def Client.Edited (now : ℤ) : Client → Prop
  | .claiming c _ => c.twoFA.isLocked now = false
  | .saving c t true => ∃ now, t = c.twoFA.updateUsage now
  | .saving c t false =>
    ∃ now, c.twoFA.isLocked now = false ∧ t = c.twoFA.incrementFailedAttempts now
  | .inserting .. => False
  | _ => True

/-- A copy that is up to date is the row, and since its success that is not saved yet no wrong code has
been saved. -/
structure Client.Ok (s : State) (cl : Client) : Prop where
  seen : cl.copy.version ≤ s.history.writes
  current : cl.copy.version = s.history.writes → s.row = some cl.copy.twoFA
  edited : cl.Edited s.now
  success : ∀ c t, cl = .saving c t true → c.version = s.history.writes →
    ∀ n, s.history.window = some n → n ≤ s.unsaved

/-- A wrong code is counted in the row, or not saved yet. -/
structure Counted (s : State) : Prop where
  clients : ∀ cl ∈ s.clients, cl.Ok s
  limited : ∀ n, s.history.window = some n → n ≤ maxFailAttempts
  counted : ∀ n, s.history.window = some n → n ≤ s.unsaved + s.counted
  gone : s.history.deleted = true → s.row = none
  enabled : s.history.switchedOn = true → ∃ r, s.row = some r ∧ r.isEnabled = true

theorem TwoFA.isLocked_mono {t : TwoFA} {now now' : ℤ} (h : t.isLocked now = false)
    (hle : now ≤ now') : t.isLocked now' = false := by
  unfold TwoFA.isLocked at h ⊢
  split
  · rfl
  · rename_i until' huntil
    rw [huntil] at h
    exact decide_eq_false fun hlt => of_decide_eq_false h (hle.trans_lt hlt)

theorem Client.Edited.mono {cl : Client} {now now' : ℤ} (h : cl.Edited now) (hle : now ≤ now') :
    cl.Edited now' := by
  cases cl with
  | claiming c codeId => exact TwoFA.isLocked_mono h hle
  | holds | inserting | disabling => exact h
  | saving c t valid =>
    cases valid with
    | true | false => exact h

theorem TwoFA.counted_lt (r : TwoFA) : r.counted < maxFailAttempts := by
  unfold counted
  split_ifs with hlt
  · exact hlt
  · decide

theorem State.counted_lt (s : State) : s.counted < maxFailAttempts := by
  unfold State.counted
  cases s.row with
  | none => decide
  | some r => exact r.counted_lt

theorem unsaved_set {cl cl' : Client} (h : s.clients[i]? = some cl) :
    (s.clients.set i cl').countP (·.unsavedFailure) + (if cl.unsavedFailure then 1 else 0) =
      s.unsaved + if cl'.unsavedFailure then 1 else 0 := by
  obtain ⟨hi, hcl⟩ := List.getElem?_eq_some_iff.1 h
  have hpos : cl.unsavedFailure = true → 0 < s.unsaved := fun hfail =>
    countP_pos_iff.2 ⟨cl, mem_of_getElem? h, hfail⟩
  rw [countP_set hi, hcl]
  unfold State.unsaved at hpos ⊢
  cases hfail : cl.unsavedFailure with
  | true =>
    have hpos := hpos hfail
    simp only [if_true]
    omega
  | false =>
    simp only [Bool.false_eq_true, if_false]
    omega

/-- A window that is not new has grown no more than what waits to be saved. -/
def Grows (s s' : State) : Prop :=
  ∀ n, s'.history.window = some n →
    n = 0 ∨ ∃ m, s.history.window = some m ∧ n + s.unsaved ≤ m + s'.unsaved

/-- A client keeps what holds of it while the row stays. -/
theorem Client.Ok.keep {cl : Client} (h : cl.Ok s) (hrow : s'.row = s.row)
    (hwrites : s'.history.writes = s.history.writes) (hnow : s.now ≤ s'.now) (hgrows : Grows s s') :
    cl.Ok s' := by
  refine ⟨?_, ?_, h.edited.mono hnow, fun c t hcl hversion n hn => ?_⟩
  · rw [hwrites]
    exact h.seen
  · rw [hwrites, hrow]
    exact h.current
  · rw [hwrites] at hversion
    rcases hgrows n hn with rfl | ⟨m, hm, hle⟩
    · exact Nat.zero_le _
    · have hsuccess := h.success c t hcl hversion m hm
      omega

/-- A write makes every other copy out of date. -/
theorem Client.Ok.outdated {cl : Client} (h : cl.Ok s)
    (hwrites : s'.history.writes = s.history.writes + 1) (hnow : s'.now = s.now) : cl.Ok s' := by
  have hlt : cl.copy.version < s'.history.writes := by
    rw [hwrites]
    exact Nat.lt_succ_of_le h.seen
  refine ⟨hlt.le, fun heq => absurd heq hlt.ne, ?_, ?_⟩
  · rw [hnow]
    exact h.edited
  · rintro c t rfl heq
    exact absurd heq hlt.ne

theorem ok_set {cl' : Client} {clients : List Client} (hothers : ∀ cl ∈ clients, cl.Ok s')
    (hcl' : cl'.Ok s') : ∀ cl ∈ clients.set i cl', cl.Ok s' := by
  intro cl hcl
  rcases mem_or_eq_of_mem_set hcl with hmem | rfl
  · exact hothers cl hmem
  · exact hcl'

/-- A step that leaves the row as it is. -/
theorem Counted.keep (h : Counted s) (hrow : s'.row = s.row)
    (hdeleted : s'.history.deleted = s.history.deleted)
    (hswitched : s'.history.switchedOn = s.history.switchedOn) (hgrows : Grows s s')
    (hlimited : ∀ n, s'.history.window = some n → n ≤ maxFailAttempts)
    (hclients : ∀ cl ∈ s'.clients, cl.Ok s') : Counted s' := by
  have hcounted : s'.counted = s.counted := by
    unfold State.counted
    rw [hrow]
  refine ⟨hclients, hlimited, fun n hn => ?_, ?_, ?_⟩
  · rw [hcounted]
    rcases hgrows n hn with rfl | ⟨m, hm, hle⟩
    · exact Nat.zero_le _
    · have hbefore := h.counted m hm
      omega
  · rw [hdeleted, hrow]
    exact h.gone
  · rw [hswitched, hrow]
    exact h.enabled

theorem Counted.setClient (h : Counted s) {cl cl' : Client} (hcl : s.clients[i]? = some cl)
    (hfail : cl.unsavedFailure = false) (hfail' : cl'.unsavedFailure = false)
    (hok : cl.Ok s → cl'.Ok s) : Counted (s.setClient i cl') := by
  have hunsaved : (s.setClient i cl').unsaved = s.unsaved := by
    have hset := @unsaved_set s i cl cl' hcl
    rw [hfail, hfail'] at hset
    exact hset
  have hgrows : Grows s (s.setClient i cl') := fun n hn => .inr ⟨n, hn, by rw [hunsaved]⟩
  have hkeep : ∀ cl : Client, cl.Ok s → cl.Ok (s.setClient i cl') :=
    fun _ h => h.keep rfl rfl le_rfl hgrows
  exact h.keep rfl rfl rfl hgrows h.limited
    (ok_set (fun cl hmem => hkeep cl (h.clients cl hmem))
      (hkeep cl' (hok (h.clients cl (mem_of_getElem? hcl)))))

theorem Counted.addClient (h : Counted s) {cl : Client} (hfail : cl.unsavedFailure = false)
    (hok : cl.Ok s) : Counted { s with clients := s.clients ++ [cl] } := by
  have hunsaved : (s.clients ++ [cl]).countP (·.unsavedFailure) = s.unsaved := by
    rw [countP_append, countP_singleton, hfail]
    rfl
  have hgrows : Grows s { s with clients := s.clients ++ [cl] } :=
    fun n hn => .inr ⟨n, hn, Nat.add_le_add_left hunsaved.ge n⟩
  refine h.keep rfl rfl rfl hgrows h.limited fun cl' hmem => ?_
  rcases mem_append.1 hmem with hmem | hmem
  · exact (h.clients cl' hmem).keep rfl rfl le_rfl hgrows
  · rw [mem_singleton.1 hmem]
    exact hok.keep rfl rfl le_rfl hgrows

/-- A wrong code is one more of the window, and one more that waits to be saved. -/
theorem Counted.checked (h : Counted s) {cl : Client} {valid : Bool} (hcl : s.clients[i]? = some cl)
    (hfail : cl.unsavedFailure = false) (hlocked : cl.copy.twoFA.isLocked s.now = false)
    (hmay : valid = true ∨ s.unsaved = 0) : Counted (s.checked i cl.copy valid) := by
  have hok := h.clients cl (mem_of_getElem? hcl)
  cases valid with
  | true =>
    have hzero : ∀ n, (s.checked i cl.copy true).history.window = some n → n = 0 :=
      fun n hn => (Option.some.inj hn).symm
    have hgrows : Grows s (s.checked i cl.copy true) := fun n hn => .inl (hzero n hn)
    refine h.keep rfl rfl rfl hgrows (fun n hn => ?_)
      (ok_set (fun cl hmem => (h.clients cl hmem).keep rfl rfl le_rfl hgrows)
        ⟨hok.seen, hok.current, ⟨s.now, rfl⟩, fun _ _ _ _ n hn => ?_⟩)
    all_goals
      rw [hzero n hn]
      exact Nat.zero_le _
  | false =>
    have hunsaved : (s.checked i cl.copy false).unsaved = s.unsaved + 1 := by
      have hset := @unsaved_set s i cl
        (.saving cl.copy (cl.copy.twoFA.incrementFailedAttempts s.now) false) hcl
      rw [hfail] at hset
      exact hset
    have hwindow : ∀ n, (s.checked i cl.copy false).history.window = some n →
        ∃ m, s.history.window = some m ∧ n = m + 1 := by
      intro n hn
      obtain ⟨m, hm, rfl⟩ := Option.map_eq_some_iff.1 hn
      exact ⟨m, hm, rfl⟩
    have hgrows : Grows s (s.checked i cl.copy false) := by
      intro n hn
      obtain ⟨m, hm, rfl⟩ := hwindow n hn
      refine .inr ⟨m, hm, ?_⟩
      omega
    refine h.keep rfl rfl rfl hgrows (fun n hn => ?_)
      (ok_set (fun cl hmem => (h.clients cl hmem).keep rfl rfl le_rfl hgrows)
        ⟨hok.seen, hok.current, ⟨s.now, hlocked, rfl⟩, fun _ _ heq => ?_⟩)
    · obtain ⟨m, hm, rfl⟩ := hwindow n hn
      have hnone : s.unsaved = 0 := hmay.resolve_left Bool.false_ne_true
      have hcounted := h.counted m hm
      have hlt := s.counted_lt
      omega
    · cases heq

/-- After a save the window is new, or it is the old one and the save has not locked. -/
theorem window_stored {c : Copy} {n : ℕ} (hn : (s.stored i c t).history.window = some n) :
    n = 0 ∨ (t.lockedUntil = none ∨ t.lockedUntil = c.twoFA.lockedUntil) ∧
      s.history.window = some n := by
  change (if t.isLocked s.now = true then none else if _ then _ else _) = some n at hn
  split_ifs at hn with hlocked hnew
  · exact .inl (Option.some.inj hn).symm
  · refine .inr ⟨?_, hn⟩
    rw [Bool.and_eq_true, not_and, decide_eq_true_eq, not_not] at hnew
    cases huntil : t.lockedUntil with
    | none => exact .inl rfl
    | some until' =>
      rw [huntil] at hnew
      exact .inr (hnew rfl)

/-- The attempt that reaches the limit locks the row anew. -/
theorem TwoFA.lockedUntil_incrementFailedAttempts {now : ℤ} (hlocked : t.isLocked now = false)
    (hmax : maxFailAttempts ≤ t.failedAttempts + 1) :
    (t.incrementFailedAttempts now).lockedUntil ≠ none ∧
      (t.incrementFailedAttempts now).lockedUntil ≠ t.lockedUntil := by
  have huntil : (t.incrementFailedAttempts now).lockedUntil = some (now + lockoutDuration) :=
    if_pos hmax
  rw [huntil]
  refine ⟨Option.some_ne_none _, fun heq => ?_⟩
  unfold TwoFA.isLocked at hlocked
  rw [← heq] at hlocked
  exact of_decide_eq_false hlocked (Int.lt_add_of_pos_right now (by decide))

/-- A copy that is up to date loses nothing of the row when it is saved. -/
theorem Counted.stored (h : Counted s) {c : Copy} {valid : Bool}
    (hcl : s.clients[i]? = some (.saving c t valid)) (hcurrent : c.version = s.history.writes) :
    Counted (s.stored i c t) := by
  have hok := h.clients _ (mem_of_getElem? hcl)
  have hrow : s.row = some c.twoFA := hok.current hcurrent
  have hunsaved := @unsaved_set s i _ (.holds { twoFA := t, version := s.history.writes + 1 }) hcl
  change (s.stored i c t).unsaved + _ = _ at hunsaved
  have hswitch : t.isEnabled = c.twoFA.isEnabled ∧
      ∀ n, (s.stored i c t).history.window = some n →
        n ≤ maxFailAttempts ∧ n ≤ (s.stored i c t).unsaved + t.counted := by
    cases valid with
    | true =>
      obtain ⟨now, rfl⟩ := hok.edited
      refine ⟨rfl, fun n hn => ?_⟩
      rcases window_stored hn with rfl | ⟨-, hn⟩
      · exact ⟨Nat.zero_le _, Nat.zero_le _⟩
      · -- no wrong code was saved since the success, so that all wait to be saved
        have hsuccess := hok.success c _ rfl hcurrent n hn
        refine ⟨h.limited n hn, le_add_right ?_⟩
        exact hsuccess.trans_eq hunsaved.symm
    | false =>
      obtain ⟨now, hlocked, rfl⟩ := hok.edited
      refine ⟨rfl, fun n hn => ?_⟩
      rcases window_stored hn with rfl | ⟨hsame, hn⟩
      · exact ⟨Nat.zero_le _, Nat.zero_le _⟩
      · have hlt : c.twoFA.failedAttempts + 1 < maxFailAttempts := by
          by_contra hmax
          obtain ⟨hsome, hnew⟩ := TwoFA.lockedUntil_incrementFailedAttempts hlocked (not_lt.1 hmax)
          exact hsame.elim hsome hnew
        have hcounted : s.counted = c.twoFA.failedAttempts := by
          unfold State.counted
          rw [hrow, Option.elim_some]
          exact if_pos (Nat.lt_of_succ_lt hlt)
        have hcounted' : (c.twoFA.incrementFailedAttempts now).counted =
            c.twoFA.failedAttempts + 1 := if_pos hlt
        have hbefore := h.counted n hn
        refine ⟨h.limited n hn, ?_⟩
        rw [hcounted']
        rw [hcounted] at hbefore
        change _ + 1 = s.unsaved + 0 at hunsaved
        omega
  refine ⟨ok_set (fun cl hmem => (h.clients cl hmem).outdated rfl rfl)
    ⟨le_rfl, fun _ => rfl, trivial, by simp⟩, fun n hn => (hswitch.2 n hn).1,
    fun n hn => (hswitch.2 n hn).2, fun hdeleted => ?_, fun hon => ?_⟩
  · cases hrow.symm.trans (h.gone hdeleted)
  · obtain ⟨r, hr, hon⟩ := h.enabled hon
    cases hrow.symm.trans hr
    exact ⟨t, rfl, hswitch.1.trans hon⟩

theorem Counted.enable (h : Counted s) {c : Copy} {r : TwoFA} (hcl : s.clients[i]? = some (.holds c))
    (hrow : s.row = some r) (hcount : r.failedAttempts = 0 ∨ maxFailAttempts ≤ r.failedAttempts) :
    Counted { s with
      row := some r.enable
      clients := s.clients.set i (.holds { twoFA := c.twoFA.enable, version := c.version + 1 })
      history := { s.history with
        writes := s.history.writes + 1
        switchedOn := true } } := by
  have hok := h.clients _ (mem_of_getElem? hcl)
  have hzero : s.counted = 0 := by
    unfold State.counted
    rw [hrow, Option.elim_some]
    unfold TwoFA.counted
    split_ifs with hlt
    · omega
    · rfl
  have hunsaved := @unsaved_set s i _ (.holds { twoFA := c.twoFA.enable, version := c.version + 1 }) hcl
  refine ⟨ok_set (fun cl hmem => (h.clients cl hmem).outdated rfl rfl)
    ⟨Nat.succ_le_succ hok.seen, fun heq => ?_, trivial, by simp⟩, h.limited, fun n hn => ?_,
    fun hdeleted => ?_, fun _ => ⟨r.enable, rfl, rfl⟩⟩
  · cases hrow.symm.trans (hok.current (Nat.succ.inj heq))
    rfl
  · have hbefore := h.counted n hn
    rw [hzero] at hbefore
    exact le_add_right (hbefore.trans_eq hunsaved.symm)
  · cases hrow.symm.trans (h.gone hdeleted)

theorem Counted.disabled (h : Counted s) {c : Copy} (hcl : s.clients[i]? = some (.disabling c)) :
    Counted { s with
      row := none
      codes := []
      clients := s.clients.set i (.holds c)
      history := { s.history with
        writes := s.history.writes + 1
        deleted := true
        switchedOn := false } } := by
  have hok := h.clients _ (mem_of_getElem? hcl)
  have hholds : (Client.holds c).Ok s := ⟨hok.seen, hok.current, trivial, by simp⟩
  have hunsaved := @unsaved_set s i _ (.holds c) hcl
  refine ⟨ok_set (fun cl hmem => (h.clients cl hmem).outdated rfl rfl) (hholds.outdated rfl rfl),
    h.limited, fun n hn => ?_, fun _ => rfl, by simp⟩
  have hbefore := h.counted n hn
  have hlt := s.counted_lt
  refine (hbefore.trans ?_).trans_eq (congrArg (· + (maxFailAttempts - 1)) hunsaved.symm)
  exact Nat.add_le_add_left (Nat.le_sub_one_of_lt hlt) _

theorem Counted.step {env : Env} {a : Action} (h : Counted s) (hfresh : fresh env s a = true)
    (hstep : step env s a = some s') : Counted s' := by
  cases a with
  | getTwoFAByUserId disable =>
    dsimp only [TwoFactor.step] at hstep
    split at hstep
    · rename_i t hrow
      cases hstep
      cases disable with
      | true | false => exact h.addClient rfl ⟨le_rfl, fun _ => hrow, trivial, by simp⟩
    · cases hstep
      exact h
  | validateTOTPAndUpdateUsage i code =>
    obtain ⟨c, hc, ⟨-, rfl⟩ | ⟨hlocked, rfl⟩⟩ := of_validateTOTP hstep
    · exact h
    · refine h.checked hc rfl hlocked ?_
      rw [fresh, hc] at hfresh
      dsimp only at hfresh
      rwa [hlocked, Bool.false_or, Bool.or_eq_true, decide_eq_true_eq] at hfresh
  | validateBackupCodeAndUpdateUsage i code =>
    obtain ⟨c, hc, rfl | ⟨hlocked, hformat, ⟨bc, rfl⟩ | ⟨hfind, rfl⟩⟩⟩ := of_validateBackupCode hstep
    · exact h
    · exact h.setClient hc rfl rfl fun hok => ⟨hok.seen, hok.current, hlocked, by simp⟩
    · refine h.checked hc rfl hlocked (.inr ?_)
      rw [fresh, hc] at hfresh
      dsimp only at hfresh
      rw [hlocked, hformat, hfind] at hfresh
      exact of_decide_eq_true hfresh
  | useBackupCode i =>
    obtain ⟨c, codeId, hc, rfl⟩ := of_useBackupCode hstep
    have hused : Counted (s.useCode codeId) :=
      h.keep rfl rfl rfl (fun n hn => .inr ⟨n, hn, le_rfl⟩) h.limited fun cl hmem =>
        (h.clients cl hmem).keep rfl rfl le_rfl fun n hn => .inr ⟨n, hn, le_rfl⟩
    refine hused.checked hc rfl (h.clients _ (mem_of_getElem? hc)).edited ?_
    rw [fresh, hc] at hfresh
    dsimp only at hfresh
    rwa [Bool.or_eq_true, decide_eq_true_eq] at hfresh
  | save i =>
    obtain ⟨c, t, valid, hc, hrest⟩ := of_save hstep
    rw [fresh, hc] at hfresh
    have hcurrent : c.version = s.history.writes := of_decide_eq_true hfresh
    rcases hrest with ⟨-, rfl⟩ | ⟨hrow, rfl⟩
    · exact h.stored hc hcurrent
    · -- the row of an up to date copy is there
      have hok := h.clients _ (mem_of_getElem? hc)
      have hid : t.id = c.twoFA.id := by
        cases valid with
        | true =>
          obtain ⟨now, rfl⟩ := hok.edited
          rfl
        | false =>
          obtain ⟨now, -, rfl⟩ := hok.edited
          rfl
      rw [hok.current hcurrent, Option.any_some, hid] at hrow
      exact absurd rfl (of_decide_eq_false hrow)
  | insert i =>
    obtain ⟨c, t, valid, hc, -⟩ := of_insert hstep
    exact (h.clients _ (mem_of_getElem? hc)).edited.elim
  | disableTwoFA i =>
    obtain ⟨c, hc, rfl | rfl⟩ := of_disableTwoFA hstep
    · exact h.disabled hc
    · have hset := @Counted.setClient s i h _ (.holds c) hc rfl rfl fun hok =>
        ⟨hok.seen, hok.current, trivial, by simp⟩
      exact ⟨fun cl hmem => (hset.clients cl hmem).keep rfl rfl le_rfl fun n hn => .inr ⟨n, hn, le_rfl⟩,
        hset.limited, hset.counted, hset.gone, hset.enabled⟩
  | enable i =>
    obtain ⟨c, hc, ⟨r, hrow, rfl⟩ | ⟨hother, rfl⟩⟩ := of_enable hstep
    · rw [fresh, hrow, Option.all_some, Bool.or_eq_true, decide_eq_true_eq, decide_eq_true_eq] at hfresh
      exact h.enable hc hrow hfresh
    · exact h.setClient hc rfl rfl fun hok =>
        ⟨hok.seen, fun heq => absurd (hok.current heq) hother, trivial, by simp⟩
  | createBackupCodes hashes =>
    cases hstep
    exact ⟨fun cl hmem => (h.clients cl hmem).keep rfl rfl le_rfl fun n hn => .inr ⟨n, hn, le_rfl⟩,
      h.limited, h.counted, h.gone, h.enabled⟩
  | wait d =>
    cases hstep
    have hwindow : ∀ n, (if s.expires d = true then some 0 else s.history.window) = some n →
        n = 0 ∨ s.history.window = some n := by
      intro n hn
      split_ifs at hn
      · exact .inl (Option.some.inj hn).symm
      · exact .inr hn
    have hgrows : Grows s { s with
        now := s.now + d
        history := { s.history with
          window := if s.expires d = true then some 0 else s.history.window } } :=
      fun n hn => (hwindow n hn).imp_right fun hn => ⟨n, hn, le_rfl⟩
    refine h.keep rfl rfl rfl hgrows (fun n hn => ?_) fun cl hmem =>
      (h.clients cl hmem).keep rfl rfl (Int.le_add_of_nonneg_right (Int.natCast_nonneg d)) hgrows
    rcases hwindow n hn with rfl | hn
    · exact Nat.zero_le _
    · exact h.limited n hn

/-! ## Runs -/

theorem codesOk_start (row : Option TwoFA) (codes : List TwoFABackupCode) (now : ℤ) :
    CodesOk (start row codes now) := by
  refine ⟨nodup_nil, by simp [start], fun bc hbc => ?_, by simp [start]⟩
  refine Nat.lt_succ_of_le ?_
  have hmem : bc.id ∈ codes.map (·.id) := mem_map_of_mem hbc
  generalize codes.map (·.id) = ids at hmem
  induction ids with
  | nil => exact (nomatch hmem)
  | cons id ids ih =>
    rcases mem_cons.1 hmem with heq | hmem
    · exact heq ▸ le_max_left _ _
    · exact (ih hmem).trans (le_max_right _ _)

theorem counted_start (row : Option TwoFA) (codes : List TwoFABackupCode) (now : ℤ) :
    Counted (start row codes now) := by
  have hwindow : ∀ n, (start row codes now).history.window = some n → n = 0 := by
    intro n hn
    change (if row.any (·.isLocked now) = true then none else some 0) = some n at hn
    split_ifs at hn
    exact (Option.some.inj hn).symm
  refine ⟨by simp [start], fun n hn => ?_, fun n hn => ?_, by simp [start], by simp [start]⟩
  all_goals
    rw [hwindow n hn]
    exact Nat.zero_le _

/-- **Backup codes are accepted once**, in every run, and the limit of wrong codes and the setting are
kept in every run whose steps lose nothing. -/
theorem second_factor_limits {env : Env} {row : Option TwoFA} {codes : List TwoFABackupCode} {now : ℤ}
    {l : List Action} {s : State} (h : Run.run (step env) (start row codes now) l = some s) :
    s.history.accepted.Nodup ∧
      (Run.Along (step env) (fun s a => fresh env s a = true) (start row codes now) l → Kept s) := by
  have hcodes : CodesOk s := Run.invariant (fun _ _ _ hinv hstep => hinv.step hstep)
    (codesOk_start row codes now) h
  refine ⟨hcodes.once, fun hfresh => ?_⟩
  have hcounted : Counted s := Run.invariant_along
    (fun _ _ _ hinv hok hstep => hinv.step hok hstep) (counted_start row codes now) hfresh h
  exact ⟨hcodes.once, hcounted.limited, hcounted.gone, hcounted.enabled⟩

/-- The passcode is the secret, and a code is its own hash. -/
def plainEnv : Env where
  toUpper := id
  validate passcode secret _ := passcode = secret
  validatePasswordAndHash password hash := password = hash

def setting (isEnabled : Bool) : TwoFA :=
  { id := 1, userId := 1, secret := "123456", isEnabled := isEnabled }

/-- A wrong code, a backup code and a right code, one after the other. -/
def threeAttempts : List Action :=
  [.getTwoFAByUserId false, .validateTOTPAndUpdateUsage 0 "000000", .save 0,
    .validateBackupCodeAndUpdateUsage 0 "AAAABBBB", .useBackupCode 0, .save 0,
    .getTwoFAByUserId false, .validateTOTPAndUpdateUsage 1 "123456", .save 1]

theorem second_factor_limits_threeAttempts :
    ∃ s, Run.run (step plainEnv)
        (start (some (setting true)) [{ id := 7, codeHash := "AAAA-BBBB" }] 0) threeAttempts = some s ∧
      s.history.accepted = [7] ∧ Kept s := by
  exact Option.exists_some_imp (by decide +kernel) fun s hs haccepted =>
    ⟨haccepted, (second_factor_limits hs).2 (by decide +kernel)⟩

/-- Six clients check wrong codes at a time; a save inserts a setting that was deleted; and one from
before `Enable` switches it off. -/
theorem second_factor_lost :
    (∃ s, Run.run (step plainEnv) (start (some (setting true)) [] 0)
      (List.replicate 6 (.getTwoFAByUserId false) ++
        (List.range 6).map (.validateTOTPAndUpdateUsage · "000000")) = some s ∧ ¬ Kept s) ∧
    (∃ s, Run.run (step plainEnv) (start (some (setting true)) [] 0)
      [.getTwoFAByUserId false, .getTwoFAByUserId true, .validateTOTPAndUpdateUsage 0 "123456",
        .disableTwoFA 1, .save 0, .insert 0] = some s ∧ ¬ Kept s) ∧
    ∃ s, Run.run (step plainEnv) (start (some (setting false)) [] 0)
      [.getTwoFAByUserId false, .getTwoFAByUserId false, .validateTOTPAndUpdateUsage 0 "123456",
        .enable 1, .save 0] = some s ∧ ¬ Kept s := by
  refine ⟨?_, ?_, ?_⟩
  · refine Option.exists_some_imp (p := fun s => s.history.window = some 6) (by decide +kernel)
      fun s _ hwindow h => ?_
    have hle := h.limited 6 hwindow
    revert hle
    decide
  · refine Option.exists_some_imp (p := fun s => s.history.deleted = true ∧ s.row.isSome)
      (by decide +kernel) fun s _ ⟨hdeleted, hsome⟩ h => ?_
    rw [h.gone hdeleted] at hsome
    cases hsome
  · refine Option.exists_some_imp (p := fun s => s.history.switchedOn = true ∧
      s.row.map (·.isEnabled) = some false) (by decide +kernel) fun s _ ⟨hswitched, hoff⟩ h => ?_
    obtain ⟨r, hr, hon⟩ := h.enabled hswitched
    rw [hr, Option.map_some, hon] at hoff
    cases hoff

end BeeApi.TwoFactor
