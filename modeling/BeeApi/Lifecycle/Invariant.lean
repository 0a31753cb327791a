import BeeApi.Lifecycle.Coordinator

/-!
# The invariant of the coordinator

The counter of the coordinator is the number of live tickets in every state that any interleaving of its
callers and goroutines reaches, and a goroutine that works has a live ticket.  `Change` says what a step
can do; `coordinator_step_spec` is the only place where the steps are taken apart.
-/

namespace BeeApi.Lifecycle

open Option Table

/-! ## Live tickets -/

/-- The kind of a live ticket; `none` for a ticket that is not live. -/
def Coordinator.kindOf (c : Coordinator) (id : ℕ) : Option TicketKind :=
  (c.tickets.get? id).map TicketState.kind

variable {c c' : Coordinator} {id : ℕ} {s : System} {state : TicketState} {runners : Table ℕ Runner}
  {name : String} {ticket sentinel : Ticket} {runner : Runner}

theorem kindOf_eq_none_iff : c.kindOf id = none ↔ c.tickets.get? id = none := map_eq_none_iff

structure Inv (s : System) : Prop where
  active : s.coordinator.active = s.coordinator.tickets.rows.length
  ids : ∀ id state, s.coordinator.tickets.get? id = some state → 0 < id ∧ id ≤ s.coordinator.nextID
  sentinel : ∀ id state, s.coordinator.tickets.get? id = some state → state.kind = .sentinel →
    id = s.coordinator.sentinelID ∧ state.running = false
  sentinelID : s.coordinator.sentinelID ≤ s.coordinator.nextID
  undrained : s.coordinator.draining = false → s.coordinator.sentinelID = 0
  closed : s.coordinator.closed = true →
    s.coordinator.draining = true ∧ s.coordinator.tickets.rows = []
  runners : ∀ id runner, s.runners.get? id = some runner → id ≤ s.coordinator.nextID ∧
    (runner.released = false →
      ∃ state, s.coordinator.tickets.get? id = some state ∧ state.running = true)
  running : ∀ id state, s.coordinator.tickets.get? id = some state → state.running = true →
    ∃ runner, s.runners.get? id = some runner ∧ runner.released = false

/-- A root ticket is reserved only before the drain, and nothing is reserved after the close. -/
inductive Tickets (c c' : Coordinator) : Prop
  | kept (hnext : c'.nextID = c.nextID) (hkind : ∀ id, c'.kindOf id = c.kindOf id)
  | reserved (kind : TicketKind) (hopen : c.closed = false)
      (hroot : kind = .root → c.draining = false)
      (hsentinel : kind = .sentinel → c.draining = false ∧ c'.sentinelID = c.nextID + 1)
      (hnext : c'.nextID = c.nextID + 1)
      (hkind : ∀ id, c'.kindOf id = if id = c.nextID + 1 then some kind else c.kindOf id)
  | left (gone : ℕ) (hlive : c.kindOf gone ≠ none) (hnext : c'.nextID = c.nextID)
      (hkind : ∀ id, c'.kindOf id = if id = gone then none else c.kindOf id)

/-- What a step does to the coordinator: its flags only ever close. -/
structure Change (c c' : Coordinator) : Prop where
  tickets : Tickets c c'
  draining : c.draining = true → c'.draining = true ∧ c'.sentinelID = c.sentinelID
  closed : c.closed = true → c'.closed = true

theorem Change.refl (c : Coordinator) : Change c c :=
  ⟨.kept rfl fun _ => rfl, fun h => ⟨h, rfl⟩, id⟩

theorem Inv.empty : Inv {} where
  active := rfl
  ids := nofun
  sentinel := nofun
  sentinelID := le_rfl
  undrained := fun _ => rfl
  closed := nofun
  runners := nofun
  running := nofun

theorem Inv.draining_of_sentinel (hi : Inv s) (hstate : s.coordinator.tickets.get? id = some state)
    (hkind : state.kind = .sentinel) : s.coordinator.draining = true := by
  by_contra hd
  have hid := (hi.sentinel id state hstate hkind).1
  have hpos := (hi.ids id state hstate).1
  rw [hi.undrained (by simpa using hd)] at hid
  omega

theorem Inv.get?_succ (hi : Inv s) :
    s.coordinator.tickets.get? (s.coordinator.nextID + 1) = none := by
  cases h : s.coordinator.tickets.get? (s.coordinator.nextID + 1) with
  | none => rfl
  | some state =>
    have := (hi.ids _ state h).2
    omega

/-! ## Reserving -/

/-- The coordinator `c'` and the goroutines `runners` after a ticket with this state was reserved in
`s`: a sentinel by `BeginDrain`, a running ticket by `StartProducer`. -/
structure Reserved (s : System) (state : TicketState) (c' : Coordinator)
    (runners : Table ℕ Runner) : Prop where
  opened : s.coordinator.closed = false
  root : state.kind = .root → s.coordinator.draining = false
  get? : ∀ id, c'.tickets.get? id =
    if id = s.coordinator.nextID + 1 then some state else s.coordinator.tickets.get? id
  length : c'.tickets.rows.length = s.coordinator.tickets.rows.length + 1
  active : c'.active = s.coordinator.active + 1
  nextID : c'.nextID = s.coordinator.nextID + 1
  closed : c'.closed = false
  drain : (state.kind ≠ .sentinel ∧ c'.draining = s.coordinator.draining ∧
      c'.sentinelID = s.coordinator.sentinelID) ∨
    (state.kind = .sentinel ∧ state.running = false ∧ s.coordinator.draining = false ∧
      c'.draining = true ∧ c'.sentinelID = s.coordinator.nextID + 1)
  runners : (state.running = false ∧ runners = s.runners) ∨
    (state.running = true ∧ ∃ runner, runner.released = false ∧
      runners = s.runners.put (s.coordinator.nextID + 1) runner)

theorem Reserved.change (hr : Reserved s state c' runners) : Change s.coordinator c' := by
  refine ⟨.reserved state.kind hr.opened hr.root ?_ hr.nextID fun id => ?_, fun h => ?_, fun h => ?_⟩
  · intro hk
    rcases hr.drain with ⟨hne, -⟩ | ⟨-, -, hd, -, hid⟩
    · exact absurd hk hne
    · exact ⟨hd, hid⟩
  · unfold Coordinator.kindOf
    rw [hr.get?]
    split_ifs <;> rfl
  · rcases hr.drain with ⟨-, hd, hid⟩ | ⟨-, -, hd, -⟩
    · exact ⟨hd.trans h, hid⟩
    · rw [hd] at h
      cases h
  · rw [hr.opened] at h
    cases h

theorem Reserved.inv (hi : Inv s) (hr : Reserved s state c' runners) :
    Inv { coordinator := c', runners } := by
  -- before the drain there is no sentinel
  have hno : s.coordinator.draining = false → ∀ id state',
      s.coordinator.tickets.get? id = some state' → state'.kind ≠ .sentinel := by
    intro hd id state' hget hk
    rw [hi.draining_of_sentinel hget hk] at hd
    cases hd
  have hrunner : ∀ id, id ≠ s.coordinator.nextID + 1 → runners.get? id = s.runners.get? id := by
    intro id hid
    rcases hr.runners with ⟨-, rfl⟩ | ⟨-, runner, -, rfl⟩
    · rfl
    · rw [get?_put, if_neg hid]
  constructor
  · dsimp only
    rw [hr.active, hr.length, hi.active]
    push_cast
    rfl
  · intro id state' hget
    dsimp only at hget ⊢
    rw [hr.get?] at hget
    rw [hr.nextID]
    split_ifs at hget with hid
    · omega
    · have := hi.ids id state' hget
      omega
  · intro id state' hget hk
    dsimp only at hget ⊢
    rw [hr.get?] at hget
    rcases hr.drain with ⟨hne, -, hsame⟩ | ⟨-, hrun, hd, -, hnew⟩
    · split_ifs at hget with hid
      · cases hget
        exact absurd hk hne
      · rw [hsame]
        exact hi.sentinel id state' hget hk
    · split_ifs at hget with hid
      · cases hget
        exact ⟨hid.trans hnew.symm, hrun⟩
      · exact absurd hk (hno hd id state' hget)
  · dsimp only
    rw [hr.nextID]
    rcases hr.drain with ⟨-, -, hsame⟩ | ⟨-, -, -, -, hnew⟩
    · rw [hsame]
      exact hi.sentinelID.trans (Nat.le_succ _)
    · exact hnew.le
  · intro hd
    dsimp only at hd ⊢
    rcases hr.drain with ⟨-, hsame, hid⟩ | ⟨-, -, -, htrue, -⟩
    · rw [hid]
      exact hi.undrained (hsame.symm.trans hd)
    · rw [htrue] at hd
      cases hd
  · intro hclosed
    rw [hr.closed] at hclosed
    cases hclosed
  · intro id runner hget
    dsimp only at hget ⊢
    rw [hr.nextID]
    by_cases hid : id = s.coordinator.nextID + 1
    · refine ⟨hid.le, fun _ => ⟨state, by rw [hr.get?, if_pos hid], ?_⟩⟩
      rcases hr.runners with ⟨-, rfl⟩ | ⟨hrun, -⟩
      · have := (hi.runners id runner hget).1
        omega
      · exact hrun
    · rw [hrunner id hid] at hget
      obtain ⟨hle, hworking⟩ := hi.runners id runner hget
      refine ⟨hle.trans (Nat.le_succ _), fun hr' => ?_⟩
      rw [hr.get?, if_neg hid]
      exact hworking hr'
  · intro id state' hget hrun
    dsimp only at hget ⊢
    rw [hr.get?] at hget
    split_ifs at hget with hid
    · cases hget
      rcases hr.runners with ⟨hfalse, -⟩ | ⟨-, runner, hnew, rfl⟩
      · rw [hfalse] at hrun
        cases hrun
      · exact ⟨runner, by rw [get?_put, if_pos hid], hnew⟩
    · rw [hrunner id hid]
      exact hi.running id state' hget hrun

theorem reserved_reserveTicketLocked (hi : Inv s) {kind : TicketKind} (hkind : kind ≠ .sentinel)
    (hopen : s.coordinator.closed = false) (hroot : kind = .root → s.coordinator.draining = false) :
    Reserved s { name, kind } (reserveTicketLocked s.coordinator name kind).1 s.runners where
  opened := hopen
  root := hroot
  get? := fun _ => get?_put _ _ _ _
  length := length_put_of_none hi.get?_succ _
  active := rfl
  nextID := rfl
  closed := hopen
  drain := .inl ⟨hkind, rfl, rfl⟩
  runners := .inl ⟨rfl, rfl⟩

theorem reserved_spec (hi : Inv s) {result : Except LifecycleError (Coordinator × ℕ)}
    (hresult : ∀ c id, result = .ok (c, id) → ∃ state, Reserved s state c s.runners) :
    Inv (s.reserved result) ∧ Change s.coordinator (s.reserved result).coordinator := by
  cases result with
  | error e => exact ⟨hi, .refl _⟩
  | ok result =>
    obtain ⟨c, id⟩ := result
    obtain ⟨state, hr⟩ := hresult c id rfl
    exact ⟨hr.inv hi, hr.change⟩

theorem reserveRoot_spec (hi : Inv s) (h : reserveRoot s.coordinator name = .ok (c, id)) :
    ∃ state, Reserved s state c s.runners := by
  unfold reserveRoot at h
  split_ifs at h with hname hadmission
  simp only [Bool.or_eq_true, not_or, Bool.not_eq_true] at hadmission
  cases h
  exact ⟨_, reserved_reserveTicketLocked hi (by decide) hadmission.2 fun _ => hadmission.1.2⟩

theorem reserveChild_spec (hi : Inv s) (h : reserveChild s.coordinator ticket name = .ok (c, id)) :
    ∃ state, Reserved s state c s.runners := by
  unfold reserveChild at h
  by_cases hticket : ticket = .nil ∨ ticket = .foreign
  · rw [if_pos hticket] at h
    cases h
  by_cases hname : name = ""
  · rw [if_neg hticket, if_pos hname] at h
    cases h
  rw [if_neg hticket, if_neg hname] at h
  obtain ⟨state, -, h₂⟩ := Except.bind_eq_ok_iff.1 h
  split_ifs at h₂ with hclosed
  cases h₂
  exact ⟨_, reserved_reserveTicketLocked hi (by decide) (by simpa using hclosed)
    nofun⟩

theorem reserveFromContext_spec (hi : Inv s) {parent : Ticket}
    (h : reserveFromContext s.coordinator parent name = .ok (c, id)) :
    ∃ state, Reserved s state c s.runners := by
  cases parent with
  | nil => exact reserveRoot_spec hi h
  | foreign => cases h
  | own parent => exact reserveChild_spec hi h

theorem beginDrain_spec (hi : Inv s) (h : beginDrain s.coordinator = .ok (c, id)) :
    Reserved s { name := "drain-sentinel", kind := .sentinel } c s.runners ∧ c.draining = true := by
  unfold beginDrain at h
  split_ifs at h with hdraining hclosed
  cases h
  have hd : s.coordinator.draining = false := by simpa using hdraining
  have hopen : s.coordinator.closed = false := by simpa using hclosed
  refine ⟨?_, rfl⟩
  exact
    { opened := hopen
      root := nofun
      get? := fun _ => get?_put _ _ _ _
      length := length_put_of_none hi.get?_succ _
      active := rfl
      nextID := rfl
      closed := hopen
      drain := .inr ⟨rfl, rfl, hd, rfl, rfl⟩
      runners := .inl ⟨rfl, rfl⟩ }

theorem startProducer_spec (hi : Inv s) {hasProducer : Bool}
    (h : startProducer s.coordinator name hasProducer = .ok (c, id))
    (hrunner : runner.released = false) :
    Reserved s { name, kind := .root, running := true } c (s.runners.put id runner) := by
  unfold startProducer at h
  split_ifs at h with h₁ h₂ h₃ hadmission h₄
  simp only [Bool.or_eq_true, not_or, Bool.not_eq_true] at hadmission
  cases h
  refine
    { opened := hadmission.2
      root := fun _ => hadmission.1.2
      get? := fun id => ?_
      length := (length_modify _ _ _).trans (length_put_of_none hi.get?_succ _)
      active := rfl
      nextID := rfl
      closed := hadmission.2
      drain := .inl ⟨TicketKind.noConfusion, rfl, rfl⟩
      runners := .inr ⟨rfl, runner, hrunner, rfl⟩ }
  show ((s.coordinator.tickets.put (s.coordinator.nextID + 1) _).modify _ _).get? id = _
  rw [get?_modify, get?_put]
  split_ifs <;> rfl

/-! ## Submitting and releasing -/

theorem ticketStateLocked_eq_ok (h : ticketStateLocked c ticket = .ok (id, state)) :
    ticket = .own id ∧ c.tickets.get? id = some state := by
  cases ticket with
  | nil => cases h
  | foreign => cases h
  | own id' =>
    rw [ticketStateLocked] at h
    split at h
    · rename_i _ hget
      cases h
      exact ⟨rfl, hget⟩
    · cases h

theorem submit_eq_ok {hasJob : Bool} (h : submit c ticket hasJob = .ok (c', id)) :
    ∃ state, c.tickets.get? id = some state ∧ state.kind ≠ .sentinel ∧ state.running = false ∧
      c' = { c with tickets := c.tickets.put id { state with running := true } } := by
  unfold submit at h
  split at h
  · cases h
  cases hasJob with
  | false => cases h
  | true =>
    obtain ⟨⟨id', state⟩, h₁, h₂⟩ := Except.bind_eq_ok_iff.1 h
    dsimp only at h₂
    split_ifs at h₂ with hkind hrunning
    cases h₂
    exact ⟨state, (ticketStateLocked_eq_ok h₁).2, hkind, by simpa using hrunning, rfl⟩

theorem release_eq_ok_iff {fromRunner : Bool} :
    release c ticket fromRunner = .ok c' ↔ ∃ id state, ticket = .own id ∧
      c.tickets.get? id = some state ∧ state.kind ≠ .sentinel ∧
      (state.running = true → fromRunner = true) ∧
      c' = { c with tickets := c.tickets.erase id, active := c.active - 1 } := by
  unfold release
  constructor
  · intro h
    obtain ⟨⟨id, state⟩, h₁, h₂⟩ := Except.bind_eq_ok_iff.1 h
    dsimp only at h₂
    split_ifs at h₂ with hkind hrunning
    obtain ⟨hticket, hget⟩ := ticketStateLocked_eq_ok h₁
    refine ⟨id, state, hticket, hget, hkind, fun hr => ?_, (Except.ok.inj h₂).symm⟩
    simpa [hr] using hrunning
  · rintro ⟨id, state, rfl, hget, hkind, hrunning, rfl⟩
    refine Except.bind_eq_ok_iff.2 ⟨(id, state), by rw [ticketStateLocked, hget], ?_⟩
    dsimp only
    rw [if_neg hkind, if_neg]
    rw [Bool.and_eq_true, Bool.not_eq_true', not_and]
    intro hr
    rw [hrunning hr]
    exact Bool.noConfusion

theorem submit_spec (hi : Inv s) {hasJob : Bool}
    (h : submit s.coordinator ticket hasJob = .ok (c, id)) :
    Inv { coordinator := c, runners := s.runners.put id {} } ∧ Change s.coordinator c := by
  obtain ⟨state, hstate, hkind, hrunning, rfl⟩ := submit_eq_ok h
  have hget : ∀ id', (s.coordinator.tickets.put id { state with running := true }).get? id' =
      if id' = id then some { state with running := true }
      else s.coordinator.tickets.get? id' := fun id' => get?_put _ _ _ _
  constructor
  · constructor
    · dsimp only
      rw [length_put_of_some hstate]
      exact hi.active
    · intro id' state' hstate'
      dsimp only at hstate' ⊢
      rw [hget] at hstate'
      split_ifs at hstate' with hid
      · exact hid ▸ hi.ids id state hstate
      · exact hi.ids id' state' hstate'
    · intro id' state' hstate' hk
      dsimp only at hstate' ⊢
      rw [hget] at hstate'
      split_ifs at hstate' with hid
      · cases hstate'
        exact absurd hk hkind
      · exact hi.sentinel id' state' hstate' hk
    · exact hi.sentinelID
    · exact hi.undrained
    · intro hclosed
      have hempty := (hi.closed hclosed).2
      have hmem := (get?_eq_some_iff _ _ _).1 hstate
      rw [hempty] at hmem
      cases hmem
    · intro id' runner hrunner
      dsimp only at hrunner ⊢
      rw [get?_put] at hrunner
      rw [hget]
      split_ifs at hrunner ⊢ with hid
      · exact ⟨hid ▸ (hi.ids id state hstate).2, fun _ => ⟨_, rfl, rfl⟩⟩
      · exact hi.runners id' runner hrunner
    · intro id' state' hstate' hrun
      dsimp only at hstate' ⊢
      rw [hget] at hstate'
      rw [get?_put]
      split_ifs at hstate' ⊢ with hid
      · exact ⟨_, rfl, rfl⟩
      · exact hi.running id' state' hstate' hrun
  · refine ⟨.kept rfl fun id' => ?_, fun h => ⟨h, rfl⟩, fun h => h⟩
    unfold Coordinator.kindOf
    rw [hget]
    split_ifs with hid
    · rw [hid, hstate]
      rfl
    · rfl

/-- A ticket leaves the live set together with the goroutine that works on it. -/
theorem left_spec (hi : Inv s) (hstate : s.coordinator.tickets.get? id = some state)
    (hother : ∀ id', id' ≠ id → runners.get? id' = s.runners.get? id')
    (hgone : ∀ runner, runners.get? id = some runner → runner.released = true) :
    Inv { coordinator := { s.coordinator with
            tickets := s.coordinator.tickets.erase id, active := s.coordinator.active - 1 }
          runners } ∧
      Change s.coordinator { s.coordinator with
        tickets := s.coordinator.tickets.erase id, active := s.coordinator.active - 1 } := by
  have hget : ∀ id', (s.coordinator.tickets.erase id).get? id' =
      if id' = id then none else s.coordinator.tickets.get? id' := fun id' => get?_erase _ _ _
  have hold : ∀ id' state', (s.coordinator.tickets.erase id).get? id' = some state' →
      id' ≠ id ∧ s.coordinator.tickets.get? id' = some state' := by
    intro id' state' hstate'
    rw [hget] at hstate'
    split_ifs at hstate' with hid
    exact ⟨hid, hstate'⟩
  constructor
  · constructor
    · dsimp only
      rw [hi.active, ← length_erase hstate]
      push_cast
      ring
    · exact fun id' state' h => hi.ids id' state' (hold id' state' h).2
    · exact fun id' state' h => hi.sentinel id' state' (hold id' state' h).2
    · exact hi.sentinelID
    · exact hi.undrained
    · intro hclosed
      refine ⟨(hi.closed hclosed).1, ?_⟩
      have hempty := (hi.closed hclosed).2
      have hmem := (get?_eq_some_iff _ _ _).1 hstate
      rw [hempty] at hmem
      cases hmem
    · intro id' runner hrunner
      dsimp only at hrunner ⊢
      by_cases hid : id' = id
      · subst hid
        refine ⟨(hi.ids id' state hstate).2, fun hr => ?_⟩
        rw [hgone runner hrunner] at hr
        cases hr
      · rw [hother id' hid] at hrunner
        rw [hget, if_neg hid]
        exact hi.runners id' runner hrunner
    · intro id' state' hstate' hrun
      obtain ⟨hid, hstate'⟩ := hold id' state' hstate'
      rw [hother id' hid]
      exact hi.running id' state' hstate' hrun
  · refine ⟨.left id ?_ rfl fun id' => ?_, fun h => ⟨h, rfl⟩, fun h => h⟩
    · unfold Coordinator.kindOf
      rw [hstate]
      exact some_ne_none _
    · unfold Coordinator.kindOf
      rw [hget]
      split_ifs <;> rfl

theorem release_spec (hi : Inv s) (h : release s.coordinator ticket false = .ok c) :
    Inv { s with coordinator := c } ∧ Change s.coordinator c := by
  obtain ⟨id, state, -, hstate, -, hrunning, rfl⟩ := release_eq_ok_iff.1 h
  refine left_spec hi hstate (fun _ _ => rfl) fun runner hrunner => ?_
  by_contra hr
  obtain ⟨state', hstate', hrun⟩ := (hi.runners id runner hrunner).2 (by simpa using hr)
  rw [hstate, some.injEq] at hstate'
  subst hstate'
  exact Bool.noConfusion (hrunning hrun)

theorem jobEnds_spec (hi : Inv s) (hrunner : s.runners.get? id = some runner)
    (hworking : runner.released = false) :
    Inv (s.jobEnds id runner) ∧ Change s.coordinator (s.jobEnds id runner).coordinator := by
  obtain ⟨state, hstate, hrun⟩ := (hi.runners id runner hrunner).2 hworking
  have hkind : state.kind ≠ .sentinel := by
    intro hk
    rw [(hi.sentinel id state hstate hk).2] at hrun
    cases hrun
  have hrelease : release s.coordinator (.own id) true = .ok { s.coordinator with
      tickets := s.coordinator.tickets.erase id, active := s.coordinator.active - 1 } :=
    release_eq_ok_iff.2 ⟨id, state, rfl, hstate, hkind, fun _ => rfl, rfl⟩
  unfold System.jobEnds
  rw [hrelease]
  cases hproducer : runner.producer with
  | none =>
    refine left_spec hi hstate (fun id' hid => ?_) fun runner' hrunner' => ?_
    · exact (get?_erase _ _ _).trans (if_neg hid)
    · have hnone := (get?_erase s.runners id id).trans (if_pos rfl)
      exact absurd (hrunner'.symm.trans hnone) (some_ne_none _)
  | some name =>
    refine left_spec hi hstate (fun id' hid => ?_) fun runner' hrunner' => ?_
    · exact (get?_put _ _ _ _).trans (if_neg hid)
    · have hput := (get?_put s.runners id id { runner with released := true }).trans
        (if_pos rfl)
      rw [hproducer] at hput
      rw [some.inj (hrunner'.symm.trans hput)]

/-! ## Closing -/

theorem validSentinelLocked_eq_ok (h : validSentinelLocked c ticket = .ok id) :
    ∃ state, c.tickets.get? id = some state ∧ state.kind = .sentinel := by
  cases ticket with
  | nil => cases h
  | foreign => cases h
  | own id' =>
    rw [validSentinelLocked] at h
    split_ifs at h with hid
    cases hget : c.tickets.get? id' with
    | none =>
      rw [hget] at h
      cases h
    | some state =>
      rw [hget] at h
      dsimp only at h
      split_ifs at h with hkind
      cases h
      exact ⟨state, hget, not_not.1 hkind⟩

theorem sentinel_only (hi : Inv s) (hvalid : validSentinelLocked s.coordinator ticket = .ok id)
    (hactive : s.coordinator.active = 1) :
    ∃ state, s.coordinator.tickets.rows = [(id, state)] ∧ state.kind = .sentinel := by
  obtain ⟨state, hstate, hkind⟩ := validSentinelLocked_eq_ok hvalid
  have hlength : s.coordinator.tickets.rows.length = 1 := by
    have := hi.active
    omega
  obtain ⟨row, hrow⟩ := List.length_eq_one_iff.1 hlength
  have hmem := (get?_eq_some_iff _ _ _).1 hstate
  rw [hrow, List.mem_singleton] at hmem
  exact ⟨state, by rw [hrow, hmem], hkind⟩

/-- `CloseAdmissionAndWait` returns `nil` only when the sentinel is the one live ticket, and then
none is left. -/
theorem closeAdmissionAndWait_eq_ok (hi : Inv s)
    (h : closeAdmissionAndWait s.coordinator sentinel = .ok (some c)) :
    ∃ id state, s.coordinator.tickets.rows = [(id, state)] ∧ state.kind = .sentinel ∧
      c = { s.coordinator with closed := true, tickets := c.tickets, active := 0 } ∧
      c.tickets.rows = [] := by
  unfold closeAdmissionAndWait at h
  obtain ⟨id, h₁, h₂⟩ := Except.bind_eq_ok_iff.1 h
  by_cases hactive : s.coordinator.active = 1
  swap
  · rw [if_neg hactive] at h₂
    cases h₂
  rw [if_pos hactive] at h₂
  obtain ⟨state, hrows, hkind⟩ := sentinel_only hi h₁ hactive
  cases Except.ok.inj h₂
  refine ⟨id, state, hrows, hkind, rfl, ?_⟩
  show s.coordinator.tickets.rows.filter (fun e => decide (e.1 ≠ id)) = []
  rw [hrows]
  simp

theorem close_spec (hi : Inv s) (h : closeAdmissionAndWait s.coordinator sentinel = .ok (some c)) :
    Inv { s with coordinator := c } ∧ Change s.coordinator c ∧
      c.tickets.rows = [] ∧ c.closed = true ∧ ∀ id runner, s.runners.get? id = some runner →
        runner.released = true := by
  obtain ⟨id, state, hrows, hkind, hframe, hempty⟩ := closeAdmissionAndWait_eq_ok hi h
  have hstate : s.coordinator.tickets.get? id = some state := by
    rw [get?_eq_some_iff, hrows]
    exact List.mem_cons_self
  have hnone : ∀ id', c.tickets.get? id' = none := by
    intro id'
    rw [get?_eq_none_iff, Table.keys, hempty]
    exact List.not_mem_nil
  have honly : ∀ id' state', s.coordinator.tickets.get? id' = some state' →
      id' = id ∧ state' = state := by
    intro id' state' hstate'
    have hmem := (get?_eq_some_iff _ _ _).1 hstate'
    rw [hrows, List.mem_singleton] at hmem
    exact Prod.mk.inj hmem
  have hworking : ∀ id' runner, s.runners.get? id' = some runner → runner.released = true := by
    intro id' runner hrunner
    by_contra hr
    obtain ⟨state', hstate', hrun⟩ := (hi.runners id' runner hrunner).2 (by simpa using hr)
    obtain ⟨rfl, rfl⟩ := honly id' state' hstate'
    rw [(hi.sentinel _ _ hstate' hkind).2] at hrun
    cases hrun
  have hdraining := hi.draining_of_sentinel hstate hkind
  have hnext : c.nextID = s.coordinator.nextID := by rw [hframe]
  have hsentinelID : c.sentinelID = s.coordinator.sentinelID := by rw [hframe]
  have hdraining' : c.draining = true := by
    rw [hframe]
    exact hdraining
  have hclosed : c.closed = true := by rw [hframe]
  refine ⟨?_, ?_, hempty, hclosed, hworking⟩
  · constructor
    · dsimp only
      rw [hempty, hframe]
      rfl
    · intro id' state' hstate'
      rw [show _ = _ from hnone id'] at hstate'
      cases hstate'
    · intro id' state' hstate'
      rw [show _ = _ from hnone id'] at hstate'
      cases hstate'
    · dsimp only
      rw [hnext, hsentinelID]
      exact hi.sentinelID
    · intro hd
      rw [show _ = _ from hdraining'] at hd
      cases hd
    · exact fun _ => ⟨hdraining', hempty⟩
    · intro id' runner hrunner
      rw [hnext]
      refine ⟨(hi.runners id' runner hrunner).1, fun hr => ?_⟩
      rw [hworking id' runner hrunner] at hr
      cases hr
    · intro id' state' hstate'
      rw [show _ = _ from hnone id'] at hstate'
      cases hstate'
  · refine ⟨.left id ?_ hnext fun id' => ?_, fun _ => ⟨hdraining', hsentinelID⟩, fun _ => hclosed⟩
    · unfold Coordinator.kindOf
      rw [hstate]
      exact some_ne_none _
    · rw [kindOf_eq_none_iff.2 (hnone id')]
      split_ifs with hid
      · rfl
      · symm
        rw [kindOf_eq_none_iff]
        cases hget : s.coordinator.tickets.get? id' with
        | none => rfl
        | some state' => exact absurd (honly id' state' hget).1 hid

/-! ## Every step -/

theorem Inv.of_tickets {s' : System} (hi : Inv s)
    (htickets : s'.coordinator.tickets = s.coordinator.tickets)
    (hactive : s'.coordinator.active = s.coordinator.active)
    (hnext : s'.coordinator.nextID = s.coordinator.nextID)
    (hsentinelID : s'.coordinator.sentinelID = s.coordinator.sentinelID)
    (hdraining : s'.coordinator.draining = s.coordinator.draining)
    (hclosed : s'.coordinator.closed = s.coordinator.closed)
    (hrunners : ∀ id runner, s'.runners.get? id = some runner → s.runners.get? id = some runner)
    (hworking : ∀ id runner, s.runners.get? id = some runner → runner.released = false →
      s'.runners.get? id = some runner) : Inv s' ∧ Change s.coordinator s'.coordinator := by
  constructor
  · constructor
    · rw [hactive, htickets]
      exact hi.active
    · rw [htickets, hnext]
      exact hi.ids
    · rw [htickets, hsentinelID]
      exact hi.sentinel
    · rw [hsentinelID, hnext]
      exact hi.sentinelID
    · rw [hdraining, hsentinelID]
      exact hi.undrained
    · rw [hclosed, hdraining, htickets]
      exact hi.closed
    · rw [hnext, htickets]
      exact fun id runner h => hi.runners id runner (hrunners id runner h)
    · rw [htickets]
      intro id state hstate hrun
      obtain ⟨runner, hrunner, hr⟩ := hi.running id state hstate hrun
      exact ⟨runner, hworking id runner hrunner hr, hr⟩
  · refine ⟨.kept hnext fun id => ?_, fun h => ⟨hdraining.trans h, hsentinelID⟩,
      fun h => hclosed.trans h⟩
    unfold Coordinator.kindOf
    rw [htickets]

theorem started_spec {result : Except LifecycleError (Coordinator × ℕ)} (hi : Inv s)
    (hresult : ∀ c id, result = .ok (c, id) →
      Inv { coordinator := c, runners := s.runners.put id runner } ∧ Change s.coordinator c) :
    Inv (s.started runner result) ∧ Change s.coordinator (s.started runner result).coordinator := by
  cases result with
  | error e => exact ⟨hi, .refl _⟩
  | ok result =>
    obtain ⟨c, id⟩ := result
    exact hresult c id rfl

theorem coordinator_step_spec {s' : System} {label : Label} (hi : Inv s)
    (h : s.step label = some s') : Inv s' ∧ Change s.coordinator s'.coordinator := by
  cases label with
  | reserveRoot name =>
    cases h
    exact reserved_spec hi fun _ _ h => reserveRoot_spec hi h
  | reserveFromContext parent name =>
    cases h
    exact reserved_spec hi fun _ _ h => reserveFromContext_spec hi h
  | reserveChild ticket name =>
    cases h
    exact reserved_spec hi fun _ _ h => reserveChild_spec hi h
  | submit ticket hasJob =>
    cases h
    exact started_spec hi fun _ _ h => submit_spec hi h
  | release ticket =>
    cases h
    cases hrelease : release s.coordinator ticket false with
    | error e => exact ⟨hi, .refl _⟩
    | ok c => exact release_spec hi hrelease
  | jobEnds id panicked =>
    rw [System.step] at h
    split at h
    · rename_i runner hrunner
      split_ifs at h with hworking
      cases h
      exact jobEnds_spec hi hrunner (by simpa using hworking)
    · cases h
  | producerGone id =>
    rw [System.step] at h
    split at h
    · rename_i name hrunner
      cases h
      refine hi.of_tickets rfl rfl rfl rfl rfl rfl (fun id' runner hold => ?_)
        fun id' runner hold hr => ?_
      · dsimp only at hold
        rw [get?_erase] at hold
        split_ifs at hold
        exact hold
      · dsimp only
        rw [get?_erase, if_neg]
        · exact hold
        · rintro rfl
          rw [hrunner, some.injEq] at hold
          rw [← hold] at hr
          cases hr
    · cases h
  | startProducer name hasProducer =>
    cases h
    refine started_spec hi fun c id h => ?_
    have hworking : Runner.released { producer := some name } = false := rfl
    have hr := startProducer_spec hi h hworking
    exact ⟨hr.inv hi, hr.change⟩
  | stopProducers =>
    cases h
    unfold stopProducers
    split_ifs
    · exact hi.of_tickets rfl rfl rfl rfl rfl rfl (fun _ _ h => h) fun _ _ h _ => h
    · exact ⟨hi, .refl _⟩
  | beginDrain =>
    cases h
    exact reserved_spec hi fun _ _ h => ⟨_, (beginDrain_spec hi h).1⟩
  | waitOnly sentinel =>
    cases h
    exact ⟨hi, .refl _⟩
  | closeAdmissionAndWait sentinel =>
    rw [System.step] at h
    split at h
    · rename_i c hclose
      cases h
      obtain ⟨hi', hchange, -⟩ := close_spec hi hclose
      exact ⟨hi', hchange⟩
    · cases h
      exact ⟨hi, .refl _⟩

theorem coordinator_inv_of_run {l : List Label} (h : Run.run System.step {} l = some s) : Inv s :=
  Run.invariant (fun _ _ _ hi hs => (coordinator_step_spec hi hs).1) Inv.empty h

end BeeApi.Lifecycle
