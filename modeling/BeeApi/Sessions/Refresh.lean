import BeeApi.Lib.Run
import BeeApi.Lib.Table
import BeeApi.Sessions.Session
import Mathlib.Data.List.GetD

/-!
# Refreshing a login session

`RefreshLoginSession` for one session, with `RotateUserSessionRefresh` and `RevokeUserSession` as it
calls them.  Every statement and every reading of the clock is a step of its own; what the session
cache, the tables of users and the cache of the rotated session answer is part of a step.  The secrets
that are made current form a chain (`refreshes_in_chain`).
-/

namespace BeeApi.Sessions

open List Option

/-- `common.GenerateHMACWithKey`, with the key of a purpose, and `uuid.Parse`. -/
structure RefreshKeys where
  hmac : String → String → String
  isUUID : String → Bool

def refreshReplayWindow : ℤ := 30

def hashRefreshSecret (keys : RefreshKeys) (secret : String) : String := keys.hmac "refresh" secret

def deriveNextRefreshSecret (keys : RefreshKeys) (sid currentSecret : String) : String :=
  keys.hmac "refresh-rotate" (sid ++ "." ++ currentSecret)

def refreshToken (sid secret : String) : String := sid ++ "." ++ secret

def splitRefreshToken (keys : RefreshKeys) (raw : String) : Option (String × String) :=
  let token := Strings.trimSpace raw
  let sid := token.toList.takeWhile (· ≠ '.')
  match token.toList.dropWhile (· ≠ '.') with
  | [] => none
  | _ :: secret =>
    if sid = [] ∨ secret = [] ∨ '.' ∈ secret then none
    else if keys.isUUID (String.ofList sid) then some (String.ofList sid, String.ofList secret)
    else none

/-! ## Calls -/

/-- Where a call of `RefreshLoginSession` stands. -/
inductive RefreshPhase
  /-- In `GetUserSessionCached`. -/
  | looking
  /-- At the check of the user. -/
  | checking
  /-- In `RevokeUserSession`, before its read. -/
  | securing (now : ℤ)
  /-- In `RevokeUserSession`, before its transaction. -/
  | securingTx (now : ℤ)
  /-- In `RotateUserSessionRefresh`, before a read, with the attempts that are left. -/
  | reading (now : ℤ) (attempts : ℕ)
  /-- It has found the current hash. -/
  | matched (now : ℤ) (attempts : ℕ) (session : UserSession)
  /-- It has exchanged the hash. -/
  | rotated (session : UserSession)
  /-- It has found the previous hash inside its grace window. -/
  | racing (session : UserSession)
  /-- It has found the previous hash after its grace window. -/
  | reused (now : ℤ) (session : UserSession)
  | ended (result : Except String String)

structure RefreshCall where
  secret : String
  phase : RefreshPhase

/-- The row of a session and the calls on it; `chain` are the secrets that have been current, in order,
and `winners` the secrets presented by the updates that exchanged the hash. -/
structure RefreshSystem where
  sid : String
  clock : ℤ
  row : Option UserSession
  calls : Table ℕ RefreshCall := ∅
  chain : List String
  winners : List String := []

inductive RefreshAction
  | tick (seconds : ℕ)
  | start (call : ℕ) (raw : String)
  /-- `GetUserSessionCached` returns the session, or an error. -/
  | lookUp (call : ℕ) (found : Bool)
  /-- The user is enabled, has not expired and has the auth version of the session. -/
  | checkUser (call : ℕ) (secure : Bool)
  | secureFirst (call : ℕ)
  | secureTx (call : ℕ)
  | rotateFirst (call : ℕ)
  | rotateUpdate (call : ℕ)
  | reuseUpdate (call : ℕ)
  /-- The cache has taken the session and a bundle is issued, or not. -/
  | issue (call : ℕ) (issued : Bool)
  /-- The database or the cache fails. -/
  | fail (call : ℕ) (error : String)
  /-- Another function revokes the session where it is active at the time it has read. -/
  | revoke (now : ℤ) (reason : String)
  /-- The user is deleted for good, with the sessions. -/
  | delete

namespace RefreshSystem

def goOn (s : RefreshSystem) (call : ℕ) (secret : String) (phase : RefreshPhase) : RefreshSystem :=
  { s with calls := s.calls.put call { secret, phase } }

def reject (s : RefreshSystem) (call : ℕ) (secret error : String) : RefreshSystem :=
  s.goOn call secret (.ended (.error error))

def errLoginSessionRevoked : String := "login session is revoked"

def errRefreshTokenInvalid : String := "refresh token is invalid"

def errRefreshRace : String := "refresh token was already rotated"

def step (keys : RefreshKeys) (s : RefreshSystem) : RefreshAction → Option RefreshSystem
  | .tick seconds => some { s with clock := s.clock + seconds }
  | .start call raw =>
    if (s.calls.get? call).isSome then none
    else
      match splitRefreshToken keys raw with
      | none => some (s.reject call "" errRefreshTokenInvalid)
      | some (sid, secret) => if sid = s.sid then some (s.goOn call secret .looking) else none
  | .lookUp call found =>
    match s.calls.get? call with
    | some ⟨secret, .looking⟩ =>
      if found then some (s.goOn call secret .checking)
      else if s.row.isNone then some (s.reject call secret errRefreshTokenInvalid)
      else some (s.reject call secret errLoginSessionRevoked)
    | _ => none
  | .checkUser call secure =>
    match s.calls.get? call with
    | some ⟨secret, .checking⟩ =>
      if !secure then some (s.goOn call secret (.securing s.clock))
      else if hashRefreshSecret keys secret = "" ∨
          hashRefreshSecret keys (deriveNextRefreshSecret keys s.sid secret) = "" ∨
          hashRefreshSecret keys secret =
            hashRefreshSecret keys (deriveNextRefreshSecret keys s.sid secret) then
        some (s.reject call secret errUserSessionInvalid)
      else some (s.goOn call secret (.reading s.clock 3))
    | _ => none
  | .secureFirst call =>
    match s.calls.get? call with
    | some ⟨secret, .securing now⟩ =>
      if s.row.any (·.activeAt now) then some (s.goOn call secret (.securingTx now))
      else some (s.reject call secret errLoginSessionRevoked)
    | _ => none
  | .secureTx call =>
    match s.calls.get? call with
    | some ⟨secret, .securingTx now⟩ =>
      some ({ s with row := revokeUpdate s.row now "user_security_changed" }.reject call secret
        errLoginSessionRevoked)
    | _ => none
  | .rotateFirst call =>
    match s.calls.get? call with
    | some ⟨secret, .reading now attempts⟩ =>
      match s.row with
      | none => some (s.reject call secret "record not found")
      | some session =>
        match classify session (hashRefreshSecret keys secret) now with
        | .inactive => some (s.reject call secret errUserSessionInactive)
        | .current => some (s.goOn call secret (.matched now attempts session))
        | .unknown => some (s.reject call secret errRefreshTokenInvalid)
        | .race => some (s.goOn call secret (.racing session))
        | .reuse => some (s.goOn call secret (.reused now session))
    | _ => none
  | .rotateUpdate call =>
    match s.calls.get? call with
    | some ⟨secret, .matched now attempts session⟩ =>
      let next := deriveNextRefreshSecret keys s.sid secret
      let presentedHash := hashRefreshSecret keys secret
      if rotateAffects s.row presentedHash now then
        some ({ s with
          row := Sessions.rotateUpdate s.row session presentedHash (hashRefreshSecret keys next)
            now refreshReplayWindow
          chain := s.chain ++ [next]
          winners := s.winners ++ [secret] }.goOn call secret
            (.rotated
              (rotateColumns session (hashRefreshSecret keys next) now refreshReplayWindow session)))
      else if attempts ≤ 1 then some (s.reject call secret errRefreshTokenInvalid)
      else some (s.goOn call secret (.reading now (attempts - 1)))
    | _ => none
  | .reuseUpdate call =>
    match s.calls.get? call with
    | some ⟨secret, .reused now _⟩ =>
      let error :=
        if s.row.any (·.activeAt now) then errLoginSessionRevoked else errUserSessionInactive
      some ({ s with row := revokeUpdate s.row now "refresh_reuse" }.reject call secret error)
    | _ => none
  | .issue call issued =>
    match s.calls.get? call with
    | some ⟨secret, .rotated _⟩ =>
      let next := deriveNextRefreshSecret keys s.sid secret
      if issued then some (s.goOn call secret (.ended (.ok (refreshToken s.sid next))))
      else some (s.reject call secret errUserSessionInactive)
    | some ⟨secret, .racing session⟩ =>
      let next := deriveNextRefreshSecret keys s.sid secret
      if hashRefreshSecret keys next ≠ session.refreshHash then
        some (s.reject call secret errRefreshRace)
      else if issued then some (s.goOn call secret (.ended (.ok (refreshToken s.sid next))))
      else some (s.reject call secret errUserSessionInactive)
    | _ => none
  | .fail call error =>
    match s.calls.get? call with
    | some ⟨_, .ended _⟩ => none
    | some ⟨secret, _⟩ => some (s.reject call secret error)
    | none => none
  | .revoke now reason => some { s with row := revokeUpdate s.row now reason }
  | .delete => some { s with row := none }

/-! ## The chain -/

section Chain

variable (keys : RefreshKeys)

/-- Every secret of the chain but the first one is derived from the one before it, and every one but
the last has been rotated by one update. -/
structure Linked (s : RefreshSystem) : Prop where
  nonempty : s.chain ≠ []
  tail : s.chain.tail = s.winners.map (deriveNextRefreshSecret keys s.sid)
  dropLast : s.chain.dropLast = s.winners

/-- The row holds the hashes of the last two secrets. -/
structure RowOk (s : RefreshSystem) (r : UserSession) : Prop where
  current : ∀ secret, s.chain.getLast? = some secret → r.refreshHash = hashRefreshSecret keys secret
  previous : r.previousRefreshHash = "" ∨ ∃ secret, s.winners.getLast? = some secret ∧
      r.previousRefreshHash = hashRefreshSecret keys secret
  status : r.status = .active ∧ r.revokedAt = 0 ∨ r.status = .revoked

def CallOk (s : RefreshSystem) (c : RefreshCall) : Prop :=
  match c.phase with
  | .matched _ _ session => session.refreshHash = hashRefreshSecret keys c.secret
  | .rotated _ => c.secret ∈ s.winners
  | .racing session => c.secret ∈ s.winners ∧
      session.refreshHash = hashRefreshSecret keys (deriveNextRefreshSecret keys s.sid c.secret)
  | .reused now _ => c.secret ∈ s.winners ∧ ∀ r, s.row = some r → now < r.expiresAt
  | .ended (.ok token) => c.secret ∈ s.winners ∧
      token = refreshToken s.sid (deriveNextRefreshSecret keys s.sid c.secret)
  | _ => True

structure Inv (s : RefreshSystem) : Prop where
  linked : Linked keys s
  row : ∀ r, s.row = some r → RowOk keys s r
  calls : ∀ call c, s.calls.get? call = some c → CallOk keys s c

structure InChain (s : RefreshSystem) (a : RefreshAction) (s' : RefreshSystem) : Prop where
  linked : Linked keys s'
  /-- A call keeps the secret that it presents. -/
  presented : ∀ call c, s.calls.get? call = some c →
    ∃ phase, s'.calls.get? call = some ⟨c.secret, phase⟩
  /-- The winner of an update presents the current secret, and its successor becomes current. -/
  winner : ∀ call secret phase, a = .rotateUpdate call → s.calls.get? call = some ⟨secret, phase⟩ →
    s'.row ≠ s.row → s.chain.getLast? = some secret ∧ s'.winners = s.winners ++ [secret] ∧
      s'.chain = s.chain ++ [deriveNextRefreshSecret keys s.sid secret]
  /-- No other update of a refresh rotates a secret. -/
  others : (∀ call, a ≠ .rotateUpdate call) → s'.chain = s.chain ∧ s'.winners = s.winners
  /-- A token is the successor of the secret that was presented, which has been rotated. -/
  token : ∀ call secret token, s'.calls.get? call = some ⟨secret, .ended (.ok token)⟩ →
    token = refreshToken s.sid (deriveNextRefreshSecret keys s.sid secret) ∧ secret ∈ s'.winners
  /-- A secret that is neither the current nor the previous one is rejected. -/
  unknown : ∀ call secret now attempts, a = .rotateFirst call →
    s.calls.get? call = some ⟨secret, .reading now attempts⟩ → s.chain.getLast? ≠ some secret →
    s.winners.getLast? ≠ some secret → ∃ error, s' = s.reject call secret error
  /-- The previous secret after its grace window is a reuse, which leaves the session revoked. -/
  reused : ∀ call secret now attempts session, a = .rotateFirst call →
    s.calls.get? call = some ⟨secret, .reading now attempts⟩ → s.row = some session →
    session.activeAt now = true → session.refreshHash ≠ hashRefreshSecret keys secret →
    session.previousRefreshHash = hashRefreshSecret keys secret →
    session.previousRefreshHash ≠ "" → session.previousValidUntil < now →
    s' = s.goOn call secret (.reused now session)
  revoked : ∀ call, a = .reuseUpdate call → ∀ r, s'.row = some r → r.status = .revoked
  /-- Who changes the session. -/
  changes : s'.row ≠ s.row →
    (∃ call secret phase, a = .rotateUpdate call ∧ s.calls.get? call = some ⟨secret, phase⟩ ∧
      s.chain.getLast? = some secret) ∨
    (∃ call secret phase, a = .reuseUpdate call ∧ s.calls.get? call = some ⟨secret, phase⟩ ∧
      secret ∈ s.winners) ∨
    (∃ call, a = .secureTx call) ∨ (∃ now reason, a = .revoke now reason) ∨ a = .delete

end Chain

section Rows

variable {keys : RefreshKeys} {s : RefreshSystem}

theorem revokeUpdate_eq_some_iff {row : Option UserSession} {now : ℤ} {reason : String}
    {r' : UserSession} :
    revokeUpdate row now reason = some r' ↔
      ∃ r, row = some r ∧ r' = if r.activeAt now then revokeColumns now reason r else r := by
  unfold revokeUpdate
  rw [map_eq_some_iff]
  exact exists_congr fun r => and_congr_right fun _ => eq_comm

variable {r : UserSession} {secret : String}

theorem RowOk.revoke (h : RowOk keys s r) (now : ℤ) (reason : String) :
    RowOk keys s (if r.activeAt now then revokeColumns now reason r else r) := by
  split_ifs
  · exact ⟨h.current, h.previous, .inr rfl⟩
  · exact h

theorem CallOk.mono {s' : RefreshSystem} (hsid : s'.sid = s.sid)
    (hwinners : ∀ secret ∈ s.winners, secret ∈ s'.winners)
    (hexpires : ∀ r', s'.row = some r' → ∃ r, s.row = some r ∧ r.expiresAt = r'.expiresAt)
    {c : RefreshCall} (h : CallOk keys s c) : CallOk keys s' c := by
  obtain ⟨secret, phase⟩ := c
  cases phase with
  | matched => exact h
  | rotated => exact hwinners secret h
  | racing session =>
    obtain ⟨hmem, hhash⟩ := h
    refine ⟨hwinners secret hmem, ?_⟩
    rwa [hsid]
  | reused now session =>
    obtain ⟨hmem, hlater⟩ := h
    refine ⟨hwinners secret hmem, fun r' hr' => ?_⟩
    obtain ⟨r, hr, hsame⟩ := hexpires r' hr'
    rw [← hsame]
    exact hlater r hr
  | ended result =>
    cases result with
    | error e => trivial
    | ok token =>
      obtain ⟨hmem, htoken⟩ := h
      refine ⟨hwinners secret hmem, ?_⟩
      rwa [hsid]
  | _ => trivial

theorem Inv.goOn (h : Inv keys s) (call : ℕ) {phase : RefreshPhase}
    (hok : CallOk keys s ⟨secret, phase⟩) : Inv keys (s.goOn call secret phase) := by
  have hsame : ∀ {c : RefreshCall}, CallOk keys s c → CallOk keys (s.goOn call secret phase) c :=
    fun hc => hc.mono rfl (fun _ hmem => hmem) fun r hr => ⟨r, hr, rfl⟩
  refine ⟨⟨h.linked.nonempty, h.linked.tail, h.linked.dropLast⟩, fun r hr => ?_, ?_⟩
  · obtain ⟨hcurrent, hprevious, hstatus⟩ := h.row r hr
    exact ⟨hcurrent, hprevious, hstatus⟩
  · exact Table.forall_get?_put (fun call' c hc => hsame (h.calls call' c hc)) (hsame hok)

theorem Inv.reject (h : Inv keys s) (call : ℕ) (secret error : String) :
    Inv keys (s.reject call secret error) :=
  h.goOn call trivial

/-- Time passes, and the row is left with its hashes and its expiry, or deleted. -/
theorem Inv.change (h : Inv keys s) (clock : ℤ) (row : Option UserSession)
    (hrow : ∀ r', row = some r' →
      ∃ r, s.row = some r ∧ r.expiresAt = r'.expiresAt ∧ RowOk keys s r') :
    Inv keys { s with clock, row } := by
  refine ⟨⟨h.linked.nonempty, h.linked.tail, h.linked.dropLast⟩, fun r' hr' => ?_, ?_⟩
  · obtain ⟨r, -, -, hcurrent, hprevious, hstatus⟩ := hrow r' hr'
    exact ⟨hcurrent, hprevious, hstatus⟩
  · intro call c hc
    refine CallOk.mono ?_ ?_ (fun r' hr' => ?_) (h.calls call c hc)
    · rfl
    · exact fun _ hmem => hmem
    · obtain ⟨r, hr, hexpires, -⟩ := hrow r' hr'
      exact ⟨r, hr, hexpires⟩

theorem Inv.revoke (h : Inv keys s) (now : ℤ) (reason : String) :
    Inv keys { s with row := revokeUpdate s.row now reason } := by
  refine h.change s.clock _ fun r' hr' => ?_
  obtain ⟨r, hr, rfl⟩ := revokeUpdate_eq_some_iff.1 hr'
  refine ⟨r, hr, ?_, (h.row r hr).revoke now reason⟩
  split_ifs <;> rfl

theorem Inv.current_of_hash (h : Inv keys s) (hinj : Function.Injective (keys.hmac "refresh"))
    (hr : s.row = some r) (hhash : r.refreshHash = hashRefreshSecret keys secret) :
    s.chain.getLast? = some secret := by
  obtain ⟨last, hlast⟩ : ∃ last, s.chain.getLast? = some last :=
    ⟨_, getLast?_eq_some_getLast h.linked.nonempty⟩
  have hsame := (h.row r hr).current last hlast
  rw [hhash] at hsame
  rw [hlast, hinj hsame]

theorem Inv.previous_of_hash (h : Inv keys s) (hinj : Function.Injective (keys.hmac "refresh"))
    (hr : s.row = some r) (hhash : r.previousRefreshHash = hashRefreshSecret keys secret)
    (hne : r.previousRefreshHash ≠ "") : s.winners.getLast? = some secret := by
  obtain hempty | ⟨last, hlast, hsame⟩ := (h.row r hr).previous
  · exact absurd hempty hne
  · rw [hhash] at hsame
    rw [hlast, hinj hsame]

theorem Linked.current_of_previous (h : Linked keys s)
    (hprevious : s.winners.getLast? = some secret) :
    s.chain.getLast? = some (deriveNextRefreshSecret keys s.sid secret) := by
  obtain ⟨first, rest, hchain⟩ := exists_cons_of_ne_nil h.nonempty
  have htail := h.tail
  rw [hchain, tail_cons] at htail
  have hwinners : s.winners ≠ [] := by
    intro hnil
    rw [hnil] at hprevious
    cases hprevious
  have hrest : rest ≠ [] := by
    rw [htail]
    simpa using hwinners
  rw [hchain, getLast?_cons_of_ne_nil hrest, htail, getLast?_map, hprevious]
  rfl

theorem Linked.extend (h : Linked keys s) (hcurrent : s.chain.getLast? = some secret)
    {s' : RefreshSystem} (hsid : s'.sid = s.sid)
    (hchain : s'.chain = s.chain ++ [deriveNextRefreshSecret keys s.sid secret])
    (hwinners : s'.winners = s.winners ++ [secret]) : Linked keys s' := by
  refine ⟨by rw [hchain]; simp, ?_, ?_⟩
  · obtain ⟨first, rest, hcons⟩ := exists_cons_of_ne_nil h.nonempty
    have htail := h.tail
    rw [hcons, tail_cons] at htail
    rw [hchain, hwinners, hcons, cons_append, tail_cons, htail, map_append, hsid]
    rfl
  · rw [hchain, hwinners, dropLast_concat, ← h.dropLast]
    have hlast := getLast?_eq_some_iff.1 hcurrent
    obtain ⟨front, hfront⟩ := hlast
    rw [hfront, dropLast_concat]

end Rows

/-! ## Statements of the rotation -/

section Rotation

variable {session : UserSession} {presentedHash : String} {now : ℤ}

theorem refreshHash_of_current (h : classify session presentedHash now = .current) :
    session.refreshHash = presentedHash := by
  unfold classify at h
  split_ifs at h with _ hcurrent
  exact hcurrent

theorem previous_of_race (h : classify session presentedHash now = .race) :
    session.previousRefreshHash = presentedHash ∧ session.previousRefreshHash ≠ "" := by
  unfold classify at h
  split_ifs at h with _ _ hunknown
  rw [not_or, not_not] at hunknown
  exact ⟨hunknown.2, hunknown.1⟩

theorem previous_of_reuse (h : classify session presentedHash now = .reuse) :
    session.previousRefreshHash = presentedHash ∧ session.previousRefreshHash ≠ "" ∧
      session.activeAt now = true := by
  unfold classify at h
  split_ifs at h with hactive _ hunknown
  rw [not_or, not_not] at hunknown
  exact ⟨hunknown.2, hunknown.1, by simpa using hactive⟩

theorem classify_of_reuse (hactive : session.activeAt now = true)
    (hcurrent : session.refreshHash ≠ presentedHash)
    (hprevious : session.previousRefreshHash = presentedHash)
    (hne : session.previousRefreshHash ≠ "") (hlate : session.previousValidUntil < now) :
    classify session presentedHash now = .reuse := by
  unfold classify
  rw [hactive, Bool.not_true, if_neg Bool.false_ne_true, if_neg hcurrent,
    if_neg (not_or.2 ⟨hne, not_not.2 hprevious⟩), if_neg (not_le.2 hlate)]

theorem expires_of_activeAt (h : session.activeAt now = true) : now < session.expiresAt := by
  unfold UserSession.activeAt at h
  rw [Bool.and_eq_true, decide_eq_true_eq] at h
  exact h.2

theorem rotateUpdate_eq_some_iff {row : Option UserSession} {read r' : UserSession}
    {nextHash : String} {graceSeconds : ℤ} :
    Sessions.rotateUpdate row read presentedHash nextHash now graceSeconds = some r' ↔
      ∃ r, row = some r ∧ r' = if r.activeAt now && r.refreshHash = presentedHash then
          rotateColumns read nextHash now graceSeconds r else r := by
  unfold Sessions.rotateUpdate
  rw [map_eq_some_iff]
  exact exists_congr fun r => and_congr_right fun _ => eq_comm

theorem rotateAffects_iff {row : Option UserSession} :
    rotateAffects row presentedHash now = true ↔
      ∃ r, row = some r ∧ r.activeAt now = true ∧ r.refreshHash = presentedHash := by
  unfold rotateAffects
  simp only [Option.any_eq_true, Bool.and_eq_true, decide_eq_true_eq]

end Rotation

/-! ## Steps -/

section Steps

variable {keys : RefreshKeys} {s s' : RefreshSystem}

variable {secret : String} {session : UserSession} {now : ℤ} {a : RefreshAction} {call : ℕ}

theorem Inv.rotate (h : Inv keys s) {r : UserSession} (hr : s.row = some r)
    (hactive : r.activeAt now = true) (hhash : r.refreshHash = hashRefreshSecret keys secret)
    (hread : session.refreshHash = hashRefreshSecret keys secret)
    (hcurrent : s.chain.getLast? = some secret) :
    Inv keys { s with
      row := Sessions.rotateUpdate s.row session (hashRefreshSecret keys secret)
        (hashRefreshSecret keys (deriveNextRefreshSecret keys s.sid secret)) now
        refreshReplayWindow
      chain := s.chain ++ [deriveNextRefreshSecret keys s.sid secret]
      winners := s.winners ++ [secret] } := by
  have hrotated : Sessions.rotateUpdate s.row session (hashRefreshSecret keys secret)
      (hashRefreshSecret keys (deriveNextRefreshSecret keys s.sid secret)) now
      refreshReplayWindow = some (rotateColumns session
        (hashRefreshSecret keys (deriveNextRefreshSecret keys s.sid secret)) now
        refreshReplayWindow r) := by
    rw [rotateUpdate_eq_some_iff]
    exact ⟨r, hr, by rw [hactive, decide_eq_true hhash]; rfl⟩
  rw [hrotated]
  refine ⟨h.linked.extend hcurrent rfl rfl rfl, fun r' hr' => ?_, fun call c hc => ?_⟩
  · cases hr'
    refine ⟨fun last hlast => ?_, .inr ⟨secret, getLast?_concat, hread⟩, (h.row r hr).status⟩
    rw [getLast?_concat] at hlast
    cases hlast
    rfl
  · refine CallOk.mono ?_ ?_ (fun r' hr' => ?_) (h.calls call c hc)
    · rfl
    · exact fun _ hmem => mem_append_left _ hmem
    · cases hr'
      exact ⟨r, hr, rfl⟩

/-- Reading the row finds the secret where the chain has it. -/
theorem CallOk.of_classify (h : Inv keys s) (hinj : Function.Injective (keys.hmac "refresh"))
    (hr : s.row = some session) (secret : String) (now : ℤ) :
    (classify session (hashRefreshSecret keys secret) now = .current →
        ∀ attempts, CallOk keys s ⟨secret, .matched now attempts session⟩) ∧
      (classify session (hashRefreshSecret keys secret) now = .race →
        CallOk keys s ⟨secret, .racing session⟩) ∧
      (classify session (hashRefreshSecret keys secret) now = .reuse →
        CallOk keys s ⟨secret, .reused now session⟩) := by
  refine ⟨fun hc _ => refreshHash_of_current hc, fun hc => ?_, fun hc => ?_⟩
  · obtain ⟨hhash, hne⟩ := previous_of_race hc
    have hprevious := h.previous_of_hash hinj hr hhash hne
    exact ⟨mem_of_getLast? hprevious,
      (h.row session hr).current _ (h.linked.current_of_previous hprevious)⟩
  · obtain ⟨hhash, hne, hactive⟩ := previous_of_reuse hc
    refine ⟨mem_of_getLast? (h.previous_of_hash hinj hr hhash hne), fun r hr' => ?_⟩
    cases hr.symm.trans hr'
    exact expires_of_activeAt hactive

theorem sid_of_step (hstep : RefreshSystem.step keys s a = some s') : s'.sid = s.sid := by
  cases a with
  | tick | revoke | delete =>
    cases hstep
    rfl
  | start | lookUp | checkUser | secureFirst | secureTx | rotateFirst | rotateUpdate | reuseUpdate |
    issue | fail =>
    dsimp only [RefreshSystem.step] at hstep
    repeat' split at hstep
    all_goals
      first
      | cases hstep
        rfl
      | cases hstep

theorem Inv.step (h : Inv keys s) (hinj : Function.Injective (keys.hmac "refresh"))
    (hstep : RefreshSystem.step keys s a = some s') : Inv keys s' := by
  cases a with
  | tick seconds =>
    cases hstep
    exact h.change _ _ fun r hr => ⟨r, hr, rfl, h.row r hr⟩
  | start call raw =>
    dsimp only [RefreshSystem.step] at hstep
    split_ifs at hstep
    split at hstep
    · cases hstep
      exact h.reject call _ _
    · split_ifs at hstep
      cases hstep
      exact h.goOn call trivial
  | lookUp call | checkUser call | secureFirst call =>
    dsimp only [RefreshSystem.step] at hstep
    split at hstep
    · split_ifs at hstep <;> cases hstep
      all_goals exact h.goOn call trivial
    · cases hstep
  | secureTx call | reuseUpdate call =>
    dsimp only [RefreshSystem.step] at hstep
    split at hstep
    · cases hstep
      exact (h.revoke _ _).reject call _ _
    · cases hstep
  | rotateFirst call =>
    dsimp only [RefreshSystem.step] at hstep
    split at hstep
    case h_2 => cases hstep
    case h_1 secret now attempts hcall =>
      split at hstep
      case h_1 =>
        cases hstep
        exact h.reject call _ _
      case h_2 session hrow =>
        obtain ⟨hcurrent, hrace, hreuse⟩ := CallOk.of_classify h hinj hrow secret now
        split at hstep <;> cases hstep
        case h_1 => exact h.reject call _ _
        case h_2 hc => exact h.goOn call (hcurrent hc attempts)
        case h_3 => exact h.reject call _ _
        case h_4 hc => exact h.goOn call (hrace hc)
        case h_5 hc => exact h.goOn call (hreuse hc)
  | rotateUpdate call =>
    dsimp only [RefreshSystem.step] at hstep
    split at hstep
    case h_2 => cases hstep
    case h_1 secret now attempts session hcall =>
      split_ifs at hstep with haffects hattempts <;> cases hstep
      · obtain ⟨r, hr, hactive, hhash⟩ := rotateAffects_iff.1 haffects
        have hread : session.refreshHash = hashRefreshSecret keys secret := h.calls call _ hcall
        refine (h.rotate hr hactive hhash hread (h.current_of_hash hinj hr hhash)).goOn call ?_
        exact mem_append_right _ (mem_singleton_self secret)
      · exact h.reject call _ _
      · exact h.goOn call trivial
  | issue call issued =>
    dsimp only [RefreshSystem.step] at hstep
    split at hstep
    case h_3 => cases hstep
    case h_1 secret session hcall =>
      split_ifs at hstep <;> cases hstep
      · exact h.goOn call ⟨h.calls call _ hcall, rfl⟩
      · exact h.reject call _ _
    case h_2 secret session hcall =>
      split_ifs at hstep <;> cases hstep
      · exact h.reject call _ _
      · exact h.goOn call ⟨(h.calls call _ hcall).1, rfl⟩
      · exact h.reject call _ _
  | fail call error =>
    dsimp only [RefreshSystem.step] at hstep
    split at hstep
    · cases hstep
    · cases hstep
      exact h.reject call _ _
    · cases hstep
  | revoke now reason =>
    cases hstep
    exact h.revoke now reason
  | delete =>
    cases hstep
    exact h.change s.clock none (by simp)

theorem rotateUpdate_cases (h : Inv keys s) (hinj : Function.Injective (keys.hmac "refresh"))
    (hstep : RefreshSystem.step keys s (.rotateUpdate call) = some s') :
    (∃ secret phase, s.calls.get? call = some ⟨secret, phase⟩ ∧
        s.chain.getLast? = some secret ∧ s'.winners = s.winners ++ [secret] ∧
        s'.chain = s.chain ++ [deriveNextRefreshSecret keys s.sid secret]) ∨
      s'.row = s.row := by
  dsimp only [RefreshSystem.step] at hstep
  split at hstep
  case h_2 => cases hstep
  case h_1 secret now attempts session hcall =>
    split_ifs at hstep with haffects hattempts <;> cases hstep
    · obtain ⟨r, hr, -, hhash⟩ := rotateAffects_iff.1 haffects
      exact .inl ⟨secret, _, hcall, h.current_of_hash hinj hr hhash, rfl, rfl⟩
    · exact .inr rfl
    · exact .inr rfl

theorem same_of_step (hstep : RefreshSystem.step keys s a = some s')
    (hrotate : ∀ call, a ≠ .rotateUpdate call) :
    s'.chain = s.chain ∧ s'.winners = s.winners ∧
      (s'.row = s.row ∨ (∃ call, a = .reuseUpdate call) ∨ (∃ call, a = .secureTx call) ∨
        (∃ now reason, a = .revoke now reason) ∨ a = .delete) := by
  cases a with
  | rotateUpdate call => exact absurd rfl (hrotate call)
  | tick | revoke | delete =>
    cases hstep
    simp
  | start | lookUp | checkUser | secureFirst | secureTx | rotateFirst | reuseUpdate | issue | fail =>
    dsimp only [RefreshSystem.step] at hstep
    repeat' split at hstep
    all_goals
      first
      | cases hstep
        simp [reject, goOn]
      | cases hstep

theorem revoked_of_reuseUpdate (h : Inv keys s)
    (hstep : RefreshSystem.step keys s (.reuseUpdate call) = some s') :
    (∃ secret phase, s.calls.get? call = some ⟨secret, phase⟩ ∧ secret ∈ s.winners) ∧
      ∀ r, s'.row = some r → r.status = .revoked := by
  dsimp only [RefreshSystem.step] at hstep
  split at hstep
  case h_2 => cases hstep
  case h_1 secret now session hcall =>
    obtain ⟨hmem, hlater⟩ : CallOk keys s ⟨secret, .reused now session⟩ := h.calls call _ hcall
    refine ⟨⟨secret, _, hcall, hmem⟩, fun r' hr' => ?_⟩
    cases hstep
    obtain ⟨r, hr, rfl⟩ := revokeUpdate_eq_some_iff.1 hr'
    split_ifs with hactive
    · rfl
    · -- It has not expired at the time of the call, so it has been revoked.
      obtain ⟨hstatus, hrevokedAt⟩ | hrevoked := (h.row r hr).status
      · refine absurd ?_ hactive
        simp [UserSession.activeAt, hstatus, hrevokedAt, hlater r hr]
      · exact hrevoked

theorem rotateFirst_spec {attempts : ℕ}
    (hcall : s.calls.get? call = some ⟨secret, .reading now attempts⟩) (hr : s.row = some session)
    (hstep : RefreshSystem.step keys s (.rotateFirst call) = some s') :
    some s' = match classify session (hashRefreshSecret keys secret) now with
      | .inactive => some (s.reject call secret errUserSessionInactive)
      | .current => some (s.goOn call secret (.matched now attempts session))
      | .unknown => some (s.reject call secret errRefreshTokenInvalid)
      | .race => some (s.goOn call secret (.racing session))
      | .reuse => some (s.goOn call secret (.reused now session)) := by
  rw [← hstep]
  simp only [RefreshSystem.step, hcall, hr]

theorem rejected_of_unknown (h : Inv keys s) (hinj : Function.Injective (keys.hmac "refresh"))
    {attempts : ℕ} (hcall : s.calls.get? call = some ⟨secret, .reading now attempts⟩)
    (hcurrent : s.chain.getLast? ≠ some secret) (hprevious : s.winners.getLast? ≠ some secret)
    (hstep : RefreshSystem.step keys s (.rotateFirst call) = some s') :
    ∃ error, s' = s.reject call secret error := by
  cases hr : s.row with
  | none =>
    simp only [RefreshSystem.step, hcall, hr] at hstep
    exact ⟨_, (some.inj hstep).symm⟩
  | some session =>
    have hspec := rotateFirst_spec hcall hr hstep
    cases hc : classify session (hashRefreshSecret keys secret) now with
    | inactive | unknown =>
      rw [hc] at hspec
      exact ⟨_, some.inj hspec⟩
    | current => exact absurd (h.current_of_hash hinj hr (refreshHash_of_current hc)) hcurrent
    | race =>
      obtain ⟨hhash, hne⟩ := previous_of_race hc
      exact absurd (h.previous_of_hash hinj hr hhash hne) hprevious
    | reuse =>
      obtain ⟨hhash, hne, -⟩ := previous_of_reuse hc
      exact absurd (h.previous_of_hash hinj hr hhash hne) hprevious

theorem presented_of_put {c₀ : RefreshCall} (hcall : s.calls.get? call = some c₀)
    (hsecret : c₀.secret = secret) {phase : RefreshPhase}
    (hcalls : s'.calls = s.calls.put call ⟨secret, phase⟩) {call' : ℕ} {c : RefreshCall}
    (hc : s.calls.get? call' = some c) :
    ∃ phase', s'.calls.get? call' = some ⟨c.secret, phase'⟩ := by
  rw [hcalls, Table.get?_put]
  split_ifs with hsame
  · obtain rfl := hsame
    cases hcall.symm.trans hc
    exact ⟨phase, by rw [hsecret]⟩
  · exact ⟨c.phase, hc⟩

theorem presented_of_step (hstep : RefreshSystem.step keys s a = some s') {c : RefreshCall}
    (hc : s.calls.get? call = some c) : ∃ phase, s'.calls.get? call = some ⟨c.secret, phase⟩ := by
  cases a with
  | tick | revoke | delete =>
    cases hstep
    exact ⟨c.phase, hc⟩
  | start call' raw =>
    dsimp only [RefreshSystem.step] at hstep
    split_ifs at hstep with hnew
    have hkept : ∀ c', (s.calls.put call' c').get? call = some c := by
      intro c'
      rw [Table.get?_put, if_neg]
      · exact hc
      · rintro rfl
        exact hnew (by rw [hc]; rfl)
    split at hstep
    · cases hstep
      exact ⟨c.phase, hkept _⟩
    · split_ifs at hstep
      cases hstep
      exact ⟨c.phase, hkept _⟩
  | secureTx | reuseUpdate | rotateUpdate | lookUp | checkUser | secureFirst | rotateFirst | issue |
    fail =>
    dsimp only [RefreshSystem.step] at hstep
    repeat' split at hstep
    all_goals
      first
      | cases hstep
        exact presented_of_put ‹_› rfl rfl hc
      | cases hstep

theorem inChain (h : Inv keys s) (hinj : Function.Injective (keys.hmac "refresh"))
    (hstep : RefreshSystem.step keys s a = some s') : InChain keys s a s' where
  linked := (h.step hinj hstep).linked
  presented := fun _ _ hc => presented_of_step hstep hc
  winner := by
    rintro call secret phase rfl hcall hrow
    obtain ⟨secret', phase', hcall', hwins⟩ | hsame := rotateUpdate_cases h hinj hstep
    · cases hcall.symm.trans hcall'
      exact hwins
    · exact absurd hsame hrow
  others := fun hrotate => ⟨(same_of_step hstep hrotate).1, (same_of_step hstep hrotate).2.1⟩
  token := by
    intro call secret token hcall
    obtain ⟨hmem, htoken⟩ : CallOk keys s' ⟨secret, .ended (.ok token)⟩ :=
      (h.step hinj hstep).calls call _ hcall
    rw [sid_of_step hstep] at htoken
    exact ⟨htoken, hmem⟩
  unknown := by
    rintro call secret now attempts rfl hcall hcurrent hprevious
    exact rejected_of_unknown h hinj hcall hcurrent hprevious hstep
  reused := by
    rintro call secret now attempts session rfl hcall hr hactive hcurrent hprevious hne hlate
    have hspec := rotateFirst_spec hcall hr hstep
    rw [classify_of_reuse hactive hcurrent hprevious hne hlate] at hspec
    exact some.inj hspec
  revoked := by
    rintro call rfl
    exact (revoked_of_reuseUpdate h hstep).2
  changes := by
    intro hrow
    by_cases hrotate : ∃ call, a = .rotateUpdate call
    · obtain ⟨call, rfl⟩ := hrotate
      obtain ⟨secret, phase, hcall, hcurrent, -⟩ | hsame := rotateUpdate_cases h hinj hstep
      · exact .inl ⟨call, secret, phase, rfl, hcall, hcurrent⟩
      · exact absurd hsame hrow
    · obtain ⟨-, -, hsame | ⟨call, rfl⟩ | hother⟩ := same_of_step hstep (not_exists.1 hrotate)
      · exact absurd hsame hrow
      · obtain ⟨⟨secret, phase, hcall, hmem⟩, -⟩ := revoked_of_reuseUpdate h hstep
        exact .inr (.inl ⟨call, secret, phase, rfl, hcall, hmem⟩)
      · exact .inr (.inr hother)

end Steps

/-! ## Runs -/

structure Created (keys : RefreshKeys) (s : RefreshSystem) (first : String) (r : UserSession) :
    Prop where
  row : s.row = some r
  refreshHash : r.refreshHash = hashRefreshSecret keys first
  previousRefreshHash : r.previousRefreshHash = ""
  status : r.status = .active
  revokedAt : r.revokedAt = 0
  chain : s.chain = [first]
  winners : s.winners = []
  calls : s.calls = ∅

theorem Created.inv {keys : RefreshKeys} {s : RefreshSystem} {first : String} {r : UserSession}
    (h : Created keys s first r) : Inv keys s := by
  refine ⟨⟨?_, ?_, ?_⟩, fun r' hr' => ⟨fun secret hsecret => ?_, .inl ?_, .inl ?_⟩,
    fun call c hc => ?_⟩
  · rw [h.chain]
    exact cons_ne_nil _ _
  · rw [h.chain, h.winners]
    rfl
  · rw [h.chain, h.winners]
    rfl
  · cases h.row.symm.trans hr'
    rw [h.chain] at hsecret
    cases hsecret
    exact h.refreshHash
  · cases h.row.symm.trans hr'
    exact h.previousRefreshHash
  · cases h.row.symm.trans hr'
    exact ⟨h.status, h.revokedAt⟩
  · rw [h.calls, Table.get?_empty] at hc
    cases hc

/-- In every run the secrets that have been current form one chain, and every call keeps to it. -/
theorem refreshes_in_chain {keys : RefreshKeys} (hinj : Function.Injective (keys.hmac "refresh"))
    {s : RefreshSystem} {first : String} {r : UserSession} (hs : Created keys s first r)
    (l : List RefreshAction) :
    Run.Along (step keys) (fun s a => ∀ s', step keys s a = some s' → InChain keys s a s') s l := by
  have hany : Run.Along (step keys) (fun _ _ => True) s l := Run.along_of_forall fun _ _ => trivial
  exact Run.along_of_invariant (I := Inv keys) (fun s a s' h _ hstep => h.step hinj hstep)
    (fun s a h _ s' hstep => inChain h hinj hstep) hs.inv hany

/-- The text of a UUID as `uuid.NewString` writes it. -/
def isUUIDText (text : String) : Bool :=
  text.map (fun c => if c.isDigit || ('a' ≤ c && c ≤ 'f') then 'x' else c) =
    "xxxxxxxx-xxxx-xxxx-xxxx-xxxxxxxxxxxx"

/-- Keys whose digests name the purpose and the data. -/
def plainKeys : RefreshKeys where
  hmac purpose data := purpose ++ ":" ++ data
  isUUID := isUUIDText

def sessionID : String := "4f9c2a70-6b1d-4e83-9a55-0c7e1d2b3f48"

def newSession : RefreshSystem where
  sid := sessionID
  clock := 100
  row := some { refreshHash := "refresh:first", expiresAt := 1000 }
  chain := ["first"]

theorem newSession_created :
    Created plainKeys newSession "first" { refreshHash := "refresh:first", expiresAt := 1000 } :=
  ⟨rfl, by decide +kernel, rfl, rfl, rfl, rfl, rfl, rfl⟩

theorem plainKeys_injective : Function.Injective (plainKeys.hmac "refresh") :=
  fun _ _ h => (String.append_right_inj ("refresh" ++ ":")).1 h

/-- Two clients present the first secret at once; after the grace window it is a reuse. -/
def raceAndReuse : List RefreshAction :=
  [.start 1 (refreshToken sessionID "first"), .start 2 (refreshToken sessionID "first"),
    .lookUp 1 true, .lookUp 2 true, .checkUser 1 true, .checkUser 2 true, .rotateFirst 1, .rotateFirst 2,
    .rotateUpdate 2, .rotateUpdate 1, .rotateFirst 1, .issue 1 true, .issue 2 true, .tick 31,
    .start 3 (refreshToken sessionID "first"), .lookUp 3 true, .checkUser 3 true, .rotateFirst 3,
    .reuseUpdate 3]

/-- Both get the successor, of one update, and the reuse revokes the session. -/
theorem refreshes_in_chain_raceAndReuse :
    (∃ s', Run.run (step plainKeys) newSession raceAndReuse = some s' ∧ s'.winners = ["first"] ∧
      s'.row.any (fun r => r.status = .revoked) = true) ∧
    Run.Along (step plainKeys)
      (fun s a => ∀ s', step plainKeys s a = some s' → InChain plainKeys s a s')
      newSession raceAndReuse := by
  exact ⟨by decide +kernel, refreshes_in_chain plainKeys_injective newSession_created raceAndReuse⟩

/-- The user has been disabled when a client presents a secret that is not in the chain. -/
def unknownOfDisabled : List RefreshAction :=
  [.start 1 (refreshToken sessionID "unknown"), .lookUp 1 true, .checkUser 1 false, .secureFirst 1,
    .secureTx 1]

theorem unknown_revokes :
    ∃ s', Run.run (step plainKeys) newSession unknownOfDisabled = some s' ∧
      "unknown" ∉ newSession.chain ∧ newSession.row.any (fun r => r.status = .active) = true ∧
      (s'.calls.get? 1).any (fun c => c.secret = "unknown") = true ∧
      s'.row.any (fun r => r.status = .revoked) = true := by
  decide +kernel

end RefreshSystem

end BeeApi.Sessions
