import BeeApi.Lifecycle.Invariant

/-!
# Draining is safe

What the invariant gives to a shutdown: `active == 1` means that only the sentinel is left, so that
`CloseAdmissionAndWait` is a barrier.
-/

namespace BeeApi.Lifecycle

open Option Lifecycle.System

/-- Whether a step takes the ticket out of the live set. -/
def left (id : ℕ) (s : System) (_ : Label) (s' : System) : ℤ :=
  if s.coordinator.kindOf id ≠ none ∧ s'.coordinator.kindOf id = none then 1 else 0

/-- How often a ticket should have left: once if it was reserved and is not live any more. -/
def departures (s : System) (id : ℕ) : ℤ :=
  if 0 < id ∧ id ≤ s.coordinator.nextID ∧ s.coordinator.kindOf id = none then 1 else 0

variable {s s' : System} {id : ℕ} {l : List Label}

theorem kindOf_eq_none_of_lt (hi : Inv s) (h : s.coordinator.nextID < id) :
    s.coordinator.kindOf id = none := by
  rw [kindOf_eq_none_iff]
  cases hget : s.coordinator.tickets.get? id with
  | none => rfl
  | some state =>
    have := (hi.ids id state hget).2
    omega

theorem left_of_kindOf_eq {label : Label} (h : s'.coordinator.kindOf id = s.coordinator.kindOf id) :
    left id s label s' = 0 :=
  if_neg fun hc => hc.1 (h ▸ hc.2)

theorem departures_step {label : Label} (hi : Inv s) (h : s.step label = some s') (id : ℕ) :
    departures s' id = departures s id + left id s label s' := by
  cases (coordinator_step_spec hi h).2.tickets with
  | kept hnext hkind =>
    rw [left_of_kindOf_eq (hkind id), add_zero]
    unfold departures
    rw [hnext, hkind]
  | reserved kind _ _ _ hnext hkind =>
    by_cases hid : id = s.coordinator.nextID + 1
    · have hnone : s.coordinator.kindOf id = none := kindOf_eq_none_of_lt hi (by omega)
      have hsome : s'.coordinator.kindOf id = some kind := (hkind id).trans (if_pos hid)
      unfold departures left
      rw [hsome, if_neg (by simp), if_neg (by omega), if_neg (fun hc => hc.1 hnone), add_zero]
    · have hsame : s'.coordinator.kindOf id = s.coordinator.kindOf id :=
        (hkind id).trans (if_neg hid)
      have hle : id ≤ s.coordinator.nextID + 1 ↔ id ≤ s.coordinator.nextID := by omega
      rw [left_of_kindOf_eq hsame, add_zero]
      unfold departures
      simp only [hnext, hsame, hle]
  | left gone hlive hnext hkind =>
    by_cases hid : id = gone
    · subst hid
      have hnone : s'.coordinator.kindOf id = none := (hkind id).trans (if_pos rfl)
      obtain ⟨state, hstate⟩ := ne_none_iff_exists'.1 fun hn => hlive (kindOf_eq_none_iff.2 hn)
      have hids := hi.ids id state hstate
      unfold departures left
      rw [hnext, hnone, if_pos ⟨hids.1, hids.2, rfl⟩, if_neg (fun hc => hlive hc.2.2),
        if_pos ⟨hlive, rfl⟩, zero_add]
    · have hsame : s'.coordinator.kindOf id = s.coordinator.kindOf id :=
        (hkind id).trans (if_neg hid)
      rw [left_of_kindOf_eq hsame, add_zero]
      unfold departures
      rw [hnext, hsame]

theorem departures_of_run (h : Run.run step {} l = some s) (id : ℕ) :
    Run.total step (left id) {} l = departures s id := by
  have hstep : ∀ (s : System) (t : ℤ) (label : Label) (s' : System),
      (Inv s ∧ t = departures s id) → s.step label = some s' →
      Inv s' ∧ t + left id s label s' = departures s' id := by
    rintro s t label s' ⟨hi, rfl⟩ hs
    exact ⟨(coordinator_step_spec hi hs).1, (departures_step hi hs id).symm⟩
  have hzero : (0 : ℤ) = departures {} id := by
    unfold departures
    rw [if_neg]
    rintro ⟨hpos, hle, -⟩
    exact absurd hle (by show ¬id ≤ 0; omega)
  have hrun := (Run.total_invariant hstep ⟨Inv.empty, hzero⟩ h).2
  rwa [zero_add] at hrun

theorem root_of_run (hi : Inv s) (hd : s.coordinator.draining = true)
    (h : Run.run step s l = some s') (hroot : s'.coordinator.kindOf id = some .root) :
    s.coordinator.kindOf id = some .root := by
  have hstep : ∀ (s₁ : System) (label : Label) (s₂ : System),
      (Inv s₁ ∧ s₁.coordinator.draining = true ∧
        (s₁.coordinator.kindOf id = some .root → s.coordinator.kindOf id = some .root)) →
      s₁.step label = some s₂ →
      Inv s₂ ∧ s₂.coordinator.draining = true ∧
        (s₂.coordinator.kindOf id = some .root → s.coordinator.kindOf id = some .root) := by
    rintro s₁ label s₂ ⟨hi₁, hd₁, hold⟩ hs
    obtain ⟨hi₂, hchange⟩ := coordinator_step_spec hi₁ hs
    refine ⟨hi₂, (hchange.draining hd₁).1, fun hroot₂ => hold ?_⟩
    cases hchange.tickets with
    | kept _ hkind => rwa [hkind] at hroot₂
    | reserved kind _ hnew _ _ hkind =>
      rw [hkind] at hroot₂
      split_ifs at hroot₂
      · rw [hnew (some.inj hroot₂)] at hd₁
        cases hd₁
      · exact hroot₂
    | left gone _ _ hkind =>
      rw [hkind] at hroot₂
      split_ifs at hroot₂
      exact hroot₂
  exact (Run.invariant hstep ⟨hi, hd, fun hr => hr⟩ h).2.2 hroot

theorem sentinelID_of_run (hi : Inv s) (hd : s.coordinator.draining = true)
    (h : Run.run step s l = some s') :
    Inv s' ∧ s'.coordinator.draining = true ∧
      s'.coordinator.sentinelID = s.coordinator.sentinelID := by
  have hstep : ∀ (s₁ : System) (label : Label) (s₂ : System),
      (Inv s₁ ∧ s₁.coordinator.draining = true ∧
        s₁.coordinator.sentinelID = s.coordinator.sentinelID) → s₁.step label = some s₂ →
      Inv s₂ ∧ s₂.coordinator.draining = true ∧
        s₂.coordinator.sentinelID = s.coordinator.sentinelID := by
    rintro s₁ label s₂ ⟨hi₁, hd₁, hid⟩ hs
    obtain ⟨hi₂, hchange⟩ := coordinator_step_spec hi₁ hs
    obtain ⟨hd₂, hsame⟩ := hchange.draining hd₁
    exact ⟨hi₂, hd₂, hsame.trans hid⟩
  exact Run.invariant hstep ⟨hi, hd, rfl⟩ h

theorem closed_of_run (hi : Inv s) (hclosed : s.coordinator.closed = true)
    (h : Run.run step s l = some s') :
    s'.coordinator.tickets.rows = [] ∧ s'.coordinator.nextID = s.coordinator.nextID := by
  have hstep : ∀ (s₁ : System) (label : Label) (s₂ : System),
      (Inv s₁ ∧ s₁.coordinator.closed = true ∧
        s₁.coordinator.nextID = s.coordinator.nextID) → s₁.step label = some s₂ →
      Inv s₂ ∧ s₂.coordinator.closed = true ∧ s₂.coordinator.nextID = s.coordinator.nextID := by
    rintro s₁ label s₂ ⟨hi₁, hc₁, hnext₁⟩ hs
    obtain ⟨hi₂, hchange⟩ := coordinator_step_spec hi₁ hs
    refine ⟨hi₂, hchange.closed hc₁, ?_⟩
    cases hchange.tickets with
    | kept hnext | left _ _ hnext => exact hnext.trans hnext₁
    | reserved _ hopen _ _ _ _ =>
      rw [hopen] at hc₁
      cases hc₁
  obtain ⟨hi', hc', hnext'⟩ := Run.invariant hstep ⟨hi, hclosed, rfl⟩ h
  exact ⟨(hi'.closed hc').2, hnext'⟩

theorem sentinel_refused {c : Coordinator} {state : TicketState}
    (hstate : c.tickets.get? id = some state) (hkind : state.kind = .sentinel) :
    submit c (.own id) true = .error .sentinelTicket ∧
      ∀ fromRunner, release c (.own id) fromRunner = .error .sentinelTicket := by
  have hticket : ticketStateLocked c (.own id) = .ok (id, state) := by
    rw [ticketStateLocked, hstate]
  constructor
  · unfold submit
    rw [if_neg (by simp), if_neg (by simp), hticket]
    exact if_pos hkind
  · intro fromRunner
    unfold release
    rw [hticket]
    exact if_pos hkind

/-! ## A drain can finish -/

/-- The job of a ticket ends, or the holder of a ticket releases it. -/
def Label.leaves : Label → Bool
  | .jobEnds _ _ | .release _ => true
  | _ => false

theorem exists_other_ticket (hi : Inv s) {state : TicketState}
    (hstate : s.coordinator.tickets.get? id = some state) (hactive : s.coordinator.active ≠ 1) :
    ∃ k other, k ≠ id ∧ s.coordinator.tickets.get? k = some other := by
  have hlength := Table.length_erase hstate
  have hpos : 0 < (s.coordinator.tickets.erase id).rows.length := by
    have := hi.active
    omega
  obtain ⟨⟨k, other⟩, hmem⟩ := List.exists_mem_of_length_pos hpos
  have hget := (Table.get?_eq_some_iff _ _ _).2 hmem
  rw [Table.get?_erase] at hget
  split_ifs at hget with hk
  exact ⟨k, other, hk, hget⟩

theorem kindOf_of_release {c : Coordinator} {k : ℕ} {fromRunner : Bool} (hne : k ≠ id)
    (h : release s.coordinator (.own k) fromRunner = .ok c) :
    c.kindOf id = s.coordinator.kindOf id ∧
      c.tickets.rows.length < s.coordinator.tickets.rows.length := by
  obtain ⟨k', state, hticket, hstate, -, -, rfl⟩ := release_eq_ok_iff.1 h
  cases hticket
  have hlength := Table.length_erase hstate
  constructor
  · rw [Coordinator.kindOf, Table.get?_erase, if_neg hne.symm, Coordinator.kindOf]
  · dsimp only
    omega

/-- As long as the sentinel is not alone, another ticket can leave. -/
theorem exists_leaves (hi : Inv s) (hid : s.coordinator.kindOf id = some .sentinel)
    (hactive : s.coordinator.active ≠ 1) :
    ∃ a s', a.leaves = true ∧ s.step a = some s' ∧
      (Inv s' ∧ s'.coordinator.kindOf id = some .sentinel) ∧
      s'.coordinator.tickets.rows.length < s.coordinator.tickets.rows.length := by
  obtain ⟨state, hstate, hkind⟩ := map_eq_some_iff.1 hid
  obtain ⟨k, other, hk, hother⟩ := exists_other_ticket hi hstate hactive
  have hplain : other.kind ≠ .sentinel := fun h =>
    hk ((hi.sentinel k other hother h).1.trans (hi.sentinel id state hstate hkind).1.symm)
  have hrelease : ∀ fromRunner, (other.running = true → fromRunner = true) →
      ∃ c, release s.coordinator (.own k) fromRunner = .ok c := fun _ hr =>
    ⟨_, release_eq_ok_iff.2 ⟨k, other, rfl, hother, hplain, hr, rfl⟩⟩
  by_cases hr : other.running = true
  · -- a running ticket is left to its goroutine
    obtain ⟨runner, hrunner, hworking⟩ := hi.running k other hother hr
    obtain ⟨c, hc⟩ := hrelease true fun _ => rfl
    obtain ⟨hkept, hlt⟩ := kindOf_of_release hk hc
    have hcoordinator : (s.jobEnds k runner).coordinator = c := by
      rw [System.jobEnds, hc]
      cases runner.producer <;> rfl
    have hinv := (jobEnds_spec hi hrunner hworking).1
    refine ⟨.jobEnds k false, s.jobEnds k runner, rfl, ?_, ⟨hinv, ?_⟩, ?_⟩
    · simp [System.step, hrunner, hworking]
    · rw [hcoordinator, hkept, hid]
    · rwa [hcoordinator]
  · obtain ⟨c, hc⟩ := hrelease false fun h => absurd h hr
    obtain ⟨hkept, hlt⟩ := kindOf_of_release hk hc
    have hstep : s.step (.release (.own k)) = some { s with coordinator := c } := by
      rw [System.step, hc]
      rfl
    exact ⟨_, _, rfl, hstep, ⟨(release_spec hi hc).1, hkept.trans hid⟩, hlt⟩

/-- A drain is never stuck: while its sentinel is live, jobs that end and tickets that are released,
at most as many as there are tickets, let `CloseAdmissionAndWait` return `nil`. -/
theorem drain_can_finish {s : System} {l : List Label} {id : ℕ} (h : Run.run step {} l = some s)
    (hid : s.coordinator.kindOf id = some .sentinel) :
    ∃ l' s', Run.run step s l' = some s' ∧
      (∃ c, closeAdmissionAndWait s'.coordinator (.own id) = .ok (some c)) ∧
      l'.length ≤ s.coordinator.tickets.rows.length ∧ ∀ a ∈ l', a.leaves = true := by
  apply Run.exists_run_of_decreasing (I := fun s => Inv s ∧ s.coordinator.kindOf id = some .sentinel)
    (p := fun s => ∃ c, closeAdmissionAndWait s.coordinator (.own id) = .ok (some c))
    (q := fun a : Label => a.leaves = true) (fun s => s.coordinator.tickets.rows.length) ?_
    ⟨coordinator_inv_of_run h, hid⟩
  intro s₁ ⟨hi, hid₁⟩ hwaits
  apply exists_leaves hi hid₁
  intro hactive
  obtain ⟨state, hstate, hkind⟩ := map_eq_some_iff.1 hid₁
  have hsentinel := (hi.sentinel id state hstate hkind).1
  have hvalid : validSentinelLocked s₁.coordinator (.own id) = .ok id := by
    simp [validSentinelLocked, ← hsentinel, hstate, hkind]
  exact hwaits ⟨_, by rw [closeAdmissionAndWait, hvalid]; exact if_pos hactive⟩

/-- In every state reached the counter is the number of live tickets, and every other ticket has left
exactly once; after `BeginDrain` no root ticket appears; the sentinel can be neither submitted nor
released; and when `CloseAdmissionAndWait` returns `nil` nothing is live, no goroutine works, and no
ticket is reserved again. -/
theorem drain_safe {s : System} {l : List Label} (h : Run.run step {} l = some s) :
    s.coordinator.active = s.coordinator.tickets.rows.length ∧
    (∀ id, Run.total step (left id) {} l =
      if 0 < id ∧ id ≤ s.coordinator.nextID ∧ s.coordinator.kindOf id = none then 1 else 0) ∧
    (∀ c sentinel, beginDrain s.coordinator = .ok (c, sentinel) → ∀ l' s',
      Run.run step { s with coordinator := c } l' = some s' → ∀ id,
      s'.coordinator.kindOf id = some .root → s.coordinator.kindOf id = some .root) ∧
    (∀ id, s.coordinator.kindOf id = some .sentinel →
      (∀ l' s' id', Run.run step s l' = some s' →
        s'.coordinator.kindOf id' = some .sentinel → id' = id) ∧
      submit s.coordinator (.own id) true = .error .sentinelTicket ∧
      ∀ fromRunner, release s.coordinator (.own id) fromRunner = .error .sentinelTicket) ∧
    ∀ sentinel c, closeAdmissionAndWait s.coordinator sentinel = .ok (some c) →
      c.tickets.rows = [] ∧
      (∀ id runner, s.runners.get? id = some runner → runner.released = true) ∧
      ∀ l' s', Run.run step { s with coordinator := c } l' = some s' →
        s'.coordinator.tickets.rows = [] ∧ s'.coordinator.nextID = c.nextID := by
  have hi := coordinator_inv_of_run h
  refine ⟨hi.active, departures_of_run h, ?_, ?_, ?_⟩
  · intro c sentinel hdrain l' s' hrun id hroot
    obtain ⟨hr, hd⟩ := beginDrain_spec hi hdrain
    have hroot₁ := root_of_run (hr.inv hi) hd hrun hroot
    -- the one ticket that `BeginDrain` reserves is the sentinel
    unfold Coordinator.kindOf at hroot₁ ⊢
    rw [hr.get?] at hroot₁
    split_ifs at hroot₁
    · cases hroot₁
    · exact hroot₁
  · intro id hid
    obtain ⟨state, hstate, hkind⟩ := map_eq_some_iff.1 hid
    refine ⟨fun l' s' id' hrun hid' => ?_, sentinel_refused hstate hkind⟩
    obtain ⟨state', hstate', hkind'⟩ := map_eq_some_iff.1 hid'
    obtain ⟨hi', -, hsame⟩ := sentinelID_of_run hi (hi.draining_of_sentinel hstate hkind) hrun
    rw [(hi'.sentinel id' state' hstate' hkind').1, (hi.sentinel id state hstate hkind).1, hsame]
  · intro sentinel c hclose
    obtain ⟨hi', -, hempty, hclosed, hworking⟩ := close_spec hi hclose
    refine ⟨hempty, hworking, fun l' s' hrun => ?_⟩
    exact closed_of_run hi' hclosed hrun

/-- A root is submitted and a producer started, the drain begins, the job reserves a child and panics, the
child is released, the producer stops, and the close waits for all. -/
def shutdown : List Label :=
  [.reserveRoot "charge", .submit (.own 1) true, .startProducer "sweeper" true, .beginDrain,
    .reserveRoot "late", .reserveChild (.own 1) "flush", .closeAdmissionAndWait (.own 3),
    .jobEnds 1 true, .stopProducers, .jobEnds 2 false, .producerGone 2, .release (.own 4)]

/-- At the end of `shutdown` the close returns `nil`, and no ticket is reserved after it. -/
theorem drain_safe_of_shutdown :
    ∃ s c, Run.run step {} shutdown = some s ∧
      closeAdmissionAndWait s.coordinator (.own 3) = .ok (some c) ∧
      c.tickets.rows = [] ∧ c.nextID = 4 ∧
      ∀ l' s', Run.run step { s with coordinator := c } l' = some s' →
        s'.coordinator.tickets.rows = [] ∧ s'.coordinator.nextID = c.nextID := by
  have hval : (Run.run step {} shutdown).map (fun s =>
      (closeAdmissionAndWait s.coordinator (.own 3)).toOption.map fun c =>
        c.map Coordinator.nextID) = some (some (some 4)) := by decide
  obtain ⟨s, hs, hclose⟩ := map_eq_some_iff.1 hval
  obtain ⟨c?, hc?, hsome⟩ := map_eq_some_iff.1 hclose
  obtain ⟨c, rfl, hnext⟩ := map_eq_some_iff.1 hsome
  have hok : closeAdmissionAndWait s.coordinator (.own 3) = .ok (some c) := by
    cases hres : closeAdmissionAndWait s.coordinator (.own 3) with
    | error e =>
      rw [hres] at hc?
      cases hc?
    | ok c' =>
      rw [hres] at hc?
      rw [some.inj hc?]
  obtain ⟨hempty, -, hafter⟩ := (drain_safe hs).2.2.2.2 (.own 3) c hok
  exact ⟨s, c, hs, hok, hempty, hnext, hafter⟩

/-- In the middle of `shutdown` the close still has to wait for three tickets. -/
theorem shutdown_can_finish :
    ∃ s l' s', Run.run step {} (shutdown.take 7) = some s ∧ s.coordinator.active = 4 ∧
      Run.run step s l' = some s' ∧
      ∃ c, closeAdmissionAndWait s'.coordinator (.own 3) = .ok (some c) := by
  obtain ⟨s, hs, hactive, hid⟩ : ∃ s, Run.run step {} (shutdown.take 7) = some s ∧
      s.coordinator.active = 4 ∧ s.coordinator.kindOf 3 = some .sentinel := by decide
  obtain ⟨l', s', hl', hclose, -⟩ := drain_can_finish hs hid
  exact ⟨s, l', s', hs, hactive, hl', hclose⟩

end BeeApi.Lifecycle
