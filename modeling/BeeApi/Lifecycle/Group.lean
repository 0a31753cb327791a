import BeeApi.Lib.Table
import BeeApi.Lib.Run

/-!
# The group of background tasks

`pkg/backgroundtask/group.go`: producers, one of a name at a time, and finite tasks.  `Stop` cancels
the producers and waits; what still runs may submit more tasks, until nothing runs any more.
-/

namespace BeeApi.BackgroundTask

open List Table

inductive GroupError
  | nameEmpty
  | taskNil (name : String)
  | admissionClosed (name : String)
  | taskAlreadyStarted (name : String)

/-- `Group`.  The entry of a producer tells whether its context is cancelled. -/
structure Group where
  producerAdmissionOpen : Bool := true
  taskAdmissionOpen : Bool := true
  stopping : Bool := false
  producers : Table String Bool := ∅
  activeTasks : ℤ := 0

/-- `start` up to the start of its goroutine. -/
def start (g : Group) (name : String) (hasTask producer : Bool) : Except GroupError Group :=
  if name = "" then .error .nameEmpty
  else if !hasTask then .error (.taskNil name)
  else if producer && !g.producerAdmissionOpen then .error (.admissionClosed name)
  else if !producer && !g.taskAdmissionOpen then .error (.admissionClosed name)
  else if producer then
    if (g.producers.get? name).isSome then .error (.taskAlreadyStarted name)
    else .ok { g with producers := g.producers.put name false }
  else .ok { g with activeTasks := g.activeTasks + 1 }

def Group.idle (g : Group) : Bool := g.producers.rows.isEmpty && decide (g.activeTasks = 0)

def leave (g : Group) (name : String) (producer : Bool) : Group :=
  if producer then { g with producers := g.producers.erase name }
  else { g with activeTasks := g.activeTasks - 1 }

/-- The deferred function of a goroutine, which also recovers a panic. -/
def taskEnds (g : Group) (name : String) (producer : Bool) : Group :=
  let g := leave g name producer
  if g.stopping && g.idle then { g with taskAdmissionOpen := false } else g

/-- The first section of a round of `Stop`. -/
def beginStop (g : Group) : Group :=
  if g.producerAdmissionOpen then
    { g with
      stopping := true
      producerAdmissionOpen := false
      producers := g.producers.updateWhere (fun _ _ => true) fun _ => true }
  else g

/-- One round of `Stop`: the group, and whether it returns `nil`. -/
def stop (g : Group) : Group × Bool :=
  let g := beginStop g
  if g.idle then ({ g with taskAdmissionOpen := false }, true) else (g, false)

/-- The group and the names of its goroutines. -/
structure System where
  group : Group := {}
  producers : List String := []
  tasks : List String := []

inductive Label
  | start (name : String) (hasTask producer : Bool)
  | ends (name : String) (producer panicked : Bool)
  | stop

def System.step (s : System) : Label → Option System
  | .start name hasTask producer =>
    match BackgroundTask.start s.group name hasTask producer with
    | .ok group =>
      if producer then some { s with group, producers := s.producers ++ [name] }
      else some { s with group, tasks := s.tasks ++ [name] }
    | .error _ => some s
  | .ends name true _ =>
    if name ∈ s.producers then
      some { s with group := taskEnds s.group name true, producers := s.producers.erase name }
    else none
  | .ends name false _ =>
    if name ∈ s.tasks then
      some { s with group := taskEnds s.group name false, tasks := s.tasks.erase name }
    else none
  | .stop => some { s with group := (stop s.group).1 }

/-! ## The invariant -/

structure Inv (s : System) : Prop where
  producers : s.producers = s.group.producers.keys
  tasks : s.group.activeTasks = s.tasks.length
  admission : s.group.producerAdmissionOpen = !s.group.stopping
  cancelled : s.group.stopping = true → ∀ e ∈ s.group.producers.rows, e.2 = true
  closed : s.group.taskAdmissionOpen = false →
    s.group.stopping = true ∧ s.producers = [] ∧ s.tasks = []

variable {s s' : System} {g : Group} {name : String} {hasTask producer : Bool} {label : Label}

theorem Inv.idle_iff (hi : Inv s) : s.group.idle = true ↔ s.producers = [] ∧ s.tasks = [] := by
  simp [Group.idle, hi.producers, hi.tasks, Table.keys]

theorem start_eq_ok (h : start s.group name hasTask producer = .ok g) :
    (producer = true ∧ s.group.producerAdmissionOpen = true ∧ s.group.producers.get? name = none ∧
      g = { s.group with producers := s.group.producers.put name false }) ∨
    producer = false ∧ s.group.taskAdmissionOpen = true ∧
      g = { s.group with activeTasks := s.group.activeTasks + 1 } := by
  unfold start at h
  split_ifs at h with h₁ h₂ h₃ h₄ h₅ h₆
  · exact .inl ⟨h₅, by simpa [h₅] using h₃, by simpa using h₆, (Except.ok.inj h).symm⟩
  · exact .inr ⟨by simpa using h₅, by simpa [h₅] using h₄, (Except.ok.inj h).symm⟩

theorem Inv.not_closed (hi : Inv s) (hs : s.group.stopping = false) :
    s.group.taskAdmissionOpen ≠ false := by
  intro hc
  rw [(hi.closed hc).1] at hs
  cases hs

/-- Tasks are not admitted any more once nothing runs, in `Stop` or at the end of a goroutine. -/
theorem Inv.close (hi : Inv s) (hs : s.group.stopping = true) (hidle : s.group.idle = true) :
    Inv { s with group := { s.group with taskAdmissionOpen := false } } :=
  ⟨hi.producers, hi.tasks, hi.admission, hi.cancelled, fun _ => ⟨hs, hi.idle_iff.1 hidle⟩⟩

theorem Inv.taskEnds (hi : Inv { s with group := leave s.group name producer }) :
    Inv { s with group := taskEnds s.group name producer } := by
  unfold BackgroundTask.taskEnds
  dsimp only
  split_ifs with hidle
  · rw [Bool.and_eq_true] at hidle
    exact hi.close hidle.1 hidle.2
  · exact hi

theorem Inv.beginStop (hi : Inv s) :
    Inv { s with group := beginStop s.group } ∧ (beginStop s.group).stopping = true := by
  unfold BackgroundTask.beginStop
  split_ifs with hadmission
  · refine ⟨⟨?_, hi.tasks, rfl, fun _ e he => ?_, fun hc => ⟨rfl, (hi.closed hc).2⟩⟩, rfl⟩
    · simpa [Table.keys, updateWhere, Function.comp_def] using hi.producers
    · simp only [updateWhere, if_true, mem_map] at he
      obtain ⟨e', -, rfl⟩ := he
      rfl
  · have hs := hi.admission
    exact ⟨hi, by simpa [hadmission] using hs⟩

theorem Inv.step (hi : Inv s) (h : s.step label = some s') : Inv s' := by
  cases label with
  | start name hasTask producer =>
    simp only [System.step] at h
    split at h
    · rename_i g hg
      obtain ⟨rfl, hadmission, hnone, rfl⟩ | ⟨rfl, htask, rfl⟩ := start_eq_ok hg
      · obtain rfl := Option.some.inj h
        have hs : s.group.stopping = false := by simpa [hadmission] using hi.admission
        refine ⟨?_, hi.tasks, hi.admission, fun hs' => ?_, fun hc => absurd hc (hi.not_closed hs)⟩
        · simp [hi.producers, Table.keys, rows_put_of_none hnone]
        · cases hs.symm.trans hs'
      · obtain rfl := Option.some.inj h
        refine ⟨hi.producers, ?_, hi.admission, hi.cancelled, fun hc => ?_⟩
        · simp [hi.tasks]
        · cases htask.symm.trans hc
    · obtain rfl := Option.some.inj h
      exact hi
  | ends name producer panicked =>
    have hopen : s.producers ≠ [] ∨ s.tasks ≠ [] → s.group.taskAdmissionOpen ≠ false := by
      intro hne hc
      simp [(hi.closed hc).2] at hne
    cases producer with
    | true =>
      simp only [System.step] at h
      split_ifs at h with hmem
      obtain rfl := Option.some.inj h
      refine Inv.taskEnds (s := { s with producers := s.producers.erase name }) ⟨?_, hi.tasks,
        hi.admission, fun hs e he => ?_, fun hc => absurd hc (hopen (.inl (ne_nil_of_mem hmem)))⟩
      · simp only [leave, if_true, hi.producers, keys_erase]
      · exact hi.cancelled hs e (mem_of_mem_filter he)
    | false =>
      simp only [System.step] at h
      split_ifs at h with hmem
      obtain rfl := Option.some.inj h
      refine Inv.taskEnds (s := { s with tasks := s.tasks.erase name }) ⟨hi.producers, ?_,
        hi.admission, hi.cancelled, fun hc => absurd hc (hopen (.inr (ne_nil_of_mem hmem)))⟩
      have hpos := length_pos_of_mem hmem
      simp [leave, hi.tasks, length_erase_of_mem hmem]
      omega
  | stop =>
    obtain rfl := Option.some.inj h
    obtain ⟨hbegun, hs⟩ := hi.beginStop
    unfold stop
    dsimp only
    split_ifs with hidle
    · exact hbegun.close hs hidle
    · exact hbegun

theorem inv_of_run {l : List Label} (h : Run.run System.step {} l = some s) : Inv s :=
  Run.invariant (fun _ _ _ hi hs => hi.step hs) ⟨rfl, rfl, rfl, Bool.noConfusion, Bool.noConfusion⟩ h

/-! ## Stopping -/

theorem Inv.start_refused (hi : Inv s) (hc : s.group.taskAdmissionOpen = false) :
    BackgroundTask.start s.group name hasTask producer ≠ .ok g := by
  intro h
  obtain ⟨-, hadmission, -, -⟩ | ⟨-, htask, -⟩ := start_eq_ok h
  · rw [hi.admission, (hi.closed hc).1] at hadmission
    cases hadmission
  · cases htask.symm.trans hc

theorem Inv.stop_iff (hi : Inv s) :
    (stop s.group).2 = true ↔ s.producers = [] ∧ s.tasks = [] := by
  rw [← (hi.beginStop).1.idle_iff]
  unfold stop
  dsimp only
  split_ifs with hidle <;> simp [hidle]

theorem closed_of_stop (h : (stop g).2 = true) : (stop g).1.taskAdmissionOpen = false := by
  unfold stop at h ⊢
  dsimp only at h ⊢
  split_ifs at h ⊢
  rfl

theorem closed_of_run {l : List Label} (hi : Inv s) (hc : s.group.taskAdmissionOpen = false)
    (h : Run.run System.step s l = some s') : Inv s' ∧ s'.group.taskAdmissionOpen = false := by
  apply @Run.invariant _ _ _ (fun s => Inv s ∧ s.group.taskAdmissionOpen = false) ?_ _ _ _ ⟨hi, hc⟩ h
  intro s a s' ⟨hi, hc⟩ h
  refine ⟨hi.step h, ?_⟩
  cases a with
  | start name hasTask producer =>
    simp only [System.step] at h
    split at h
    · rename_i hg
      exact absurd hg (hi.start_refused hc)
    · obtain rfl := Option.some.inj h
      exact hc
  | ends name producer panicked =>
    cases producer <;> simp [System.step, (hi.closed hc).2] at h
  | stop =>
    obtain rfl := Option.some.inj h
    exact closed_of_stop (hi.stop_iff.2 (hi.closed hc).2)

/-- The producers have different names, and their contexts are cancelled once the group stops.  `Stop`
returns `nil` exactly when nothing runs; as long as something runs, finite tasks are admitted; after the
return nothing is started. -/
theorem stop_waits_for_all {l : List Label} (h : Run.run System.step {} l = some s) :
    s.producers.Nodup ∧
    (s.group.stopping = true →
      ∀ name ∈ s.producers, s.group.producers.get? name = some true) ∧
    ((stop s.group).2 = true ↔ s.producers = [] ∧ s.tasks = []) ∧
    ((stop s.group).2 = false → ∀ name, name ≠ "" → ∃ g, start s.group name true false = .ok g) ∧
    ((stop s.group).2 = true → ∀ l' s',
      Run.run System.step { s with group := (stop s.group).1 } l' = some s' →
      s'.producers = [] ∧ s'.tasks = [] ∧
        ∀ name hasTask producer g, start s'.group name hasTask producer ≠ .ok g) := by
  have hi := inv_of_run h
  refine ⟨?_, fun hs name hmem => ?_, hi.stop_iff, fun hstop name hname => ?_,
    fun hstop l' s' hrun => ?_⟩
  · rw [hi.producers]
    exact s.group.producers.nodup
  · rw [hi.producers, mem_keys_iff] at hmem
    obtain ⟨c, hget⟩ := hmem
    have hc := hi.cancelled hs _ ((get?_eq_some_iff _ _ _).1 hget)
    rw [hget, ← hc]
  · have htask : s.group.taskAdmissionOpen = true := by
      by_contra hc
      rw [hi.stop_iff.2 (hi.closed (by simpa using hc)).2] at hstop
      cases hstop
    exact ⟨_, by simp [start, hname, htask]; rfl⟩
  · have hstep : s.step .stop = some { s with group := (stop s.group).1 } := rfl
    have hstopped := hi.step hstep
    obtain ⟨hi', hc'⟩ := closed_of_run hstopped (closed_of_stop hstop) hrun
    obtain ⟨-, hproducers, htasks⟩ := hi'.closed hc'
    exact ⟨hproducers, htasks, fun _ _ _ _ => hi'.start_refused hc'⟩

/-- A producer submits a task while it is being stopped. -/
def derivedWork : List Label :=
  [.start "sweeper" true true, .stop, .start "audit-1" true false, .ends "sweeper" true true, .stop,
    .ends "audit-1" false false, .start "audit-2" true false]

theorem stop_waits_for_derivedWork :
    ∃ s, Run.run System.step {} derivedWork = some s ∧ (s.producers = [] ∧ s.tasks = []) ∧
      (stop s.group).2 = true := by
  exact Option.exists_some_imp (by decide) fun s hs hrunning =>
    ⟨hrunning, (stop_waits_for_all hs).2.2.1.2 hrunning⟩

end BeeApi.BackgroundTask
