import Mathlib.Algebra.BigOperators.Ring.List
import BeeApi.Lib.Run
import BeeApi.ContentBackup.Budget

/-!
# The budget of the spool is exact

The files weigh what `used` says and what the writes that are not settled have on disk, and `reserved`
is the sum of their estimates (`BudgetOk`), as long as no step reaches one of the places where the
manager is not told what happens to the files (`BudgetFits`).
-/

namespace BeeApi.ContentBackup

open Transaction List Option Table Spool

/-! ## The bytes on disk -/

namespace Spool

/-- The sum of a weight over all files. -/
def linked (s : Spool) (w : ℕ → ℤ) : ℤ :=
  s.bodies.sum (fun _ i => w i) + s.parts.sum (fun _ i => w i) + (s.quarantine.map fun e => w e.2).sum

def diskBytes (s : Spool) : ℤ := s.linked s.size

def links (s : Spool) (i : ℕ) : ℤ := s.linked fun j => if j = i then 1 else 0

/-- An inode has one name at most, and none before it is created. -/
structure LinksOk (s : Spool) : Prop where
  once : ∀ i, s.links i ≤ 1
  fresh : ∀ i, s.inodes.length ≤ i → s.links i = 0

section Linked

variable {s : Spool} {w w' : ℕ → ℤ}

theorem linked_add (s : Spool) (w w' : ℕ → ℤ) :
    (s.linked fun i => w i + w' i) = s.linked w + s.linked w' := by
  unfold linked
  rw [sum_add, sum_add, sum_map_add]
  ring

theorem linked_mul (s : Spool) (c : ℤ) (w : ℕ → ℤ) : (s.linked fun i => c * w i) = c * s.linked w := by
  unfold linked
  unfold Table.sum
  rw [sum_map_mul_left, sum_map_mul_left, sum_map_mul_left]
  ring

variable {jobID : String} {i : ℕ}

theorem links_pos (h : s.parts.get? jobID = some i) : 1 ≤ s.links i := by
  have hbodies : 0 ≤ s.bodies.sum fun _ j => if j = i then (1 : ℤ) else 0 :=
    sum_nonneg fun _ _ _ => by split_ifs <;> decide
  have hparts : (if i = i then (1 : ℤ) else 0) ≤ s.parts.sum fun _ j => if j = i then 1 else 0 :=
    le_sum (g := fun _ j => if j = i then (1 : ℤ) else 0) h
      fun _ _ _ => by split_ifs <;> decide
  have hquarantine : 0 ≤ (s.quarantine.map fun e => if e.2 = i then (1 : ℤ) else 0).sum := by
    refine sum_nonneg fun x hx => ?_
    obtain ⟨e, -, rfl⟩ := mem_map.1 hx
    split_ifs <;> decide
  rw [if_pos rfl] at hparts
  unfold links linked
  linarith

theorem linked_removePart (s : Spool) (jobID : String) (w : ℕ → ℤ) :
    linked { s with parts := s.parts.erase jobID } w =
      s.linked w - (s.parts.get? jobID).elim 0 w := by
  unfold linked
  rw [sum_erase_eq]
  unfold Table.weight
  ring

theorem linked_removeBody (s : Spool) (jobID : String) (w : ℕ → ℤ) :
    linked { s with bodies := s.bodies.erase jobID } w =
      s.linked w - (s.bodies.get? jobID).elim 0 w := by
  unfold linked
  rw [sum_erase_eq]
  unfold Table.weight
  ring

theorem linked_createPart (h : s.parts.get? jobID = none) (w : ℕ → ℤ) :
    linked { s with
      inodes := s.inodes ++ [{}]
      parts := s.parts.put jobID s.inodes.length } w = s.linked w + w s.inodes.length := by
  unfold linked
  rw [sum_put_of_none h]
  ring

theorem linked_rename (h : s.parts.get? jobID = some i) (w : ℕ → ℤ) :
    linked { s with
      parts := s.parts.erase jobID
      bodies := s.bodies.put jobID i } w = s.linked w - (s.bodies.get? jobID).elim 0 w := by
  unfold linked
  rw [sum_put, sum_erase h]
  unfold Table.weight
  ring

theorem linked_quarantine (h : s.parts.get? jobID = some i) (w : ℕ → ℤ) :
    linked { s with
      parts := s.parts.erase jobID
      quarantine := s.quarantine ++ [(jobID, i)] } w = s.linked w := by
  unfold linked
  rw [sum_erase h, map_append, sum_append]
  simp only [map_cons, map_nil, sum_cons, sum_nil]
  ring

theorem LinksOk.of_le {s' : Spool} (h : s.LinksOk) (hlinks : ∀ i, s'.links i ≤ s.links i)
    (hnonneg : ∀ i, 0 ≤ s'.links i) (hinodes : s'.inodes.length = s.inodes.length) : s'.LinksOk :=
  ⟨fun i => (hlinks i).trans (h.once i), fun i hi =>
    le_antisymm ((hlinks i).trans (h.fresh i (hinodes ▸ hi)).le) (hnonneg i)⟩

theorem links_nonneg (s : Spool) (i : ℕ) : 0 ≤ s.links i := by
  have hweight : ∀ j : ℕ, 0 ≤ if j = i then (1 : ℤ) else 0 := fun j => by split_ifs <;> decide
  have hquarantine : 0 ≤ (s.quarantine.map fun e => if e.2 = i then (1 : ℤ) else 0).sum := by
    refine sum_nonneg fun x hx => ?_
    obtain ⟨e, -, rfl⟩ := mem_map.1 hx
    exact hweight e.2
  exact add_nonneg (add_nonneg (sum_nonneg fun _ j _ => hweight j)
    (sum_nonneg fun _ j _ => hweight j)) hquarantine

theorem elim_nonneg (o : Option ℕ) (i : ℕ) : 0 ≤ o.elim (0 : ℤ) fun j => if j = i then 1 else 0 := by
  cases o with
  | none => exact le_refl _
  | some j =>
    dsimp only [Option.elim]
    split_ifs <;> decide

end Linked

section Fill

variable (s : Spool) (i : ℕ) (content : Bytes)

@[simp] theorem fill_bodies : (s.fill i content).bodies = s.bodies := by
  unfold fill
  split <;> rfl

@[simp] theorem fill_parts : (s.fill i content).parts = s.parts := by
  unfold fill
  split <;> rfl

@[simp] theorem fill_quarantine : (s.fill i content).quarantine = s.quarantine := by
  unfold fill
  split <;> rfl

@[simp] theorem length_fill_inodes : (s.fill i content).inodes.length = s.inodes.length := by
  unfold fill
  split
  · exact length_set
  · rfl

theorem linked_fill (w : ℕ → ℤ) : (s.fill i content).linked w = s.linked w := by
  unfold linked
  rw [fill_bodies, fill_parts, fill_quarantine]

theorem fill_size_of_ne {j : ℕ} (h : j ≠ i) : (s.fill i content).size j = s.size j := by
  unfold fill size
  split
  · dsimp only
    rw [getElem?_set_ne h.symm]
  · rfl

theorem fill_size (h : s.inodes[i]? = some {}) : (s.fill i content).size i = content.length := by
  unfold fill size
  rw [h]
  rw [List.getElem?_set_self (List.getElem?_eq_some_iff.1 h).1, Option.elim_some]

variable {s} in
theorem LinksOk.fill (h : s.LinksOk) : (s.fill i content).LinksOk := by
  refine h.of_le (fun j => ?_) (links_nonneg _) (length_fill_inodes s i content)
  rw [links, linked_fill, ← links]

theorem diskBytes_fill_of_size (h : (s.fill i content).size i = s.size i) :
    (s.fill i content).diskBytes = s.diskBytes := by
  have hsize : (s.fill i content).size = s.size := by
    funext j
    by_cases hj : j = i
    · rw [hj, h]
    · exact fill_size_of_ne s i content hj
  rw [diskBytes, linked_fill, hsize, ← diskBytes]

theorem diskBytes_fill {jobID : String} (hi : s.LinksOk) (hpart : s.parts.get? jobID = some i)
    (hempty : s.inodes[i]? = some {}) :
    (s.fill i content).diskBytes = s.diskBytes + content.length := by
  have hzero : s.size i = 0 := by
    unfold size
    rw [hempty, elim_some]
    rfl
  have hsize : (s.fill i content).size =
      fun j => s.size j + content.length * if j = i then 1 else 0 := by
    funext j
    by_cases hj : j = i
    · rw [hj, fill_size s i content hempty, hzero, if_pos rfl]
      ring
    · rw [fill_size_of_ne s i content hj, if_neg hj]
      ring
  have hlinks : s.links i = 1 := le_antisymm (hi.once i) (links_pos hpart)
  rw [diskBytes, linked_fill, hsize, linked_add, linked_mul, ← links, hlinks, mul_one, diskBytes]

end Fill

theorem size_createPart (s : Spool) (parts : Table String ℕ) :
    size { s with inodes := s.inodes ++ [{}], parts } = s.size := by
  funext i
  unfold size
  obtain hlt | heq | hgt := lt_trichotomy i s.inodes.length
  · rw [getElem?_append_left hlt]
  · rw [heq, getElem?_append_right (le_refl _), Nat.sub_self, getElem?_eq_none (le_refl _)]
    rfl
  · rw [getElem?_append_right hgt.le, getElem?_eq_none hgt.le, getElem?_eq_none]
    dsimp only [length_singleton]
    omega

end Spool

/-! ## What a write has on disk -/

/-- The bytes of a write that the manager has not counted yet. -/
def WritePhase.onDisk : WritePhase → ℤ
  | .fsyncFile bytes | .closeFile bytes | .rename bytes | .fsyncDir bytes => bytes
  | .settle true size => max size 0
  | _ => 0

/-- The operation of a write does not reach one of the defects: the write finds no file with bytes, or
a file that is gone; it removes no part with bytes; it writes into its own part; it does not fail once
it has bytes on disk; and it replaces no file. -/
def WriteFits (files : Spool) (jobID : String) (label : SpoolLabel) (bytes : Except String Bytes) :
    WritePhase → Prop
  | .restat => label.outcome = .reported ∧ files.body? jobID = some []
  | .removePart => label.outcome = .rolledBack ∨ files.info (.part jobID) = 0
  | .gzip file =>
    match (files.exec label (.writePart file bytes)).2 with
    | .ok _ => files.parts.get? jobID = some file ∧ files.inodes[file]? = some {}
    | .error _ => (files.exec label (.writePart file bytes)).1.size file = files.size file
  | .fsyncFile bytes | .closeFile bytes => label.outcome = .reported ∨ bytes = 0
  | .rename bytes =>
    (label.outcome = .reported ∧ (files.parts.get? jobID).isSome = true ∨ bytes = 0) ∧
      (label.outcome = .rolledBack ∨ (files.parts.get? jobID).isSome = false ∨
        files.info (.body jobID) = 0)
  | _ => True

instance (files : Spool) (jobID : String) (label : SpoolLabel) (bytes : Except String Bytes)
    (phase : WritePhase) : Decidable (WriteFits files jobID label bytes phase) := by
  unfold WriteFits
  split
  all_goals first
    | infer_instance
    | (split <;> infer_instance)

section Steps

variable {s : Spool} {label : SpoolLabel}

theorem withOutcome_same {σ α : Type} (o : Outcome) (s : σ) (a : α) :
    (withOutcome o s (.ok (s, a))).1 = s := by
  cases o <;> rfl

theorem statBody_fst (s : Spool) (label : SpoolLabel) (jobID : String) :
    (s.exec label (.statBody jobID)).1 = s :=
  withOutcome_same label.outcome s _

theorem fsyncFile_fst (s : Spool) (label : SpoolLabel) : (s.exec label .fsyncFile).1 = s :=
  withOutcome_same label.outcome s ()

theorem closeFile_fst (s : Spool) (label : SpoolLabel) : (s.exec label .closeFile).1 = s :=
  withOutcome_same label.outcome s ()

theorem fsyncDir_fst (s : Spool) (label : SpoolLabel) : (s.exec label .fsyncDir).1 = s :=
  withOutcome_same label.outcome s ()

theorem linksOk_and_bytes {t : Spool} {o : Option ℕ} (h : s.LinksOk)
    (hinodes : t.inodes = s.inodes) (hlinked : ∀ w, t.linked w = s.linked w - o.elim 0 w) :
    t.LinksOk ∧ t.diskBytes = s.diskBytes - o.elim 0 s.size := by
  have hsize : t.size = s.size := by
    funext i
    rw [size, hinodes, ← size]
  refine ⟨h.of_le (fun i => ?_) (Spool.links_nonneg t) (by rw [hinodes]), ?_⟩
  · have hnonneg := Spool.elim_nonneg o i
    rw [Spool.links, hlinked]
    linarith [show s.linked (fun j => if j = i then 1 else 0) = s.links i from rfl]
  · rw [Spool.diskBytes, hlinked, hsize, ← Spool.diskBytes]

/-- A transaction that takes the entry of an empty file away, or moves one. -/
theorem withOutcome_bytes {α : Type} {t : Spool} {r : Option ℕ} (o : Outcome) (a : α)
    (h : s.LinksOk) (hinodes : t.inodes = s.inodes)
    (hlinked : ∀ w, t.linked w = s.linked w - r.elim 0 w)
    (hfits : o = .rolledBack ∨ r.elim 0 s.size = 0) :
    (withOutcome o s (.ok (t, a))).1.LinksOk ∧
      (withOutcome o s (.ok (t, a))).1.diskBytes = s.diskBytes := by
  have hmoved := linksOk_and_bytes h hinodes hlinked
  cases o with
  | rolledBack => exact ⟨h, rfl⟩
  | reported | unreported =>
    have hempty : r.elim 0 s.size = 0 := hfits.resolve_left (by decide)
    rw [hempty, sub_zero] at hmoved
    exact hmoved

theorem removePart_bytes (h : s.LinksOk) (jobID : String)
    (hfits : label.outcome = .rolledBack ∨ s.info (.part jobID) = 0) :
    (s.exec label (.removePart jobID)).1.LinksOk ∧
      (s.exec label (.removePart jobID)).1.diskBytes = s.diskBytes :=
  withOutcome_bytes label.outcome () h rfl (Spool.linked_removePart s jobID) hfits

theorem removeBody_bytes (label : SpoolLabel) (h : s.LinksOk) (jobID : String)
    (hfits : label.outcome = .rolledBack ∨ s.info (.body jobID) = 0) :
    (s.exec label (.removeBody jobID)).1.LinksOk ∧
      (s.exec label (.removeBody jobID)).1.diskBytes = s.diskBytes :=
  withOutcome_bytes label.outcome _ h rfl (Spool.linked_removeBody s jobID) hfits

theorem createPart_bytes (label : SpoolLabel) (h : s.LinksOk) (jobID : String) :
    (s.exec label (.createPart jobID)).1.LinksOk ∧
      (s.exec label (.createPart jobID)).1.diskBytes = s.diskBytes := by
  dsimp only [exec]
  split_ifs with hsome
  · exact ⟨h, rfl⟩
  have hnone : s.parts.get? jobID = none := by
    cases hget : s.parts.get? jobID with
    | none => rfl
    | some i => exact absurd (by rw [hget]; rfl) hsome
  have hcreated : Spool.LinksOk { s with
        inodes := s.inodes ++ [{}]
        parts := s.parts.put jobID s.inodes.length } ∧
      Spool.diskBytes { s with
        inodes := s.inodes ++ [{}]
        parts := s.parts.put jobID s.inodes.length } = s.diskBytes := by
    have hlinks : ∀ i, Spool.links { s with
        inodes := s.inodes ++ [{}]
        parts := s.parts.put jobID s.inodes.length } i =
        s.links i + if s.inodes.length = i then 1 else 0 :=
      fun i => Spool.linked_createPart hnone _
    refine ⟨⟨fun i => ?_, fun i hi => ?_⟩, ?_⟩
    · rw [hlinks]
      split_ifs with hlast
      · rw [← hlast, h.fresh _ (le_refl _), zero_add]
      · rw [add_zero]
        exact h.once i
    · dsimp only at hi
      rw [length_append, length_singleton] at hi
      rw [hlinks, h.fresh i (by omega), if_neg (by omega), add_zero]
    · have hnew : s.size s.inodes.length = 0 := by
        rw [size, getElem?_eq_none (le_refl _), elim_none]
      rw [Spool.diskBytes, Spool.size_createPart, Spool.linked_createPart hnone, hnew, add_zero,
        ← Spool.diskBytes]
  cases label.outcome with
  | rolledBack => exact ⟨h, rfl⟩
  | reported | unreported => exact hcreated

theorem rename_bytes (h : s.LinksOk) (jobID : String) (hfits : label.outcome = .rolledBack ∨
      (s.parts.get? jobID).isSome = false ∨ s.info (.body jobID) = 0) :
    (s.exec label (.rename jobID)).1.LinksOk ∧
      (s.exec label (.rename jobID)).1.diskBytes = s.diskBytes := by
  dsimp only [exec]
  cases hpart : s.parts.get? jobID with
  | none => exact ⟨h, rfl⟩
  | some i =>
    refine withOutcome_bytes label.outcome () h rfl (Spool.linked_rename hpart)
      (hfits.imp_right fun hempty => hempty.resolve_left ?_)
    rw [hpart, isSome_some]
    exact Bool.noConfusion

theorem quarantine_bytes (label : SpoolLabel) (h : s.LinksOk) (jobID : String) :
    (s.exec label (.renameToQuarantine jobID)).1.LinksOk ∧
      (s.exec label (.renameToQuarantine jobID)).1.diskBytes = s.diskBytes := by
  dsimp only [exec]
  cases hpart : s.parts.get? jobID with
  | none => exact ⟨h, rfl⟩
  | some i =>
    refine withOutcome_bytes (r := none) label.outcome () h rfl (fun w => ?_) (.inr rfl)
    rw [Spool.linked_quarantine hpart, elim_none, sub_zero]

theorem writePart_bytes (h : s.LinksOk) {jobID : String} {file : ℕ} {bytes : Except String Bytes}
    (hfits : WriteFits s jobID label bytes (.gzip file)) :
    (s.exec label (.writePart file bytes)).1.LinksOk ∧
      (s.exec label (.writePart file bytes)).1.diskBytes = s.diskBytes +
          match (s.exec label (.writePart file bytes)).2 with
          | .ok written => (written.length : ℤ)
          | .error _ => 0 := by
  dsimp only [WriteFits, exec] at hfits ⊢
  generalize label.outcome = o at hfits ⊢
  cases bytes with
  | error e =>
    exact ⟨h.fill file _, by rw [Spool.diskBytes_fill_of_size s file _ hfits, add_zero]⟩
  | ok content =>
    cases o with
    | reported => exact ⟨h.fill file _, Spool.diskBytes_fill s file content h hfits.1 hfits.2⟩
    | rolledBack | unreported =>
      exact ⟨h.fill file _, by rw [Spool.diskBytes_fill_of_size s file _ hfits, add_zero]⟩

theorem writeStep_bytes (h : s.LinksOk) {jobID : String} {bytes : Except String Bytes}
    {phase : WritePhase} (hfits : WriteFits s jobID label bytes phase) :
    ∃ phase', (writeStep s jobID label bytes phase).2 = some phase' ∧
      (writeStep s jobID label bytes phase).1.LinksOk ∧
      (writeStep s jobID label bytes phase).1.diskBytes + phase.onDisk =
        s.diskBytes + phase'.onDisk := by
  cases phase with
  | stat =>
    have hsame := statBody_fst s label jobID
    dsimp only [writeStep]
    split <;> rename_i files res heq <;> rw [heq] at hsame <;> obtain rfl := hsame
    · exact ⟨.restat, rfl, h, rfl⟩
    · exact ⟨.removePart, rfl, h, rfl⟩
  | restat =>
    obtain ⟨hreported, hbody⟩ := hfits
    have hexec : s.exec label (.statBody jobID) = (s, .ok (some 0)) := by
      dsimp only [exec]
      rw [hreported, hbody]
      rfl
    dsimp only [writeStep]
    rw [hexec]
    exact ⟨.settle true 0, rfl, h, rfl⟩
  | removePart =>
    obtain ⟨hlinks, hbytes⟩ := removePart_bytes h jobID hfits
    exact ⟨.createPart, rfl, hlinks, by rw [writeStep, hbytes]; rfl⟩
  | createPart =>
    obtain ⟨hlinks, hbytes⟩ := createPart_bytes label h jobID
    dsimp only [writeStep]
    split <;> rename_i files res heq <;> rw [heq] at hlinks hbytes
    · exact ⟨.gzip res, rfl, hlinks, by rw [hbytes]; rfl⟩
    · exact ⟨.failed, rfl, hlinks, by rw [hbytes]; rfl⟩
  | gzip file =>
    obtain ⟨hlinks, hbytes⟩ := writePart_bytes h hfits
    dsimp only [writeStep]
    split <;> rename_i files res heq <;> rw [heq] at hlinks hbytes
    · exact ⟨.fsyncFile res.length, rfl, hlinks, (add_zero _).trans hbytes⟩
    · exact ⟨.failed, rfl, hlinks, (add_zero _).trans hbytes⟩
  | fsyncFile bytes =>
    have hsame := fsyncFile_fst s label
    dsimp only [writeStep]
    split <;> rename_i files res heq <;> rw [heq] at hsame <;> obtain rfl := hsame
    · exact ⟨.closeFile bytes, rfl, h, rfl⟩
    · obtain hreported | rfl := hfits
      · dsimp only [exec] at heq
        rw [hreported] at heq
        cases heq
      · exact ⟨.failed, rfl, h, rfl⟩
  | closeFile bytes =>
    have hsame := closeFile_fst s label
    dsimp only [writeStep]
    split <;> rename_i files res heq <;> rw [heq] at hsame <;> obtain rfl := hsame
    · exact ⟨.rename bytes, rfl, h, rfl⟩
    · obtain hreported | rfl := hfits
      · dsimp only [exec] at heq
        rw [hreported] at heq
        cases heq
      · exact ⟨.failed, rfl, h, rfl⟩
  | rename bytes =>
    obtain ⟨hlinks, hbytes⟩ := rename_bytes h jobID hfits.2
    dsimp only [writeStep]
    split <;> rename_i files res heq
    · rw [heq] at hlinks hbytes
      exact ⟨.fsyncDir bytes, rfl, hlinks, by rw [hbytes]; rfl⟩
    · obtain ⟨hreported, hsome⟩ | rfl := hfits.1
      · obtain ⟨i, hpart⟩ := isSome_iff_exists.1 hsome
        dsimp only [exec] at heq
        rw [hreported, hpart] at heq
        cases heq
      · rw [heq] at hlinks hbytes
        exact ⟨.failed, rfl, hlinks, by rw [hbytes]; rfl⟩
  | fsyncDir bytes =>
    refine ⟨.settle true bytes, rfl, ?_⟩
    have hmax : max (bytes : ℤ) 0 = bytes := max_eq_left (Int.natCast_nonneg bytes)
    rw [writeStep, fsyncDir_fst, WritePhase.onDisk, WritePhase.onDisk, hmax]
    exact ⟨h, rfl⟩
  | settle onDisk size => exact ⟨.settle onDisk size, rfl, h, rfl⟩

end Steps

/-! ## The system -/

namespace BudgetSystem

def unsettled (s : BudgetSystem) : ℤ := s.writes.sum fun _ w => w.phase.onDisk

def estimates (s : BudgetSystem) : ℤ := s.writes.sum fun _ w => w.estimate

end BudgetSystem

/-- The operations of a write that may change a file. -/
def WritePhase.touchesFiles : WritePhase → Bool
  | .removePart | .createPart | .gzip _ | .rename _ => true
  | _ => false

/-- The step does not reach one of the defects: the operation of a write fits; the cleaner removes no
file with bytes, and releases nothing unless there is nothing to release; no file is touched while a
scan is running, and a scan ends while no write is unfinished. -/
def BudgetFits (s : BudgetSystem) : BudgetLabel → Prop
  | .advance write label bytes =>
    ∀ w ∈ s.writes.get? write, WriteFits s.files w.jobID label bytes w.phase ∧
      (w.phase.touchesFiles = true → s.scans.keys = [])
  | .clean _ jobID _ o => (o = .rolledBack ∨ s.files.info (.body jobID) = 0) ∧ s.scans.keys = []
  | .cleaned call marked =>
    marked = true → ∀ bytes ∈ s.cleaned.get? call, bytes = 0 ∨ 0 ≤ bytes ∧ s.manager.reserved = 0
  | .quarantine _ _ => s.scans.keys = []
  | .scanNext call _ =>
    ∀ scan ∈ s.scans.get? call, scan.dirs = [] → scan.entries = [] → s.writes.keys = []
  | _ => True

instance (s : BudgetSystem) (a : BudgetLabel) : Decidable (BudgetFits s a) := by
  unfold BudgetFits
  split <;> infer_instance

structure BudgetOk (s : BudgetSystem) : Prop where
  links : s.files.LinksOk
  estimate : ∀ write w, s.writes.get? write = some w → 0 ≤ w.estimate
  used : s.manager.used + s.unsettled = s.files.diskBytes
  reserved : s.manager.reserved = s.estimates

/-! ## Scans -/

namespace Spool

theorem sum_entries (s : Spool) :
    (([.bodies, .parts, .quarantine] : List SpoolDir).map fun dir =>
      ((s.entries dir).map s.info).sum).sum = s.diskBytes := by
  have htable : ∀ t : Table String ℕ,
      (t.keys.map fun jobID => (t.get? jobID).elim 0 s.size).sum = t.sum fun _ i => s.size i := by
    intro t
    rw [Table.keys, List.map_map, Table.sum]
    refine congrArg List.sum (map_congr_left fun e he => ?_)
    rw [Function.comp_apply, (get?_eq_some_iff t e.1 e.2).2 he]
    rfl
  have hparked : ((List.range s.quarantine.length).map fun position =>
      (s.quarantine[position]?).elim 0 fun e => s.size e.2).sum =
        (s.quarantine.map fun e => s.size e.2).sum := by
    refine congrArg List.sum (List.ext_getElem (by simp) fun i hi _ => ?_)
    rw [length_map, length_range] at hi
    simp [getElem?_eq_getElem hi]
  have hbodies := htable s.bodies
  have hparts := htable s.parts
  simp only [map_cons, map_nil, sum_cons, sum_nil, entries, List.map_map, Function.comp_def, info]
  rw [hbodies, hparts, hparked, diskBytes, linked]
  ring

end Spool

/-- What a scan still has to look at. -/
def SpoolScan.ahead (scan : SpoolScan) (files : Spool) : ℤ :=
  (scan.entries.map files.info).sum +
    (scan.dirs.map fun dir => ((files.entries dir).map files.info).sum).sum

/-- What a scan has found and what it still has to look at are the bytes on disk. -/
def ScansOk (s : BudgetSystem) : Prop :=
  ∀ call scan, s.scans.get? call = some scan → scan.total + scan.ahead s.files = s.files.diskBytes

theorem ScansOk.of_idle {s : BudgetSystem} (h : s.scans.keys = []) : ScansOk s := by
  intro call scan hscan
  have hmem := (get?_eq_some_iff _ _ _).1 hscan
  rw [show s.scans.rows = [] from map_eq_nil_iff.1 h] at hmem
  cases hmem

theorem writeStep_fst {s : Spool} {phase : WritePhase} (h : phase.touchesFiles = false)
    (jobID : String) (label : SpoolLabel) (bytes : Except String Bytes) :
    (writeStep s jobID label bytes phase).1 = s := by
  cases phase with
  | stat | restat =>
    have hsame := statBody_fst s label jobID
    dsimp only [writeStep]
    split <;> rename_i files res heq <;> rw [heq] at hsame <;> exact hsame
  | fsyncFile bytes =>
    have hsame := fsyncFile_fst s label
    dsimp only [writeStep]
    split <;> rename_i files res heq <;> rw [heq] at hsame <;> exact hsame
  | closeFile bytes =>
    have hsame := closeFile_fst s label
    dsimp only [writeStep]
    split <;> rename_i files res heq <;> rw [heq] at hsame <;> exact hsame
  | fsyncDir bytes => exact fsyncDir_fst s label
  | settle onDisk size => rfl
  | _ => cases h

theorem ScansOk.step {s s' : BudgetSystem} (h : ScansOk s) {a : BudgetLabel} (hfits : BudgetFits s a)
    (hstep : s.step a = some s') : ScansOk s' := by
  cases a with
  | reserve write jobID estimate stats =>
    dsimp only [BudgetSystem.step] at hstep
    split_ifs at hstep
    split at hstep <;> cases hstep <;> exact h
  | advance write label bytes =>
    dsimp only [BudgetSystem.step] at hstep
    split at hstep
    · cases hstep
    · cases hstep
      exact h
    · rename_i w _ hget
      have hidle := (hfits w hget).2
      cases htouches : w.phase.touchesFiles with
      | true =>
        split at hstep <;> cases hstep <;> exact .of_idle (hidle htouches)
      | false =>
        have hsame := writeStep_fst htouches w.jobID label bytes (s := s.files)
        split at hstep <;> rename_i files _ heq <;> rw [heq] at hsame <;> cases hsame <;>
          cases hstep <;> exact h
  | clean call jobID compressedBytes o =>
    dsimp only [BudgetSystem.step] at hstep
    split at hstep <;> cases hstep <;> exact .of_idle hfits.2
  | cleaned call marked =>
    obtain ⟨compressedBytes, -, rfl⟩ := map_eq_some_iff.1 hstep
    exact h
  | quarantine jobID o =>
    cases hstep
    exact .of_idle hfits
  | scanStart call =>
    cases hstep
    refine forall_get?_put h ?_
    rw [SpoolScan.ahead, map_nil, sum_nil, zero_add, zero_add]
    exact s.files.sum_entries
  | scanNext call readable =>
    dsimp only [BudgetSystem.step] at hstep
    split at hstep
    · cases hstep
    · rename_i dirs entry entries total hscan
      cases hstep
      refine forall_get?_put h ?_
      have hsum := h call _ hscan
      simp only [SpoolScan.ahead, map_cons, sum_cons] at hsum ⊢
      linarith
    · rename_i dir dirs total hscan
      split_ifs at hstep <;> cases hstep
      · refine forall_get?_put h ?_
        have hsum := h call _ hscan
        simp only [SpoolScan.ahead, map_cons, sum_cons, map_nil, sum_nil] at hsum ⊢
        linarith
      · exact forall_get?_erase h
    · cases hstep
      exact forall_get?_erase h

section Manager

variable {m m' : SpoolManager} {stats : Except String VolumeStats} {estimate : ℤ}

theorem reserve_of_ok (h : m.reserve stats estimate = .ok m') :
    0 ≤ estimate ∧ m.used + m.reserved + estimate ≤ m.limit ∧
      m' = { m with reserved := m.reserved + estimate } := by
  unfold SpoolManager.reserve at h
  dsimp only at h
  split_ifs at h with hneg hquota hstop
  split at h
  · cases h
  split_ifs at h
  exact ⟨not_lt.1 hneg, not_lt.1 hquota, (Except.ok.inj h).symm⟩

theorem release_of_le (h : estimate ≤ m.reserved) :
    m.release estimate = { m with reserved := m.reserved - estimate } := by
  unfold SpoolManager.release
  rw [if_neg (by omega)]

theorem commit_of_le (h : estimate ≤ m.reserved) (actual : ℤ) :
    m.commit estimate actual =
      { m with used := m.used + max actual 0, reserved := m.reserved - estimate } := by
  unfold SpoolManager.commit
  rw [release_of_le h]
  split_ifs with hpos
  · rw [max_eq_left hpos.le]
  · rw [max_eq_right (not_lt.1 hpos), add_zero]

end Manager

section Run

variable {s s' : BudgetSystem}

theorem firstPhase_onDisk (jobID : String) : (firstPhase jobID).onDisk = 0 := by
  unfold firstPhase
  split <;> rfl

theorem BudgetOk.advance (h : BudgetOk s) {write : ℕ} {w : SpoolWrite}
    (hget : s.writes.get? write = some w) {label : SpoolLabel} {bytes : Except String Bytes}
    (hfits : WriteFits s.files w.jobID label bytes w.phase)
    (hstep : (match writeStep s.files w.jobID label bytes w.phase with
      | (files, some phase) =>
        some { s with files, writes := s.writes.put write { w with phase } }
      | (files, none) => some { s with files, writes := s.writes.erase write }) = some s') :
    BudgetOk s' := by
  obtain ⟨phase', hphase, hlinks, hbytes⟩ := writeStep_bytes h.links hfits
  generalize hres : writeStep s.files w.jobID label bytes w.phase = res at hstep hphase hlinks hbytes
  obtain ⟨files, next⟩ := res
  obtain rfl := hphase
  cases hstep
  refine ⟨hlinks, ?_, ?_, ?_⟩
  · exact forall_get?_put h.estimate (h.estimate write w hget)
  · have hused := h.used
    unfold BudgetSystem.unsettled at hused ⊢
    rw [sum_put, weight_of_some hget]
    linarith
  · rw [BudgetSystem.estimates, sum_put, weight_of_some hget, sub_self, add_zero]
    exact h.reserved

theorem BudgetOk.settle (h : BudgetOk s) {write : ℕ} {jobID : String} {estimate : ℤ} {onDisk : Bool}
    {size : ℤ} (hget : s.writes.get? write = some ⟨jobID, estimate, .settle onDisk size⟩) :
    BudgetOk { s with
      manager := if onDisk then s.manager.commit estimate size else s.manager.release estimate
      writes := s.writes.erase write } := by
  have hle : estimate ≤ s.manager.reserved := by
    rw [h.reserved]
    exact le_sum hget h.estimate
  have hused := h.used
  have hreserved := h.reserved
  unfold BudgetSystem.unsettled at hused
  unfold BudgetSystem.estimates at hreserved
  refine ⟨h.links, forall_get?_erase h.estimate, ?_, ?_⟩
  · unfold BudgetSystem.unsettled
    rw [sum_erase hget]
    cases onDisk with
    | true =>
      have hsize : (WritePhase.settle true size).onDisk = max size 0 := rfl
      rw [if_pos rfl, commit_of_le hle, hsize]
      linarith
    | false =>
      have hsize : (WritePhase.settle false size).onDisk = 0 := rfl
      rw [if_neg Bool.false_ne_true, release_of_le hle, hsize]
      linarith
  · unfold BudgetSystem.estimates
    rw [sum_erase hget, ← hreserved]
    cases onDisk with
    | true => rw [if_pos rfl, commit_of_le hle]
    | false => rw [if_neg Bool.false_ne_true, release_of_le hle]

theorem BudgetOk.step (h : BudgetOk s) (hscans : ScansOk s) {a : BudgetLabel} (hfits : BudgetFits s a)
    (hstep : s.step a = some s') : BudgetOk s' := by
  cases a with
  | reserve write jobID estimate stats =>
    dsimp only [BudgetSystem.step] at hstep
    split_ifs at hstep with hsome
    split at hstep
    · cases hstep
      exact h
    · rename_i manager hreserve
      cases hstep
      obtain ⟨hnonneg, -, rfl⟩ := reserve_of_ok hreserve
      have hnone : s.writes.get? write = none := by
        cases hget : s.writes.get? write with
        | none => rfl
        | some w => exact absurd (by rw [hget]; rfl) hsome
      refine ⟨h.links, forall_get?_put h.estimate hnonneg, ?_, ?_⟩
      · have hused := h.used
        unfold BudgetSystem.unsettled at hused ⊢
        rw [sum_put_of_none hnone, firstPhase_onDisk, add_zero]
        exact hused
      · rw [BudgetSystem.estimates, sum_put_of_none hnone]
        exact congrArg (· + estimate) h.reserved
  | advance write label bytes =>
    dsimp only [BudgetSystem.step] at hstep
    split at hstep
    · cases hstep
    · rename_i hget
      cases hstep
      exact h.settle hget
    · rename_i w _ hget
      exact h.advance hget (hfits w hget).1 hstep
  | clean call jobID compressedBytes o =>
    obtain ⟨hlinks, hbytes⟩ := removeBody_bytes { outcome := o } h.links jobID hfits.1
    dsimp only [BudgetSystem.step] at hstep
    split at hstep <;> rename_i files res heq <;> rw [heq] at hlinks hbytes <;>
      cases hstep
    · exact ⟨hlinks, h.estimate, h.used.trans hbytes.symm, h.reserved⟩
    · exact ⟨hlinks, h.estimate, h.used.trans hbytes.symm, h.reserved⟩
  | cleaned call marked =>
    obtain ⟨compressedBytes, hget, rfl⟩ := map_eq_some_iff.1 hstep
    cases marked with
    | false => exact ⟨h.links, h.estimate, h.used, h.reserved⟩
    | true =>
      have hkept : s.manager.release compressedBytes = s.manager := by
        have hnonneg : 0 ≤ s.manager.reserved := by
          rw [h.reserved]
          exact sum_nonneg h.estimate
        unfold SpoolManager.release
        obtain rfl | ⟨hpos, hzero⟩ := hfits rfl compressedBytes hget
        · rw [sub_zero, if_neg (not_lt.2 hnonneg)]
        · rw [hzero, show (if 0 - compressedBytes < 0 then 0 else 0 - compressedBytes) = 0 by
            split_ifs <;> omega, ← hzero]
      refine ⟨h.links, h.estimate, ?_, ?_⟩
      · exact (congrArg (·.used + s.unsettled) hkept).trans h.used
      · exact (congrArg (·.reserved) hkept).trans h.reserved
  | quarantine jobID o =>
    obtain ⟨hlinks, hbytes⟩ := quarantine_bytes { outcome := o } h.links jobID
    cases hstep
    exact ⟨hlinks, h.estimate, h.used.trans hbytes.symm, h.reserved⟩
  | scanStart call =>
    cases hstep
    exact ⟨h.links, h.estimate, h.used, h.reserved⟩
  | scanNext call readable =>
    dsimp only [BudgetSystem.step] at hstep
    split at hstep
    · cases hstep
    · cases hstep
      exact ⟨h.links, h.estimate, h.used, h.reserved⟩
    · split_ifs at hstep <;> obtain rfl := some.inj hstep <;>
        exact ⟨h.links, h.estimate, h.used, h.reserved⟩
    · rename_i total hscan
      cases hstep
      have hidle := hfits _ hscan rfl rfl
      have htotal := hscans call _ hscan
      rw [SpoolScan.ahead, map_nil, map_nil, sum_nil, add_zero, add_zero] at htotal
      have hrows : s.writes.rows = [] := map_eq_nil_iff.1 hidle
      refine ⟨h.links, h.estimate, ?_, ?_⟩
      · rw [BudgetSystem.unsettled, Table.sum, hrows]
        exact (add_zero total).trans htotal
      · rw [BudgetSystem.estimates, Table.sum, hrows]
        rfl

end Run

def BudgetSystem.init (limits : SpoolManager) : BudgetSystem :=
  { manager := { limits with used := 0, reserved := 0 } }

theorem budgetOk_init (limits : SpoolManager) : BudgetOk (.init limits) where
  links := ⟨fun _ => Int.one_nonneg, fun _ _ => rfl⟩
  estimate _ _ h := nomatch h
  used := rfl
  reserved := rfl

/-- A write of three bytes, one operation after the other. -/
def budgetWrite (write : ℕ) (jobID : String) : List BudgetLabel :=
  .reserve write jobID 5000 (.ok
    { freeBytes := 1000000, totalBytes := 2000000, freeInodes := 100, totalInodes := 200 }) ::
    List.replicate 9 (.advance write {} (.ok [0x1f, 0x8b, 0x08]))

def exampleLimits : SpoolManager := { limit := 10000, stopPercent := 90 }

/-- Two writes, the second one unfinished, and a scan between them. -/
def overlappingWrites : List BudgetLabel :=
  budgetWrite 0 "0f8fad5b-d9cb-469f-a165-70867728950e" ++ (.scanStart 1 :: List.replicate 5 (.scanNext 1 true)) ++
    (budgetWrite 1 "1f8fad5b-d9cb-469f-a165-70867728950e").take 6

def cleanedFile : List BudgetLabel :=
  budgetWrite 0 "0f8fad5b-d9cb-469f-a165-70867728950e" ++
    [.clean 1 "0f8fad5b-d9cb-469f-a165-70867728950e" 3 .reported, .cleaned 1 true]

end BeeApi.ContentBackup
