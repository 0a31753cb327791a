import BeeApi.Relay.QualityDeltas

/-!
# Answers and their splits

The blocks of an answer in the four formats, the streams they may be split into, and how the hold and the
filter of whole answers classify them.
-/

namespace BeeApi.Quality

open RelayConvert List String

inductive BlockKind
  | text
  | reasoning
  | toolCall
  | media
deriving DecidableEq

structure Format where
  Block : Type
  Chunk : Type
  kind : Block → BlockKind
  delta : Chunk → QualityStreamDelta
  /-- What the filter reads of a whole answer. -/
  inspect : List Block → QualityInspect
  /-- The usage of an answer reports the block. -/
  inUsage : Block → Bool
  /-- The chunks are a stream of the blocks. -/
  Splits : List Block → List Chunk → Prop
  /-- The block is read in two ways. -/
  exceptional : Block → Bool

namespace Format

variable (F : Format)

def TextOnly (blocks : List F.Block) : Prop := ∀ b ∈ blocks, F.kind b = .text ∨ F.kind b = .reasoning

def observedKinds (chunks : List F.Chunk) : Kinds := (observed (chunks.map F.delta)).kinds

def inspectKinds (blocks : List F.Block) : Kinds :=
  { (F.inspect blocks).kinds with media := (F.inspect blocks).media || blocks.any F.inUsage }

/-- The blocks are classified one by one, in a stream and in a whole answer. -/
structure Lawful where
  streamed : F.Block → Kinds
  buffered : F.Block → Kinds
  agree : ∀ b, F.exceptional b = false ↔ streamed b = buffered b
  text_only : ∀ b, F.kind b = .text ∨ F.kind b = .reasoning →
    (streamed b).tool = false ∧ (streamed b).media = false
  observed : ∀ blocks chunks, F.Splits blocks chunks →
    F.observedKinds chunks = Kinds.sum (blocks.map streamed)
  inspected : ∀ blocks, (∀ b ∈ blocks, F.exceptional b = false) →
    F.inspectKinds blocks = Kinds.sum (blocks.map buffered)
  single : ∀ b, F.inspectKinds [b] = buffered b
  splits : ∀ blocks, ∃ chunks, F.Splits blocks chunks
  /-- A text may be cut anywhere. -/
  cut : ∀ blocks, F.TextOnly blocks → ∀ t u, (Kinds.sum (blocks.map streamed)).visible = t ++ u →
    ∃ before after, F.Splits blocks (before ++ after) ∧ visibleText (before.map F.delta) = t

end Format

theorem visibleText_eq (deltas : List QualityStreamDelta) :
    visibleText deltas = (Kinds.sum (deltas.map (·.kinds))).visible := by
  induction deltas with
  | nil => rfl
  | cons d deltas ih => rw [visibleText, ih]; rfl

theorem Format.observedKinds_eq (F : Format) (chunks : List F.Chunk) :
    F.observedKinds chunks = Kinds.sum (chunks.map fun c => (F.delta c).kinds) := by
  rw [observedKinds, kinds_observed, List.map_map]
  rfl

def SplitsInto {β π : Type} (Streams : β → List π → Prop) (blocks : List β) (pieces : List π) :
    Prop :=
  ∃ parts, List.Forall₂ Streams blocks parts ∧ pieces = parts.flatten

namespace SplitsInto

variable {β π : Type} {Streams : β → List π → Prop} {blocks : List β} {pieces : List π}
  {k : π → Kinds} {s : β → Kinds}

theorem nil : SplitsInto Streams [] [] := ⟨[], .nil, rfl⟩

theorem cons {b : β} {part : List π} (hb : Streams b part) (h : SplitsInto Streams blocks pieces) :
    SplitsInto Streams (b :: blocks) (part ++ pieces) := by
  obtain ⟨parts, hparts, rfl⟩ := h
  exact ⟨part :: parts, .cons hb hparts, rfl⟩

theorem sum (hs : ∀ b part, Streams b part → Kinds.sum (part.map k) = s b)
    (h : SplitsInto Streams blocks pieces) :
    Kinds.sum (pieces.map k) = Kinds.sum (blocks.map s) := by
  obtain ⟨parts, hparts, rfl⟩ := h
  induction hparts with
  | nil => rfl
  | cons hb _ ih =>
    rw [flatten_cons, map_append, Kinds.sum_append, ih, hs _ _ hb]
    rfl

theorem forall_mem {P : π → Prop} (hP : ∀ b part, Streams b part → ∀ x ∈ part, P x)
    (h : SplitsInto Streams blocks pieces) : ∀ x ∈ pieces, P x := by
  obtain ⟨parts, hparts, rfl⟩ := h
  induction hparts with
  | nil => exact nofun
  | cons hb _ ih =>
    intro x hx
    rw [flatten_cons, mem_append] at hx
    rcases hx with hx | hx
    · exact hP _ _ hb x hx
    · exact ih x hx

theorem exists_pieces (h : ∀ b ∈ blocks, ∃ part, Streams b part) :
    ∃ pieces, SplitsInto Streams blocks pieces := by
  induction blocks with
  | nil => exact ⟨[], nil⟩
  | cons b blocks ih =>
    obtain ⟨⟨part, hpart⟩, hrest⟩ := forall_mem_cons.1 h
    obtain ⟨pieces, hpieces⟩ := ih hrest
    exact ⟨part ++ pieces, cons hpart hpieces⟩

theorem cut {t u : String} (h : ∀ b ∈ blocks, ∀ t u, (s b).visible = t ++ u →
      ∃ before after, Streams b (before ++ after) ∧ (Kinds.sum (before.map k)).visible = t)
    (hs : ∀ b part, Streams b part → Kinds.sum (part.map k) = s b)
    (htext : (Kinds.sum (blocks.map s)).visible = t ++ u) :
    ∃ before after, SplitsInto Streams blocks (before ++ after) ∧
      (Kinds.sum (before.map k)).visible = t := by
  have hany : ∀ b ∈ blocks, ∃ part, Streams b part := by
    intro b hb
    obtain ⟨before, after, hpart, -⟩ := h b hb _ "" append_empty.symm
    exact ⟨_, hpart⟩
  induction blocks generalizing t with
  | nil =>
    have ht : t = "" := (append_eq_empty_iff.1 htext.symm).1
    exact ⟨[], [], nil, ht.symm⟩
  | cons b blocks ih =>
    obtain ⟨hb, hrest⟩ := forall_mem_cons.1 h
    obtain ⟨⟨part, hpart⟩, hanyRest⟩ := forall_mem_cons.1 hany
    have hlist : (s b).visible.toList ++ (Kinds.sum (blocks.map s)).visible.toList =
        t.toList ++ u.toList := by
      rw [← toList_append, ← toList_append]
      exact congrArg String.toList htext
    rcases append_eq_append_iff.1 hlist with ⟨a, hta, hrestText⟩ | ⟨a, hba, hu⟩
    · -- the cut lies behind the block
      have hvisible : (Kinds.sum (blocks.map s)).visible = String.ofList a ++ u :=
        toList_inj.1 (by rw [hrestText, toList_append, toList_ofList])
      obtain ⟨before, after, hsplit, hbefore⟩ := ih hrest hvisible hanyRest
      refine ⟨part ++ before, after, ?_, ?_⟩
      · rw [List.append_assoc]
        exact cons hpart hsplit
      · rw [map_append, Kinds.sum_append, hs _ _ hpart]
        show (s b).visible ++ (Kinds.sum (before.map k)).visible = t
        rw [hbefore]
        exact toList_inj.1 (by rw [toList_append, toList_ofList, hta])
    · have hvisible : (s b).visible = t ++ String.ofList a :=
        toList_inj.1 (by rw [hba, toList_append, toList_ofList])
      obtain ⟨before, after, hcut, hbefore⟩ := hb _ _ hvisible
      obtain ⟨pieces, hpieces⟩ := exists_pieces hanyRest
      refine ⟨before, after ++ pieces, ?_, hbefore⟩
      rw [← List.append_assoc]
      exact cons hcut hpieces

end SplitsInto

theorem sum_map_visible {texts : List String} {k : String → Kinds}
    (hk : ∀ s, k s = { visible := s }) : Kinds.sum (texts.map k) = { visible := joined texts } := by
  induction texts with
  | nil => rfl
  | cons s texts ih =>
    rw [map_cons, Kinds.sum, ih, hk, joined_cons]
    rfl

theorem sum_of_idem {l : List Kinds} {a : Kinds} (ha : a.append a = a) (h : ∀ k ∈ l, k = a) :
    a.append (Kinds.sum l) = a := by
  induction l with
  | nil => exact Kinds.append_empty a
  | cons k l ih =>
    obtain ⟨rfl, hl⟩ := forall_mem_cons.1 h
    rw [Kinds.sum, ih hl, ha]

theorem sum_empty {l : List Kinds} (h : ∀ k ∈ l, k = {}) : Kinds.sum l = {} := by
  have hsum := sum_of_idem (Kinds.empty_append {}) h
  rwa [Kinds.empty_append] at hsum

end BeeApi.Quality
