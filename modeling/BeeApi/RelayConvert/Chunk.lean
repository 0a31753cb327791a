import Mathlib.Data.List.Induction
import Mathlib.Data.String.Basic

/-!
# Chat chunks and the answer they make up

A stream of chat chunks stands for one answer: the texts are joined, and the fragments of a tool call
are put together by their index.
-/

namespace BeeApi.RelayConvert

open List String

structure ToolCallResponse where
  index : Option ℕ := none
  id : String := ""
  type : String := "function"
  name : String := ""
  arguments : String := ""

structure Delta where
  content : Option String := none
  reasoningContent : Option String := none
  reasoning : Option String := none
  role : String := ""
  toolCalls : List ToolCallResponse := []

namespace Delta

def getContentString (d : Delta) : String := d.content.getD ""

def getReasoningContent (d : Delta) : String :=
  match d.reasoningContent with
  | some s => s
  | none => d.reasoning.getD ""

end Delta

structure Choice where
  delta : Delta := {}
  finishReason : Option String := none

structure Usage where
  promptTokens : ℤ := 0
  completionTokens : ℤ := 0
  totalTokens : ℤ := 0
  inputTokens : ℤ := 0
  outputTokens : ℤ := 0

/-- `ChatCompletionsStreamResponse`. -/
structure Chunk where
  id : String := ""
  model : String := ""
  choices : List Choice := []
  usage : Option Usage := none

/-- The message of `OpenAITextResponse` and what stands beside it. -/
structure OpenAITextResponse where
  id : String := ""
  model : String := ""
  content : String := ""
  reasoningContent : Option String := none
  toolCalls : List ToolCallResponse := []
  finishReason : String := ""
  usage : Usage := {}

def joined (l : List String) : String := String.ofList (l.flatMap String.toList)

@[simp] theorem joined_nil : joined [] = "" := rfl

theorem toList_joined (l : List String) : (joined l).toList = l.flatMap String.toList :=
  toList_ofList

theorem joined_cons (s : String) (l : List String) : joined (s :: l) = s ++ joined l := by
  apply toList_injective
  rw [toList_append, toList_joined, toList_joined, flatMap_cons]

theorem joined_append (l l' : List String) : joined (l ++ l') = joined l ++ joined l' := by
  apply toList_injective
  rw [toList_append, toList_joined, toList_joined, toList_joined, flatMap_append]

theorem joined_singleton (s : String) : joined [s] = s := by
  rw [joined_cons, joined_nil, append_empty]

theorem joined_eq_empty_iff {l : List String} : joined l = "" ↔ ∀ s ∈ l, s = "" := by
  induction l with
  | nil => exact ⟨nofun, fun _ => rfl⟩
  | cons s l ih => rw [joined_cons, append_eq_empty_iff, ih, forall_mem_cons]

def deltas (chunks : List Chunk) : List Delta :=
  chunks.flatMap fun chunk => chunk.choices.map (·.delta)

def contentOf (chunks : List Chunk) : String := joined ((deltas chunks).map (·.getContentString))

def reasoningOf (chunks : List Chunk) : String :=
  joined ((deltas chunks).map (·.getReasoningContent))

def fragmentsOf (chunks : List Chunk) : List ToolCallResponse :=
  (deltas chunks).flatMap (·.toolCalls)

def finishReasonOf (chunks : List Chunk) : Option String :=
  (chunks.flatMap fun chunk => chunk.choices.filterMap (·.finishReason)).getLast?

section Append

variable (a b : List Chunk)

theorem deltas_append : deltas (a ++ b) = deltas a ++ deltas b := flatMap_append

theorem contentOf_append : contentOf (a ++ b) = contentOf a ++ contentOf b := by
  rw [contentOf, deltas_append, map_append, joined_append]
  rfl

end Append

def ToolCallResponse.extend (call f : ToolCallResponse) : ToolCallResponse :=
  { call with
    id := if f.id = "" then call.id else f.id
    name := if f.name = "" then call.name else f.name
    arguments := call.arguments ++ f.arguments }

/-- A fragment belongs to the call of its index, or begins one. -/
def addFragment (f : ToolCallResponse) : List ToolCallResponse → List ToolCallResponse
  | [] => [f]
  | call :: calls =>
    if call.index = f.index then call.extend f :: calls else call :: addFragment f calls

/-- The tool calls, in the order in which they begin. -/
def assembleCalls (fragments : List ToolCallResponse) : List ToolCallResponse :=
  fragments.foldl (fun calls f => addFragment f calls) []

def toolCallsOf (chunks : List Chunk) : List ToolCallResponse := assembleCalls (fragmentsOf chunks)

theorem addFragment_append {f : ToolCallResponse} {calls : List ToolCallResponse}
    (h : ∀ call ∈ calls, call.index ≠ f.index) (rest : List ToolCallResponse) :
    addFragment f (calls ++ rest) = calls ++ addFragment f rest := by
  induction calls with
  | nil => rfl
  | cons call calls ih =>
    rw [cons_append, addFragment, if_neg (h call mem_cons_self),
      ih fun c hc => h c (mem_cons_of_mem _ hc)]
    rfl

variable {calls : List ToolCallResponse} {f : ToolCallResponse} {n : ℕ}

theorem addFragment_of_notMem (h : f.index ∉ calls.map (·.index)) :
    addFragment f calls = calls ++ [f] := by
  have happend := @addFragment_append f calls
    (fun call hcall heq => h (mem_map.2 ⟨call, hcall, heq⟩)) []
  rwa [append_nil] at happend

theorem map_index_addFragment (h : f.index ∈ calls.map (·.index)) :
    (addFragment f calls).map (·.index) = calls.map (·.index) := by
  induction calls with
  | nil => exact (nomatch h)
  | cons call calls ih =>
    rw [addFragment]
    split_ifs with hindex
    · rfl
    · rw [map_cons, mem_cons] at h
      rw [map_cons, map_cons, ih (h.resolve_left fun heq => hindex heq.symm)]

theorem addFragment_blank {f : ToolCallResponse} {calls : List ToolCallResponse} (hid : f.id = "")
    (hname : f.name = "") (harguments : f.arguments = "") (h : f.index ∈ calls.map (·.index)) :
    addFragment f calls = calls := by
  induction calls with
  | nil => exact (nomatch h)
  | cons call calls ih =>
    rw [addFragment]
    split_ifs with hindex
    · rw [ToolCallResponse.extend, if_pos hid, if_pos hname, harguments, append_empty]
    · rw [map_cons, mem_cons] at h
      rw [ih (h.resolve_left fun heq => hindex heq.symm)]

/-- The indices of the calls are the first `n` numbers. -/
def Numbered (n : ℕ) (calls : List ToolCallResponse) : Prop :=
  calls.map (·.index) = (List.range n).map some

theorem Numbered.mem_iff (h : Numbered n calls) (i : ℕ) : some i ∈ calls.map (·.index) ↔ i < n := by
  rw [h, mem_map]
  constructor
  · rintro ⟨j, hj, heq⟩
    exact Option.some.inj heq ▸ mem_range.1 hj
  · exact fun hi => ⟨i, mem_range.2 hi, rfl⟩

theorem Numbered.add_old (h : Numbered n calls) {i : ℕ} (hindex : f.index = some i) (hi : i < n) :
    Numbered n (addFragment f calls) :=
  (map_index_addFragment (hindex ▸ (h.mem_iff i).2 hi)).trans h

theorem Numbered.add_new (h : Numbered n calls) (hindex : f.index = some n) :
    addFragment f calls = calls ++ [f] ∧ Numbered (n + 1) (addFragment f calls) := by
  have hnew : addFragment f calls = calls ++ [f] := by
    refine addFragment_of_notMem ?_
    rw [hindex, h.mem_iff]
    exact Nat.lt_irrefl n
  refine ⟨hnew, ?_⟩
  unfold Numbered at h ⊢
  rw [hnew, map_append, h, range_succ, map_append, map_singleton, map_singleton, hindex]

theorem foldl_addFragment {call : ToolCallResponse} {fragments : List ToolCallResponse}
    (hcalls : ∀ c ∈ calls, c.index ≠ call.index)
    (hfragments : ∀ f ∈ fragments, f.index = call.index) :
    fragments.foldl (fun calls f => addFragment f calls) (calls ++ [call]) =
      calls ++ [fragments.foldl ToolCallResponse.extend call] := by
  induction fragments generalizing call with
  | nil => rfl
  | cons f fragments ih =>
    have hf : f.index = call.index := hfragments f mem_cons_self
    have hadd : addFragment f (calls ++ [call]) = calls ++ [call.extend f] := by
      rw [addFragment_append (fun c hc => hf ▸ hcalls c hc), addFragment, if_pos hf.symm]
    rw [foldl_cons, hadd]
    exact ih hcalls fun f' hf' => hfragments f' (mem_cons_of_mem _ hf')

theorem assembleCalls_append_call {before fragments : List ToolCallResponse}
    (hbefore : ∀ call ∈ assembleCalls before, call.index ≠ f.index)
    (hfragments : ∀ f' ∈ fragments, f'.index = f.index) :
    assembleCalls (before ++ f :: fragments) =
      assembleCalls before ++ [fragments.foldl ToolCallResponse.extend f] := by
  unfold assembleCalls
  rw [foldl_append, foldl_cons]
  have hadd := addFragment_append hbefore []
  rw [append_nil] at hadd
  unfold assembleCalls at hadd hbefore
  rw [hadd]
  exact foldl_addFragment hbefore hfragments

theorem assembleCalls_append_singleton (l : List ToolCallResponse) (f : ToolCallResponse) :
    assembleCalls (l ++ [f]) = addFragment f (assembleCalls l) := by
  rw [assembleCalls, foldl_append]
  rfl

theorem assembleCalls_of_nodup {l : List ToolCallResponse} (h : (l.map (·.index)).Nodup) :
    assembleCalls l = l := by
  induction l using List.reverseRecOn with
  | nil => rfl
  | append_singleton l f ih =>
    rw [map_append, nodup_append] at h
    have hnew : f.index ∉ l.map (·.index) := fun hmem => h.2.2 _ hmem _ mem_cons_self rfl
    rw [assembleCalls_append_singleton, ih h.1, addFragment_of_notMem hnew]

theorem assembleCalls_eq_nil_iff (l : List ToolCallResponse) : assembleCalls l = [] ↔ l = [] := by
  induction l using List.reverseRecOn with
  | nil => simp [assembleCalls]
  | append_singleton l f _ =>
    rw [assembleCalls_append_singleton]
    refine ⟨fun h => ?_, fun h => by simp at h⟩
    cases hcalls : assembleCalls l with
    | nil => rw [hcalls] at h; cases h
    | cons call calls =>
      rw [hcalls, addFragment] at h
      split_ifs at h

end BeeApi.RelayConvert
