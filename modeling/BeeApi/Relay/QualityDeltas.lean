import BeeApi.Relay.StreamedQuality
import BeeApi.RelayConvert.ClaudeToChatResponse
import BeeApi.RelayConvert.Gemini
import BeeApi.RelayConvert.ResponsesStream

/-!
# What the filter reads of an answer

In each format the hold reads a delta in every chunk of a stream, and the filter of a whole answer reads
it with a function of its own.  An answer is a list of blocks; a split of it is a stream whose chunks
make up the blocks, one after the other.
-/

namespace BeeApi.Quality

open RelayConvert List Bool

/-- A chunk with the `CompletionTokenDetails` of its usage. -/
structure ChatChunk extends Chunk where
  audioTokens : ℤ := 0
  imageTokens : ℤ := 0

def ChatChunk.reportsMedia (resp : ChatChunk) : Bool :=
  resp.usage.isSome && (resp.audioTokens > 0 || resp.imageTokens > 0)

def deltaFromChat (resp : ChatChunk) : QualityStreamDelta where
  visible := joined (resp.choices.map (·.delta.getContentString))
  reasoning := joined (resp.choices.map (·.delta.getReasoningContent))
  toolCalls := if resp.choices.any (·.delta.toolCalls ≠ []) then 1 else 0
  media := resp.reportsMedia

/-- An event, or a whole message; the input of a tool is a JSON text. -/
structure ClaudeAnswer extends ClaudeResponse String where
  completion : String := ""

def isClaudeToolType (type : String) : Bool :=
  type = "tool_use" || type = "server_tool_use" || type = "mcp_tool_use"

def deltaFromClaude (resp : ClaudeAnswer) : QualityStreamDelta :=
  let started := if resp.type = "content_block_start" && resp.contentBlock.any (isClaudeToolType ·.type)
    then 1 else 0
  match resp.delta with
  | some d =>
    { visible := d.text.getD "" ++ resp.completion
      reasoning := d.thinking.getD ""
      toolCalls := if d.type = "input_json_delta" || d.partialJson.isSome then 1 else started }
  | none =>
    if resp.completion = "" then
      { visible := joined ((resp.content.filter (·.type = "text")).map (·.getText))
        reasoning := joined ((resp.content.filter (·.type = "thinking")).map (·.thinking.getD ""))
        toolCalls := started + resp.content.countP (isClaudeToolType ·.type) }
    else { visible := resp.completion, toolCalls := started }

def geminiParts (resp : GeminiChatResponse) : List GeminiPart :=
  resp.candidates.flatMap (·.content.parts)

def deltaFromGemini (resp : GeminiChatResponse) : QualityStreamDelta where
  visible := joined ((geminiParts resp).map fun part => if part.thought then "" else part.text)
  reasoning := joined ((geminiParts resp).map fun part => if part.thought then part.text else "")
  toolCalls := (geminiParts resp).countP (·.functionCall.isSome)
  media := (geminiParts resp).any (·.inlineData.any (·.mimeType ≠ ""))

def hasImageGenerationCall (resp : OpenAIResponsesResponse) : Bool :=
  resp.output.any (·.type = "image_generation_call")

def deltaFromResponses (resp : ResponsesStreamResponse) : QualityStreamDelta :=
  match resp.kind with
  | .textDelta => { visible := resp.delta }
  | .reasoningDelta => { reasoning := resp.delta }
  | .itemAdded | .itemDone =>
    match resp.item with
    | some item =>
      if item.type = "function_call" || item.type = "custom_tool_call" ||
          item.type = "web_search_call" then { toolCalls := 1 }
      else if item.type = "image_generation_call" then { media := true }
      else {}
    | none => {}
  | .argumentsDelta => { toolCalls := 1 }
  | .completed => { media := resp.response.any hasImageGenerationCall }
  | _ => {}

def noteQualityInspectFromOpenAIText (choices : List Message) : QualityInspect where
  text := joined (choices.map (·.stringContent))
  toolCalls := (choices.map (·.parseToolCalls.length)).sum

def noteQualityInspectFromClaude (resp : ClaudeAnswer) : QualityInspect where
  text := resp.completion ++ joined ((resp.content.filter (·.type = "text")).map (·.getText))
  toolCalls := resp.content.countP (·.type = "tool_use")

def noteQualityInspectFromGemini (resp : GeminiChatResponse) : QualityInspect where
  text := joined ((geminiParts resp).map fun part =>
    if part.functionCall.isSome || part.thought then "" else part.text)
  toolCalls := (geminiParts resp).countP (·.functionCall.isSome)

def noteQualityInspectFromResponses (resp : OpenAIResponsesResponse) : QualityInspect where
  text := extractOutputTextFromResponses resp
  toolCalls := resp.output.countP fun output =>
    output.type = "function_call" || output.type = "web_search_call" ||
      output.type = "image_generation_call"

/-- How an answer, or a part of it, is classified. -/
@[ext] structure Kinds where
  visible : String := ""
  tool : Bool := false
  media : Bool := false
deriving DecidableEq

namespace Kinds

def append (a b : Kinds) : Kinds where
  visible := a.visible ++ b.visible
  tool := a.tool || b.tool
  media := a.media || b.media

def sum : List Kinds → Kinds
  | [] => {}
  | k :: l => k.append (sum l)

theorem empty_append (a : Kinds) : append {} a = a := by
  simp [append]

theorem append_empty (a : Kinds) : a.append {} = a := by
  simp [append]

theorem append_assoc (a b c : Kinds) : (a.append b).append c = a.append (b.append c) := by
  simp [append, String.append_assoc, Bool.or_assoc]

theorem sum_append (l l' : List Kinds) : sum (l ++ l') = (sum l).append (sum l') := by
  induction l with
  | nil => exact (empty_append _).symm
  | cons k l ih => rw [cons_append, sum, sum, ih, append_assoc]

theorem sum_singleton (k : Kinds) : sum [k] = k := append_empty k

theorem visible_sum (l : List Kinds) : (sum l).visible = joined (l.map (·.visible)) := by
  induction l with
  | nil => rfl
  | cons k l ih => rw [sum, map_cons, joined_cons, ← ih]; rfl

theorem tool_sum (l : List Kinds) : (sum l).tool = l.any (·.tool) := by
  induction l with
  | nil => rfl
  | cons k l ih => rw [sum, any_cons, ← ih]; rfl

theorem media_sum (l : List Kinds) : (sum l).media = l.any (·.media) := by
  induction l with
  | nil => rfl
  | cons k l ih => rw [sum, any_cons, ← ih]; rfl

end Kinds

def QualityInspect.kinds (i : QualityInspect) : Kinds := ⟨i.text, 0 < i.toolCalls, i.media⟩

def QualityStreamDelta.kinds (d : QualityStreamDelta) : Kinds := ⟨d.visible, 0 < d.toolCalls, d.media⟩

theorem kinds_add (i : QualityInspect) (d : QualityStreamDelta) :
    (i.add d).kinds = i.kinds.append d.kinds := by
  refine Kinds.ext rfl ?_ rfl
  show decide (0 < i.toolCalls + d.toolCalls) = (decide (0 < i.toolCalls) || decide (0 < d.toolCalls))
  rw [← decide_or, decide_eq_decide]
  omega

theorem kinds_observed (deltas : List QualityStreamDelta) :
    (observed deltas).kinds = Kinds.sum (deltas.map (·.kinds)) := by
  have hfoldl : ∀ i : QualityInspect, (deltas.foldl QualityInspect.add i).kinds =
      i.kinds.append (Kinds.sum (deltas.map (·.kinds))) := by
    induction deltas with
    | nil => exact fun i => (Kinds.append_empty _).symm
    | cons d deltas ih =>
      intro i
      rw [foldl_cons, ih, kinds_add, Kinds.append_assoc]
      rfl
  rw [observed, hfoldl]
  exact Kinds.empty_append _

/-- Chunks that show nothing may be left out, and so may those that report media again. -/
theorem sum_filter {α : Type} {l : List α} {f : α → Kinds} {p : α → Bool}
    (h : ∀ x ∈ l, p x = false → (f x).visible = "" ∧ (f x).tool = false ∧
      ((f x).media = true → ∃ y ∈ l, p y = true ∧ (f y).media = true)) :
    Kinds.sum ((l.filter p).map f) = Kinds.sum (l.map f) := by
  apply Kinds.ext
  · rw [Kinds.visible_sum, Kinds.visible_sum]
    have hvisible : ∀ x ∈ l, p x = false → (f x).visible = "" := fun x hx hp => (h x hx hp).1
    clear h
    induction l with
    | nil => rfl
    | cons x l ih =>
      have ih := ih fun y hy => hvisible y (mem_cons_of_mem _ hy)
      cases hp : p x with
      | true => rw [filter_cons_of_pos hp, map_cons, map_cons, map_cons,
          map_cons, joined_cons, joined_cons, ih]
      | false =>
        rw [filter_cons_of_neg (by rw [hp]; exact false_ne_true), ih, map_cons,
          map_cons, joined_cons, hvisible x mem_cons_self hp, String.empty_append]
  · rw [Kinds.tool_sum, Kinds.tool_sum, Bool.eq_iff_iff, List.any_map, List.any_map,
      any_eq_true, any_eq_true]
    constructor
    · rintro ⟨x, hx, htool⟩
      exact ⟨x, mem_of_mem_filter hx, htool⟩
    · rintro ⟨x, hx, htool⟩
      refine ⟨x, mem_filter.2 ⟨hx, ?_⟩, htool⟩
      by_contra hp
      have hnone := (h x hx (eq_false_iff.2 hp)).2.1
      rw [Function.comp_apply, hnone] at htool
      cases htool
  · rw [Kinds.media_sum, Kinds.media_sum, Bool.eq_iff_iff, List.any_map, List.any_map,
      any_eq_true, any_eq_true]
    constructor
    · rintro ⟨x, hx, hmedia⟩
      exact ⟨x, mem_of_mem_filter hx, hmedia⟩
    · rintro ⟨x, hx, hmedia⟩
      by_cases hp : p x = true
      · exact ⟨x, mem_filter.2 ⟨hx, hp⟩, hmedia⟩
      · obtain ⟨y, hy, hpy, hmedia'⟩ := (h x hx (eq_false_iff.2 hp)).2.2 hmedia
        exact ⟨y, mem_filter.2 ⟨hy, hpy⟩, hmedia'⟩

end BeeApi.Quality
