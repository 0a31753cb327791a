import BeeApi.RelayConvert.Chunk
import BeeApi.RelayConvert.Gemini

/-!
# Chat answers as Gemini answers

`ResponseOpenAI2Gemini` converts a complete answer and `StreamResponseOpenAI2Gemini` one chunk of a stream.
The stream converter has no memory: each fragment of a tool call becomes a function call, and a chunk with
tool calls gives no text.
-/

namespace BeeApi.RelayConvert.ChatToGemini

open List

/-- A choice of a chunk; `toolCalls` is `none` where the slice is nil. -/
structure ChunkChoice where
  index : ℤ := 0
  content : Option String := none
  toolCalls : Option (List ToolCallResponse) := none
  finishReason : Option String := none

namespace ChunkChoice

def getContentString (choice : ChunkChoice) : String := choice.content.getD ""

def fragments (choice : ChunkChoice) : List ToolCallResponse := choice.toolCalls.getD []

end ChunkChoice

def mapFinishReason (finishReason : String) : String :=
  if finishReason = "stop" then "STOP"
  else if finishReason = "length" then "MAX_TOKENS"
  else if finishReason = "content_filter" then "SAFETY"
  else "STOP"

/-- The part of a tool call; `unmarshal` reads a text into a map, with `null` for the map that is nil. -/
def callPart (unmarshal : String → Option Json) (toolCall : ToolCallResponse) : GeminiPart where
  functionCall :=
    some
      { functionName := toolCall.name
        arguments :=
          if toolCall.arguments = "" then .obj []
          else
            match unmarshal toolCall.arguments with
            | some args => args
            | none => .obj [("arguments", .str toolCall.arguments)] }

def textParts (text : String) : List GeminiPart := if text = "" then [] else [{ text := text }]

def responseOpenAI2Gemini (unmarshal : String → Option Json) (answer : OpenAITextResponse) :
    GeminiChatResponse where
  candidates :=
    [{ content :=
         { role := "model"
           parts := textParts answer.content ++ answer.toolCalls.map (callPart unmarshal) }
       finishReason := some (mapFinishReason answer.finishReason) }]

def convertChoice (unmarshal : String → Option Json) (choice : ChunkChoice) : GeminiChatCandidate where
  content :=
    { role := "model"
      parts :=
        match choice.toolCalls with
        | some toolCalls => toolCalls.map (callPart unmarshal)
        | none => textParts choice.getContentString }
  finishReason := choice.finishReason.map mapFinishReason
  index := choice.index

/-- A chunk that says nothing gives no response. -/
def streamResponseOpenAI2Gemini (unmarshal : String → Option Json) (choices : List ChunkChoice) :
    Option GeminiChatResponse :=
  if choices.any (fun choice => choice.getContentString ≠ "" || choice.fragments ≠ []) ||
      choices.any (fun choice => choice.finishReason.isSome) then
    some { candidates := choices.map (convertChoice unmarshal) }
  else none

/-! ## What answers carry -/

/-- The text, the function calls and the finish reasons of an answer in one or more responses. -/
structure Carried where
  text : String
  calls : List FunctionCall
  finishReasons : List String

def carried (responses : List GeminiChatResponse) : Carried :=
  let candidates := responses.flatMap (·.candidates)
  let parts := candidates.flatMap (·.content.parts)
  { text := joined (parts.map (·.text))
    calls := parts.filterMap (·.functionCall)
    finishReasons := candidates.filterMap (·.finishReason) }

def assembled (choices : List ChunkChoice) : OpenAITextResponse where
  content := joined (choices.map (·.getContentString))
  toolCalls := assembleCalls (choices.flatMap (·.fragments))
  finishReason := (choices.filterMap (·.finishReason)).getLast?.getD ""

def streamed (unmarshal : String → Option Json) (choices : List ChunkChoice) :
    List GeminiChatResponse :=
  choices.filterMap fun choice => streamResponseOpenAI2Gemini unmarshal [choice]

section

variable (unmarshal : String → Option Json)

theorem text_textParts (text : String) : joined ((textParts text).map (·.text)) = text := by
  rw [textParts]
  split_ifs with h
  · exact h.symm
  · exact joined_singleton text

theorem joined_callPart (toolCalls : List ToolCallResponse) :
    joined ((toolCalls.map (callPart unmarshal)).map (·.text)) = "" := by
  rw [joined_eq_empty_iff]
  intro s hs
  obtain ⟨p, hp, rfl⟩ := mem_map.1 hs
  obtain ⟨t, -, rfl⟩ := mem_map.1 hp
  rfl

def callOf (toolCall : ToolCallResponse) : FunctionCall :=
  ((callPart unmarshal toolCall).functionCall).getD {}

theorem filterMap_textParts (text : String) :
    (textParts text).filterMap (·.functionCall) = [] := by
  rw [textParts]
  split_ifs <;> rfl

theorem calls_eq_map (toolCalls : List ToolCallResponse) :
    (toolCalls.map (callPart unmarshal)).filterMap (·.functionCall) =
      toolCalls.map (callOf unmarshal) := by
  rw [filterMap_map, ← filterMap_eq_map]
  rfl

theorem carried_response (answer : OpenAITextResponse) :
    carried [responseOpenAI2Gemini unmarshal answer] =
      { text := answer.content
        calls := answer.toolCalls.map (callOf unmarshal)
        finishReasons := [mapFinishReason answer.finishReason] } := by
  have hparts : ([responseOpenAI2Gemini unmarshal answer].flatMap (·.candidates)).flatMap
      (·.content.parts) = textParts answer.content ++ answer.toolCalls.map (callPart unmarshal) :=
    append_nil _
  rw [carried, hparts, map_append, joined_append, text_textParts, joined_callPart, String.append_empty,
    filterMap_append, filterMap_textParts, calls_eq_map, nil_append]
  rfl

def sentText (choice : ChunkChoice) : String :=
  if choice.toolCalls = none then choice.getContentString else ""

theorem carried_append (a b : List GeminiChatResponse) :
    carried (a ++ b) =
      { text := (carried a).text ++ (carried b).text
        calls := (carried a).calls ++ (carried b).calls
        finishReasons := (carried a).finishReasons ++ (carried b).finishReasons } := by
  simp only [carried, flatMap_append, map_append, joined_append, filterMap_append]

theorem carried_choice (choice : ChunkChoice) :
    carried (streamResponseOpenAI2Gemini unmarshal [choice]).toList =
      { text := sentText choice
        calls := choice.fragments.map (callOf unmarshal)
        finishReasons := (choice.finishReason.map mapFinishReason).toList } := by
  obtain ⟨index, content, toolCalls, finishReason⟩ := choice
  rw [streamResponseOpenAI2Gemini]
  split_ifs with hsaid
  · have hparts : ((some (GeminiChatResponse.mk ([(⟨index, content, toolCalls, finishReason⟩ :
        ChunkChoice)].map (convertChoice unmarshal)))).toList.flatMap (·.candidates)).flatMap
          (·.content.parts) =
        (convertChoice unmarshal ⟨index, content, toolCalls, finishReason⟩).content.parts :=
      append_nil _
    rw [carried]
    rw [hparts]
    have hreasons : ∀ o : Option String, [o].filterMap id = o.toList := by
      intro o
      cases o <;> rfl
    cases toolCalls with
    | none =>
      show Carried.mk (joined ((textParts (content.getD "")).map (·.text)))
        ((textParts (content.getD "")).filterMap (·.functionCall)) _ = _
      rw [text_textParts, filterMap_textParts]
      exact congrArg (Carried.mk _ _) (hreasons _)
    | some toolCalls =>
      show Carried.mk (joined ((toolCalls.map (callPart unmarshal)).map (·.text)))
        ((toolCalls.map (callPart unmarshal)).filterMap (·.functionCall)) _ = _
      rw [joined_callPart, calls_eq_map]
      exact congrArg (Carried.mk _ _) (hreasons _)
  · -- nothing is lost where no response is sent
    rw [any_cons, any_cons, any_nil, Bool.or_false, any_nil, Bool.or_false,
      Bool.or_eq_true, Bool.or_eq_true, not_or, not_or, decide_eq_true_eq, decide_eq_true_eq,
      not_not, not_not] at hsaid
    obtain ⟨⟨htext, hfragments⟩, hreason⟩ := hsaid
    cases finishReason with
    | some f => exact absurd rfl hreason
    | none =>
      have hsent : sentText ⟨index, content, toolCalls, none⟩ = "" := by
        rw [sentText]
        split_ifs
        · exact htext
        · rfl
      rw [hsent, hfragments]
      rfl

theorem carried_streamed (choices : List ChunkChoice) :
    carried (streamed unmarshal choices) =
      { text := joined (choices.map sentText)
        calls := (choices.flatMap (·.fragments)).map (callOf unmarshal)
        finishReasons := (choices.filterMap (·.finishReason)).map mapFinishReason } := by
  induction choices with
  | nil => rfl
  | cons choice choices ih =>
    have hcons : streamed unmarshal (choice :: choices) =
        (streamResponseOpenAI2Gemini unmarshal [choice]).toList ++ streamed unmarshal choices := by
      rw [streamed, filterMap_cons]
      cases streamResponseOpenAI2Gemini unmarshal [choice] <;> rfl
    rw [hcons, carried_append, carried_choice, ih, map_cons, joined_cons, flatMap_cons,
      map_append, filterMap_cons]
    cases choice.finishReason <;> rfl

end

/-! ## Nothing is lost -/

theorem joined_sentText_iff (choices : List ChunkChoice) :
    joined (choices.map sentText) = joined (choices.map (·.getContentString)) ↔
      ∀ choice ∈ choices, choice.toolCalls ≠ none → choice.getContentString = "" := by
  have hlength : ∀ l : List ChunkChoice, (joined (l.map sentText)).length ≤
      (joined (l.map (·.getContentString))).length := by
    intro l
    induction l with
    | nil => exact Nat.le_refl _
    | cons c l ih =>
      rw [map_cons, map_cons, joined_cons, joined_cons, String.length_append,
        String.length_append, sentText]
      split_ifs
      · omega
      · rw [String.length_empty]
        omega
  induction choices with
  | nil => exact iff_of_true rfl nofun
  | cons c choices ih =>
    rw [map_cons, map_cons, joined_cons, joined_cons, forall_mem_cons, sentText]
    refine Iff.trans ?_ (and_congr_right' ih)
    split
    · rename_i hnone
      rw [String.append_right_inj]
      exact (and_iff_right fun h => absurd hnone h).symm
    · rename_i hnone
      rw [String.empty_append]
      constructor
      · intro heq
        have hle := hlength choices
        have htext : c.getContentString = "" := by
          rw [← String.length_eq_zero_iff]
          have hlengths := congrArg String.length heq
          rw [String.length_append] at hlengths
          omega
        rw [htext, String.empty_append] at heq
        exact ⟨fun _ => htext, heq⟩
      · rintro ⟨htext, heq⟩
        rw [htext hnone, String.empty_append, heq]

theorem length_assembleCalls_le (l : List ToolCallResponse) : (assembleCalls l).length ≤ l.length := by
  induction l using List.reverseRecOn with
  | nil => exact Nat.le_refl _
  | append_singleton l f ih =>
    rw [assembleCalls_append_singleton, length_append]
    by_cases hmem : f.index ∈ (assembleCalls l).map (·.index)
    · have hlength := congrArg List.length (map_index_addFragment hmem)
      rw [length_map, length_map] at hlength
      omega
    · rw [addFragment_of_notMem hmem, length_append]
      omega

theorem nodup_of_length_assembleCalls {l : List ToolCallResponse}
    (h : (assembleCalls l).length = l.length) : (l.map (·.index)).Nodup := by
  induction l using List.reverseRecOn with
  | nil => exact nodup_nil
  | append_singleton l f ih =>
    have hle := length_assembleCalls_le l
    rw [assembleCalls_append_singleton, length_append, length_singleton] at h
    by_cases hmem : f.index ∈ (assembleCalls l).map (·.index)
    · have hlength := congrArg List.length (map_index_addFragment hmem)
      rw [length_map, length_map] at hlength
      omega
    · rw [addFragment_of_notMem hmem, length_append, length_singleton] at h
      have hnodup := ih (by omega)
      rw [assembleCalls_of_nodup hnodup] at hmem
      rw [map_append, nodup_append]
      refine ⟨hnodup, pairwise_singleton _ _, fun a ha b hb heq => hmem ?_⟩
      rw [map_singleton, mem_singleton] at hb
      rw [← hb, ← heq]
      exact ha

/-- A stream gives what the complete answer gives exactly when no text stands beside tool calls and each
call comes in one fragment. -/
theorem streamed_iff (unmarshal : String → Option Json) {choices : List ChunkChoice} {f : String}
    (hfinish : choices.filterMap (·.finishReason) = [f]) :
    carried (streamed unmarshal choices) =
        carried [responseOpenAI2Gemini unmarshal (assembled choices)] ↔
      (∀ choice ∈ choices, choice.toolCalls ≠ none → choice.getContentString = "") ∧
        ((choices.flatMap (·.fragments)).map (·.index)).Nodup := by
  rw [carried_streamed, carried_response, ← joined_sentText_iff, assembled, hfinish]
  constructor
  · intro heq
    obtain ⟨htext, hcalls, -⟩ := Carried.mk.inj heq
    refine ⟨htext, nodup_of_length_assembleCalls ?_⟩
    have hlength := congrArg List.length hcalls
    rw [length_map, length_map] at hlength
    exact hlength.symm
  · rintro ⟨htext, hnodup⟩
    rw [htext, assembleCalls_of_nodup hnodup]
    rfl

def sampleUnmarshal (s : String) : Option Json :=
  if s = "\x7b\"n\":1\x7d" then some (.obj [("n", .num "1" "1")]) else none

theorem streamed_iff_whole :
    carried (streamed sampleUnmarshal
        [{ content := some "a" }, { toolCalls := some [{ index := some 0, name := "f" }] },
          { finishReason := some "tool_calls" }]) =
      carried [responseOpenAI2Gemini sampleUnmarshal (assembled
        [{ content := some "a" }, { toolCalls := some [{ index := some 0, name := "f" }] },
          { finishReason := some "tool_calls" }])] :=
  (streamed_iff sampleUnmarshal rfl).2 (by decide)

def cutCall : List ChunkChoice :=
  [{ toolCalls := some [{ index := some 0, name := "f", arguments := "\x7b\"n\"" }] },
    { toolCalls := some [{ index := some 0, arguments := ":1\x7d" }] },
    { finishReason := some "tool_calls" }]

/-- The stream gives two calls, and the complete answer gives one. -/
theorem cutCall_lost :
    (carried (streamed sampleUnmarshal cutCall)).calls.map (·.functionName) = ["f", ""] ∧
      (carried [responseOpenAI2Gemini sampleUnmarshal (assembled cutCall)]).calls.map
        (·.functionName) = ["f"] := by
  decide +kernel

end BeeApi.RelayConvert.ChatToGemini
