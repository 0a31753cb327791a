import Mathlib.Data.List.ReduceOption
import BeeApi.Lib.Strings
import BeeApi.Lib.Table
import BeeApi.RelayConvert.Chunk
import BeeApi.RelayConvert.Message

/-!
# Claude answers as chat answers

`StreamResponseClaude2OpenAIWithInfo` turns the events of a stream into chunks, one by one, and
`ResponseClaude2OpenAI` turns a whole message into an answer.
-/

namespace BeeApi.RelayConvert

open Strings

variable {J : Type}

/-- What is read of the message of a `message_start` event. -/
structure ClaudeStartedMessage where
  id : String := ""
  model : String := ""

/-- An event of a stream, or a whole message. -/
structure ClaudeResponse (J : Type) where
  type : String
  id : String := ""
  model : String := ""
  content : List (ClaudeMediaMessage J) := []
  stopReason : String := ""
  index : Option ℕ := none
  contentBlock : Option (ClaudeMediaMessage J) := none
  delta : Option (ClaudeMediaMessage J) := none
  message : Option ClaudeStartedMessage := none

structure ClaudeResponseInfo where
  openAIToolCallIndexByBlock : Table ℕ ℕ := ∅
  nextOpenAIToolCallIndex : ℕ := 0

def claudeStopReasonToOpenAIFinishReason (stopReason : String) : String :=
  if toLower stopReason = "stop_sequence" then "stop"
  else if toLower stopReason = "end_turn" then "stop"
  else if toLower stopReason = "max_tokens" then "length"
  else if toLower stopReason = "tool_use" then "tool_calls"
  else if toLower stopReason = "refusal" then "content_filter"
  else stopReason

/-- The index that a tool block has among the tool calls, and the record that remembers it. -/
def openAIToolCallIndex (claudeInfo : Option ClaudeResponseInfo) (blockIndex : ℕ) :
    ℕ × Option ClaudeResponseInfo :=
  match claudeInfo with
  | none => (blockIndex, none)
  | some info =>
    match info.openAIToolCallIndexByBlock.get? blockIndex with
    | some index => (index, some info)
    | none =>
      let index := info.nextOpenAIToolCallIndex
      (index, some
        { openAIToolCallIndexByBlock := info.openAIToolCallIndexByBlock.put blockIndex index
          nextOpenAIToolCallIndex := index + 1 })

/-- The end of the function: the one choice of the chunk. -/
def chunkOfChoice (response : Chunk) (choice : Choice) (tools : List ToolCallResponse) : Chunk :=
  if tools ≠ [] then
    { response with
      choices := [{ choice with delta := { choice.delta with content := none, toolCalls := tools } }] }
  else { response with choices := [choice] }

/-- No chunk is `nil`. -/
def streamResponseClaude2OpenAIWithInfo (claudeResponse : ClaudeResponse J)
    (claudeInfo : Option ClaudeResponseInfo) :
    Except String (Option Chunk × Option ClaudeResponseInfo) :=
  let response : Chunk := { model := claudeResponse.model }
  let fcIdx := claudeResponse.index.getD 0
  if claudeResponse.type = "message_start" then
    let response : Chunk :=
      match claudeResponse.message with
      | some message => { id := message.id, model := message.model }
      | none => response
    let choice : Choice := { delta := { content := some "", role := "assistant" } }
    .ok (some (chunkOfChoice response choice []), claudeInfo)
  else if claudeResponse.type = "content_block_start" then
    match claudeResponse.contentBlock with
    | none => .ok (none, claudeInfo)
    | some block =>
      let choice : Choice := { delta := { content := if block.type = "text" then block.text else none } }
      if block.type = "tool_use" then
        let (index, claudeInfo) := openAIToolCallIndex claudeInfo fcIdx
        let tool : ToolCallResponse := { index := some index, id := block.id, name := block.name }
        .ok (some (chunkOfChoice response choice [tool]), claudeInfo)
      else .ok (some (chunkOfChoice response choice []), claudeInfo)
  else if claudeResponse.type = "content_block_delta" then
    match claudeResponse.delta with
    | none => .ok (some (chunkOfChoice response {} []), claudeInfo)
    | some delta =>
      let choice : Choice := { delta := { content := delta.text } }
      if delta.type = "input_json_delta" then
        match delta.partialJson with
        | none => .error "nil pointer dereference"
        | some partialJson =>
          let (index, claudeInfo) := openAIToolCallIndex claudeInfo fcIdx
          let tool : ToolCallResponse := { index := some index, arguments := partialJson }
          .ok (some (chunkOfChoice response choice [tool]), claudeInfo)
      else if delta.type = "signature_delta" then
        let choice := { choice with delta := { choice.delta with reasoningContent := some "\n" } }
        .ok (some (chunkOfChoice response choice []), claudeInfo)
      else if delta.type = "thinking_delta" then
        let choice := { choice with delta := { choice.delta with reasoningContent := delta.thinking } }
        .ok (some (chunkOfChoice response choice []), claudeInfo)
      else .ok (some (chunkOfChoice response choice []), claudeInfo)
  else if claudeResponse.type = "message_delta" then
    let finishReason :=
      match claudeResponse.delta.bind (·.stopReason) with
      | none => none
      | some stopReason =>
        let finishReason := claudeStopReasonToOpenAIFinishReason stopReason
        if finishReason ≠ "null" then some finishReason else none
    .ok (some (chunkOfChoice response { finishReason := finishReason } []), claudeInfo)
  else .ok (none, claudeInfo)

def streamChunks : List (ClaudeResponse J) → Option ClaudeResponseInfo →
    Except String (List Chunk × Option ClaudeResponseInfo)
  | [], claudeInfo => .ok ([], claudeInfo)
  | claudeResponse :: rest, claudeInfo => do
    let (chunk, claudeInfo) ← streamResponseClaude2OpenAIWithInfo claudeResponse claudeInfo
    let (chunks, claudeInfo) ← streamChunks rest claudeInfo
    return (chunk.toList ++ chunks, claudeInfo)

structure ContentLoop where
  responseText : String := ""
  thinkingContent : String := ""
  tools : List ToolCallResponse := []

def convertContent (c : Codec J) (st : ContentLoop) (message : ClaudeMediaMessage J) : ContentLoop :=
  if message.type = "tool_use" then
    let args :=
      match message.input with
      | some input => c.marshal input
      | none => "null"
    { st with tools := st.tools ++ [{ id := message.id, name := message.name, arguments := args }] }
  else if message.type = "thinking" then
    match message.thinking with
    | some thinking => { st with thinkingContent := thinking }
    | none => st
  else if message.type = "text" then { st with responseText := message.getText }
  else st

def responseClaude2OpenAI (c : Codec J) (claudeResponse : ClaudeResponse J) : OpenAITextResponse :=
  let first := claudeResponse.content.head?
  let responseText := (first.map (·.getText)).getD ""
  let responseThinking := (first.bind (·.thinking)).getD ""
  let st := claudeResponse.content.foldl (convertContent c) { responseText := responseText }
  { id := claudeResponse.id
    model := claudeResponse.model
    content := st.responseText
    reasoningContent :=
      if st.thinkingContent ≠ "" then some st.thinkingContent
      else if responseThinking ≠ "" then some responseThinking
      else none
    toolCalls := st.tools
    finishReason := claudeStopReasonToOpenAIFinishReason claudeResponse.stopReason }

/-- A block as it is streamed.  The texts and tool inputs come in deltas; a delta of a thinking block
without a text is its signature. -/
inductive StreamedBlock (c : Codec J)
  | text (start : Option String) (deltas : List String) (started : start.getD "" = "")
  | thinking (deltas : List (Option String))
  | toolUse (id name : String) (start : Option J) (deltas : List String) (input : J)
      (parsed : c.unmarshal (joined deltas) = some input)

namespace StreamedBlock

variable {c : Codec J}

def assembled : StreamedBlock c → ClaudeMediaMessage J
  | text _ deltas _ => { type := "text", text := some (joined deltas) }
  | thinking deltas => { type := "thinking", thinking := some (joined deltas.reduceOption) }
  | toolUse id name _ _ input _ => { type := "tool_use", id := id, name := name, input := some input }

def contentBlock : StreamedBlock c → ClaudeMediaMessage J
  | text start _ _ => { type := "text", text := start }
  | thinking _ => { type := "thinking", thinking := some "" }
  | toolUse id name start _ _ _ => { type := "tool_use", id := id, name := name, input := start }

def blockDeltas : StreamedBlock c → List (ClaudeMediaMessage J)
  | text _ deltas _ => deltas.map fun s => { type := "text_delta", text := some s }
  | thinking deltas => deltas.map fun
    | some s => { type := "thinking_delta", thinking := some s }
    | none => { type := "signature_delta" }
  | toolUse _ _ _ deltas _ _ => deltas.map fun s => { type := "input_json_delta", partialJson := some s }

def events (i : ℕ) (b : StreamedBlock c) : List (ClaudeResponse J) :=
  { type := "content_block_start", index := some i, contentBlock := some b.contentBlock } ::
    (b.blockDeltas.map fun d => { type := "content_block_delta", index := some i, delta := some d }) ++
    [{ type := "content_block_stop", index := some i }]

end StreamedBlock

structure ClaudeStream (c : Codec J) where
  id : String
  model : String
  blocks : List (StreamedBlock c)
  stopReason : String

namespace ClaudeStream

variable {c : Codec J}

def eventsFrom : ℕ → List (StreamedBlock c) → List (ClaudeResponse J)
  | _, [] => []
  | i, b :: blocks => b.events i ++ eventsFrom (i + 1) blocks

def events (s : ClaudeStream c) : List (ClaudeResponse J) :=
  { type := "message_start", message := some { id := s.id, model := s.model } } ::
    (eventsFrom 0 s.blocks ++
      [{ type := "message_delta", delta := some { type := "", stopReason := some s.stopReason } },
       { type := "message_stop" }])

def message (s : ClaudeStream c) : ClaudeResponse J where
  type := "message"
  id := s.id
  model := s.model
  content := s.blocks.map StreamedBlock.assembled
  stopReason := s.stopReason

end ClaudeStream

/-- The first text is the second with `n` line breaks put into it. -/
structure InsertsBreaks (n : ℕ) (streamed plain : String) : Prop where
  sublist : plain.toList.Sublist streamed.toList
  others : streamed.toList.filter (· ≠ '\n') = plain.toList.filter (· ≠ '\n')
  length : streamed.toList.length = plain.toList.length + n

/-- The same call, with arguments that are the same JSON value. -/
def SameToolCall (c : Codec J) (streamed plain : ToolCallResponse) : Prop :=
  streamed.id = plain.id ∧ streamed.name = plain.name ∧
    ∃ input, c.unmarshal streamed.arguments = some input ∧ c.unmarshal plain.arguments = some input

/-- The chunks of a stream with `n` signatures make up the same answer. -/
structure SameAnswer (c : Codec J) (n : ℕ) (chunks : List Chunk) (plain : OpenAITextResponse) :
    Prop where
  content : contentOf chunks = plain.content
  reasoning : InsertsBreaks n (reasoningOf chunks) (plain.reasoningContent.getD "")
  calls : List.Forall₂ (SameToolCall c) (toolCallsOf chunks) plain.toolCalls
  indices : (toolCallsOf chunks).map (·.index) = (List.range plain.toolCalls.length).map some
  finishReason : finishReasonOf chunks = some plain.finishReason

end BeeApi.RelayConvert
