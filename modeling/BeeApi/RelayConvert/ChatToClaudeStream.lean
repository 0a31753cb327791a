import BeeApi.Lib.Blocks
import BeeApi.RelayConvert.ClaudeToChatResponse

/-!
# Chat chunks as a Claude stream

`StreamResponseOpenAI2Claude`.  The record of a stream says which blocks are open and how far the block
numbers have come; the first chunk, the chunks behind it and a chunk with nothing but the usage are
converted separately.  The only input that the blocks have is the empty object, so `Unit` stands for
the JSON values.
-/

namespace BeeApi.RelayConvert

open Strings

/-- The kind of the blocks that are open. -/
inductive LastMessageType
  | none
  | text
  | tools
  | thinking
deriving DecidableEq

/-- The record of a stream. -/
structure ClaudeConvertInfo where
  lastMessagesType : LastMessageType := .none
  index : ℕ := 0
  usage : Option Usage := none
  finishReason : String := ""
  done : Bool := false
  toolCallBaseIndex : ℕ := 0
  toolCallMaxIndexOffset : ℕ := 0

/-- An event of a Claude stream. -/
abbrev ClaudeEvent := ClaudeResponse Unit

/-- The stop reason for a finish reason; others are passed on. -/
def openAIFinishReasonToClaudeStopReason (finishReason : String) : String :=
  if toLower finishReason = "stop" then "end_turn"
  else if toLower finishReason = "stop_sequence" then "stop_sequence"
  else if toLower finishReason = "length" ∨ toLower finishReason = "max_tokens" then "max_tokens"
  else if toLower finishReason = "content_filter" then "refusal"
  else if toLower finishReason = "tool_calls" then "tool_use"
  else finishReason

/-! ## Events -/

/-- The end of a block. -/
def generateStopBlock (index : ℕ) : ClaudeEvent :=
  { type := "content_block_stop", index := some index }

/-- The start of a block. -/
def startBlock (index : ℕ) (block : ClaudeMediaMessage Unit) : ClaudeEvent :=
  { type := "content_block_start", index := some index, contentBlock := some block }

/-- A part of a block. -/
def blockDelta (index : ℕ) (delta : ClaudeMediaMessage Unit) : ClaudeEvent :=
  { type := "content_block_delta", index := some index, delta := some delta }

def startThinking (index : ℕ) : ClaudeEvent :=
  startBlock index { type := "thinking", thinking := some "" }

def thinkingDelta (index : ℕ) (reasoning : String) : ClaudeEvent :=
  blockDelta index { type := "thinking_delta", thinking := some reasoning }

def startText (index : ℕ) : ClaudeEvent := startBlock index { type := "text", text := some "" }

def textDelta (index : ℕ) (content : String) : ClaudeEvent :=
  blockDelta index { type := "text_delta", text := some content }

def startToolUse (index : ℕ) (toolCall : ToolCallResponse) : ClaudeEvent :=
  startBlock index { type := "tool_use", id := toolCall.id, name := toolCall.name, input := some () }

def inputJsonDelta (index : ℕ) (arguments : String) : ClaudeEvent :=
  blockDelta index { type := "input_json_delta", partialJson := some arguments }

/-- The stop reason of the message. -/
def messageDelta (stopReason : String) : ClaudeEvent :=
  { type := "message_delta", delta := some { type := "", stopReason := some stopReason } }

def messageStop : ClaudeEvent := { type := "message_stop" }

/-- The ends of the open blocks; tool calls have one block each. -/
def stopOpenBlocks (info : ClaudeConvertInfo) : List ClaudeEvent :=
  match info.lastMessagesType with
  | .text | .thinking => [generateStopBlock info.index]
  | .tools => (List.range (info.toolCallMaxIndexOffset + 1)).map fun offset =>
      generateStopBlock (info.toolCallBaseIndex + offset)
  | .none => []

/-- The record behind the blocks that are open, with the number of the next block. -/
def advance (info : ClaudeConvertInfo) : ClaudeConvertInfo :=
  match info.lastMessagesType with
  | .none => info
  | .tools =>
    { info with
      index := info.toolCallBaseIndex + info.toolCallMaxIndexOffset + 1
      toolCallBaseIndex := 0
      toolCallMaxIndexOffset := 0
      lastMessagesType := .none }
  | _ => { info with index := info.index + 1, lastMessagesType := .none }

def stopOpenBlocksAndAdvance (info : ClaudeConvertInfo) : List ClaudeEvent × ClaudeConvertInfo :=
  (stopOpenBlocks info, advance info)

/-- The end of a message; a `message_delta` is sent when there is a usage. -/
def closeMessage (info : ClaudeConvertInfo) (usage : Option Usage) (stopReason : String) :
    List ClaudeEvent × ClaudeConvertInfo :=
  let oaiUsage := usage.orElse fun _ => info.usage
  (stopOpenBlocks info ++ (if oaiUsage ≠ none then [messageDelta stopReason] else []) ++
    [messageStop], { info with done := true })

/-- The first tool call of the first chunk; others are not looked at. -/
def firstToolCall (info : ClaudeConvertInfo) (delta : Delta) : List ClaudeEvent × ClaudeConvertInfo :=
  match delta.toolCalls with
  | [] => ([], info)
  | toolCall :: _ =>
    let claudeResponses :=
      startToolUse 0 toolCall ::
        if toolCall.arguments ≠ "" then [inputJsonDelta 0 toolCall.arguments] else []
    (claudeResponses, { info with
        lastMessagesType := .tools, toolCallBaseIndex := 0, toolCallMaxIndexOffset := 0 })

/-- Reasoning goes before text. -/
def firstContent (info : ClaudeConvertInfo) (delta : Delta) : List ClaudeEvent × ClaudeConvertInfo :=
  if delta.getReasoningContent ≠ "" then
    let (claudeResponses, info) :=
      if info.lastMessagesType ≠ .thinking then stopOpenBlocksAndAdvance info else ([], info)
    (claudeResponses ++
      [startThinking info.index, thinkingDelta info.index delta.getReasoningContent],
      { info with lastMessagesType := .thinking })
  else if delta.getContentString ≠ "" then
    let (claudeResponses, info) :=
      if info.lastMessagesType ≠ .text then stopOpenBlocksAndAdvance info else ([], info)
    (claudeResponses ++ [startText info.index, textDelta info.index delta.getContentString],
      { info with lastMessagesType := .text })
  else ([], info)

/-- The choice has a finish reason. -/
def Choice.isDone (choice : Choice) : Bool := choice.finishReason.getD "" ≠ ""

/-- The first chunk starts the message. -/
def firstChunk (openAIResponse : Chunk) (info : ClaudeConvertInfo) :
    List ClaudeEvent × ClaudeConvertInfo :=
  let message : ClaudeStartedMessage := { id := openAIResponse.id, model := openAIResponse.model }
  let messageStart : ClaudeEvent := { type := "message_start", message := some message }
  match openAIResponse.choices.head? with
  | none => ([messageStart], info)
  | some choice =>
    let (tools, info) := firstToolCall info choice.delta
    let (content, info) := firstContent info choice.delta
    if choice.isDone then
      let info := { info with finishReason := choice.finishReason.getD "" }
      let (closing, info) := closeMessage info openAIResponse.usage
        (openAIFinishReasonToClaudeStopReason info.finishReason)
      (messageStart :: (tools ++ content ++ closing), info)
    else (messageStart :: (tools ++ content), info)

/-! ## The chunks behind it -/

/-- A chunk without choices closes the message. -/
def usageOnlyChunk (openAIResponse : Chunk) (info : ClaudeConvertInfo) :
    List ClaudeEvent × ClaudeConvertInfo :=
  if (openAIResponse.usage.orElse fun _ => info.usage) ≠ none then
    let stopReason := openAIFinishReasonToClaudeStopReason info.finishReason
    closeMessage info openAIResponse.usage (if stopReason = "" then "end_turn" else stopReason)
  else ([], info)

/-- What a fragment of a call adds to its block. -/
def toolCallEvents (blockIndex : ℕ) (toolCall : ToolCallResponse) : List ClaudeEvent :=
  (if toolCall.name ≠ "" then [startToolUse blockIndex toolCall] else []) ++
    if toolCall.arguments ≠ "" then [inputJsonDelta blockIndex toolCall.arguments] else []

/-- The loop over the tool calls of a chunk, from the position `i` on: the events and the greatest
offset. -/
def toolCallLoop (base : ℕ) : ℕ → ℕ → List ToolCallResponse → List ClaudeEvent × ℕ
  | _, maxOffset, [] => ([], maxOffset)
  | i, maxOffset, toolCall :: toolCalls =>
    let offset := toolCall.index.getD i
    let maxOffset := if maxOffset < offset then offset else maxOffset
    let (claudeResponses, maxOffset') := toolCallLoop base (i + 1) maxOffset toolCalls
    (toolCallEvents (base + offset) toolCall ++ claudeResponses, maxOffset')

/-- The tool calls of a later chunk. -/
def convertToolCalls (info : ClaudeConvertInfo) (toolCalls : List ToolCallResponse) :
    List ClaudeEvent × ClaudeConvertInfo :=
  let (stops, info) :=
    if info.lastMessagesType ≠ .tools then
      let (stops, info) := stopOpenBlocksAndAdvance info
      (stops, { info with toolCallBaseIndex := info.index, toolCallMaxIndexOffset := 0 })
    else ([], info)
  let base := info.toolCallBaseIndex
  let (claudeResponses, maxOffset) := toolCallLoop base 0 info.toolCallMaxIndexOffset toolCalls
  (stops ++ claudeResponses, { info with
      lastMessagesType := .tools, toolCallMaxIndexOffset := maxOffset, index := base + maxOffset })

/-- The content of a later chunk. -/
def convertContentDelta (info : ClaudeConvertInfo) (delta : Delta) :
    List ClaudeEvent × ClaudeConvertInfo :=
  if delta.getReasoningContent ≠ "" then
    let (claudeResponses, info) :=
      if info.lastMessagesType ≠ .thinking then
        let (stops, info) := stopOpenBlocksAndAdvance info
        (stops ++ [startThinking info.index], info)
      else ([], info)
    (claudeResponses ++ [thinkingDelta info.index delta.getReasoningContent],
      { info with lastMessagesType := .thinking })
  else if delta.getContentString ≠ "" then
    let (claudeResponses, info) :=
      if info.lastMessagesType ≠ .text then
        let (stops, info) := stopOpenBlocksAndAdvance info
        (stops ++ [startText info.index], info)
      else ([], info)
    (claudeResponses ++ [textDelta info.index delta.getContentString],
      { info with lastMessagesType := .text })
  else ([], info)

/-- A chunk with a choice behind the first one. -/
def laterChunk (openAIResponse : Chunk) (choice : Choice) (info : ClaudeConvertInfo) :
    List ClaudeEvent × ClaudeConvertInfo :=
  let info :=
    if choice.isDone then { info with finishReason := choice.finishReason.getD "" } else info
  -- the usage of the record is not looked at here
  if choice.isDone ∧ openAIResponse.usage = none then ([], info)
  else
    let (claudeResponses, info) :=
      if choice.delta.toolCalls ≠ [] then convertToolCalls info choice.delta.toolCalls
      else convertContentDelta info choice.delta
    if choice.isDone ∨ info.done then
      let (closing, info) := closeMessage info openAIResponse.usage
        (openAIFinishReasonToClaudeStopReason info.finishReason)
      (claudeResponses ++ closing, info)
    else (claudeResponses, info)

/-- The events for one chunk. -/
def streamResponseOpenAI2Claude (sendResponseCount : ℕ) (openAIResponse : Chunk)
    (info : ClaudeConvertInfo) : List ClaudeEvent × ClaudeConvertInfo :=
  if info.done then ([], info)
  else if sendResponseCount = 1 then firstChunk openAIResponse info
  else
    match openAIResponse.choices.head? with
    | none => usageOnlyChunk openAIResponse info
    | some choice => laterChunk openAIResponse choice info

/-- The events of a stream, the first chunk having the count `n`. -/
def claudeEvents : ℕ → ClaudeConvertInfo → List Chunk → List ClaudeEvent
  | _, _, [] => []
  | n, info, chunk :: chunks =>
    let (events, info) := streamResponseOpenAI2Claude n chunk info
    events ++ claudeEvents (n + 1) info chunks

/-! ## What the events make up -/

/-- What a block is about. -/
inductive BlockKind
  | text
  | thinking
  | toolUse
deriving DecidableEq

/-- The kind of a block or of a delta. -/
def blockKind (type : String) : Option BlockKind :=
  if type = "text" ∨ type = "text_delta" then some .text
  else if type = "thinking" ∨ type = "thinking_delta" then some .thinking
  else if type = "tool_use" ∨ type = "input_json_delta" then some .toolUse
  else none

/-- What an event does to the blocks. -/
def blockEvent? (e : ClaudeEvent) : Option (Blocks.Event BlockKind) :=
  if e.type = "content_block_start" then do
    return .start (← e.index) (← blockKind (← e.contentBlock).type)
  else if e.type = "content_block_delta" then do
    return .delta (← e.index) (← blockKind (← e.delta).type)
  else if e.type = "content_block_stop" then do
    return .stop (← e.index)
  else none

/-- A start, complete blocks, the stop reason and the end. -/
def WellFormedClaude (events : List ClaudeEvent) : Prop :=
  ∃ first blocks stopReason bs, events = first :: (blocks ++ [messageDelta stopReason, messageStop]) ∧
    first.type = "message_start" ∧ blocks.map blockEvent? = bs.map some ∧ Blocks.Complete bs

/-- The text of an event under a field. -/
def eventText (field : ClaudeMediaMessage Unit → Option String) (e : ClaudeEvent) : String :=
  ((e.contentBlock.bind field).getD "") ++ ((e.delta.bind field).getD "")

/-- The text that a client sees. -/
def claudeText (events : List ClaudeEvent) : String :=
  joined (events.map (eventText (·.text)))

/-- The reasoning that a client sees. -/
def claudeThinking (events : List ClaudeEvent) : String :=
  joined (events.map (eventText (·.thinking)))

/-- The part of a tool call that an event carries, under the number of its block. -/
def eventFragment? (e : ClaudeEvent) : Option ToolCallResponse :=
  match e.contentBlock, e.delta with
  | some block, _ =>
    if block.type = "tool_use" then some { index := e.index, name := block.name } else none
  | none, some delta => delta.partialJson.map fun json => { index := e.index, arguments := json }
  | none, none => none

/-- The names of the tool blocks and their JSON texts, in the order of the blocks. -/
def claudeTools (events : List ClaudeEvent) : List (String × String) :=
  (assembleCalls (events.filterMap eventFragment?)).map fun call => (call.name, call.arguments)

/-- The fragments of a chunk, each with its index or else its position. -/
def indexed (i : ℕ) : List ToolCallResponse → List ToolCallResponse
  | [] => []
  | f :: fs => { f with index := some (f.index.getD i) } :: indexed (i + 1) fs

/-- The fragments of all chunks. -/
def indexedFragments (chunks : List Chunk) : List ToolCallResponse :=
  (deltas chunks).flatMap fun d => indexed 0 d.toolCalls

/-- The calls that the chunks make up. -/
def chatTools (chunks : List Chunk) : List (String × String) :=
  (assembleCalls (indexedFragments chunks)).map fun call => (call.name, call.arguments)

/-! ## Streams of chunks -/

/-- The indices appear first in the order 0, 1, 2, ..., the first `n` having appeared, and each name
comes with the first fragment of its index. -/
def InOrder : ℕ → List ToolCallResponse → Prop
  | _, [] => True
  | n, f :: fs =>
    (∃ i < n, f.index = some i ∧ f.name = "" ∧ InOrder n fs) ∨
      f.index = some n ∧ f.name ≠ "" ∧ InOrder (n + 1) fs

/-- A stream of chunks: those before the finish reason, the one with it, and possibly one with nothing
but the usage. -/
structure ChatStream where
  body : List Chunk
  last : Chunk
  usageOnly : Option Chunk
  body_single : ∀ chunk ∈ body, ∃ choice, chunk.choices = [choice] ∧ choice.isDone = false
  last_single : ∃ choice, last.choices = [choice] ∧ choice.isDone = true
  usageOnly_empty : ∀ chunk ∈ usageOnly, chunk.choices = [] ∧ chunk.usage ≠ none
  usage : last.usage ≠ none ∨ usageOnly ≠ none

/-- The stream as a list. -/
def ChatStream.chunks (s : ChatStream) : List Chunk := s.body ++ s.last :: s.usageOnly.toList

/-- A fragment that adds nothing. -/
def Blank (f : ToolCallResponse) : Prop := f.name = "" ∧ f.arguments = ""

/-- The delta has a text or reasoning. -/
def HasContent (d : Delta) : Prop := d.getReasoningContent ≠ "" ∨ d.getContentString ≠ ""

instance : DecidablePred Blank := fun f => inferInstanceAs (Decidable (f.name = "" ∧ f.arguments = ""))

instance : DecidablePred HasContent :=
  fun d => inferInstanceAs (Decidable (d.getReasoningContent ≠ "" ∨ d.getContentString ≠ ""))

/-- No tool call follows a text or reasoning. -/
def NoToolsAfterContent : List Delta → Prop
  | [] => True
  | d :: ds => (HasContent d → ∀ d' ∈ ds, d'.toolCalls = []) ∧ NoToolsAfterContent ds

/-- The tool calls of a stream are not interrupted by a text or reasoning. -/
def ToolsTogether : List Delta → Prop
  | [] => True
  | d :: ds => (d.toolCalls ≠ [] → NoToolsAfterContent (d :: ds)) ∧ ToolsTogether ds

instance decidableNoToolsAfterContent : DecidablePred NoToolsAfterContent
  | [] => isTrue trivial
  | d :: ds =>
    have := decidableNoToolsAfterContent ds
    inferInstanceAs (Decidable ((HasContent d → ∀ d' ∈ ds, d'.toolCalls = []) ∧ _))

instance decidableToolsTogether : DecidablePred ToolsTogether
  | [] => isTrue trivial
  | d :: ds =>
    have := decidableToolsTogether ds
    inferInstanceAs (Decidable ((d.toolCalls ≠ [] → NoToolsAfterContent (d :: ds)) ∧ _))

/-- No chunk brings two kinds at once. -/
structure OneKind (ds : List Delta) : Prop where
  content : ∀ d ∈ ds, d.getReasoningContent = "" ∨ d.getContentString = ""
  first : ∀ d ∈ ds.head?, ∀ f ∈ d.toolCalls.tail, Blank f
  later : ∀ d ∈ ds.tail, d.toolCalls = [] ∨ ¬ HasContent d

/-- The chunk with the finish reason has a usage, or it is not the first one and adds nothing. -/
def ChatStream.FinishAddsNothing (s : ChatStream) : Prop :=
  s.last.usage ≠ none ∨ s.body ≠ [] ∧
    ∀ d ∈ deltas [s.last], ¬ HasContent d ∧ ∀ f ∈ d.toolCalls, Blank f

/-- The streams that are converted without a loss. -/
structure ChatStream.Convertible (s : ChatStream) : Prop where
  oneKind : OneKind (deltas s.chunks)
  together : ToolsTogether (deltas s.chunks)
  finish : s.FinishAddsNothing

end BeeApi.RelayConvert
