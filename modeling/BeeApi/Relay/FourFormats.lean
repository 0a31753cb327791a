import BeeApi.Relay.AnswerFormats

/-!
# The four formats

Chat, Claude, Gemini and Responses answers, and which of their blocks are read in two ways.
-/

namespace BeeApi.Quality

open RelayConvert

/-- Audio and images are reported by the usage only. -/
inductive ChatBlock
  | text (s : String)
  | reasoning (s : String)
  | toolCall (call : ToolCallRequest)
  | media
deriving DecidableEq

namespace ChatBlock

def kind : ChatBlock → BlockKind
  | text _ => .text
  | reasoning _ => .reasoning
  | toolCall _ => .toolCall
  | media => .media

def textOf : ChatBlock → String
  | text s => s
  | _ => ""

def reasoningOf : ChatBlock → String
  | reasoning s => s
  | _ => ""

def callOf : ChatBlock → Option ToolCallRequest
  | toolCall call => some call
  | _ => none

end ChatBlock

def chatAnswer (blocks : List ChatBlock) : Message where
  role := "assistant"
  content := .str (joined (blocks.map ChatBlock.textOf))
  toolCalls := some (blocks.filterMap ChatBlock.callOf)

def ToolCallRequest.ofFragments (call : ToolCallResponse) : ToolCallRequest where
  id := call.id
  type := call.type
  name := call.name
  arguments := call.arguments

structure ChatSplits (blocks : List ChatBlock) (chunks : List ChatChunk) : Prop where
  content : contentOf (chunks.map (·.toChunk)) = joined (blocks.map ChatBlock.textOf)
  reasoning : reasoningOf (chunks.map (·.toChunk)) = joined (blocks.map ChatBlock.reasoningOf)
  calls : (toolCallsOf (chunks.map (·.toChunk))).map ToolCallRequest.ofFragments =
    blocks.filterMap ChatBlock.callOf
  media : (∃ chunk ∈ chunks, chunk.reportsMedia = true) ↔ ChatBlock.media ∈ blocks

def chat : Format where
  Block := ChatBlock
  Chunk := ChatChunk
  kind := ChatBlock.kind
  delta := deltaFromChat
  inspect blocks := noteQualityInspectFromOpenAIText [chatAnswer blocks]
  inUsage b := b = .media
  Splits := ChatSplits
  exceptional _ := false

inductive ClaudeToolType
  | toolUse
  | serverToolUse
  | mcpToolUse
deriving DecidableEq

def ClaudeToolType.name : ClaudeToolType → String
  | toolUse => "tool_use"
  | serverToolUse => "server_tool_use"
  | mcpToolUse => "mcp_tool_use"

inductive ClaudeBlock
  | text (s : String)
  | thinking (s : String)
  | toolUse (type : ClaudeToolType) (id name input : String)

namespace ClaudeBlock

def kind : ClaudeBlock → BlockKind
  | text _ => .text
  | thinking _ => .reasoning
  | toolUse _ _ _ _ => .toolCall

def whole : ClaudeBlock → ClaudeMediaMessage String
  | text s => { type := "text", text := some s }
  | thinking s => { type := "thinking", thinking := some s }
  | toolUse type id name input => { type := type.name, id := id, name := name, input := some input }

/-- What a stream sends in pieces. -/
def body : ClaudeBlock → String
  | text s => s
  | thinking s => s
  | toolUse _ _ _ input => input

def started : ClaudeBlock → ClaudeMediaMessage String
  | text _ => { type := "text", text := some "" }
  | thinking _ => { type := "thinking", thinking := some "" }
  | toolUse type id name _ => { type := type.name, id := id, name := name }

def piece : ClaudeBlock → String → ClaudeMediaMessage String
  | text _, s => { type := "text_delta", text := some s }
  | thinking _, s => { type := "thinking_delta", thinking := some s }
  | toolUse _ _ _ _, s => { type := "input_json_delta", partialJson := some s }

end ClaudeBlock

structure ClaudeAnswer.Starts (block : ClaudeMediaMessage String) (e : ClaudeAnswer) : Prop where
  type : e.type = "content_block_start"
  block : e.contentBlock = some block
  delta : e.delta = none
  content : e.content = []
  completion : e.completion = ""

structure ClaudeAnswer.Continues (piece : ClaudeMediaMessage String) (e : ClaudeAnswer) : Prop where
  type : e.type = "content_block_delta"
  delta : e.delta = some piece
  completion : e.completion = ""

/-- An event that belongs to no block: the message starts or ends, a block stops, a signature, a
ping. -/
def ClaudeAnswer.silent (e : ClaudeAnswer) : Bool :=
  e.contentBlock = none && e.content = [] && e.completion = "" &&
    e.delta.all fun d =>
      d.text = none && d.thinking = none && d.partialJson = none && d.type ≠ "input_json_delta"

def ClaudeBlock.Streams (b : ClaudeBlock) (events : List ClaudeAnswer) : Prop :=
  ∃ start rest texts, events = start :: rest ∧ start.Starts b.started ∧ joined texts = b.body ∧
    List.Forall₂ (fun s e => ClaudeAnswer.Continues (b.piece s) e) texts rest

def claude : Format where
  Block := ClaudeBlock
  Chunk := ClaudeAnswer
  kind := ClaudeBlock.kind
  delta := deltaFromClaude
  inspect blocks :=
    noteQualityInspectFromClaude { type := "message", content := blocks.map ClaudeBlock.whole }
  inUsage _ := false
  Splits blocks events := SplitsInto ClaudeBlock.Streams blocks (events.filter (!·.silent))
  exceptional
    | .toolUse .serverToolUse _ _ _ => true
    | .toolUse .mcpToolUse _ _ _ => true
    | _ => false

inductive GeminiBlock
  | text (s : String)
  | thought (s : String)
  | functionCall (call : FunctionCall)
  | inlineData (data : GeminiInlineData)

namespace GeminiBlock

def kind : GeminiBlock → BlockKind
  | text _ => .text
  | thought _ => .reasoning
  | functionCall _ => .toolCall
  | inlineData _ => .media

def part : GeminiBlock → GeminiPart
  | text s => { text := s }
  | thought s => { text := s, thought := true }
  | functionCall call => { functionCall := some call }
  | inlineData data => { inlineData := some data }

/-- Texts and thoughts may come in several parts. -/
def Streams : GeminiBlock → List GeminiPart → Prop
  | text s, parts => ∃ texts, joined texts = s ∧ parts = texts.map fun s => (text s).part
  | thought s, parts => ∃ texts, joined texts = s ∧ parts = texts.map fun s => (thought s).part
  | b, parts => parts = [b.part]

end GeminiBlock

def geminiAnswer (parts : List GeminiPart) : GeminiChatResponse where
  candidates := [{ content := { role := "model", parts := parts } }]

def gemini : Format where
  Block := GeminiBlock
  Chunk := GeminiChatResponse
  kind := GeminiBlock.kind
  delta := deltaFromGemini
  inspect blocks := noteQualityInspectFromGemini (geminiAnswer (blocks.map GeminiBlock.part))
  inUsage _ := false
  Splits blocks chunks := SplitsInto GeminiBlock.Streams blocks (chunks.flatMap geminiParts)
  exceptional
    | .inlineData data => data.mimeType ≠ ""
    | _ => false

inductive ResponsesToolType
  | functionCall
  | customToolCall
  | webSearchCall
deriving DecidableEq

def ResponsesToolType.name : ResponsesToolType → String
  | functionCall => "function_call"
  | customToolCall => "custom_tool_call"
  | webSearchCall => "web_search_call"

inductive ResponsesBlock
  | message (text : String)
  | reasoning (summary content : String)
  | tool (type : ResponsesToolType) (callId name arguments : String)
  | imageGenerationCall
deriving DecidableEq

namespace ResponsesBlock

def kind : ResponsesBlock → BlockKind
  | message _ => .text
  | reasoning _ _ => .reasoning
  | tool _ _ _ _ => .toolCall
  | imageGenerationCall => .media

/-- An item of the whole answer; nothing is read of the summary of a reasoning. -/
def output : ResponsesBlock → ResponsesOutput
  | message text =>
    { type := "message", role := "assistant", content := [{ type := "output_text", text := text }] }
  | reasoning _ content =>
    { type := "reasoning"
      content := if content = "" then [] else [{ type := "reasoning_text", text := content }] }
  | tool type callId name arguments =>
    { type := type.name, callId := callId, name := name, arguments := arguments }
  | imageGenerationCall => { type := "image_generation_call" }

def body : ResponsesBlock → String
  | message text => text
  | reasoning summary content => summary ++ content
  | tool _ _ _ arguments => arguments
  | imageGenerationCall => ""

def bodyKind : ResponsesBlock → EventKind
  | message _ => .textDelta
  | reasoning _ _ => .reasoningDelta
  | _ => .argumentsDelta

end ResponsesBlock

/-- The event adds an item of the type, or it is the end of it. -/
structure ResponsesFrame (kind : EventKind) (type : String) (e : ResponsesStreamResponse) : Prop where
  kind : e.kind = kind
  item : e.item.map (·.type) = some type

def ofItem (e : ResponsesStreamResponse) : Bool :=
  e.kind = .textDelta || e.kind = .reasoningDelta || e.kind = .itemAdded || e.kind = .itemDone ||
    e.kind = .argumentsDelta

def ResponsesBlock.Streams (b : ResponsesBlock) (events : List ResponsesStreamResponse) : Prop :=
  ∃ first rest last texts, events = first :: (rest ++ [last]) ∧
    ResponsesFrame .itemAdded b.output.type first ∧ ResponsesFrame .itemDone b.output.type last ∧
    joined texts = b.body ∧ (b = .imageGenerationCall → texts = []) ∧
    List.Forall₂ (fun s e => e.kind = b.bodyKind ∧ ResponsesStreamResponse.delta e = s) texts rest

/-- The items come one after the other; an event that completes the answer carries all of it. -/
structure ResponsesSplits (blocks : List ResponsesBlock) (events : List ResponsesStreamResponse) :
    Prop where
  items : SplitsInto ResponsesBlock.Streams blocks (events.filter ofItem)
  completed : ∀ e ∈ events, e.kind = .completed → ∀ resp ∈ e.response,
    resp.output = blocks.map ResponsesBlock.output

def responses : Format where
  Block := ResponsesBlock
  Chunk := ResponsesStreamResponse
  kind := ResponsesBlock.kind
  delta := deltaFromResponses
  inspect blocks := noteQualityInspectFromResponses { output := blocks.map ResponsesBlock.output }
  inUsage _ := false
  Splits := ResponsesSplits
  exceptional
    | .reasoning _ content => content ≠ ""
    | .tool .customToolCall _ _ _ => true
    | .imageGenerationCall => true
    | _ => false

end BeeApi.Quality
