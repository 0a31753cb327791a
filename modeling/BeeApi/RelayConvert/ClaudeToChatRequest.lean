import BeeApi.RelayConvert.Message

/-!
# Claude requests as chat requests

`ClaudeMessagesRequestToOpenAIChat`, the messages.  A Claude message becomes the tool messages of its
results, and behind them one message with the rest of it.
-/

namespace BeeApi.RelayConvert

variable {J : Type}

/-- The `system` of a request. -/
inductive ClaudeSystem (J : Type)
  | null
  | str (s : String)
  | blocks (l : List (ClaudeMediaMessage J))

structure ClaudeRequest (J : Type) where
  system : ClaudeSystem J := .null
  messages : List (ClaudeMessage J) := []

def searchToolNameByToolCallId (req : ClaudeRequest J) (toolCallId : String) : String :=
  match (req.messages.flatMap ClaudeMessage.parseContent).find? fun b => b.id = toolCallId with
  | some b => b.name
  | none => ""

/-- `requestToJSONString`; an absent value is encoded as `null`. -/
def requestToJSONString (c : Codec J) : Option J → String
  | some j => c.marshal j
  | none => "null"

def systemMessages (isOpenRouterClaude : Bool) (req : ClaudeRequest J) : List Message :=
  let fromBlocks := fun (systems : List (ClaudeMediaMessage J)) =>
    if systems = [] then []
    else if isOpenRouterClaude then
      [{ role := "system"
         content := .parts (systems.map fun b => .text b.getText b.cacheControl) }]
    else [{ role := "system", content := .str (String.join (systems.map (·.getText))) }]
  match req.system with
  | .null => []
  | .str s => if s ≠ "" then [{ role := "system", content := .str s }] else []
  | .blocks l => fromBlocks l

/-- What the loop over the blocks of a message has collected; the tool messages are those it has added
to `openAIMessages`. -/
structure BlockLoop where
  toolCalls : List ToolCallRequest := []
  mediaMessages : List MediaContent := []
  toolMessages : List Message := []

def toolResultString (c : Codec J) : ToolResultContent J → String
  | .str s => s
  | .blocks j => c.marshal j
  | .null => "null"

def convertBlock (c : Codec J) (req : ClaudeRequest J) (st : BlockLoop)
    (mediaMsg : ClaudeMediaMessage J) : Except String BlockLoop :=
  if mediaMsg.type = "text" ∨ mediaMsg.type = "input_text" then
    .ok
      { st with
        mediaMessages := st.mediaMessages ++ [.text mediaMsg.getText mediaMsg.cacheControl] }
  else if mediaMsg.type = "image" then
    match mediaMsg.source with
    | none => .error "nil pointer dereference"
    | some source =>
      let imageData := "data:" ++ source.mediaType ++ ";base64," ++ source.data
      .ok { st with mediaMessages := st.mediaMessages ++ [.imageUrl { url := imageData }] }
  else if mediaMsg.type = "tool_use" then
    .ok
      { st with
        toolCalls := st.toolCalls ++
          [{ id := mediaMsg.id
             name := mediaMsg.name
             arguments := requestToJSONString c mediaMsg.input }] }
  else if mediaMsg.type = "tool_result" then
    let toolName :=
      if mediaMsg.name = "" then searchToolNameByToolCallId req mediaMsg.toolUseId
      else mediaMsg.name
    .ok
      { st with
        toolMessages := st.toolMessages ++
          [{ role := "tool"
             name := some toolName
             toolCallId := mediaMsg.toolUseId
             content := .str (toolResultString c mediaMsg.content) }] }
  else .ok st

/-- A message without content and tool calls is left out. -/
def nonEmptyMessage (m : Message) : List Message :=
  if m.parseContent ≠ [] ∨ m.toolCalls ≠ none then [m] else []

def convertMessage (c : Codec J) (req : ClaudeRequest J) (claudeMessage : ClaudeMessage J) :
    Except String (List Message) :=
  match claudeMessage.content with
  | .str s => .ok (nonEmptyMessage { role := claudeMessage.role, content := .str s })
  | .blocks content => do
    let st ← content.foldlM (convertBlock c req) {}
    let openAIMessage : Message :=
      { role := claudeMessage.role
        toolCalls := if st.toolCalls ≠ [] then some st.toolCalls else none
        content :=
          if st.mediaMessages ≠ [] ∧ st.toolCalls = [] then .parts st.mediaMessages else .null }
    return st.toolMessages ++ nonEmptyMessage openAIMessage

def claudeMessagesRequestToOpenAIChat (c : Codec J) (isOpenRouterClaude : Bool)
    (claudeRequest : ClaudeRequest J) : Except String (List Message) := do
  let openAIMessages ← claudeRequest.messages.mapM (convertMessage c claudeRequest)
  return systemMessages isOpenRouterClaude claudeRequest ++ openAIMessages.flatten

def IsConversationBlock (b : ClaudeMediaMessage J) : Prop :=
  b.type = "text" ∨ b.type = "image" ∧ b.source ≠ none ∨ b.type = "tool_use" ∨
    b.type = "tool_result"

/-- The part of a chat message that a text or an image is. -/
def partOfBlock (b : ClaudeMediaMessage J) : Option MediaContent :=
  if b.type = "text" then some (.text b.getText b.cacheControl)
  else if b.type = "image" then
    b.source.map fun s => .imageUrl { url := "data:" ++ s.mediaType ++ ";base64," ++ s.data }
  else none

namespace ClaudeMessage

variable (m : ClaudeMessage J)

def parts : List MediaContent :=
  match m.content with
  | .str s => [.text s]
  | .blocks l => l.filterMap partOfBlock

def toolUses : List (ClaudeMediaMessage J) := m.parseContent.filter (·.type = "tool_use")

def toolResults : List (ClaudeMediaMessage J) := m.parseContent.filter (·.type = "tool_result")

def IsConversation : Prop :=
  (m.role = "user" ∨ m.role = "assistant") ∧ ∀ b ∈ m.parseContent, IsConversationBlock b

end ClaudeMessage

/-- The texts and images of a message that is no tool message. -/
def Message.chatParts (m : Message) : List MediaContent :=
  if m.role = "tool" then [] else m.parseContent

def IsJSONText (c : Codec J) (s : String) : Option J → Prop
  | some j => c.unmarshal s = some j
  | none => s = "null"

def SameCall (c : Codec J) (b : ClaudeMediaMessage J) (call : ToolCallRequest) : Prop :=
  call.id = b.id ∧ call.name = b.name ∧ IsJSONText c call.arguments b.input

def SameResult (c : Codec J) (b : ClaudeMediaMessage J) (m : Message) : Prop :=
  m.toolCallId = b.toolUseId ∧ ∃ s, m.content = .str s ∧ match b.content with
    | .str s' => s = s'
    | .blocks j => IsJSONText c s (some j)
    | .null => IsJSONText c s none

/-- The chat messages hold what the Claude message does, and nothing else. -/
structure Carries (c : Codec J) (m : ClaudeMessage J) (messages : List Message) : Prop where
  role : ∀ msg ∈ messages, msg.role = m.role ∨ msg.role = "tool"
  parts : messages.flatMap Message.chatParts = m.parts
  calls : List.Forall₂ (SameCall c) m.toolUses (messages.flatMap Message.parseToolCalls)
  results : List.Forall₂ (SameResult c) m.toolResults (messages.filter (·.role = "tool"))

structure KeepsConversation (c : Codec J) (isOpenRouterClaude : Bool) (req : ClaudeRequest J)
    (out : List Message) : Prop where
  segments : ∃ segments : List (List Message),
    out = systemMessages isOpenRouterClaude req ++ segments.flatten ∧
      List.Forall₂ (Carries c) req.messages segments
  /-- The tool message of a call that was made in an earlier message stands behind the call. -/
  follows : ∀ before after m m' b b', req.messages = before ++ after → m ∈ before → m' ∈ after →
    b ∈ m.toolUses → b' ∈ m'.toolResults → b'.toolUseId = b.id →
      ∃ outBefore outAfter, out = outBefore ++ outAfter ∧
        (∃ msg ∈ outBefore, ∃ call ∈ msg.parseToolCalls, call.id = b.id) ∧
        ∃ msg ∈ outAfter, msg.role = "tool" ∧ msg.toolCallId = b.id

end BeeApi.RelayConvert
