import Mathlib.Data.List.SplitBy
import BeeApi.Lib.GoJson
import BeeApi.RelayConvert.ClaudeToChatRequest

/-!
# Chat requests as Claude requests

`OpenAIChatRequestToClaudeMessages`, the messages, the stop sequences and the errors of the fields read
before them.  A first loop joins
consecutive texts of one role, a second one turns the messages into Claude messages and puts the
results of tools into the user message before them.
-/

namespace BeeApi.RelayConvert

open Strings GoJson

variable {J F : Type}

/-- The `stop` of a request; an element of a list that is no string is `none`. -/
inductive StopField
  | null
  | str (s : String)
  | list (l : List (Option String))
  | other

/-- The fields that the messages and the stop sequences are made from, and `reasoning`, a text of JSON
that may be of any kind. -/
structure ChatRequest where
  messages : List Message := []
  stop : StopField := .null
  reasoning : Option Json := none

/-- What the conversion takes from elsewhere: the map that unmarshalling the arguments of a call
leaves, the JSON value of a list of parts, and the block of an image or a file, which may have to be
fetched. -/
structure ClaudeEncoding (J : Type) where
  unmarshalArguments : String → J
  marshalParts : List MediaContent → J
  mediaBlock : MediaContent → Except String (Option (ClaudeMediaMessage J))

/-- One round of the loop; the state is `formatMessages` and `lastMessage`. -/
def formatStep (st : List Message × Message) (message : Message) : List Message × Message :=
  let (formatMessages, lastMessage) := st
  let fmtMessage : Message :=
    { role := message.role
      content := message.content
      toolCallId := if message.role = "tool" then message.toolCallId else ""
      toolCalls := if message.role = "assistant" then message.toolCalls else none }
  let (fmtMessage, formatMessages) :=
    if lastMessage.role = message.role ∧ lastMessage.role ≠ "tool" ∧ lastMessage.isStringContent ∧
        message.isStringContent then
      let text := trimChar (lastMessage.stringContent ++ " " ++ message.stringContent) '"'
      ({ fmtMessage with content := .str text }, formatMessages.dropLast)
    else (fmtMessage, formatMessages)
  let fmtMessage :=
    if fmtMessage.content = .null ∨ fmtMessage.isStringContent ∧ fmtMessage.stringContent = "" then
      { fmtMessage with content := .str "..." }
    else fmtMessage
  (formatMessages ++ [fmtMessage], fmtMessage)

def formatMessages (messages : List Message) : List Message :=
  (messages.foldl formatStep ([], { role := "tool" })).1

structure ClaudeLoop (J : Type) where
  claudeMessages : List (ClaudeMessage J) := []
  isFirstMessage : Bool := true
  systemMessages : List (ClaudeMediaMessage J) := []

def textBlock (text : String) : ClaudeMediaMessage J := { type := "text", text := some text }

def systemBlocks (message : Message) : List (ClaudeMediaMessage J) :=
  if message.isStringContent then
    if message.stringContent ≠ "" then [textBlock message.stringContent] else []
  else message.parseContent.filterMap fun
    | .text text _ => if text ≠ "" then some (textBlock text) else none
    | _ => none

def toolResultContent (enc : ClaudeEncoding J) : MessageContent → ToolResultContent J
  | .null => .null
  | .str s => .str s
  | .parts l => .blocks (enc.marshalParts l)

def toolResultBlock (enc : ClaudeEncoding J) (message : Message) : ClaudeMediaMessage J where
  type := "tool_result"
  toolUseId := message.toolCallId
  content := toolResultContent enc message.content

def partBlock (enc : ClaudeEncoding J) : MediaContent → Except String (Option (ClaudeMediaMessage J))
  | .text text _ => .ok (if text ≠ "" then some (textBlock text) else none)
  | .imageUrl imageUrl => enc.mediaBlock (.imageUrl imageUrl)
  | .file file => enc.mediaBlock (.file file)
  | _ => .ok none

def toolUseBlock (enc : ClaudeEncoding J) (toolCall : ToolCallRequest) : ClaudeMediaMessage J where
  type := "tool_use"
  id := toolCall.id
  name := toolCall.name
  input := some (enc.unmarshalArguments toolCall.arguments)

/-- The result of a tool goes into the user message before it. -/
def addToolResult (claudeMessages : List (ClaudeMessage J)) (block : ClaudeMediaMessage J) :
    List (ClaudeMessage J) :=
  match claudeMessages.getLast? with
  | some lastClaudeMessage =>
    if lastClaudeMessage.role = "user" then
      let content :=
        match lastClaudeMessage.content with
        | .str content => [textBlock content]
        | .blocks l => l
      claudeMessages.dropLast ++ [{ lastClaudeMessage with content := .blocks (content ++ [block]) }]
    else claudeMessages ++ [{ role := "user", content := .blocks [block] }]
  | none => claudeMessages ++ [{ role := "user", content := .blocks [block] }]

def claudeContent (enc : ClaudeEncoding J) (message : Message) : Except String (ClaudeContent J) :=
  if message.isStringContent ∧ message.toolCalls = none then
    .ok (.str (if message.stringContent = "" then "..." else message.stringContent))
  else do
    let claudeMediaMessages ← message.parseContent.mapM (partBlock enc)
    let toolUses := message.parseToolCalls.map (toolUseBlock enc)
    return .blocks (claudeMediaMessages.reduceOption ++ toolUses)

def claudeStep (enc : ClaudeEncoding J) (st : ClaudeLoop J) (message : Message) :
    Except String (ClaudeLoop J) :=
  if message.role = "system" then
    .ok { st with systemMessages := st.systemMessages ++ systemBlocks message }
  else
    let claudeMessages :=
      if st.isFirstMessage ∧ message.role ≠ "user" then
        st.claudeMessages ++ [{ role := "user", content := .blocks [textBlock "..."] }]
      else st.claudeMessages
    if message.role = "tool" then
      .ok
        { st with
          isFirstMessage := false
          claudeMessages := addToolResult claudeMessages (toolResultBlock enc message) }
    else do
      let content ← claudeContent enc message
      .ok
        { st with
          isFirstMessage := false
          claudeMessages := claudeMessages ++ [{ role := message.role, content := content }] }

/-- The type assertion on an element of a list, which panics. -/
def assertString : Option String → Except String String
  | some s => .ok s
  | none => .error "interface conversion"

def stopSequences : StopField → Except String (List String)
  | .str stop => .ok [stop]
  | .list l => l.mapM assertString
  | _ => .ok []

def openRouterRequestReasoning : Fields :=
  .cons (some ("enabled", false)) .bool <|
  .cons (some ("effort", true)) .string <|
  .cons (some ("max_tokens", true)) (.int .w64) <|
  .cons (some ("exclude", false)) .bool .nil

/-- The decoding of `reasoning`, whose error ends the conversion. -/
def unmarshalReasoning (codec : GoJson.Codec F) : Option Json → Except String Unit
  | none => .ok ()
  | some reasoning =>
    if ((Ty.struct openRouterRequestReasoning).decode codec reasoning (Ty.zero codec _)).2 then .ok ()
    else .error "json: cannot unmarshal into openRouterRequestReasoning"

/-- The whole conversion: the errors of `reasoning` and `stop` come before the messages. -/
def openAIChatRequestToClaudeMessages (codec : GoJson.Codec F) (enc : ClaudeEncoding J)
    (textRequest : ChatRequest) : Except String (ClaudeRequest J × List String) := do
  unmarshalReasoning codec textRequest.reasoning
  let stop ← stopSequences textRequest.stop
  let st ← (formatMessages textRequest.messages).foldlM (claudeStep enc) {}
  let system := if st.systemMessages ≠ [] then .blocks st.systemMessages else .null
  return ({ system := system, messages := st.claudeMessages }, stop)

def Message.IsConversation (m : Message) : Prop :=
  (m.role = "system" ∨ m.role = "user" ∨ m.role = "assistant" ∨ m.role = "tool") ∧
    (m.toolCalls ≠ none → m.role = "assistant") ∧
    ∀ part ∈ m.parseContent, ∃ text cacheControl, part = .text text cacheControl

def MediaContent.text? : MediaContent → Option String
  | .text s _ => some s
  | _ => none

def Message.texts (m : Message) : List String := m.parseContent.filterMap MediaContent.text?

def joins (m m' : Message) : Bool :=
  m.role = m'.role ∧ m.role ≠ "tool" ∧ (m.content = .null ∨ m.isStringContent) ∧ m'.isStringContent

def runs (messages : List Message) : List (List Message) := messages.splitBy joins

/-- The text stands for another one, which may be missing. -/
def StandsFor (p : String) (t : String) : Prop := p = t ∨ t = "" ∧ p = "..."

/-- The texts are those of one message, or of texts of one role joined by a blank. -/
inductive KeepsTexts : List Message → List String → Prop
  | joined {g : List Message} {pieces : List String} (hg : ∀ m ∈ g, ∀ l, m.content ≠ .parts l)
      (hpieces : List.Forall₂ StandsFor pieces (g.map Message.stringContent)) :
      KeepsTexts g [" ".intercalate pieces]
  | parts {m : Message} {l : List MediaContent} (hm : m.content = .parts l) :
      KeepsTexts [m] (m.texts.filter (· ≠ ""))

def SameUse (b : ClaudeMediaMessage J) (call : ToolCallRequest) : Prop :=
  b.id = call.id ∧ b.name = call.name

/-- The block is the result of a tool message, with its content or a placeholder. -/
def SameToolResult (enc : ClaudeEncoding J) (b : ClaudeMediaMessage J) (m : Message) : Prop :=
  b.toolUseId = m.toolCallId ∧ (b.content = toolResultContent enc m.content ∨
    (m.content = .null ∨ m.content = .str "") ∧ b.content = .str "...")

def ClaudeMessage.allBlocks (m : ClaudeMessage J) : List (ClaudeMediaMessage J) :=
  match m.content with
  | .str s => [textBlock s]
  | .blocks l => l

def blocksOf (messages : List (ClaudeMessage J)) : List (String × ClaudeMediaMessage J) :=
  messages.flatMap fun m => m.allBlocks.map fun b => (m.role, b)

def textsOf (l : List (ClaudeMediaMessage J)) : List String :=
  (l.filter (·.type = "text")).map (·.getText)

structure CarriesRun (enc : ClaudeEncoding J) (seg : List (String × ClaudeMediaMessage J))
    (g : List Message) : Prop where
  role : ∀ e ∈ seg, ∀ m ∈ g, e.1 = if m.role = "tool" then "user" else m.role
  texts : (∀ m ∈ g, m.role ≠ "tool") → KeepsTexts g (textsOf (seg.map Prod.snd))
  noText : (∃ m ∈ g, m.role = "tool") → textsOf (seg.map Prod.snd) = []
  calls : List.Forall₂ SameUse ((seg.map Prod.snd).filter (·.type = "tool_use"))
    (g.flatMap Message.parseToolCalls)
  results : List.Forall₂ (SameToolResult enc) ((seg.map Prod.snd).filter (·.type = "tool_result"))
    (g.filter (·.role = "tool"))

/-- Messages that may be joined: one, or consecutive ones of one role other than `tool`. -/
def IsRun (g : List Message) : Prop :=
  g ≠ [] ∧ g.IsChain fun m m' => m.role = m'.role ∧ m.role ≠ "tool"

def ClaudeRequest.systemBlocks (req : ClaudeRequest J) : List (ClaudeMediaMessage J) :=
  match req.system with
  | .blocks l => l
  | _ => []

/-- The Claude request holds the conversation of the chat request, and begins with a user message. -/
structure KeepsChat (enc : ClaudeEncoding J) (messages : List Message) (req : ClaudeRequest J) :
    Prop where
  runs : ∃ (groups : List (List Message)) (prompt : List (List String))
      (segs : List (List (String × ClaudeMediaMessage J))) (start : List (String × ClaudeMediaMessage J)),
    groups.flatten = messages ∧ (∀ g ∈ groups, IsRun g) ∧
      List.Forall₂ KeepsTexts (groups.filter fun g => g.all (·.role = "system")) prompt ∧
      textsOf req.systemBlocks = prompt.flatten ∧
      List.Forall₂ (CarriesRun enc) segs (groups.filter fun g => !g.all (·.role = "system")) ∧
      (start = [] ∨ start = [("user", textBlock "...")]) ∧
      blocksOf req.messages = start ++ segs.flatten
  first : ∃ m rest, req.messages = m :: rest ∧ m.role = "user"

end BeeApi.RelayConvert
