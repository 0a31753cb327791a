import BeeApi.Lib.Json
import BeeApi.Lib.Strings
import BeeApi.RelayConvert.Message

/-!
# Chat requests as Responses requests, and back

`ChatCompletionsRequestToResponsesRequest` and `ResponsesRequestToChatCompletionsRequest`: the
messages, the model and the choice of a tool.  The content of a message and the items of an input
are JSON values as `encoding/json` decodes them; a raw field has its text and the value it decodes
to.
-/

namespace BeeApi.RelayConvert

open Strings

/-! ## Requests -/

structure RawMessage where
  text : String
  value : Json

/-- What `common.Marshal` leaves in a raw field. -/
def rawOf (j : Json) : RawMessage := ⟨j.marshal, j⟩

/-- `rawJSONPresent`: the field, if it is there and not `null`. -/
def rawPresent : Option RawMessage → Option RawMessage
  | some ⟨_, .null⟩ => none
  | raw => raw

/-- A tool call of a message; `custom` is the raw item of a custom one. -/
structure ToolCall extends ToolCallRequest where
  custom : Option String := none

/-- A chat message whose content is any JSON value. -/
structure ChatMessage where
  role : String
  content : Json := .null
  toolCalls : List ToolCall := []
  toolCallId : String := ""

structure GeneralOpenAIRequest where
  model : String
  n : Option ℤ := none
  messages : List ChatMessage := []
  toolChoice : Json := .null

structure OpenAIResponsesRequest where
  model : String
  input : Option RawMessage := none
  instructions : Option RawMessage := none
  toolChoice : Option RawMessage := none
  conversation : Option RawMessage := none
  previousResponseID : String := ""
  prompt : Option RawMessage := none
  contextManagement : Option RawMessage := none

def asString? : Json → Option String
  | .str s => some s
  | _ => none

/-- `common.Interface2String`; `sprint` is `fmt.Sprintf("%v", _)` of a list or an object. -/
def interface2String (sprint : Json → String) : Json → String
  | .str s => s
  | .num _ plain => plain
  | .bool b => if b then "true" else "false"
  | .null => ""
  | j => sprint j

/-- The image of a part, whose detail is high unless it says otherwise. -/
def parseImageUrl : Json → MessageImageUrl
  | .str url => { url := url, detail := "high" }
  | .obj v =>
    { url := (asString? (Json.get v "url")).getD ""
      detail := (asString? (Json.get v "detail")).getD "high" }
  | _ => { detail := "high" }

def parseInputAudio : Json → Option MessageInputAudio
  | .obj audioData =>
    match Json.get audioData "data", Json.get audioData "format" with
    | .str data, .str format => some { data := data, format := format }
    | _, _ => none
  | _ => none

/-- The file of a part: by its id, or else by its name and its data. -/
def parseFile : Json → Option MessageFile
  | .obj fileData =>
    match Json.get fileData "file_id", Json.get fileData "filename",
      Json.get fileData "file_data" with
    | .str fileId, _, _ => some { fileId := fileId }
    | _, .str fileName, .str fileDataStr => some { fileName := fileName, fileData := fileDataStr }
    | _, _, _ => none
  | _ => none

/-- What `ParseContent` reads in an element of a list. -/
def parsePart : Json → Option MediaContent
  | .obj contentItem =>
    match asString? (Json.get contentItem "type") with
    | some "text" => (asString? (Json.get contentItem "text")).map (.text ·)
    | some "image_url" => some (.imageUrl (parseImageUrl (Json.get contentItem "image_url")))
    | some "input_audio" => (parseInputAudio (Json.get contentItem "input_audio")).map .inputAudio
    | some "file" => (parseFile (Json.get contentItem "file")).map .file
    | some "video_url" => (asString? (Json.get contentItem "video_url")).map .videoUrl
    | _ => none
  | _ => none

def parseContent : Json → List MediaContent
  | .str content => [.text content]
  | .arr arrayContent => arrayContent.filterMap parsePart
  | _ => []

/-! ## To the Responses API -/

def omitEmpty (key value : String) : Json.Fields :=
  if value = "" then [] else [(key, .str value)]

/-- The URL of an image; an image without one is the object it is. -/
def normalizeChatImageURLToString (v : MessageImageUrl) : Json :=
  if v.url ≠ "" then .str v.url
  else .obj ([("MimeType", .str "")] ++ omitEmpty "detail" v.detail ++ [("url", .str v.url)])

def contentPart (role : String) : MediaContent → Json
  | .text text _ =>
    .obj [("text", .str text),
      ("type", .str (if role = "assistant" then "output_text" else "input_text"))]
  | .imageUrl imageUrl =>
    .obj [("image_url", normalizeChatImageURLToString imageUrl), ("type", .str "input_image")]
  | .inputAudio inputAudio =>
    .obj [("input_audio",
        .obj [("data", .str inputAudio.data), ("format", .str inputAudio.format)]),
      ("type", .str "input_audio")]
  | .file file =>
    .obj [("file", .obj (omitEmpty "file_data" file.fileData ++ omitEmpty "file_id" file.fileId ++
      omitEmpty "filename" file.fileName)), ("type", .str "input_file")]
  | .videoUrl url =>
    .obj [("type", .str "input_video"), ("video_url", .obj [("url", .str url)])]

def itemContent (role : String) : Json → Json
  | .null => .str ""
  | .str content => .str content
  | content => .arr ((parseContent content).map (contentPart role))

def functionCallItem (tc : ToolCall) : Option Json.Fields :=
  if trimSpace tc.id = "" then none
  else if tc.type ≠ "" ∧ tc.type ≠ "function" then none
  else if trimSpace tc.name = "" then none
  else some [("arguments", .str tc.arguments), ("call_id", .str tc.id),
    ("name", .str (trimSpace tc.name)), ("type", .str "function_call")]

def toolOutput : Json → String
  | .null => ""
  | .str content => content
  | content => content.marshal

def toolItems (msg : ChatMessage) : List Json.Fields :=
  let callID := trimSpace msg.toolCallId
  let output := toolOutput msg.content
  if callID = "" then
    [[("content", .str ("[tool_output_missing_call_id] " ++ output)), ("role", .str "user")]]
  else [[("call_id", .str callID), ("output", .str output), ("type", .str "function_call_output")]]

/-- The items of a message; system messages go into the instructions. -/
def inputItemsOf (msg : ChatMessage) : List Json.Fields :=
  let role := trimSpace msg.role
  if role = "" then []
  else if role = "tool" ∨ role = "function" then toolItems msg
  else if role = "system" ∨ role = "developer" then []
  else
    [("content", itemContent role msg.content), ("role", .str role)] ::
      if role = "assistant" then msg.toolCalls.filterMap functionCallItem else []

def systemText : Json → String
  | .str content => content
  | content => "\n".intercalate ((parseContent content).filterMap fun
    | .text text _ => if trimSpace text ≠ "" then some text else none
    | _ => none)

def instructionsPart (msg : ChatMessage) : Option String :=
  let role := trimSpace msg.role
  if role = "system" ∨ role = "developer" then
    let s := trimSpace (systemText msg.content)
    if s ≠ "" then some s else none
  else none

def toolChoiceToResponses : Json → Option RawMessage
  | .null => none
  | .obj m =>
    if asString? (Json.get m "type") = some "function" then
      let named (name : String) : RawMessage :=
        rawOf (.obj [("name", .str name), ("type", .str "function")])
      match asString? (Json.get m "name"), Json.get m "function" with
      | some name, .obj fn =>
        if name ≠ "" then some (named name)
        else match asString? (Json.get fn "name") with
          | some name => if name ≠ "" then some (named name) else some (rawOf (.obj m))
          | none => some (rawOf (.obj m))
      | some name, _ => if name ≠ "" then some (named name) else some (rawOf (.obj m))
      | none, .obj fn =>
        match asString? (Json.get fn "name") with
        | some name => if name ≠ "" then some (named name) else some (rawOf (.obj m))
        | none => some (rawOf (.obj m))
      | none, _ => some (rawOf (.obj m))
    else some (rawOf (.obj m))
  | v => some (rawOf v)

def chatCompletionsRequestToResponsesRequest (req : GeneralOpenAIRequest) :
    Except String OpenAIResponsesRequest :=
  if req.model = "" then .error "model is required"
  else if req.n.getD 1 > 1 then .error "n>1 is not supported in responses compatibility mode"
  else
    let instructionsParts := req.messages.filterMap instructionsPart
    .ok {
      model := req.model
      input := some (rawOf (.arr ((req.messages.flatMap inputItemsOf).map .obj)))
      instructions := if instructionsParts = [] then none
        else some (rawOf (.str ("\n\n".intercalate instructionsParts)))
      toolChoice := toolChoiceToResponses req.toolChoice }

/-! ## From the Responses API -/

section FromResponses

variable (sprint : Json → String)

def selectFields (part : Json.Fields) (keys : List String) : Json.Fields :=
  keys.filterMap fun key => (part.lookup key).map fun value => (key, value)

def responsesImagePartToChatImageURL (part : Json.Fields) : Json :=
  match part.lookup "image_url" with
  | some imageURL => imageURL
  | none =>
    let imageURL := selectFields part ["detail", "file_id", "url"]
    if imageURL.isEmpty then .obj part else .obj imageURL

def responsesFilePartToChatFile (part : Json.Fields) : Json :=
  match part.lookup "file" with
  | some file => file
  | none =>
    let file := selectFields part ["file_data", "file_id", "file_url", "filename"]
    if file.isEmpty then .obj part else .obj file

def responsesPartPayload (part : Json.Fields) (key : String) : Json :=
  match part.lookup key with
  | some value => value
  | none => .obj (part.filter fun field => field.1 ≠ "type")

def responsesVideoPartToChatVideoURL (part : Json.Fields) : Json :=
  match part.lookup "video_url" with
  | some (.obj videoURLMap) =>
    let url := interface2String sprint (Json.get videoURLMap "url")
    if url ≠ "" then .str url else .obj videoURLMap
  | some videoURL => videoURL
  | none =>
    let url := interface2String sprint (Json.get part "url")
    if url ≠ "" then .str url else responsesPartPayload part "video_url"

def responsesPartText : Json → Option String
  | .obj part =>
    match trimSpace (interface2String sprint (Json.get part "type")) with
    | "input_text" | "output_text" | "text" => some (interface2String sprint (Json.get part "text"))
    | _ => none
  | _ => none

/-- A part as a part of a chat message; one of another type stays what it is. -/
def responsesPartToChatPart : Json → Json
  | .obj part =>
    match trimSpace (interface2String sprint (Json.get part "type")) with
    | "input_text" | "output_text" | "text" =>
      .obj [("text", .str (interface2String sprint (Json.get part "text"))), ("type", .str "text")]
    | "input_image" =>
      .obj [("image_url", responsesImagePartToChatImageURL part), ("type", .str "image_url")]
    | "input_file" => .obj [("file", responsesFilePartToChatFile part), ("type", .str "file")]
    | "input_audio" =>
      .obj [("input_audio", responsesPartPayload part "input_audio"), ("type", .str "input_audio")]
    | "input_video" =>
      .obj [("type", .str "video_url"), ("video_url", responsesVideoPartToChatVideoURL sprint part)]
    | _ => .obj part
  | rawPart => rawPart

def responsesContentPartsToChatContent (parts : List Json) : Json :=
  let onlyText := parts.all fun part => (responsesPartText sprint part).isSome
  if onlyText then .str (String.join (parts.filterMap (responsesPartText sprint)))
  else .arr (parts.map (responsesPartToChatPart sprint))

def responsesInputContentToChatContent : Json → Json
  | .null => .str ""
  | .arr parts => responsesContentPartsToChatContent sprint parts
  | content => content

def responsesCallID (item : Json.Fields) : String :=
  let callID := trimSpace (interface2String sprint (Json.get item "call_id"))
  if callID ≠ "" then callID else trimSpace (interface2String sprint (Json.get item "id"))

/-- `responsesArgumentsString` and `responseToolOutputToChatContent`, which do the same. -/
def responsesArgumentsString : Json → String
  | .null => ""
  | .str v => v
  | v => v.marshal

def responsesFunctionCallItemToChatToolCall (item : Json.Fields) : Except String ToolCall :=
  let name := trimSpace (interface2String sprint (Json.get item "name"))
  if name = "" then .error "function_call item is missing name"
  else .ok {
    id := responsesCallID sprint item
    type := "function"
    name := name
    arguments := responsesArgumentsString (Json.get item "arguments") }

def responsesCustomToolCallItemToChatToolCall (item : Json.Fields) : ToolCall where
  id := responsesCallID sprint item
  type := "custom"
  custom := some (Json.obj item).marshal
  name := trimSpace (interface2String sprint (Json.get item "name"))
  arguments := responsesArgumentsString (Json.get item "input")

def appendToolCallToLastAssistant (messages : List ChatMessage) (toolCall : ToolCall) :
    List ChatMessage :=
  match messages.getLast? with
  | some last =>
    if last.role = "assistant" then
      messages.dropLast ++ [{ last with toolCalls := last.toolCalls ++ [toolCall] }]
    else messages ++ [{ role := "assistant", toolCalls := [toolCall] }]
  | none => messages ++ [{ role := "assistant", toolCalls := [toolCall] }]

def responsesInputItemToChatMessages (messages : List ChatMessage) (item : Json.Fields) :
    Except String (List ChatMessage) :=
  match trimSpace (interface2String sprint (Json.get item "type")) with
  | "function_call" => do
    let toolCall ← responsesFunctionCallItemToChatToolCall sprint item
    .ok (appendToolCallToLastAssistant messages toolCall)
  | "custom_tool_call" =>
    .ok (appendToolCallToLastAssistant messages
      (responsesCustomToolCallItemToChatToolCall sprint item))
  | "function_call_output" =>
    .ok (messages ++ [{
      role := "tool"
      toolCallId := trimSpace (interface2String sprint (Json.get item "call_id"))
      content := .str (responsesArgumentsString (Json.get item "output")) }])
  | _ =>
    let role := trimSpace (interface2String sprint (Json.get item "role"))
    .ok (messages ++ [{
      role := if role = "" then "user" else role
      content := responsesInputContentToChatContent sprint (Json.get item "content") }])

/-- An input array decoded as a list of objects. -/
def decodeItems (l : List Json) : Except String (List Json.Fields) :=
  l.mapM fun
    | .obj item => .ok item
    | .null => .ok []
    | _ => .error "invalid input array"

def responsesJSONString (raw : RawMessage) : String :=
  match raw.value with
  | .str value => value
  | _ => raw.text

def instructionsMessages (instructions : Option RawMessage) : List ChatMessage :=
  match rawPresent instructions with
  | none => []
  | some raw =>
    if trimSpace (responsesJSONString raw) ≠ "" then
      [{ role := "system", content := .str (responsesJSONString raw) }]
    else []

def responsesRequestMessagesToChat (req : OpenAIResponsesRequest) :
    Except String (List ChatMessage) :=
  let messages := instructionsMessages req.instructions
  match rawPresent req.input with
  | none => .ok messages
  | some raw =>
    match raw.value with
    | .str input => .ok (messages ++ [{ role := "user", content := .str input }])
    | .arr l => do
      let items ← decodeItems l
      items.foldlM (responsesInputItemToChatMessages sprint) messages
    | .obj _ => .error "unsupported responses input type \"object\""
    | .bool _ => .error "unsupported responses input type \"boolean\""
    | _ => .error "unsupported responses input type \"number\""

def responsesRequestToolChoiceToChat (raw : Option RawMessage) : Except String Json :=
  match rawPresent raw with
  | none => .ok .null
  | some raw =>
    match raw.value with
    | .str choice => .ok (.str choice)
    | .obj choice =>
      let name := trimSpace (interface2String sprint (Json.get choice "name"))
      if interface2String sprint (Json.get choice "type") = "function" ∧ name ≠ "" then
        .ok (.obj [("function", .obj [("name", .str name)]), ("type", .str "function")])
      else .ok (.obj choice)
    | _ => .error "invalid tool_choice"

def unsupportedFields (req : OpenAIResponsesRequest) : List String :=
  (if (rawPresent req.conversation).isSome then ["conversation"] else []) ++
  (if trimSpace req.previousResponseID ≠ "" then ["previous_response_id"] else []) ++
  (if (rawPresent req.prompt).isSome then ["prompt"] else []) ++
  (if (rawPresent req.contextManagement).isSome then ["context_management"] else [])

def responsesRequestToChatCompletionsRequest (req : OpenAIResponsesRequest) :
    Except String GeneralOpenAIRequest := do
  if req.model = "" then .error "model is required"
  if unsupportedFields req ≠ [] then
    .error ("responses to chat conversion does not support stateful fields: " ++
      ", ".intercalate (unsupportedFields req))
  let messages ← responsesRequestMessagesToChat sprint req
  let toolChoice ← responsesRequestToolChoiceToChat sprint req.toolChoice
  .ok { model := req.model, messages := messages, toolChoice := toolChoice }

end FromResponses

end BeeApi.RelayConvert
