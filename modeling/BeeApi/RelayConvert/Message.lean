import Mathlib.Data.List.Forall2

/-!
# Messages of the chat and of the Claude API

The requests of both APIs as they are after decoding.  `J` stands for the JSON values that a field of
type `any` may hold, such as the input of a tool; a raw JSON text is its text, and an absent one is
empty.  Lists that are encoded into a raw field only to be decoded again are kept as lists.
-/

namespace BeeApi.RelayConvert

/-- `encoding/json` on the values of a type: what was written is read back. -/
structure Codec (J : Type) where
  marshal : J → String
  unmarshal : String → Option J
  unmarshal_marshal : ∀ j, unmarshal (marshal j) = some j

structure ClaudeMessageSource where
  type : String := "base64"
  mediaType : String := ""
  data : String := ""

/-- The `content` of a `tool_result` block: absent, a string, or a list of blocks. -/
inductive ToolResultContent (J : Type)
  | null
  | str (s : String)
  | blocks (j : J)

structure ClaudeMediaMessage (J : Type) where
  type : String
  text : Option String := none
  source : Option ClaudeMessageSource := none
  partialJson : Option String := none
  stopReason : Option String := none
  thinking : Option String := none
  cacheControl : String := ""
  id : String := ""
  name : String := ""
  input : Option J := none
  content : ToolResultContent J := .null
  toolUseId : String := ""

def ClaudeMediaMessage.getText {J : Type} (c : ClaudeMediaMessage J) : String := c.text.getD ""

inductive ClaudeContent (J : Type)
  | str (s : String)
  | blocks (l : List (ClaudeMediaMessage J))

structure ClaudeMessage (J : Type) where
  role : String
  content : ClaudeContent J

/-- `ParseContent`, which finds no blocks in a string. -/
def ClaudeMessage.parseContent {J : Type} (m : ClaudeMessage J) : List (ClaudeMediaMessage J) :=
  match m.content with
  | .str _ => []
  | .blocks l => l

structure MessageImageUrl where
  url : String := ""
  detail : String := ""
deriving DecidableEq

structure MessageInputAudio where
  data : String := ""
  format : String := ""
deriving DecidableEq

structure MessageFile where
  fileName : String := ""
  fileData : String := ""
  fileId : String := ""
deriving DecidableEq

/-- A part of a message, one constructor for each `type`. -/
inductive MediaContent
  | text (text : String) (cacheControl : String := "")
  | imageUrl (imageUrl : MessageImageUrl)
  | inputAudio (inputAudio : MessageInputAudio)
  | file (file : MessageFile)
  | videoUrl (url : String)
deriving DecidableEq

structure ToolCallRequest where
  id : String := ""
  type : String := "function"
  name : String := ""
  arguments : String := ""
deriving DecidableEq

inductive MessageContent
  | null
  | str (s : String)
  | parts (content : List MediaContent)
deriving DecidableEq

structure Message where
  role : String
  content : MessageContent := .null
  name : Option String := none
  /-- `none` is a field that is not set. -/
  toolCalls : Option (List ToolCallRequest) := none
  toolCallId : String := ""

namespace Message

def isStringContent (m : Message) : Bool :=
  match m.content with
  | .str _ => true
  | _ => false

def stringContent (m : Message) : String :=
  match m.content with
  | .null => ""
  | .str s => s
  | .parts l => String.join (l.map fun
    | .text t _ => t
    | _ => "")

def parseContent (m : Message) : List MediaContent :=
  match m.content with
  | .null => []
  | .str s => [.text s]
  | .parts l => l

def parseToolCalls (m : Message) : List ToolCallRequest := m.toolCalls.getD []

end Message

end BeeApi.RelayConvert
