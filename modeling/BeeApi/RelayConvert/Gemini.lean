import BeeApi.Lib.Json

/-!
# Messages of the Gemini API

The contents of requests and answers as they are after decoding, with both spellings of a field read as
one.  The arguments of a call are a JSON value, `null` where they are absent, and the response of a
function is the list of its fields.
-/

namespace BeeApi.RelayConvert

/-- Data in base64. -/
structure GeminiInlineData where
  mimeType : String := ""
  data : String := ""

/-- A call of a function by the model. -/
structure FunctionCall where
  functionName : String := ""
  arguments : Json := .null

/-- `response` is `none` where the map is nil. -/
structure GeminiFunctionResponse where
  name : String := ""
  response : Option Json.Fields := none

/-- Code that the model has run. -/
structure GeminiPartExecutableCode where
  language : String := ""
  code : String := ""

/-- What the code has written. -/
structure GeminiPartCodeExecutionResult where
  outcome : String := ""
  output : String := ""

/-- A file by its address. -/
structure GeminiFileData where
  mimeType : String := ""
  fileUri : String := ""

/-- A part sets one of its fields; `thought` marks a text as reasoning. -/
structure GeminiPart where
  text : String := ""
  thought : Bool := false
  inlineData : Option GeminiInlineData := none
  functionCall : Option FunctionCall := none
  functionResponse : Option GeminiFunctionResponse := none
  fileData : Option GeminiFileData := none
  executableCode : Option GeminiPartExecutableCode := none
  codeExecutionResult : Option GeminiPartCodeExecutionResult := none

/-- A turn of one role. -/
structure GeminiChatContent where
  role : String := ""
  parts : List GeminiPart := []

/-- One of the answers. -/
structure GeminiChatCandidate where
  content : GeminiChatContent := {}
  finishReason : Option String := none
  index : ℤ := 0

/-- An answer, or a chunk of one. -/
structure GeminiChatResponse where
  candidates : List GeminiChatCandidate := []

end BeeApi.RelayConvert
