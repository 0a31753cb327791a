import BeeApi.Lib.Strings
import BeeApi.RelayConvert.Chunk

/-!
# Answers of the Responses API

The items of an answer, the answer as a whole and the events of a stream.  The arguments of an item
are the text that `ArgumentsString` reads in the raw field, which is empty when the field is absent,
and the status of an answer is the text of its JSON string.
-/

namespace BeeApi.RelayConvert

open Strings

structure ResponsesOutputContent where
  type : String
  text : String

structure ResponsesOutput where
  type : String
  id : String := ""
  status : String := ""
  role : String := ""
  content : List ResponsesOutputContent := []
  callId : String := ""
  name : String := ""
  arguments : String := ""

structure OpenAIResponsesResponse where
  id : String := ""
  model : String := ""
  status : Option String := none
  /-- The reason of the `incomplete_details`. -/
  incompleteDetails : Option String := none
  output : List ResponsesOutput := []
  usage : Option Usage := none

def extractOutputTextFromResponses (resp : OpenAIResponsesResponse) : String :=
  let messages := resp.output.filter fun out =>
    out.type = "message" && (out.role = "" || out.role = "assistant")
  let text := joined (messages.flatMap fun out =>
    (out.content.filter (·.type = "output_text")).map (·.text))
  if text ≠ "" then text
  else joined (resp.output.flatMap fun out => out.content.map (·.text))

/-- An event; `part` is the text of a reasoning summary. -/
structure ResponsesStreamResponse where
  type : String
  response : Option OpenAIResponsesResponse := none
  delta : String := ""
  item : Option ResponsesOutput := none
  outputIndex : Option ℕ := none
  contentIndex : Option ℕ := none
  summaryIndex : Option ℕ := none
  itemID : String := ""
  part : Option String := none

inductive EventKind
  | created
  | reasoningDelta
  | reasoningDone
  | textDelta
  | itemAdded
  | itemDone
  | argumentsDelta
  | argumentsDone
  | completed
  | incomplete
  | failed
  | other
deriving DecidableEq

def eventKind : String → EventKind
  | "response.created" => .created
  | "response.reasoning_summary_text.delta" | "response.reasoning_text.delta" => .reasoningDelta
  | "response.reasoning_summary_text.done" | "response.reasoning_text.done" => .reasoningDone
  | "response.output_text.delta" => .textDelta
  | "response.output_item.added" => .itemAdded
  | "response.output_item.done" => .itemDone
  | "response.function_call_arguments.delta" | "response.custom_tool_call_input.delta" =>
    .argumentsDelta
  | "response.function_call_arguments.done" | "response.custom_tool_call_input.done" =>
    .argumentsDone
  | "response.completed" | "response.done" => .completed
  | "response.incomplete" => .incomplete
  | "response.failed" | "response.error" => .failed
  | _ => .other

def ResponsesStreamResponse.kind (event : ResponsesStreamResponse) : EventKind :=
  eventKind event.type

end BeeApi.RelayConvert
