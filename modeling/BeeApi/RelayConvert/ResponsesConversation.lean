import BeeApi.Lib.Run
import BeeApi.RelayConvert.ResponsesTurns

/-!
# Chat and Responses requests carry the same conversation

A chat request that goes through the Responses API comes back with the same conversation exactly if
every message of it does.  The items of a Responses input keep their tool calls, outputs and user
messages exactly if each item is of a kind that the conversion knows.
-/

namespace BeeApi.RelayConvert

open Strings List Except

variable (sprint : Json → String)

/-! ## Instructions -/

def IsSystem (m : ChatMessage) : Prop := m.role = "system" ∨ m.role = "developer"

/-- The texts of the system messages; a blank one says nothing. -/
def systemTexts (lead : List ChatMessage) : List String :=
  (lead.map fun m => systemText m.content).filter fun text => trimSpace text ≠ ""

def systemMessage (lead : List ChatMessage) : List ChatMessage :=
  if systemTexts lead = [] then []
  else [{ role := "system", content := .str ("\n\n".intercalate (systemTexts lead)) }]

/-- A system text that is blank or has no white space around it. -/
def SystemKept (m : ChatMessage) : Prop :=
  trimSpace (systemText m.content) = "" ∨ trimSpace (systemText m.content) = systemText m.content

theorem trimSpace_roles : trimSpace "system" = "system" ∧ trimSpace "developer" = "developer" := by
  decide +kernel

variable {m : ChatMessage} {lead rest messages messages' : List ChatMessage}
  {req : GeneralOpenAIRequest} {item : Json.Fields} {items : List Json.Fields}

theorem instructionsPart_of_isSystem (h : IsSystem m) :
    instructionsPart m =
      if trimSpace (systemText m.content) ≠ "" then some (trimSpace (systemText m.content))
      else none := by
  rcases h with hrole | hrole <;> simp [instructionsPart, hrole, trimSpace_roles]

theorem instructionsPart_of_isTurn (h : IsTurn m) : instructionsPart m = none := by
  obtain ⟨-, -, -, huser, hassistant, htool⟩ := trimSpace_itemTypes
  rcases h.role with hrole | hrole | hrole <;>
    simp [instructionsPart, hrole, huser, hassistant, htool]

theorem inputItemsOf_of_isSystem (h : IsSystem m) : inputItemsOf m = [] := by
  rcases h with hrole | hrole <;> simp [inputItemsOf, hrole, trimSpace_roles]

theorem filterMap_instructionsPart (h : ∀ m ∈ lead, IsSystem m) :
    lead.filterMap instructionsPart = (systemTexts lead).map trimSpace := by
  induction lead with
  | nil => rfl
  | cons m rest ih =>
    have hrest := ih fun m' hm' => h m' (mem_cons_of_mem _ hm')
    have hm := instructionsPart_of_isSystem (h m mem_cons_self)
    by_cases hblank : trimSpace (systemText m.content) = ""
    · rw [filterMap_cons_none (by simp [hm, hblank]), hrest]
      simp [systemTexts, hblank]
    · rw [filterMap_cons_some (by simp [hm, hblank]; rfl), hrest]
      simp [systemTexts, hblank]

theorem map_trimSpace_systemTexts (lead : List ChatMessage) :
    (systemTexts lead).map trimSpace = systemTexts lead ↔ ∀ m ∈ lead, SystemKept m := by
  have hself : (systemTexts lead).map trimSpace = systemTexts lead ↔
      ∀ text ∈ systemTexts lead, trimSpace text = text := by
    conv_lhs => rhs; rw [← map_id (systemTexts lead)]
    exact map_inj_left
  rw [hself]
  constructor
  · intro h m hm
    by_cases hblank : trimSpace (systemText m.content) = ""
    · exact .inl hblank
    · exact .inr (h _ (mem_filter.2 ⟨mem_map_of_mem hm, by simpa using hblank⟩))
  · intro h text htext
    obtain ⟨hmem, hblank⟩ := mem_filter.1 htext
    obtain ⟨m, hm, rfl⟩ := mem_map.1 hmem
    exact (h m hm).resolve_left (by simpa using hblank)

theorem instructionsMessages_eq {texts : List String} (h : ∀ s ∈ texts, trimSpace s ≠ "") :
    instructionsMessages (if texts = [] then none
      else some (rawOf (.str ("\n\n".intercalate texts)))) =
      if texts = [] then []
      else [{ role := "system", content := .str ("\n\n".intercalate texts) }] := by
  cases texts with
  | nil => rfl
  | cons s rest =>
    have hne := @trimSpace_intercalate_ne "\n\n" s (s :: rest) mem_cons_self
      (h s mem_cons_self)
    simp [instructionsMessages, rawPresent, rawOf, responsesJSONString, hne]

/-! ## The round trip -/

/-- The conversation: the system texts joined by blank lines in front, and every message as it
was. -/
def KeepsMessages (lead rest after : List ChatMessage) : Prop :=
  ∃ turns, after = systemMessage lead ++ turns ∧ List.Forall₂ KeepsTurn rest turns

/-- A choice of a tool that the API has: a word or an object. -/
def ChoiceKept : Json → Prop
  | .null | .str _ | .obj _ => True
  | _ => False

theorem foldlM_turns (messages : List ChatMessage) (h : ∀ m ∈ rest, IsTurn m) :
    (rest.flatMap inputItemsOf).foldlM (responsesInputItemToChatMessages sprint) messages =
      .ok (messages ++ rest.map (turnBack sprint)) := by
  induction rest generalizing messages with
  | nil =>
    rw [map_nil, append_nil]
    rfl
  | cons m rest ih =>
    rw [flatMap_cons, foldlM_append,
      foldlM_inputItemsOf sprint messages (h m mem_cons_self), map_cons,
      append_cons messages (turnBack sprint m) (rest.map (turnBack sprint))]
    exact ih _ fun m' hm' => h m' (mem_cons_of_mem _ hm')

theorem decodeItems_map_obj (items : List Json.Fields) :
    decodeItems (items.map .obj) = .ok items := by
  induction items with
  | nil => rfl
  | cons item rest ih =>
    rw [decodeItems] at ih ⊢
    rw [map_cons, mapM_cons, ih]
    rfl

theorem toolChoiceToResponses_obj (m : Json.Fields) :
    ∃ fields, toolChoiceToResponses (.obj m) = some (rawOf (.obj fields)) := by
  unfold toolChoiceToResponses
  dsimp only
  repeat' split
  all_goals exact ⟨_, rfl⟩

theorem toolChoice_back (choice : Json) :
    (∃ j, responsesRequestToolChoiceToChat sprint (toolChoiceToResponses choice) = .ok j) ↔
      ChoiceKept choice := by
  cases choice with
  | null => exact ⟨fun _ => trivial, fun _ => ⟨.null, rfl⟩⟩
  | str s => exact ⟨fun _ => trivial, fun _ => ⟨.str s, rfl⟩⟩
  | obj m =>
    refine ⟨fun _ => trivial, fun _ => ?_⟩
    obtain ⟨fields, hfields⟩ := toolChoiceToResponses_obj m
    rw [hfields]
    dsimp only [responsesRequestToolChoiceToChat, rawPresent, rawOf]
    split_ifs
    · exact ⟨_, rfl⟩
    · exact ⟨_, rfl⟩
  | bool _ | num _ _ | arr _ =>
    refine ⟨?_, fun h => h.elim⟩
    rintro ⟨j, hj⟩
    cases hj

theorem chatCompletionsRequestToResponsesRequest_ok {mid : OpenAIResponsesRequest}
    (h : chatCompletionsRequestToResponsesRequest req = .ok mid) :
    req.model ≠ "" ∧ req.n.getD 1 ≤ 1 := by
  unfold chatCompletionsRequestToResponsesRequest at h
  split_ifs at h with hmodel hn
  exact ⟨hmodel, by omega⟩

theorem responsesRequestMessagesToChat_back {mid : OpenAIResponsesRequest}
    (hmid : chatCompletionsRequestToResponsesRequest req = .ok mid)
    (hmessages : req.messages = lead ++ rest) (hlead : ∀ m ∈ lead, IsSystem m)
    (hrest : ∀ m ∈ rest, IsTurn m) :
    mid.model = req.model ∧ unsupportedFields mid = [] ∧
    mid.toolChoice = toolChoiceToResponses req.toolChoice ∧
    responsesRequestMessagesToChat sprint mid =
      .ok ((if (systemTexts lead).map trimSpace = [] then []
        else [{
          role := "system"
          content := .str ("\n\n".intercalate ((systemTexts lead).map trimSpace)) }]) ++
        rest.map (turnBack sprint)) := by
  unfold chatCompletionsRequestToResponsesRequest at hmid
  split_ifs at hmid with hmodel hn
  have hitems : req.messages.flatMap inputItemsOf = rest.flatMap inputItemsOf := by
    rw [hmessages, flatMap_append, flatMap_eq_nil_iff.2 fun m hm =>
      inputItemsOf_of_isSystem (hlead m hm), nil_append]
  have hparts : req.messages.filterMap instructionsPart = (systemTexts lead).map trimSpace := by
    rw [hmessages, filterMap_append, filterMap_instructionsPart hlead,
      filterMap_eq_nil_iff.2 fun m hm => instructionsPart_of_isTurn (hrest m hm), append_nil]
  rw [hitems, hparts] at hmid
  cases hmid
  have hsaid : ∀ s ∈ (systemTexts lead).map trimSpace, trimSpace s ≠ "" := by
    intro s hs
    obtain ⟨text, htext, rfl⟩ := mem_map.1 hs
    rw [trimSpace_trimSpace]
    simpa using (mem_filter.1 htext).2
  refine ⟨rfl, by simp [unsupportedFields, rawPresent, trimSpace_itemTypes], rfl, ?_⟩
  simp only [responsesRequestMessagesToChat, rawPresent, rawOf, decodeItems_map_obj]
  rw [← instructionsMessages_eq hsaid]
  exact foldlM_turns sprint _ hrest

theorem systemMessage_back_iff (lead : List ChatMessage) :
    (if (systemTexts lead).map trimSpace = [] then []
      else [{
        role := "system"
        content := .str ("\n\n".intercalate ((systemTexts lead).map trimSpace)) }]) =
      systemMessage lead ↔ ∀ m ∈ lead, SystemKept m := by
  rw [← map_trimSpace_systemTexts, systemMessage]
  constructor
  · intro h
    cases hnil : systemTexts lead with
    | nil => rfl
    | cons s texts =>
      rw [← hnil]
      rw [if_neg (by simp [hnil]), if_neg (by simp [hnil])] at h
      have hjoin : "\n\n".intercalate ((systemTexts lead).map trimSpace) =
          "\n\n".intercalate (systemTexts lead) := by
        simpa using h
      refine eq_of_intercalate_eq ?_ hjoin
      rw [forall₂_map_left_iff, forall₂_same]
      exact fun text _ => length_trimSpace_le text
  · intro h
    rw [h]

theorem conversation_back_iff (hmessages : req.messages = lead ++ rest)
    (hlead : ∀ m ∈ lead, IsSystem m) (hrest : ∀ m ∈ rest, IsTurn m) :
    (∃ mid out, chatCompletionsRequestToResponsesRequest req = .ok mid ∧
      responsesRequestToChatCompletionsRequest sprint mid = .ok out ∧
      KeepsMessages lead rest out.messages) ↔
    req.model ≠ "" ∧ req.n.getD 1 ≤ 1 ∧ ChoiceKept req.toolChoice ∧
      (∀ m ∈ lead, SystemKept m) ∧ ∀ m ∈ rest, TurnKept m := by
  have hturns : List.Forall₂ KeepsTurn rest (rest.map (turnBack sprint)) ↔
      ∀ m ∈ rest, TurnKept m := by
    rw [forall₂_map_right_iff, forall₂_same]
    exact forall₂_congr fun m hm => keepsTurn_iff sprint (hrest m hm)
  constructor
  · rintro ⟨mid, out, hmid, hout, hkeeps⟩
    obtain ⟨hmodel, hn⟩ := chatCompletionsRequestToResponsesRequest_ok hmid
    obtain ⟨hmodel', hfields, hchoice, hback⟩ :=
      responsesRequestMessagesToChat_back sprint hmid hmessages hlead hrest
    unfold responsesRequestToChatCompletionsRequest at hout
    rw [if_neg (hmodel' ▸ hmodel), if_neg (by simp [hfields]), hback, hchoice] at hout
    cases hok : responsesRequestToolChoiceToChat sprint (toolChoiceToResponses req.toolChoice) with
    | error e =>
      rw [hok] at hout
      cases hout
    | ok choice =>
      rw [hok] at hout
      cases hout
      obtain ⟨turns, hafter, hforall⟩ := hkeeps
      have hlength : turns.length = (rest.map (turnBack sprint)).length := by
        rw [length_map, hforall.length_eq]
      obtain ⟨hsystem, hrestBack⟩ := append_inj' hafter hlength.symm
      rw [← hrestBack] at hforall
      exact ⟨hmodel, hn, (toolChoice_back sprint _).1 ⟨_, hok⟩,
        (systemMessage_back_iff lead).1 hsystem, hturns.1 hforall⟩
  · rintro ⟨hmodel, hn, hchoice, hsystem, hkept⟩
    have hmid : ∃ mid, chatCompletionsRequestToResponsesRequest req = .ok mid := by
      unfold chatCompletionsRequestToResponsesRequest
      rw [if_neg hmodel, if_neg (by omega)]
      exact ⟨_, rfl⟩
    obtain ⟨mid, hmid⟩ := hmid
    obtain ⟨hmodel', hfields, hchoice', hback⟩ :=
      responsesRequestMessagesToChat_back sprint hmid hmessages hlead hrest
    obtain ⟨choice, hok⟩ := (toolChoice_back sprint _).2 hchoice
    rw [(systemMessage_back_iff lead).2 hsystem] at hback
    have hout : responsesRequestToChatCompletionsRequest sprint mid =
        .ok { model := mid.model
              messages := systemMessage lead ++ rest.map (turnBack sprint)
              toolChoice := choice } := by
      unfold responsesRequestToChatCompletionsRequest
      rw [if_neg (hmodel' ▸ hmodel), if_neg (by simp [hfields]), hback, hchoice', hok]
      rfl
    exact ⟨mid, _, hmid, hout, _, rfl, hturns.2 hkept⟩

/-! ## Items of a Responses input -/

def itemType (item : Json.Fields) : String :=
  trimSpace (interface2String sprint (Json.get item "type"))

def itemRole (item : Json.Fields) : String :=
  trimSpace (interface2String sprint (Json.get item "role"))

def IsMessageItem (item : Json.Fields) : Prop :=
  itemType sprint item = "" ∨ itemType sprint item = "message"

instance (item : Json.Fields) : Decidable (IsMessageItem sprint item) :=
  inferInstanceAs (Decidable (_ ∨ _))

/-- An item of one of the six kinds; only messages have a role. -/
def IsItem (item : Json.Fields) : Prop :=
  IsMessageItem sprint item ∧
    itemRole sprint item ∈ ["", "user", "assistant", "system", "developer"] ∨
  itemType sprint item ∈ ["reasoning", "function_call", "function_call_output", "custom_tool_call",
    "custom_tool_call_output"] ∧ itemRole sprint item = ""

inductive ToolEvent
  | call (id name : String)
  | output (id : String)

/-- The calls and outputs of either kind. -/
def itemEvents (item : Json.Fields) : List ToolEvent :=
  match itemType sprint item with
  | "function_call" | "custom_tool_call" =>
    [.call (responsesCallID sprint item)
      (trimSpace (interface2String sprint (Json.get item "name")))]
  | "function_call_output" | "custom_tool_call_output" =>
    [.output (trimSpace (interface2String sprint (Json.get item "call_id")))]
  | _ => []

def messageEvents (m : ChatMessage) : List ToolEvent :=
  if m.role = "tool" then [.output m.toolCallId]
  else m.toolCalls.map fun c => .call c.id c.name

/-- A message of the user; one without a role is the user's. -/
def IsUserItem (item : Json.Fields) : Prop :=
  IsMessageItem sprint item ∧ (itemRole sprint item = "" ∨ itemRole sprint item = "user")

instance (item : Json.Fields) : Decidable (IsUserItem sprint item) :=
  inferInstanceAs (Decidable (_ ∧ _))

/-- The messages have every call in a message of the assistant, every output as a tool message in
its place after the calls before it, and as messages of the user those that are. -/
structure KeepsItems (items : List Json.Fields) (messages : List ChatMessage) : Prop where
  calls : ∀ m ∈ messages, m.toolCalls ≠ [] → m.role = "assistant"
  events : messages.flatMap messageEvents = items.flatMap (itemEvents sprint)
  users : (messages.filter (·.role = "user")).map (·.content) =
    (items.filter fun item => IsUserItem sprint item).map fun item =>
      responsesInputContentToChatContent sprint (Json.get item "content")

/-- The kinds of items that have no case of their own. -/
def IsStray (item : Json.Fields) : Prop :=
  itemType sprint item = "reasoning" ∨ itemType sprint item = "custom_tool_call_output"

instance (item : Json.Fields) : Decidable (IsStray sprint item) :=
  inferInstanceAs (Decidable (_ ∨ _))

def IsNamed (item : Json.Fields) : Prop :=
  itemType sprint item = "function_call" →
    trimSpace (interface2String sprint (Json.get item "name")) ≠ ""

def userContents (messages : List ChatMessage) : List Json :=
  (messages.filter (·.role = "user")).map (·.content)

def CallsOfAssistant (messages : List ChatMessage) : Prop :=
  ∀ m ∈ messages, m.toolCalls ≠ [] → m.role = "assistant"

theorem userContents_append (messages messages' : List ChatMessage) :
    userContents (messages ++ messages') = userContents messages ++ userContents messages' := by
  simp [userContents]

theorem CallsOfAssistant.append (h : CallsOfAssistant messages) (h' : CallsOfAssistant messages') :
    CallsOfAssistant (messages ++ messages') :=
  fun m hm => (mem_append.1 hm).elim (h m) (h' m)

theorem appendToolCallToLastAssistant_cases (messages : List ChatMessage) (toolCall : ToolCall) :
    (∃ init last, messages = init ++ [last] ∧ last.role = "assistant" ∧
      appendToolCallToLastAssistant messages toolCall =
        init ++ [{ last with toolCalls := last.toolCalls ++ [toolCall] }]) ∨
    appendToolCallToLastAssistant messages toolCall =
      messages ++ [{ role := "assistant", toolCalls := [toolCall] }] := by
  rcases eq_nil_or_concat' messages with rfl | ⟨init, last, rfl⟩
  · exact .inr rfl
  · by_cases hrole : last.role = "assistant"
    · exact .inl ⟨init, last, rfl, hrole, by simp [appendToolCallToLastAssistant, hrole]⟩
    · exact .inr (by simp [appendToolCallToLastAssistant, hrole])

theorem flatMap_messageEvents_appendToolCall (messages : List ChatMessage) (toolCall : ToolCall) :
    (appendToolCallToLastAssistant messages toolCall).flatMap messageEvents =
      messages.flatMap messageEvents ++ [.call toolCall.id toolCall.name] := by
  rcases appendToolCallToLastAssistant_cases messages toolCall with
    ⟨init, last, rfl, hrole, heq⟩ | heq
  · rw [heq]
    simp [messageEvents, hrole]
  · rw [heq]
    simp [messageEvents]

theorem userContents_appendToolCall (messages : List ChatMessage) (toolCall : ToolCall) :
    userContents (appendToolCallToLastAssistant messages toolCall) = userContents messages := by
  rcases appendToolCallToLastAssistant_cases messages toolCall with
    ⟨init, last, rfl, hrole, heq⟩ | heq
  · rw [heq]
    simp [userContents, hrole]
  · rw [heq]
    simp [userContents]

theorem CallsOfAssistant.appendToolCall (h : CallsOfAssistant messages) (toolCall : ToolCall) :
    CallsOfAssistant (appendToolCallToLastAssistant messages toolCall) := by
  rcases appendToolCallToLastAssistant_cases messages toolCall with
    ⟨init, last, rfl, hrole, heq⟩ | heq
  · rw [heq]
    intro m hm hcalls
    rcases mem_append.1 hm with hinit | hlast
    · exact h m (mem_append_left _ hinit) hcalls
    · rw [mem_singleton.1 hlast]
      exact hrole
  · rw [heq]
    exact h.append fun m hm _ => by rw [mem_singleton.1 hm]

/-! ### One item -/

theorem responsesInputItem_default (messages : List ChatMessage)
    (h : IsMessageItem sprint item ∨ IsStray sprint item) :
    responsesInputItemToChatMessages sprint messages item = .ok (messages ++ [{
        role := if itemRole sprint item = "" then "user" else itemRole sprint item
        content := responsesInputContentToChatContent sprint (Json.get item "content") }]) := by
  unfold IsMessageItem IsStray itemType at h
  rcases h with (h | h) | h | h <;>
  · simp only [responsesInputItemToChatMessages, h]
    rfl

theorem responsesInputItem_function (messages : List ChatMessage)
    (h : itemType sprint item = "function_call") :
    responsesInputItemToChatMessages sprint messages item =
      (responsesFunctionCallItemToChatToolCall sprint item).bind fun toolCall =>
        .ok (appendToolCallToLastAssistant messages toolCall) := by
  unfold itemType at h
  simp only [responsesInputItemToChatMessages, h]
  rfl

theorem responsesInputItem_custom (messages : List ChatMessage)
    (h : itemType sprint item = "custom_tool_call") :
    responsesInputItemToChatMessages sprint messages item =
      .ok (appendToolCallToLastAssistant messages
        (responsesCustomToolCallItemToChatToolCall sprint item)) := by
  unfold itemType at h
  simp only [responsesInputItemToChatMessages, h]

theorem responsesInputItem_output (messages : List ChatMessage)
    (h : itemType sprint item = "function_call_output") :
    responsesInputItemToChatMessages sprint messages item = .ok (messages ++ [{
        role := "tool"
        toolCallId := trimSpace (interface2String sprint (Json.get item "call_id"))
        content := .str (responsesArgumentsString (Json.get item "output")) }]) := by
  unfold itemType at h
  simp only [responsesInputItemToChatMessages, h]

theorem responsesFunctionCallItem_ok {toolCall : ToolCall}
    (h : responsesFunctionCallItemToChatToolCall sprint item = .ok toolCall) :
    trimSpace (interface2String sprint (Json.get item "name")) ≠ "" ∧
      toolCall.id = responsesCallID sprint item ∧
      toolCall.name = trimSpace (interface2String sprint (Json.get item "name")) := by
  unfold responsesFunctionCallItemToChatToolCall at h
  dsimp only at h
  split_ifs at h with hname
  refine ⟨hname, ?_, ?_⟩
  all_goals rw [← Except.ok.inj h]

theorem IsItem.cases (h : IsItem sprint item) :
    (IsMessageItem sprint item ∧
      itemRole sprint item ∈ ["", "user", "assistant", "system", "developer"]) ∨
    (IsStray sprint item ∧ itemRole sprint item = "") ∨
    itemType sprint item = "function_call" ∨ itemType sprint item = "custom_tool_call" ∨
    itemType sprint item = "function_call_output" := by
  rcases h with h | ⟨htype, hrole⟩
  · exact .inl h
  · simp only [mem_cons, not_mem_nil, or_false] at htype
    rcases htype with htype | htype | htype | htype | htype
    · exact .inr (.inl ⟨.inl htype, hrole⟩)
    · exact .inr (.inr (.inl htype))
    · exact .inr (.inr (.inr (.inr htype)))
    · exact .inr (.inr (.inr (.inl htype)))
    · exact .inr (.inl ⟨.inr htype, hrole⟩)

theorem responsesInputItem_users (h : IsItem sprint item)
    (hstep : responsesInputItemToChatMessages sprint messages item = .ok messages') :
    IsNamed sprint item ∧
    userContents messages' = userContents messages ++
      if IsUserItem sprint item ∨ IsStray sprint item then
        [responsesInputContentToChatContent sprint (Json.get item "content")]
      else [] := by
  rcases h.cases with ⟨htype, hrole⟩ | ⟨hstray, hrole⟩ | htype | htype | htype
  · rw [responsesInputItem_default sprint messages (.inl htype)] at hstep
    cases hstep
    have hstray : ¬ IsStray sprint item := by
      unfold IsStray
      rcases htype with htype | htype <;> simp [htype]
    refine ⟨fun hcall => absurd htype (by simp [IsMessageItem, hcall]), ?_⟩
    rw [userContents_append]
    simp only [mem_cons, not_mem_nil, or_false] at hrole
    rcases hrole with hrole | hrole | hrole | hrole | hrole <;>
      simp [userContents, IsUserItem, htype, hstray, hrole]
  · rw [responsesInputItem_default sprint messages (.inr hstray)] at hstep
    cases hstep
    refine ⟨fun hcall => absurd hstray (by simp [IsStray, hcall]), ?_⟩
    rw [userContents_append]
    simp [userContents, hstray, hrole]
  · rw [responsesInputItem_function sprint messages htype] at hstep
    obtain ⟨toolCall, hcall, hstep⟩ := bind_eq_ok_iff.1 hstep
    cases hstep
    refine ⟨fun _ => (responsesFunctionCallItem_ok sprint hcall).1, ?_⟩
    rw [userContents_appendToolCall]
    simp [IsUserItem, IsMessageItem, IsStray, htype]
  · rw [responsesInputItem_custom sprint messages htype] at hstep
    cases hstep
    refine ⟨fun hcall => absurd (htype.symm.trans hcall) (by decide), ?_⟩
    rw [userContents_appendToolCall]
    simp [IsUserItem, IsMessageItem, IsStray, htype]
  · rw [responsesInputItem_output sprint messages htype] at hstep
    cases hstep
    refine ⟨fun hcall => absurd (htype.symm.trans hcall) (by decide), ?_⟩
    rw [userContents_append]
    simp [userContents, IsUserItem, IsMessageItem, IsStray, htype]

theorem responsesInputItem_events (h : IsItem sprint item) (hknown : ¬ IsStray sprint item)
    (hcalls : CallsOfAssistant messages)
    (hstep : responsesInputItemToChatMessages sprint messages item = .ok messages') :
    CallsOfAssistant messages' ∧
    messages'.flatMap messageEvents = messages.flatMap messageEvents ++ itemEvents sprint item := by
  rcases h.cases with ⟨htype, hrole⟩ | ⟨hstray, -⟩ | htype | htype | htype
  · rw [responsesInputItem_default sprint messages (.inl htype)] at hstep
    cases hstep
    have hevents : itemEvents sprint item = [] := by
      unfold itemEvents
      rcases htype with htype | htype <;> simp [htype]
    refine ⟨hcalls.append fun m hm hne => ?_, ?_⟩
    · rw [mem_singleton.1 hm] at hne
      exact absurd rfl hne
    · rw [flatMap_append, hevents]
      simp only [mem_cons, not_mem_nil, or_false] at hrole
      rcases hrole with hrole | hrole | hrole | hrole | hrole <;> simp [messageEvents, hrole]
  · exact absurd hstray hknown
  · rw [responsesInputItem_function sprint messages htype] at hstep
    obtain ⟨toolCall, hcall, hstep⟩ := bind_eq_ok_iff.1 hstep
    cases hstep
    obtain ⟨-, hid, hname⟩ := responsesFunctionCallItem_ok sprint hcall
    refine ⟨hcalls.appendToolCall toolCall, ?_⟩
    rw [flatMap_messageEvents_appendToolCall, hid, hname]
    simp [itemEvents, htype]
  · rw [responsesInputItem_custom sprint messages htype] at hstep
    cases hstep
    refine ⟨hcalls.appendToolCall _, ?_⟩
    rw [flatMap_messageEvents_appendToolCall]
    simp [itemEvents, htype, responsesCustomToolCallItemToChatToolCall]
  · rw [responsesInputItem_output sprint messages htype] at hstep
    cases hstep
    refine ⟨hcalls.append fun m hm hne => ?_, ?_⟩
    · rw [mem_singleton.1 hm] at hne
      exact absurd rfl hne
    · rw [flatMap_append]
      simp [messageEvents, itemEvents, htype]

theorem responsesInputItem_ok (messages : List ChatMessage) (h : IsItem sprint item)
    (hnamed : IsNamed sprint item) :
    ∃ messages', responsesInputItemToChatMessages sprint messages item = .ok messages' := by
  rcases h.cases with ⟨htype, -⟩ | ⟨hstray, -⟩ | htype | htype | htype
  · exact ⟨_, responsesInputItem_default sprint messages (.inl htype)⟩
  · exact ⟨_, responsesInputItem_default sprint messages (.inr hstray)⟩
  · rw [responsesInputItem_function sprint messages htype, responsesFunctionCallItemToChatToolCall,
      if_neg (hnamed htype)]
    exact ⟨_, rfl⟩
  · exact ⟨_, responsesInputItem_custom sprint messages htype⟩
  · exact ⟨_, responsesInputItem_output sprint messages htype⟩

/-! ### The whole input -/

theorem foldlM_users (h : ∀ item ∈ items, IsItem sprint item)
    (hrun : items.foldlM (responsesInputItemToChatMessages sprint) messages = .ok messages') :
    (∀ item ∈ items, IsNamed sprint item) ∧
    userContents messages' = userContents messages ++
      (items.filter fun item => IsUserItem sprint item ∨ IsStray sprint item).map fun item =>
        responsesInputContentToChatContent sprint (Json.get item "content") := by
  induction items generalizing messages with
  | nil =>
    cases hrun
    simp
  | cons item rest ih =>
    rw [foldlM_cons] at hrun
    obtain ⟨next, hstep, hrun⟩ := bind_eq_ok_iff.1 hrun
    obtain ⟨hnamed, husers⟩ := responsesInputItem_users sprint (h item mem_cons_self) hstep
    obtain ⟨hrest, hafter⟩ := ih (fun item' hmem => h item' (mem_cons_of_mem _ hmem)) hrun
    refine ⟨forall_mem_cons.2 ⟨hnamed, hrest⟩, ?_⟩
    rw [hafter, husers, append_assoc]
    split
    · rename_i hadds
      rw [filter_cons_of_pos (by simpa using hadds)]
      rfl
    · rename_i hadds
      rw [filter_cons_of_neg (by simpa using hadds)]
      rfl

theorem foldlM_events (h : ∀ item ∈ items, IsItem sprint item)
    (hknown : ∀ item ∈ items, ¬ IsStray sprint item) (hcalls : CallsOfAssistant messages)
    (hrun : items.foldlM (responsesInputItemToChatMessages sprint) messages = .ok messages') :
    CallsOfAssistant messages' ∧
    messages'.flatMap messageEvents =
      messages.flatMap messageEvents ++ items.flatMap (itemEvents sprint) := by
  induction items generalizing messages with
  | nil =>
    cases hrun
    exact ⟨hcalls, by simp⟩
  | cons item rest ih =>
    rw [foldlM_cons] at hrun
    obtain ⟨next, hstep, hrun⟩ := bind_eq_ok_iff.1 hrun
    obtain ⟨hnext, hevents⟩ := responsesInputItem_events sprint (h item mem_cons_self)
      (hknown item mem_cons_self) hcalls hstep
    obtain ⟨hall, hafter⟩ := ih (fun item' hmem => h item' (mem_cons_of_mem _ hmem))
      (fun item' hmem => hknown item' (mem_cons_of_mem _ hmem)) hnext hrun
    refine ⟨hall, ?_⟩
    rw [hafter, hevents, append_assoc, flatMap_cons]

theorem foldlM_ok (messages : List ChatMessage) (h : ∀ item ∈ items, IsItem sprint item)
    (hnamed : ∀ item ∈ items, IsNamed sprint item) :
    ∃ messages',
      items.foldlM (responsesInputItemToChatMessages sprint) messages = .ok messages' := by
  induction items generalizing messages with
  | nil => exact ⟨messages, rfl⟩
  | cons item rest ih =>
    obtain ⟨next, hstep⟩ := responsesInputItem_ok sprint messages (h item mem_cons_self)
      (hnamed item mem_cons_self)
    rw [foldlM_cons, hstep]
    exact ih next (fun item' hmem => h item' (mem_cons_of_mem _ hmem))
      fun item' hmem => hnamed item' (mem_cons_of_mem _ hmem)

theorem instructionsMessages_silent (instructions : Option RawMessage) :
    CallsOfAssistant (instructionsMessages instructions) ∧
    (instructionsMessages instructions).flatMap messageEvents = [] ∧
    userContents (instructionsMessages instructions) = [] := by
  unfold instructionsMessages
  split
  · simp [CallsOfAssistant, userContents]
  · split_ifs <;> simp [CallsOfAssistant, userContents, messageEvents]

theorem IsStray.not_user (h : IsStray sprint item) : ¬ IsUserItem sprint item := by
  rintro ⟨htype, -⟩
  unfold IsStray IsMessageItem at *
  rcases h with h | h <;> simp [h] at htype

def IsInput (req : OpenAIResponsesRequest) (items : List Json.Fields) : Prop :=
  ∃ text l, req.input = some ⟨text, .arr l⟩ ∧ decodeItems l = .ok items ∧
    ∀ item ∈ items, IsItem sprint item

theorem items_kept_iff {req : OpenAIResponsesRequest} (h : IsInput sprint req items) :
    (∃ messages, responsesRequestMessagesToChat sprint req = .ok messages ∧
      KeepsItems sprint items messages) ↔
    ∀ item ∈ items, ¬ IsStray sprint item ∧ IsNamed sprint item := by
  obtain ⟨text, l, hinput, hitems, hkinds⟩ := h
  obtain ⟨hcalls, hevents, husers⟩ := instructionsMessages_silent req.instructions
  have hrun : responsesRequestMessagesToChat sprint req =
      items.foldlM (responsesInputItemToChatMessages sprint)
        (instructionsMessages req.instructions) := by
    simp only [responsesRequestMessagesToChat, hinput, rawPresent, hitems]
    rfl
  rw [hrun]
  constructor
  · rintro ⟨messages, hok, hkeeps⟩
    obtain ⟨hnamed, hafter⟩ := foldlM_users sprint hkinds hok
    -- there are as many messages of the user as user items, so that no stray item is among them
    have hlength := congrArg List.length (hafter.symm.trans hkeeps.users)
    rw [husers, nil_append, length_map, length_map] at hlength
    have hfilter : items.filter (fun item => IsUserItem sprint item) =
        (items.filter fun item => IsUserItem sprint item ∨ IsStray sprint item).filter
          fun item => IsUserItem sprint item := by
      rw [filter_filter]
      refine filter_congr fun item _ => ?_
      by_cases huser : IsUserItem sprint item <;> simp [huser]
    rw [hfilter, eq_comm, length_filter_eq_length_iff] at hlength
    refine fun item hmem => ⟨fun hstray => ?_, hnamed item hmem⟩
    have huser := hlength item (mem_filter.2 ⟨hmem, by simp [hstray]⟩)
    exact hstray.not_user sprint (by simpa using huser)
  · intro hknown
    obtain ⟨messages, hok⟩ := foldlM_ok sprint (instructionsMessages req.instructions) hkinds
      fun item hmem => (hknown item hmem).2
    obtain ⟨-, hafter⟩ := foldlM_users sprint hkinds hok
    obtain ⟨hall, hmade⟩ := foldlM_events sprint hkinds (fun item hmem => (hknown item hmem).1)
      hcalls hok
    refine ⟨messages, hok, hall, by rw [hmade, hevents, nil_append], ?_⟩
    have hfilter : (items.filter fun item => IsUserItem sprint item ∨ IsStray sprint item) =
        items.filter fun item => IsUserItem sprint item := by
      refine filter_congr fun item hmem => ?_
      simp [(hknown item hmem).1]
    rw [husers, nil_append, hfilter] at hafter
    exact hafter

/-- The conversation of every chat request comes back exactly if its model is named, it asks for one
answer, its choice of a tool is one of the API, and each message comes back; a Responses input keeps its
calls, outputs and user messages exactly if it has no reasoning and no custom output and every function
call has a name. -/
theorem same_conversation_iff {req : GeneralOpenAIRequest} {lead rest : List ChatMessage}
    {res : OpenAIResponsesRequest} {items : List Json.Fields}
    (hmessages : req.messages = lead ++ rest) (hlead : ∀ m ∈ lead, IsSystem m)
    (hrest : ∀ m ∈ rest, IsTurn m) (hitems : IsInput sprint res items) :
    ((∃ mid out, chatCompletionsRequestToResponsesRequest req = .ok mid ∧
        responsesRequestToChatCompletionsRequest sprint mid = .ok out ∧
        KeepsMessages lead rest out.messages) ↔
      req.model ≠ "" ∧ req.n.getD 1 ≤ 1 ∧ ChoiceKept req.toolChoice ∧
        (∀ m ∈ lead, SystemKept m) ∧ ∀ m ∈ rest, TurnKept m) ∧
    ((∃ messages, responsesRequestMessagesToChat sprint res = .ok messages ∧
        KeepsItems sprint items messages) ↔
      ∀ item ∈ items, ¬ IsStray sprint item ∧ IsNamed sprint item) :=
  ⟨conversation_back_iff sprint hmessages hlead hrest, items_kept_iff sprint hitems⟩

/-- A question about a picture, a call and its output. -/
def pictureTurns : List ChatMessage :=
  [{ role := "user"
     content := .arr [.obj [("text", .str "Where is this?"), ("type", .str "text")],
       .obj [("image_url", .obj [("url", .str "https://x/a.png")]), ("type", .str "image_url")]] },
   { role := "assistant"
     toolCalls := [{ id := "call_1", name := "locate", arguments := "\x7b\x7d" }] },
   { role := "tool", content := .str "Kyoto", toolCallId := "call_1" }]

def pictureLead : List ChatMessage := [{ role := "system", content := .str "Be brief." }]

def pictureRequest : GeneralOpenAIRequest where
  model := "gpt"
  messages := pictureLead ++ pictureTurns

def callItems : List Json.Fields :=
  [[("content", .str "Count."), ("role", .str "user")],
   [("call_id", .str "c1"), ("input", .str "wc"), ("name", .str "shell"),
     ("type", .str "custom_tool_call")],
   [("call_id", .str "c2"), ("name", .str "count"), ("type", .str "function_call")],
   [("call_id", .str "c2"), ("output", .str "3"), ("type", .str "function_call_output")]]

def itemsRequest (items : List Json.Fields) : OpenAIResponsesRequest where
  model := "gpt"
  input := some (rawOf (.arr (items.map .obj)))

theorem isInput_itemsRequest (h : ∀ item ∈ items, IsItem sprint item) :
    IsInput sprint (itemsRequest items) items :=
  ⟨_, _, rfl, decodeItems_map_obj items, h⟩

theorem isTurn_pictureTurns : ∀ m ∈ pictureTurns, IsTurn m := by
  simp only [pictureTurns, mem_cons, not_mem_nil, or_false, forall_eq_or_imp, forall_eq]
  refine ⟨⟨.inl rfl, trivial, by simp, by simp, by simp⟩,
    ⟨.inr (.inl rfl), trivial, by simp, by simp, ?_⟩, ⟨.inr (.inr rfl), trivial, by simp, by simp,
    by simp⟩⟩
  simp only [mem_singleton, forall_eq]
  decide +kernel

theorem isItem_callItems : ∀ item ∈ callItems, IsItem (fun _ => "") item := by
  unfold IsItem
  decide +kernel

theorem turnKept_pictureTurns : ∀ m ∈ pictureTurns, TurnKept m := by
  simp only [pictureTurns, mem_cons, not_mem_nil, or_false, forall_eq_or_imp, forall_eq]
  refine ⟨?_, ?_, ?_⟩
  · simp [TurnKept, ContentKept, parsePart, parseImageUrl, Json.get, lookup_cons, asString?,
      PartKept]
  · rw [TurnKept, if_neg (by decide)]
    refine ⟨trivial, ?_⟩
    simp only [CallKept, mem_singleton, forall_eq]
    decide +kernel
  · rw [TurnKept, if_pos rfl]
    exact ⟨fun _ h => by simp at h, by decide, by decide +kernel⟩

theorem same_conversation :
    (∃ mid out, chatCompletionsRequestToResponsesRequest pictureRequest = .ok mid ∧
      responsesRequestToChatCompletionsRequest (fun _ => "") mid = .ok out ∧
      KeepsMessages pictureLead pictureTurns out.messages) ∧
    ∃ messages,
      responsesRequestMessagesToChat (fun _ => "") (itemsRequest callItems) = .ok messages ∧
      KeepsItems (fun _ => "") callItems messages := by
  have hmessages : pictureRequest.messages = pictureLead ++ pictureTurns := rfl
  have hlead : ∀ m ∈ pictureLead, IsSystem m := by simp [pictureLead, IsSystem]
  have hsame := same_conversation_iff (fun _ => "") hmessages hlead isTurn_pictureTurns
    (isInput_itemsRequest _ isItem_callItems)
  refine ⟨hsame.1.2 ⟨by decide, by decide, trivial, ?_, turnKept_pictureTurns⟩, hsame.2.2 ?_⟩
  · simp only [pictureLead, mem_singleton, forall_eq]
    exact .inr (by decide +kernel)
  · unfold IsStray IsNamed
    decide +kernel

def customItems : List Json.Fields :=
  [[("call_id", .str "c1"), ("input", .str "wc"), ("name", .str "shell"),
     ("type", .str "custom_tool_call")],
   [("call_id", .str "c1"), ("output", .str "3"), ("type", .str "custom_tool_call_output")]]

/-- The output of a custom call becomes an empty message of the user. -/
theorem custom_output_lost :
    ¬ ∀ (sprint : Json → String) (req : OpenAIResponsesRequest) (items : List Json.Fields),
      IsInput sprint req items →
        ∃ messages, responsesRequestMessagesToChat sprint req = .ok messages ∧
          KeepsItems sprint items messages := by
  intro hall
  have hitems : ∀ item ∈ customItems, IsItem (fun _ => "") item := by
    unfold IsItem
    decide +kernel
  have hinput := isInput_itemsRequest _ hitems
  have hkept := (items_kept_iff _ hinput).1 (hall _ _ _ hinput)
  exact (hkept _ (mem_cons_of_mem _ mem_cons_self)).1 (.inr (by decide +kernel))

end BeeApi.RelayConvert
