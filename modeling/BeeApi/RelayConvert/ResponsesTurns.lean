import BeeApi.RelayConvert.ResponsesRequest

/-!
# A chat conversation through the Responses API

What comes back of a chat request that was turned into a Responses request: every part, every
message and the instructions, each with the condition under which it is what it was.
-/

namespace BeeApi.RelayConvert

open Strings List Option

variable (sprint : Json → String)

/-! ## Parts -/

/-- A part that has what it needs to come back. -/
def PartKept : MediaContent → Prop
  | .text _ _ => True
  | .imageUrl imageUrl =>
    if imageUrl.url = "" then imageUrl.detail ≠ "" else imageUrl.detail = "high"
  | .inputAudio _ => True
  | .file file => file.fileId ≠ "" ∨ file.fileName ≠ "" ∧ file.fileData ≠ ""
  | .videoUrl url => url ≠ ""

def partText : MediaContent → Option String
  | .text text _ => some text
  | _ => none

theorem trimSpace_partTypes : trimSpace "input_text" = "input_text" ∧
    trimSpace "output_text" = "output_text" ∧ trimSpace "input_image" = "input_image" ∧
    trimSpace "input_audio" = "input_audio" ∧ trimSpace "input_file" = "input_file" ∧
    trimSpace "input_video" = "input_video" := by decide +kernel

theorem responsesPartText_contentPart (role : String) (part : MediaContent) :
    responsesPartText sprint (contentPart role part) = partText part := by
  obtain ⟨hin, hout, himage, haudio, hfile, hvideo⟩ := trimSpace_partTypes
  cases part with
  | text text _ =>
    by_cases hrole : role = "assistant" <;>
      simp [responsesPartText, contentPart, Json.get, lookup_cons, interface2String, hrole, hin,
        hout, partText]
  | imageUrl imageUrl =>
    simp [responsesPartText, contentPart, Json.get, lookup_cons, interface2String, himage, partText]
  | inputAudio inputAudio =>
    simp [responsesPartText, contentPart, Json.get, lookup_cons, interface2String, haudio, partText]
  | file file =>
    simp [responsesPartText, contentPart, Json.get, lookup_cons, interface2String, hfile, partText]
  | videoUrl url =>
    simp [responsesPartText, contentPart, Json.get, interface2String, hvideo, partText]

/-- What reading a part never leaves: a cache control, or a file with an id and data. -/
def Readable : MediaContent → Prop
  | .text _ cacheControl => cacheControl = ""
  | .file file => file.fileId = "" ∨ file.fileName = "" ∧ file.fileData = ""
  | _ => True

variable {part : MediaContent} {m : ChatMessage}

theorem readable_of_parsePart {j : Json} (h : parsePart j = some part) : Readable part := by
  cases j with
  | obj contentItem =>
    rw [parsePart] at h
    split at h
    · obtain ⟨text, -, rfl⟩ := map_eq_some_iff.1 h
      rfl
    · cases h
      trivial
    · obtain ⟨audio, -, rfl⟩ := map_eq_some_iff.1 h
      trivial
    · obtain ⟨file, hfile, rfl⟩ := map_eq_some_iff.1 h
      unfold parseFile at hfile
      split at hfile
      · split at hfile <;> cases hfile <;> simp [Readable]
      · cases hfile
    · obtain ⟨url, -, rfl⟩ := map_eq_some_iff.1 h
      trivial
    · cases h
  | _ => cases h

theorem parseImageUrl_normalize (imageUrl : MessageImageUrl) :
    parseImageUrl (normalizeChatImageURLToString imageUrl) = imageUrl ↔
      PartKept (.imageUrl imageUrl) := by
  obtain ⟨url, detail⟩ := imageUrl
  by_cases hurl : url = ""
  · by_cases hdetail : detail = ""
    all_goals
      simp [normalizeChatImageURLToString, parseImageUrl, PartKept, omitEmpty, Json.get,
        lookup_cons, asString?, hurl, hdetail]
  · simp [normalizeChatImageURLToString, parseImageUrl, PartKept, hurl, eq_comm]

theorem parseFile_file {file : MessageFile} (h : Readable (.file file)) :
    parseFile (.obj (omitEmpty "file_data" file.fileData ++ omitEmpty "file_id" file.fileId ++
      omitEmpty "filename" file.fileName)) = some file ↔ PartKept (.file file) := by
  obtain ⟨fileName, fileData, fileId⟩ := file
  by_cases hname : fileName = "" <;> by_cases hdata : fileData = "" <;>
    by_cases hid : fileId = "" <;>
    simp_all [Readable, parseFile, PartKept, omitEmpty, Json.get, lookup_cons]

theorem parsePart_back (role : String) (h : Readable part) :
    parsePart (responsesPartToChatPart sprint (contentPart role part)) = some part ↔
      PartKept part := by
  obtain ⟨hin, hout, himage, haudio, hfile, hvideo⟩ := trimSpace_partTypes
  cases part with
  | text text cacheControl =>
    cases h
    by_cases hrole : role = "assistant" <;>
      simp [responsesPartToChatPart, contentPart, Json.get, lookup_cons, interface2String, hrole,
        hin, hout, parsePart, asString?, PartKept]
  | imageUrl imageUrl =>
    rw [← parseImageUrl_normalize]
    simp [responsesPartToChatPart, responsesImagePartToChatImageURL, contentPart, Json.get,
      lookup_cons, interface2String, himage, parsePart, asString?]
  | inputAudio inputAudio =>
    simp [responsesPartToChatPart, responsesPartPayload, contentPart, Json.get, lookup_cons,
      interface2String, haudio, parsePart, parseInputAudio, asString?, PartKept]
  | file file =>
    rw [← parseFile_file h]
    simp [responsesPartToChatPart, responsesFilePartToChatFile, contentPart, Json.get, lookup_cons,
      interface2String, hfile, parsePart, asString?]
  | videoUrl url =>
    by_cases hurl : url = "" <;>
      simp [responsesPartToChatPart, responsesVideoPartToChatVideoURL, contentPart, Json.get,
        lookup_cons, interface2String, hvideo, parsePart, asString?, PartKept, hurl]

/-! ## Contents -/

section FilterMap

variable {α β : Type*}

theorem filterMap_eq_of_map_eq {f : α → Option β} {l : List α} {l' : List β}
    (h : l.map f = l'.map some) : l.filterMap f = l' := by
  have hid := congrArg (List.filterMap id) h
  simpa [filterMap_map] using hid

theorem map_eq_map_some {f : α → Option β} {l : List α} (h : ∀ x ∈ l, (f x).isSome) :
    l.map f = (l.filterMap f).map some := by
  induction l with
  | nil => rfl
  | cons x rest ih =>
    obtain ⟨y, hy⟩ := isSome_iff_exists.1 (h x mem_cons_self)
    rw [map_cons, filterMap_cons_some hy, map_cons, hy, ih fun z hz => h z (mem_cons_of_mem _ hz)]

theorem filterMap_eq_self_iff {f : α → Option α} {l : List α} :
    l.filterMap f = l ↔ ∀ x ∈ l, f x = some x := by
  induction l with
  | nil => simp
  | cons x rest ih =>
    cases hx : f x with
    | none =>
      have hle := length_filterMap_le f rest
      refine ⟨fun h => ?_, fun h => absurd (h x mem_cons_self) (by simp [hx])⟩
      rw [filterMap_cons_none hx] at h
      have hlength := congrArg List.length h
      rw [length_cons] at hlength
      omega
    | some y =>
      rw [filterMap_cons_some hx, List.cons.injEq, ih, forall_mem_cons, hx, some.injEq]

end FilterMap

/-- A content that is read as the same text or the same parts; a list of texts may be joined. -/
def KeepsContent (before after : Json) : Prop :=
  match before with
  | .null => after = .str ""
  | .arr l => ∃ parts, l.map parsePart = parts.map some ∧ (parseContent after = parts ∨
        ∃ texts, parts.map partText = texts.map some ∧ after = .str (String.join texts))
  | _ => after = before

/-- A content whose parts are all read and come back. -/
def ContentKept : Json → Prop
  | .arr l => ∀ j ∈ l, ∃ part, parsePart j = some part ∧ PartKept part
  | _ => True

/-- The content of a message: a text, a list or nothing. -/
def IsContent : Json → Prop
  | .null | .str _ | .arr _ => True
  | _ => False

theorem responsesContentPartsToChatContent_contentPart (role : String) (parts : List MediaContent) :
    responsesContentPartsToChatContent sprint (parts.map (contentPart role)) =
      if ∀ part ∈ parts, (partText part).isSome then .str (String.join (parts.filterMap partText))
      else .arr (parts.map fun part => responsesPartToChatPart sprint (contentPart role part)) := by
  simp [responsesContentPartsToChatContent, filterMap_map, Function.comp_def,
    responsesPartText_contentPart]

theorem keepsContent_iff (role : String) {content : Json} (h : IsContent content) :
    KeepsContent content (responsesInputContentToChatContent sprint (itemContent role content)) ↔
      ContentKept content := by
  cases content with
  | null | str => simp [KeepsContent, ContentKept, itemContent, responsesInputContentToChatContent]
  | bool _ | num _ _ | obj _ => exact h.elim
  | arr l =>
    simp only [itemContent, parseContent, responsesInputContentToChatContent,
      responsesContentPartsToChatContent_contentPart, KeepsContent, ContentKept]
    constructor
    · rintro ⟨parts, hparts, hback⟩ j hj
      rw [filterMap_eq_of_map_eq hparts] at hback
      -- every element of the list is read as a part
      have hread : parsePart j ∈ parts.map some := hparts ▸ mem_map_of_mem hj
      obtain ⟨part, hmem, hpart⟩ := mem_map.1 hread
      refine ⟨part, hpart.symm, ?_⟩
      split_ifs at hback with honly
      · obtain ⟨text, htext⟩ := isSome_iff_exists.1 (honly part hmem)
        cases part <;> trivial
      · rcases hback with hback | ⟨_, _, habsurd⟩
        · dsimp only at hback
          rw [filterMap_map, filterMap_eq_self_iff] at hback
          exact (parsePart_back sprint role (readable_of_parsePart hpart.symm)).1 (hback part hmem)
        · cases habsurd
    · intro hkept
      have hsome : ∀ j ∈ l, (parsePart j).isSome := by
        intro j hj
        obtain ⟨part, hpart, -⟩ := hkept j hj
        exact isSome_iff_exists.2 ⟨part, hpart⟩
      refine ⟨l.filterMap parsePart, map_eq_map_some hsome, ?_⟩
      split_ifs with honly
      · exact .inr ⟨_, map_eq_map_some honly, rfl⟩
      · refine .inl ?_
        dsimp only
        rw [filterMap_map, filterMap_eq_self_iff]
        intro part hmem
        obtain ⟨j, hj, hpart⟩ := mem_filterMap.1 hmem
        obtain ⟨part', hpart', hkept'⟩ := hkept j hj
        rw [hpart] at hpart'
        cases hpart'
        exact (parsePart_back sprint role (readable_of_parsePart hpart)).2 hkept'

theorem lookup_of_asString {fields : Json.Fields} {key s : String}
    (h : asString? (Json.get fields key) = some s) : fields.lookup key = some (.str s) := by
  rw [Json.get] at h
  cases hlookup : fields.lookup key with
  | none =>
    rw [hlookup] at h
    cases h
  | some j =>
    rw [hlookup, getD_some] at h
    cases j <;> cases h
    rfl

theorem length_text_lt {j : Json} {text : String} (hpart : parsePart j = some part)
    (htext : partText part = some text) : text.length < (Json.encode j).length := by
  cases j with
  | obj contentItem =>
    rw [parsePart] at hpart
    split at hpart
    · obtain ⟨text', hfield, rfl⟩ := map_eq_some_iff.1 hpart
      cases htext
      exact Json.length_lt_encode_obj (lookup_of_asString hfield)
    · cases hpart
      cases htext
    · obtain ⟨_, -, rfl⟩ := map_eq_some_iff.1 hpart
      cases htext
    · obtain ⟨_, -, rfl⟩ := map_eq_some_iff.1 hpart
      cases htext
    · obtain ⟨_, -, rfl⟩ := map_eq_some_iff.1 hpart
      cases htext
    · cases hpart
  | _ => cases hpart

theorem length_join_texts_le {l : List Json} {parts : List MediaContent} {texts : List String}
    (hparts : l.map parsePart = parts.map some) (htexts : parts.map partText = texts.map some) :
    (String.join texts).length ≤ (l.map fun j => (Json.encode j).length).sum := by
  induction l generalizing parts texts with
  | nil =>
    cases parts with
    | nil =>
      cases texts with
      | nil => exact le_refl _
      | cons _ _ => cases htexts
    | cons _ _ => cases hparts
  | cons j rest ih =>
    cases parts with
    | nil => cases hparts
    | cons part parts =>
      cases texts with
      | nil => cases htexts
      | cons text texts =>
        simp only [map_cons, List.cons.injEq] at hparts htexts
        have hhead := length_text_lt hparts.1 htexts.1
        have htail := ih hparts.2 htexts.2
        rw [String.join_cons, String.length_append, map_cons, sum_cons]
        omega

/-- A list of parts is longer when it is encoded than all its texts, so that it does not come back
as the output of a tool. -/
theorem not_keepsContent_toolOutput (l : List Json) :
    ¬ KeepsContent (.arr l) (.str (toolOutput (.arr l))) := by
  have hlong := Json.sum_length_lt_marshal_arr l
  rintro ⟨parts, hparts, hback⟩
  have htexts : ∃ texts, parts.map partText = texts.map some ∧
      (Json.arr l).marshal = String.join texts := by
    rcases hback with hone | ⟨texts, htexts, hjoin⟩
    · rw [← hone]
      exact ⟨[(Json.arr l).marshal], rfl, by simp⟩
    · exact ⟨texts, htexts, Json.str.inj hjoin⟩
  obtain ⟨texts, htexts, hjoin⟩ := htexts
  have hshort := length_join_texts_le hparts htexts
  rw [← hjoin] at hshort
  omega

/-! ## Messages -/

/-- A message of the conversation: its calls are calls of functions with an id and a name, and only
the assistant makes them. -/
structure IsTurn (m : ChatMessage) : Prop where
  role : m.role = "user" ∨ m.role = "assistant" ∨ m.role = "tool"
  content : IsContent m.content
  calls : m.role ≠ "assistant" → m.toolCalls = []
  function : ∀ c ∈ m.toolCalls, (c.type = "function" ∨ c.type = "") ∧ c.custom = none
  named : ∀ c ∈ m.toolCalls, trimSpace c.id ≠ "" ∧ trimSpace c.name ≠ ""

/-- The same message: its role, text or parts, calls and the call it answers. -/
structure KeepsTurn (before after : ChatMessage) : Prop where
  role : after.role = before.role
  content : KeepsContent before.content after.content
  toolCalls : after.toolCalls = before.toolCalls.map fun c => { c with type := "function" }
  toolCallId : before.role = "tool" → after.toolCallId = before.toolCallId

def CallKept (c : ToolCall) : Prop := trimSpace c.id = c.id ∧ trimSpace c.name = c.name

/-- When a message comes back: the output of a tool is a text and names its call, the parts have
what they need and the ids and names of the calls are trimmed. -/
def TurnKept (m : ChatMessage) : Prop :=
  if m.role = "tool" then
    (∀ l, m.content ≠ .arr l) ∧ m.toolCallId ≠ "" ∧ trimSpace m.toolCallId = m.toolCallId
  else ContentKept m.content ∧ ∀ c ∈ m.toolCalls, CallKept c

def callBack (c : ToolCall) : ToolCall where
  id := trimSpace c.id
  type := "function"
  name := trimSpace c.name
  arguments := c.arguments

def toolBack (m : ChatMessage) : ChatMessage :=
  if trimSpace m.toolCallId = "" then
    { role := "user"
      content := .str ("[tool_output_missing_call_id] " ++ toolOutput m.content) }
  else
    { role := "tool"
      content := .str (toolOutput m.content)
      toolCallId := trimSpace m.toolCallId }

def turnBack (m : ChatMessage) : ChatMessage :=
  if m.role = "tool" then toolBack m
  else
    { role := m.role
      content := responsesInputContentToChatContent sprint (itemContent m.role m.content)
      toolCalls := m.toolCalls.map callBack }

theorem trimSpace_itemTypes : trimSpace "" = "" ∧ trimSpace "function_call" = "function_call" ∧
    trimSpace "function_call_output" = "function_call_output" ∧ trimSpace "user" = "user" ∧
    trimSpace "assistant" = "assistant" ∧ trimSpace "tool" = "tool" := by decide +kernel

theorem responsesInputItem_message (messages : List ChatMessage) (content : Json) {role : String}
    (htrim : trimSpace role = role) (hrole : role ≠ "") :
    responsesInputItemToChatMessages sprint messages [("content", content), ("role", .str role)] =
      .ok (messages ++
        [{ role := role, content := responsesInputContentToChatContent sprint content }]) := by
  simp [responsesInputItemToChatMessages, Json.get, lookup_cons, interface2String, htrim, hrole,
    trimSpace_itemTypes]

theorem responsesInputItem_call (messages : List ChatMessage) {c : ToolCall} {item : Json.Fields}
    (hm : m.role = "assistant") (hitem : functionCallItem c = some item) :
    responsesInputItemToChatMessages sprint (messages ++ [m]) item =
      .ok (messages ++ [{ m with toolCalls := m.toolCalls ++ [callBack c] }]) := by
  unfold functionCallItem at hitem
  split_ifs at hitem with hid htype hname
  cases hitem
  simp [responsesInputItemToChatMessages, responsesFunctionCallItemToChatToolCall, responsesCallID,
    responsesArgumentsString, appendToolCallToLastAssistant, Json.get, lookup_cons,
    interface2String, trimSpace_itemTypes, trimSpace_trimSpace, hid, hname, hm, callBack]
  rfl

theorem responsesInputItem_calls (messages : List ChatMessage) {m : ChatMessage}
    {calls : List ToolCall} (hm : m.role = "assistant")
    (hcalls : ∀ c ∈ calls, (functionCallItem c).isSome) :
    (calls.filterMap functionCallItem).foldlM (responsesInputItemToChatMessages sprint)
        (messages ++ [m]) =
      .ok (messages ++ [{ m with toolCalls := m.toolCalls ++ calls.map callBack }]) := by
  induction calls generalizing m with
  | nil =>
    rw [map_nil, append_nil]
    rfl
  | cons c rest ih =>
    obtain ⟨item, hitem⟩ := isSome_iff_exists.1 (hcalls c mem_cons_self)
    rw [filterMap_cons_some hitem, foldlM_cons, responsesInputItem_call sprint messages hm hitem]
    have hrest := ih (m := { m with toolCalls := m.toolCalls ++ [callBack c] }) hm
      fun c' hc' => hcalls c' (mem_cons_of_mem _ hc')
    rw [map_cons, append_cons m.toolCalls (callBack c) (rest.map callBack)]
    exact hrest

theorem isSome_functionCallItem {c : ToolCall} (htype : c.type = "function" ∨ c.type = "")
    (hid : trimSpace c.id ≠ "") (hname : trimSpace c.name ≠ "") : (functionCallItem c).isSome := by
  rcases htype with htype | htype <;> simp [functionCallItem, hid, hname, htype]

theorem foldlM_inputItemsOf (messages : List ChatMessage) (h : IsTurn m) :
    (inputItemsOf m).foldlM (responsesInputItemToChatMessages sprint) messages =
      .ok (messages ++ [turnBack sprint m]) := by
  obtain ⟨htrim, -, -, huser, hassistant, htool⟩ := trimSpace_itemTypes
  rcases h.role with hrole | hrole | hrole
  · have hstep := responsesInputItem_message sprint messages (itemContent "user" m.content) huser
      (by decide)
    simp [inputItemsOf, hrole, huser, turnBack, h.calls (by simp [hrole]), hstep]
  · have hsome : ∀ c ∈ m.toolCalls, (functionCallItem c).isSome := fun c hc =>
      isSome_functionCallItem (h.function c hc).1 (h.named c hc).1 (h.named c hc).2
    have hstep := responsesInputItem_message sprint messages (itemContent "assistant" m.content)
      hassistant (by decide)
    have hcalls := @responsesInputItem_calls sprint messages
      { role := "assistant"
        content := responsesInputContentToChatContent sprint (itemContent "assistant" m.content) }
      m.toolCalls rfl hsome
    simp [inputItemsOf, hrole, hassistant, turnBack, hstep]
    exact hcalls
  · by_cases hid : trimSpace m.toolCallId = ""
    · have hstep := responsesInputItem_message sprint messages
        (.str ("[tool_output_missing_call_id] " ++ toolOutput m.content)) huser (by decide)
      simp [inputItemsOf, hrole, htool, toolItems, turnBack, toolBack, hid, hstep,
        responsesInputContentToChatContent]
    · simp [inputItemsOf, hrole, htool, toolItems, turnBack, toolBack, hid,
        responsesInputItemToChatMessages, Json.get, lookup_cons, interface2String,
        trimSpace_itemTypes, trimSpace_trimSpace, responsesArgumentsString]

theorem keepsTurn_iff (h : IsTurn m) : KeepsTurn m (turnBack sprint m) ↔ TurnKept m := by
  by_cases hrole : m.role = "tool"
  · have hcalls := h.calls (by simp [hrole])
    rw [turnBack, if_pos hrole, TurnKept, if_pos hrole, toolBack]
    split_ifs with hid
    · refine ⟨fun hkeeps => absurd hkeeps.role (by simp [hrole]), fun hkept => ?_⟩
      exact absurd (hkept.2.2.symm.trans hid) hkept.2.1
    · constructor
      · intro hkeeps
        have hkeptId : trimSpace m.toolCallId = m.toolCallId := hkeeps.toolCallId hrole
        refine ⟨fun l hl => ?_, fun hempty => hid (by rw [hkeptId, hempty]), hkeptId⟩
        have hcontent := hkeeps.content
        rw [hl] at hcontent
        exact not_keepsContent_toolOutput l hcontent
      · rintro ⟨hlist, -, htrim⟩
        refine ⟨hrole.symm, ?_, by simp [hcalls], fun _ => htrim⟩
        have hcontent := h.content
        cases hc : m.content with
        | null => rfl
        | str s => rfl
        | arr l => exact absurd hc (hlist l)
        | bool _ | num _ _ | obj _ =>
          rw [hc] at hcontent
          exact hcontent.elim
  · rw [turnBack, if_neg hrole, TurnKept, if_neg hrole]
    have hcall : ∀ c ∈ m.toolCalls, callBack c = { c with type := "function" } ↔ CallKept c := by
      intro c hc
      have hcustom := (h.function c hc).2
      obtain ⟨⟨id, type, name, arguments⟩, custom⟩ := c
      cases hcustom
      simp [callBack, CallKept]
    have hcalls : m.toolCalls.map callBack =
        m.toolCalls.map (fun c => { c with type := "function" }) ↔ ∀ c ∈ m.toolCalls, CallKept c := by
      rw [map_inj_left]
      exact forall₂_congr hcall
    constructor
    · intro hkeeps
      exact ⟨(keepsContent_iff sprint m.role h.content).1 hkeeps.content, hcalls.1 hkeeps.toolCalls⟩
    · rintro ⟨hcontent, htrimmed⟩
      exact ⟨rfl, (keepsContent_iff sprint m.role h.content).2 hcontent, hcalls.2 htrimmed,
        fun htool => absurd htool hrole⟩

end BeeApi.RelayConvert
