import BeeApi.Lib.Strings
import BeeApi.RelayConvert.Gemini
import BeeApi.RelayConvert.Message
import Mathlib.Algebra.Order.BigOperators.Group.List
import Mathlib.Data.List.Nodup

/-!
# Gemini requests as chat requests

`GeminiGenerateContentRequestToOpenAIChat` makes one message of each content.  Gemini has no ids for calls:
a call gets its place in its content as its id, and a response the number of calls before it.
-/

namespace BeeApi.RelayConvert.GeminiToChat

open List Option

/-! ## The conversion -/

def convertGeminiRoleToOpenAI (geminiRole : String) : String :=
  if geminiRole = "user" then "user"
  else if geminiRole = "model" then "assistant"
  else if geminiRole = "function" then "function"
  else "user"

def callId (n : ℕ) : String := "call_" ++ toString n

/-- `ToJSONString` of a response. -/
def responseText (response : GeminiFunctionResponse) : String :=
  (match response.response with
    | some fields => Json.obj fields
    | none => Json.null).marshal

/-- What the loop over the parts of a content has collected; the tool messages are in the list already. -/
structure Collected where
  messages : List Message := []
  mediaContents : List MediaContent := []
  toolCalls : List ToolCallRequest := []

def convertPart (c : Collected) (part : GeminiPart) : Collected :=
  if part.text ≠ "" then { c with mediaContents := c.mediaContents ++ [.text part.text] }
  else
    match part.inlineData with
    | some data =>
      { c with
        mediaContents := c.mediaContents ++
          [.imageUrl { url := "data:" ++ data.mimeType ++ ";base64," ++ data.data, detail := "auto" }] }
    | none =>
      match part.fileData with
      | some file =>
        { c with mediaContents := c.mediaContents ++ [.imageUrl { url := file.fileUri, detail := "auto" }] }
      | none =>
        match part.functionCall with
        | some call =>
          { c with
            toolCalls := c.toolCalls ++
              [{ id := callId (c.toolCalls.length + 1)
                 name := call.functionName
                 arguments := call.arguments.marshal }] }
        | none =>
          match part.functionResponse with
          | some response =>
            { c with
              messages := c.messages ++
                [{ role := "tool"
                   content := .str (responseText response)
                   toolCallId := callId c.toolCalls.length }] }
          | none => c

/-- The message of a content, which is left out when it says nothing. -/
def contentMessage (role : String) (c : Collected) : List Message :=
  if c.toolCalls ≠ [] then [{ role := role, toolCalls := some c.toolCalls }]
  else
    match c.mediaContents with
    | [] => []
    | [.text text _] => [{ role := role, content := .str text }]
    | mediaContents => [{ role := role, content := .parts mediaContents }]

def convertContent (content : GeminiChatContent) : List Message :=
  let c := content.parts.foldl convertPart {}
  c.messages ++ contentMessage (convertGeminiRoleToOpenAI content.role) c

/-- The messages of a request without its system instructions. -/
def convertContents (contents : List GeminiChatContent) : List Message :=
  contents.flatMap convertContent

/-! ## Parts of one kind -/

inductive RequestPart
  | text (s : String)
  | inlineData (data : GeminiInlineData)
  | fileData (file : GeminiFileData)
  | functionCall (call : FunctionCall)
  | functionResponse (response : GeminiFunctionResponse)

namespace RequestPart

def toPart : RequestPart → GeminiPart
  | .text s => { text := s }
  | .inlineData data => { inlineData := some data }
  | .fileData file => { fileData := some file }
  | .functionCall call => { functionCall := some call }
  | .functionResponse response => { functionResponse := some response }

def media : RequestPart → Option MediaContent
  | .text s => if s = "" then none else some (.text s)
  | .inlineData data =>
    some (.imageUrl { url := "data:" ++ data.mimeType ++ ";base64," ++ data.data, detail := "auto" })
  | .fileData file => some (.imageUrl { url := file.fileUri, detail := "auto" })
  | _ => none

def call : RequestPart → Option FunctionCall
  | .functionCall call => some call
  | _ => none

def response : RequestPart → Option GeminiFunctionResponse
  | .functionResponse response => some response
  | _ => none

end RequestPart

structure RequestContent where
  role : String := "user"
  parts : List RequestPart := []

namespace RequestContent

def toContent (c : RequestContent) : GeminiChatContent where
  role := c.role
  parts := c.parts.map RequestPart.toPart

def media (c : RequestContent) : List MediaContent := c.parts.filterMap RequestPart.media

def calls (c : RequestContent) : List FunctionCall := c.parts.filterMap RequestPart.call

def responses (c : RequestContent) : List GeminiFunctionResponse :=
  c.parts.filterMap RequestPart.response

end RequestContent

def shown (m : Message) : List MediaContent := if m.role = "tool" then [] else m.parseContent

def toolCallsOf (messages : List Message) : List ToolCallRequest :=
  messages.flatMap (·.parseToolCalls)

structure Keeps (contents : List RequestContent) (messages : List Message) : Prop where
  media : messages.flatMap shown = contents.flatMap (·.media)
  calls : (toolCallsOf messages).map (fun t => (t.name, t.arguments)) =
    (contents.flatMap (·.calls)).map fun call => (call.functionName, call.arguments.marshal)
  ids : ((toolCallsOf messages).map (·.id)).Nodup
  responses : (messages.filter fun m => m.role = "tool").map (·.content) =
    (contents.flatMap (·.responses)).map fun r => .str (responseText r)
  answers : ∀ before m after, messages = before ++ m :: after → m.role = "tool" →
    ∃ m' ∈ before, ∃ t ∈ m'.parseToolCalls, t.id = m.toolCallId ∧
      (contents.flatMap (·.responses))[before.countP fun m => m.role = "tool"]?.map (·.name) =
        some t.name

/-! ## One content -/

def numberedCalls (calls : List FunctionCall) : List ToolCallRequest :=
  calls.mapIdx fun i call =>
    { id := callId (i + 1), name := call.functionName, arguments := call.arguments.marshal }

theorem callId_injective : callId.Injective := by
  intro m n h
  exact Strings.repr_injective ((String.append_right_inj _).1 h)

theorem convertPart_toPart (c : Collected) (p : RequestPart) :
    (convertPart c p.toPart).mediaContents = c.mediaContents ++ p.media.toList ∧
      (convertPart c p.toPart).toolCalls = c.toolCalls ++ p.call.toList.map (fun call =>
        { id := callId (c.toolCalls.length + 1)
          name := call.functionName
          arguments := call.arguments.marshal }) ∧
      (convertPart c p.toPart).messages = c.messages ++ p.response.toList.map (fun r =>
        { role := "tool"
          content := .str (responseText r)
          toolCallId := callId c.toolCalls.length }) := by
  cases p with
  | text s =>
    by_cases hs : s = ""
    · rw [convertPart, if_neg (not_not.2 hs : ¬ (RequestPart.text s).toPart.text ≠ ""),
        RequestPart.media, if_pos hs]
      exact ⟨(append_nil _).symm, (append_nil _).symm, (append_nil _).symm⟩
    · rw [convertPart, if_pos (show (RequestPart.text s).toPart.text ≠ "" from hs), RequestPart.media,
        if_neg hs]
      exact ⟨rfl, (append_nil _).symm, (append_nil _).symm⟩
  | inlineData | fileData => exact ⟨rfl, (append_nil _).symm, (append_nil _).symm⟩
  | functionCall call => exact ⟨(append_nil _).symm, rfl, (append_nil _).symm⟩
  | functionResponse response => exact ⟨(append_nil _).symm, (append_nil _).symm, rfl⟩

/-- All that a content gives. -/
structure Converts (c : Collected) (parts : List RequestPart) (c' : Collected) : Prop where
  media : c'.mediaContents = c.mediaContents ++ parts.filterMap RequestPart.media
  calls : c'.toolCalls = c.toolCalls ++ (parts.filterMap RequestPart.call).mapIdx fun i call =>
    { id := callId (c.toolCalls.length + i + 1)
      name := call.functionName
      arguments := call.arguments.marshal }
  responses : ∃ l : List Message, c'.messages = c.messages ++ l ∧
    l.map (·.content) = (parts.filterMap RequestPart.response).map (fun r => .str (responseText r)) ∧
    ∀ m ∈ l, m.role = "tool" ∧ m.toolCalls = none ∧
      ∃ n ≤ c.toolCalls.length + (parts.filterMap RequestPart.call).length, m.toolCallId = callId n

theorem converts_foldl (c : Collected) (parts : List RequestPart) :
    Converts c parts ((parts.map RequestPart.toPart).foldl convertPart c) := by
  induction parts generalizing c with
  | nil =>
    exact ⟨(append_nil _).symm, (append_nil _).symm, [], (append_nil _).symm, rfl, nofun⟩
  | cons p parts ih =>
    obtain ⟨hmedia, hcalls, hmessages⟩ := convertPart_toPart c p
    obtain ⟨hmedia', hcalls', l, hl, hcontents, htool⟩ := ih (convertPart c p.toPart)
    rw [map_cons, foldl_cons]
    refine ⟨?_, ?_, ?_⟩
    · rw [hmedia', hmedia, append_assoc, filterMap_cons]
      cases p.media <;> rfl
    · rw [hcalls', hcalls, append_assoc, filterMap_cons]
      cases p.call with
      | none => rw [toList_none, map_nil, append_nil]; rfl
      | some call =>
        rw [toList_some, map_singleton, mapIdx_cons, singleton_append,
          length_append, length_singleton, Nat.add_zero]
        refine congrArg (fun l => c.toolCalls ++ _ :: l) (congrArg (List.mapIdx · _) ?_)
        funext i call'
        rw [Nat.add_assoc c.toolCalls.length 1 i, Nat.add_comm 1 i]
    · refine ⟨p.response.toList.map _ ++ l, by rw [hl, hmessages, append_assoc], ?_, ?_⟩
      · rw [map_append, hcontents, filterMap_cons]
        cases p.response <;> rfl
      · have hlength : (convertPart c p.toPart).toolCalls.length +
            (parts.filterMap RequestPart.call).length =
              c.toolCalls.length + ((p :: parts).filterMap RequestPart.call).length := by
          rw [hcalls, length_append, filterMap_cons]
          cases p.call with
          | none => rfl
          | some call => simp; omega
        intro m hm
        rcases mem_append.1 hm with hm | hm
        · obtain ⟨r, -, rfl⟩ := mem_map.1 hm
          exact ⟨rfl, rfl, c.toolCalls.length, Nat.le_add_right _ _, rfl⟩
        · obtain ⟨hrole, hnone, n, hn, hid⟩ := htool m hm
          exact ⟨hrole, hnone, n, hlength ▸ hn, hid⟩

theorem role_ne_tool (role : String) : convertGeminiRoleToOpenAI role ≠ "tool" := by
  unfold convertGeminiRoleToOpenAI
  split_ifs <;> decide

theorem flatMap_shown_contentMessage {role : String} (hrole : role ≠ "tool") {c : Collected}
    (htext : ∀ text cacheControl, MediaContent.text text cacheControl ∈ c.mediaContents →
      cacheControl = "") :
    (contentMessage role c).flatMap shown = if c.toolCalls ≠ [] then [] else c.mediaContents := by
  unfold contentMessage
  split_ifs
  · rw [flatMap_singleton, shown, if_neg hrole]
    rfl
  · split
    · rename_i hmedia
      exact hmedia.symm
    · rename_i text cacheControl hmedia
      have hcache := htext text cacheControl (hmedia ▸ mem_singleton_self _)
      rw [flatMap_singleton, shown, if_neg hrole, hmedia, hcache]
      rfl
    · rw [flatMap_singleton, shown, if_neg hrole]
      rfl

theorem toolCallsOf_contentMessage (role : String) (c : Collected) :
    toolCallsOf (contentMessage role c) = c.toolCalls := by
  unfold contentMessage toolCallsOf
  split_ifs with hcalls
  · exact append_nil _
  · rw [not_not.1 hcalls]
    split <;> rfl

theorem role_of_mem_contentMessage {role : String} {c : Collected} {m : Message}
    (h : m ∈ contentMessage role c) : m.role = role := by
  unfold contentMessage at h
  split_ifs at h
  · rw [mem_singleton.1 h]
  · split at h
    · exact (nomatch h)
    · rw [mem_singleton.1 h]
    · rw [mem_singleton.1 h]

theorem convertContent_eq (c : RequestContent) : ∃ l own : List Message,
    convertContent c.toContent = l ++ own ∧
      l.map (·.content) = c.responses.map (fun r => .str (responseText r)) ∧
      (∀ m ∈ l, m.role = "tool" ∧ m.toolCalls = none ∧
        ∃ n ≤ c.calls.length, m.toolCallId = callId n) ∧
      (∀ m ∈ own, m.role ≠ "tool") ∧
      own.flatMap shown = (if c.calls ≠ [] then [] else c.media) ∧
      toolCallsOf own = numberedCalls c.calls := by
  obtain ⟨hmedia, hcalls, l, hl, hcontents, htool⟩ := converts_foldl {} c.parts
  have hcalls' : ((c.parts.map RequestPart.toPart).foldl convertPart {}).toolCalls =
      numberedCalls c.calls := by
    rw [hcalls, numberedCalls]
    simp [RequestContent.calls]
  refine ⟨l, contentMessage (convertGeminiRoleToOpenAI c.role)
    ((c.parts.map RequestPart.toPart).foldl convertPart {}), ?_, hcontents, ?_, ?_, ?_, ?_⟩
  · show _ ++ _ = _
    rw [RequestContent.toContent, hl]
    rfl
  · intro m hm
    obtain ⟨hrole, hnone, n, hn, hid⟩ := htool m hm
    exact ⟨hrole, hnone, n, Nat.le_trans hn (Nat.le_of_eq (Nat.zero_add _)), hid⟩
  · intro m hm
    rw [role_of_mem_contentMessage hm]
    exact role_ne_tool c.role
  · rw [flatMap_shown_contentMessage (role_ne_tool c.role), hcalls', hmedia, nil_append]
    · by_cases hnil : c.calls = []
      · rw [hnil]
        rfl
      · rw [if_pos hnil, if_pos]
        rw [numberedCalls, ne_eq, mapIdx_eq_nil_iff]
        exact hnil
    · intro text cacheControl hmem
      rw [hmedia] at hmem
      obtain ⟨p, -, hp⟩ := mem_filterMap.1 hmem
      cases p with
      | text s =>
        rw [RequestPart.media] at hp
        split_ifs at hp
        exact (MediaContent.text.inj (some.inj hp)).2.symm
      | _ => exact (nomatch hp)
  · rw [toolCallsOf_contentMessage, hcalls']

theorem toolCallsOf_eq_nil {l : List Message} (h : ∀ m ∈ l, m.toolCalls = none) :
    toolCallsOf l = [] := by
  rw [toolCallsOf, flatMap_eq_nil_iff]
  intro m hm
  rw [Message.parseToolCalls, h m hm]
  rfl

theorem toolCallsOf_convertContent (c : RequestContent) :
    toolCallsOf (convertContent c.toContent) = numberedCalls c.calls := by
  obtain ⟨l, own, heq, -, htool, -, -, hcalls⟩ := convertContent_eq c
  rw [heq, toolCallsOf, flatMap_append]
  exact (congrArg₂ _ (toolCallsOf_eq_nil fun m hm => (htool m hm).2.1) hcalls).trans
    (nil_append _)

theorem shown_convertContent (c : RequestContent) :
    (convertContent c.toContent).flatMap shown = if c.calls ≠ [] then [] else c.media := by
  obtain ⟨l, own, heq, -, htool, -, hshown, -⟩ := convertContent_eq c
  have hl : l.flatMap shown = [] := flatMap_eq_nil_iff.2 fun m hm => if_pos (htool m hm).1
  rw [heq, flatMap_append, hl, hshown, nil_append]

theorem tools_convertContent (c : RequestContent) :
    ((convertContent c.toContent).filter fun m => m.role = "tool").map (·.content) =
      c.responses.map fun r => .str (responseText r) := by
  obtain ⟨l, own, heq, hcontents, htool, hown, -, -⟩ := convertContent_eq c
  rw [heq, filter_append, filter_eq_self.2 fun m hm => decide_eq_true (htool m hm).1,
    filter_eq_nil_iff.2 fun m hm => by simpa using hown m hm, append_nil, hcontents]

/-! ## The whole request -/

theorem flatMap_toContent {β : Type} (contents : List RequestContent) (f : Message → List β)
    (g : RequestContent → List β) (h : ∀ c, (convertContent c.toContent).flatMap f = g c) :
    (convertContents (contents.map (·.toContent))).flatMap f = contents.flatMap g := by
  rw [convertContents, flatMap_map, flatMap_assoc]
  exact flatMap_congr fun c _ => h c

theorem flatMap_ite_eq_iff {α β : Type} (p : α → Prop) [DecidablePred p] (f : α → List β)
    (l : List α) : (l.flatMap fun x => if p x then [] else f x) = l.flatMap f ↔
      ∀ x ∈ l, p x → f x = [] := by
  constructor
  · intro heq
    have hlength := congrArg List.length heq
    rw [length_flatMap, length_flatMap] at hlength
    clear heq
    induction l with
    | nil => exact nofun
    | cons x l ih =>
      have hle : (l.map fun x => (if p x then [] else f x).length).sum ≤
          (l.map fun x => (f x).length).sum := by
        refine sum_le_sum fun x _ => ?_
        split_ifs
        · exact Nat.zero_le _
        · exact Nat.le_refl _
      rw [map_cons, map_cons, sum_cons, sum_cons] at hlength
      rw [forall_mem_cons]
      split_ifs at hlength with hx
      · rw [length_nil] at hlength
        exact ⟨fun _ => eq_nil_of_length_eq_zero (by omega), ih (by omega)⟩
      · exact ⟨fun h => absurd h hx, ih (by omega)⟩
  · intro h
    refine flatMap_congr fun x hx => ?_
    split_ifs with hp
    · exact (h x hx hp).symm
    · rfl

theorem ids_numberedCalls (calls : List FunctionCall) :
    (numberedCalls calls).map (·.id) = (List.range calls.length).map fun i => callId (i + 1) := by
  rw [numberedCalls, List.mapIdx_eq_zipIdx_map, List.map_map, List.range_eq_range',
    ← List.zipIdx_map_snd, List.map_map]
  rfl

theorem mem_ids {calls : List FunctionCall} {id : String} :
    id ∈ (numberedCalls calls).map (·.id) ↔ ∃ i < calls.length, callId (i + 1) = id := by
  rw [ids_numberedCalls, List.mem_map]
  exact exists_congr fun i => and_congr_left' mem_range

theorem disjoint_ids_iff (calls calls' : List FunctionCall) :
    ((numberedCalls calls).map (·.id)).Disjoint ((numberedCalls calls').map (·.id)) ↔
      calls = [] ∨ calls' = [] := by
  constructor
  · intro h
    by_contra hboth
    rw [not_or] at hboth
    have hone : ∀ l : List FunctionCall, l ≠ [] → callId 1 ∈ (numberedCalls l).map (·.id) :=
      fun l hl => mem_ids.2 ⟨0, length_pos_iff.2 hl, rfl⟩
    exact h (hone _ hboth.1) (hone _ hboth.2)
  · rintro (rfl | rfl)
    · exact nofun
    · exact nofun

theorem nodup_ids (calls : List FunctionCall) : ((numberedCalls calls).map (·.id)).Nodup := by
  rw [ids_numberedCalls]
  exact nodup_range.map fun i j h => Nat.succ.inj (callId_injective h)

/-- The conversation is kept exactly when no response is in it, all calls are in one content, and that
content has nothing else. -/
theorem keeps_iff (contents : List RequestContent) :
    Keeps contents (convertContents (contents.map (·.toContent))) ↔
      (∀ c ∈ contents, c.responses = []) ∧ (∀ c ∈ contents, c.calls ≠ [] → c.media = []) ∧
        contents.Pairwise fun c c' => c.calls = [] ∨ c'.calls = [] := by
  have hshown := flatMap_toContent contents shown _ shown_convertContent
  have hcalls := flatMap_toContent contents (·.parseToolCalls) _ toolCallsOf_convertContent
  have hids : ((toolCallsOf (convertContents (contents.map (·.toContent)))).map (·.id)).Nodup ↔
      contents.Pairwise fun c c' => c.calls = [] ∨ c'.calls = [] := by
    have heach : ∀ c ∈ contents, ((numberedCalls c.calls).map (·.id)).Nodup :=
      fun c _ => nodup_ids c.calls
    rw [toolCallsOf, hcalls, map_flatMap, nodup_flatMap, and_iff_right heach]
    exact ⟨List.Pairwise.imp fun {c c' : RequestContent} => (disjoint_ids_iff c.calls c'.calls).1,
      List.Pairwise.imp fun {c c' : RequestContent} => (disjoint_ids_iff c.calls c'.calls).2⟩
  constructor
  · intro h
    have hpairwise := hids.1 h.ids
    refine ⟨fun c hc => ?_, (flatMap_ite_eq_iff _ _ _).1 (hshown.symm.trans h.media), hpairwise⟩
    by_contra hne
    obtain ⟨before, after, rfl⟩ := append_of_mem hc
    obtain ⟨l, own, heq, hcontents, htool, -, -, -⟩ := convertContent_eq c
    have hl : l ≠ [] := by
      rintro rfl
      exact hne (map_eq_nil_iff.1 hcontents.symm)
    obtain ⟨m, l', rfl⟩ := exists_cons_of_ne_nil hl
    obtain ⟨hrole, -, n, hn, hid⟩ := htool m mem_cons_self
    have hsplit : convertContents ((before ++ c :: after).map (·.toContent)) =
        convertContents (before.map (·.toContent)) ++
          m :: (l' ++ own ++ convertContents (after.map (·.toContent))) := by
      rw [convertContents, map_append, flatMap_append, map_cons, flatMap_cons, heq]
      simp [convertContents]
    -- the response has the id of a call of an earlier content
    obtain ⟨m', hm', t, ht, hid', -⟩ := h.answers _ m _ hsplit hrole
    have hearlier : t ∈ before.flatMap fun c => numberedCalls c.calls := by
      rw [← flatMap_toContent before (·.parseToolCalls) _ toolCallsOf_convertContent]
      exact mem_flatMap.2 ⟨m', hm', ht⟩
    obtain ⟨c', hc', hcall⟩ := mem_flatMap.1 hearlier
    obtain ⟨i, hi, hid''⟩ := mem_ids.1 (mem_map_of_mem (f := fun t : ToolCallRequest => t.id)
      hcall)
    have hplace : i + 1 = n := callId_injective (hid''.trans (hid'.trans hid))
    rcases (pairwise_append.1 hpairwise).2.2 c' hc' c mem_cons_self with hnil | hnil
    · rw [hnil] at hi
      exact absurd hi (Nat.not_lt_zero i)
    · rw [hnil, ← hplace] at hn
      exact absurd hn (Nat.not_succ_le_zero i)
  · rintro ⟨hresponses, hmedia, hpairwise⟩
    have htools : ((convertContents (contents.map (·.toContent))).filter fun m => m.role = "tool").map
        (·.content) = (contents.flatMap (·.responses)).map fun r => .str (responseText r) := by
      rw [convertContents, flatMap_map, filter_flatMap, map_flatMap, map_flatMap]
      exact flatMap_congr fun c _ => tools_convertContent c
    refine ⟨hshown.trans ((flatMap_ite_eq_iff _ _ _).2 hmedia), ?_, hids.2 hpairwise, htools, ?_⟩
    · rw [toolCallsOf, hcalls, map_flatMap, map_flatMap]
      refine flatMap_congr fun c _ => ?_
      rw [numberedCalls, List.mapIdx_eq_zipIdx_map, List.map_map]
      conv_rhs => rw [← List.zipIdx_map_fst 0 c.calls, List.map_map]
      rfl
    · intro before m after heq hrole
      have hnone : contents.flatMap (·.responses) = [] := flatMap_eq_nil_iff.2 hresponses
      rw [hnone, map_nil, map_eq_nil_iff, filter_eq_nil_iff] at htools
      refine absurd (decide_eq_true hrole) (htools m ?_)
      rw [heq]
      exact mem_append_right _ mem_cons_self

def answeredContents : List RequestContent :=
  [{ role := "model", parts := [.functionCall { functionName := "f", arguments := .obj [] }] },
    { role := "function", parts := [.functionResponse { name := "f" }] }]

theorem answeredContents_lost :
    ¬ Keeps answeredContents (convertContents (answeredContents.map (·.toContent))) := by
  intro h
  obtain ⟨m', hm', t, ht, hid, -⟩ := h.answers
    [{ role := "assistant"
       toolCalls := some [{ id := callId 1, name := "f", arguments := (Json.obj []).marshal }] }]
    { role := "tool", content := .str (responseText { name := "f" }), toolCallId := callId 0 } []
    rfl rfl
  rw [mem_singleton.1 hm'] at ht
  rw [mem_singleton.1 ht] at hid
  exact absurd (callId_injective hid) Nat.one_ne_zero

end BeeApi.RelayConvert.GeminiToChat
