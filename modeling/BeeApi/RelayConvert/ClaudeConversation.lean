import BeeApi.RelayConvert.ClaudeToChatRequest

/-!
# What a chat request keeps of a Claude conversation

The loop over the blocks of a message sorts them by kind.  The texts and images that it has collected
are dropped when the message has a tool call as well, and nothing else is; so a request is kept
exactly when no message has both.
-/

namespace BeeApi.RelayConvert

open List ClaudeMessage

variable {J : Type} {c : Codec J} {req : ClaudeRequest J}

/-! ## The loop over the blocks -/

def callOfBlock (c : Codec J) (b : ClaudeMediaMessage J) : ToolCallRequest where
  id := b.id
  name := b.name
  arguments := requestToJSONString c b.input

def messageOfBlock (c : Codec J) (req : ClaudeRequest J) (b : ClaudeMediaMessage J) : Message where
  role := "tool"
  name := some (if b.name = "" then searchToolNameByToolCallId req b.toolUseId else b.name)
  toolCallId := b.toolUseId
  content := .str (toolResultString c b.content)

theorem convertBlock_spec {b : ClaudeMediaMessage J} (h : IsConversationBlock b) (st : BlockLoop) :
    convertBlock c req st b = .ok
        { toolCalls := st.toolCalls ++ ([b].filter (·.type = "tool_use")).map (callOfBlock c)
          mediaMessages := st.mediaMessages ++ [b].filterMap partOfBlock
          toolMessages := st.toolMessages ++
            ([b].filter (·.type = "tool_result")).map (messageOfBlock c req) } := by
  unfold convertBlock partOfBlock callOfBlock messageOfBlock
  rcases h with ht | ⟨ht, hsource⟩ | ht | ht
  · simp [ht]
  · obtain ⟨source, hs⟩ := Option.ne_none_iff_exists'.1 hsource
    simp [ht, hs]
  · simp [ht]
  · simp [ht]

theorem foldlM_convertBlock {l : List (ClaudeMediaMessage J)} (h : ∀ b ∈ l, IsConversationBlock b)
    (st : BlockLoop) :
    l.foldlM (convertBlock c req) st = .ok
        { toolCalls := st.toolCalls ++ (l.filter (·.type = "tool_use")).map (callOfBlock c)
          mediaMessages := st.mediaMessages ++ l.filterMap partOfBlock
          toolMessages := st.toolMessages ++
            (l.filter (·.type = "tool_result")).map (messageOfBlock c req) } := by
  induction l generalizing st with
  | nil =>
    simp only [filter_nil, map_nil, filterMap_nil, append_nil]
    rfl
  | cons b l ih =>
    have hb := h b mem_cons_self
    have hrest := ih fun b' hb' => h b' (mem_cons_of_mem b hb')
    rw [foldlM_cons, convertBlock_spec hb]
    show l.foldlM (convertBlock c req) _ = _
    rw [hrest]
    have hsplit : b :: l = [b] ++ l := rfl
    rw [hsplit]
    simp only [filter_append, map_append, filterMap_append, append_assoc]

/-! ## One message -/

def keptParts (m : ClaudeMessage J) : List MediaContent := if m.toolUses = [] then m.parts else []

def restMessage (c : Codec J) (m : ClaudeMessage J) : Message where
  role := m.role
  toolCalls := if m.toolUses = [] then none else some (m.toolUses.map (callOfBlock c))
  content :=
    match m.content with
    | .str s => .str s
    | .blocks _ => if keptParts m = [] then .null else .parts (keptParts m)

variable {m : ClaudeMessage J} {l : List (ClaudeMessage J)}

theorem convertMessage_spec (h : m.IsConversation) :
    convertMessage c req m =
      .ok (m.toolResults.map (messageOfBlock c req) ++ nonEmptyMessage (restMessage c m)) := by
  unfold convertMessage
  cases hc : m.content with
  | str s =>
    have hblocks : m.parseContent = [] := by rw [parseContent, hc]
    have huses : m.toolUses = [] := by rw [toolUses, hblocks, filter_nil]
    have hresults : m.toolResults = [] := by rw [toolResults, hblocks, filter_nil]
    rw [hresults, restMessage, huses, hc]
    rfl
  | blocks l =>
    have hblocks : m.parseContent = l := by rw [parseContent, hc]
    have hparts : m.parts = l.filterMap partOfBlock := by rw [parts, hc]
    have huses : m.toolUses = l.filter (·.type = "tool_use") := by
      rw [toolUses, hblocks]
    have hresults : m.toolResults = l.filter (·.type = "tool_result") := by
      rw [toolResults, hblocks]
    dsimp only
    rw [foldlM_convertBlock (fun b hb => h.2 b (hblocks.symm ▸ hb))]
    show Except.ok _ = Except.ok _
    congr 1
    rw [nil_append, nil_append, nil_append, hresults, restMessage, keptParts, hc, huses, hparts]
    congr 2
    by_cases hu : l.filter (fun b => decide (b.type = "tool_use")) = []
    · by_cases hp : l.filterMap partOfBlock = []
      · simp [hu, hp]
      · simp [hu, hp]
    · simp [hu]

theorem role_ne_tool (h : m.IsConversation) : m.role ≠ "tool" := by
  rcases h.1 with hr | hr <;> rw [hr] <;> decide

theorem converted_by_kind {m : ClaudeMessage J} (h : m.IsConversation) {seg : List Message}
    (hseg : seg = m.toolResults.map (messageOfBlock c req) ++ nonEmptyMessage (restMessage c m)) :
    seg.flatMap Message.chatParts = keptParts m ∧
      seg.flatMap Message.parseToolCalls = m.toolUses.map (callOfBlock c) ∧
      seg.filter (·.role = "tool") = m.toolResults.map (messageOfBlock c req) ∧
      ∀ msg ∈ seg, msg.role = m.role ∨ msg.role = "tool" := by
  have hrole := role_ne_tool h
  have htool : ∀ msg ∈ m.toolResults.map (messageOfBlock c req),
      msg.role = "tool" ∧ msg.chatParts = [] ∧ msg.parseToolCalls = [] := by
    intro msg hmsg
    obtain ⟨b, -, rfl⟩ := mem_map.1 hmsg
    exact ⟨rfl, rfl, rfl⟩
  have hrest : (nonEmptyMessage (restMessage c m)).flatMap Message.chatParts = keptParts m ∧
      (nonEmptyMessage (restMessage c m)).flatMap Message.parseToolCalls =
        m.toolUses.map (callOfBlock c) := by
    have hparts : (restMessage c m).chatParts = keptParts m := by
      unfold Message.chatParts Message.parseContent restMessage
      rw [if_neg hrole]
      cases hc : m.content with
      | str s =>
        have huses : m.toolUses = [] := by
          rw [toolUses, parseContent, hc, filter_nil]
        rw [keptParts, if_pos huses, parts, hc]
      | blocks l =>
        dsimp only
        split_ifs with hk
        · exact hk.symm
        · rfl
    have hcalls : (restMessage c m).parseToolCalls = m.toolUses.map (callOfBlock c) := by
      unfold Message.parseToolCalls restMessage
      dsimp only
      split_ifs with hu
      · rw [hu]
        rfl
      · rfl
    unfold nonEmptyMessage
    split_ifs with hne
    · rw [flatMap_singleton, flatMap_singleton]
      exact ⟨hparts, hcalls⟩
    · obtain ⟨hcontent, hnone⟩ := not_or.1 hne
      have hcontent := not_not.1 hcontent
      have hnone := not_not.1 hnone
      rw [← hparts, ← hcalls, Message.chatParts, Message.parseToolCalls, hcontent, hnone]
      refine ⟨?_, rfl⟩
      split_ifs <;> rfl
  have hrestRole : ∀ msg ∈ nonEmptyMessage (restMessage c m), msg.role = m.role := by
    intro msg hmsg
    unfold nonEmptyMessage at hmsg
    split_ifs at hmsg
    · rw [mem_singleton.1 hmsg]
      rfl
    · cases hmsg
  subst hseg
  refine ⟨?_, ?_, ?_, ?_⟩
  · rw [flatMap_append, flatMap_eq_nil_iff.2 fun msg hmsg => (htool msg hmsg).2.1,
      nil_append, hrest.1]
  · rw [flatMap_append, flatMap_eq_nil_iff.2 fun msg hmsg => (htool msg hmsg).2.2,
      nil_append, hrest.2]
  · rw [filter_append, filter_eq_self.2, filter_eq_nil_iff.2, append_nil]
    · intro msg hmsg
      rw [hrestRole msg hmsg]
      simpa using hrole
    · exact fun msg hmsg => decide_eq_true (htool msg hmsg).1
  · intro msg hmsg
    rcases mem_append.1 hmsg with hmsg | hmsg
    · exact .inr (htool msg hmsg).1
    · exact .inl (hrestRole msg hmsg)

theorem sameCall_callOfBlock (b : ClaudeMediaMessage J) : SameCall c b (callOfBlock c b) := by
  refine ⟨rfl, rfl, ?_⟩
  unfold callOfBlock requestToJSONString
  cases b.input with
  | none => rfl
  | some j => exact c.unmarshal_marshal j

theorem sameResult_messageOfBlock (b : ClaudeMediaMessage J) :
    SameResult c b (messageOfBlock c req b) := by
  refine ⟨rfl, toolResultString c b.content, rfl, ?_⟩
  unfold toolResultString
  cases b.content with
  | null => rfl
  | str s => rfl
  | blocks j => exact c.unmarshal_marshal j

theorem carries_converted (h : m.IsConversation) (hm : m.toolUses = [] ∨ m.parts = []) :
    Carries c m (m.toolResults.map (messageOfBlock c req) ++ nonEmptyMessage (restMessage c m)) := by
  obtain ⟨hparts, hcalls, hresults, hrole⟩ := @converted_by_kind _ c req _ h _ rfl
  refine ⟨hrole, ?_, ?_, ?_⟩
  · rw [hparts, keptParts]
    split_ifs with hu
    · rfl
    · exact (hm.resolve_left hu).symm
  · rw [hcalls]
    exact forall₂_map_right_iff.2 (forall₂_same.2 fun b _ => sameCall_callOfBlock b)
  · rw [hresults]
    exact forall₂_map_right_iff.2 (forall₂_same.2 fun b _ => sameResult_messageOfBlock b)

/-! ## The whole request -/

theorem exists_of_forall₂ {α β : Type} {R : α → β → Prop} {l : List α} {l' : List β}
    (h : List.Forall₂ R l l') {a : α} (ha : a ∈ l) : ∃ b ∈ l', R a b := by
  induction h with
  | nil => cases ha
  | cons hab _ ih =>
    rcases mem_cons.1 ha with rfl | ha
    · exact ⟨_, mem_cons_self, hab⟩
    · obtain ⟨b, hb, hR⟩ := ih ha
      exact ⟨b, mem_cons_of_mem _ hb, hR⟩

theorem mapM_convertMessage (h : ∀ m ∈ l, m.IsConversation) :
    l.mapM (convertMessage c req) = .ok (l.map fun m =>
      m.toolResults.map (messageOfBlock c req) ++ nonEmptyMessage (restMessage c m)) := by
  induction l with
  | nil => rfl
  | cons m l ih =>
    rw [mapM_cons, convertMessage_spec (h m mem_cons_self),
      ih fun m' hm' => h m' (mem_cons_of_mem m hm')]
    rfl

theorem follows_of_segments {sys out : List Message} {segments : List (List Message)}
    (hout : out = sys ++ segments.flatten)
    (hsegments : List.Forall₂ (Carries c) req.messages segments)
    {before after : List (ClaudeMessage J)} {m' : ClaudeMessage J} {b b' : ClaudeMediaMessage J}
    (hsplit : req.messages = before ++ after) (hm : m ∈ before) (hm' : m' ∈ after)
    (hb : b ∈ m.toolUses) (hb' : b' ∈ m'.toolResults) (hid : b'.toolUseId = b.id) :
    ∃ outBefore outAfter, out = outBefore ++ outAfter ∧
      (∃ msg ∈ outBefore, ∃ call ∈ msg.parseToolCalls, call.id = b.id) ∧
      ∃ msg ∈ outAfter, msg.role = "tool" ∧ msg.toolCallId = b.id := by
  rw [hsplit] at hsegments
  have hbefore := forall₂_take before.length hsegments
  have hafter := forall₂_drop before.length hsegments
  rw [take_left] at hbefore
  rw [drop_left] at hafter
  refine ⟨sys ++ (segments.take before.length).flatten, (segments.drop before.length).flatten, ?_,
    ?_, ?_⟩
  · rw [hout, append_assoc, ← flatten_append, take_append_drop]
  · obtain ⟨seg, hseg, hcarries⟩ := exists_of_forall₂ hbefore hm
    obtain ⟨call, hcall, hsame⟩ := exists_of_forall₂ hcarries.calls hb
    obtain ⟨msg, hmsg, hin⟩ := mem_flatMap.1 hcall
    exact ⟨msg, mem_append_right _ (mem_flatten.2 ⟨seg, hseg, hmsg⟩), call, hin, hsame.1⟩
  · obtain ⟨seg, hseg, hcarries⟩ := exists_of_forall₂ hafter hm'
    obtain ⟨msg, hmsg, hsame⟩ := exists_of_forall₂ hcarries.results hb'
    obtain ⟨hin, hrole⟩ := mem_filter.1 hmsg
    exact ⟨msg, mem_flatten.2 ⟨seg, hseg, hin⟩, of_decide_eq_true hrole, hsame.1.trans hid⟩

theorem parts_of_carries {segments : List (List Message)} (h : List.Forall₂ (Carries c) l segments)
    : segments.flatten.flatMap Message.chatParts = l.flatMap parts := by
  induction h with
  | nil => rfl
  | cons hcarries _ ih =>
    rw [flatten_cons, flatMap_append, flatMap_cons, hcarries.parts, ih]

/-- As long as a shorter part stands for each message, a list of the same length has none. -/
theorem keptParts_eq_of_flatMap_eq (h : l.flatMap keptParts = l.flatMap parts) :
    ∀ m ∈ l, m.toolUses = [] ∨ m.parts = [] := by
  have hle : ∀ m : ClaudeMessage J, (keptParts m).length ≤ m.parts.length := by
    intro m
    unfold keptParts
    split_ifs
    · exact Nat.le_refl _
    · exact Nat.zero_le _
  have hsum : ∀ l : List (ClaudeMessage J),
      (l.flatMap keptParts).length ≤ (l.flatMap parts).length := by
    intro l
    induction l with
    | nil => exact Nat.le_refl _
    | cons m l ih =>
      rw [flatMap_cons, flatMap_cons, length_append, length_append]
      exact Nat.add_le_add (hle m) ih
  induction l with
  | nil => exact nofun
  | cons m l ih =>
    have hlength := congrArg List.length h
    rw [flatMap_cons, flatMap_cons, length_append, length_append] at hlength
    have hone := hle m
    have hrest := hsum l
    have hm : (keptParts m).length = m.parts.length := by omega
    rw [flatMap_cons, flatMap_cons] at h
    have htail := (append_inj h hm).2
    intro m' hm'
    rcases mem_cons.1 hm' with rfl | hm'
    · by_cases hu : m'.toolUses = []
      · exact .inl hu
      · rw [keptParts, if_neg hu, length_nil] at hm
        exact .inr (length_eq_zero_iff.1 hm.symm)
    · exact ih htail m' hm'

/-- **A Claude request keeps its conversation** exactly when no message has texts or images beside
`tool_use` blocks. -/
theorem claude_request_kept_iff (c : Codec J) (isOpenRouterClaude : Bool) (req : ClaudeRequest J)
    (h : ∀ m ∈ req.messages, m.IsConversation) :
    (∃ out, claudeMessagesRequestToOpenAIChat c isOpenRouterClaude req = .ok out ∧
        KeepsConversation c isOpenRouterClaude req out) ↔
      ∀ m ∈ req.messages, m.toolUses = [] ∨ m.parts = [] := by
  let converted := req.messages.map fun m =>
    m.toolResults.map (messageOfBlock c req) ++ nonEmptyMessage (restMessage c m)
  have hrun : claudeMessagesRequestToOpenAIChat c isOpenRouterClaude req =
      .ok (systemMessages isOpenRouterClaude req ++ converted.flatten) := by
    unfold claudeMessagesRequestToOpenAIChat
    rw [mapM_convertMessage h]
    rfl
  constructor
  · rintro ⟨out, hout, hkeeps⟩
    cases hrun.symm.trans hout
    obtain ⟨segments, heq, hsegments⟩ := hkeeps.segments
    have hparts := parts_of_carries hsegments
    rw [← append_cancel_left heq] at hparts
    refine keptParts_eq_of_flatMap_eq (Eq.trans ?_ hparts)
    -- what the conversion keeps of the parts, message by message
    have hkept : ∀ l : List (ClaudeMessage J), (∀ m ∈ l, m.IsConversation) →
        (l.map fun m => m.toolResults.map (messageOfBlock c req) ++
          nonEmptyMessage (restMessage c m)).flatten.flatMap Message.chatParts =
          l.flatMap keptParts := by
      intro l
      induction l with
      | nil => exact fun _ => rfl
      | cons m l ih =>
        intro hl
        rw [map_cons, flatten_cons, flatMap_append, flatMap_cons,
          (@converted_by_kind _ c req _ (hl m mem_cons_self) _ rfl).1,
          ih fun m' hm' => hl m' (mem_cons_of_mem m hm')]
    exact (hkept req.messages h).symm
  · intro hmixed
    have hsegments : List.Forall₂ (Carries c) req.messages converted := by
      refine forall₂_map_right_iff.2 (forall₂_same.2 fun m hm => ?_)
      exact carries_converted (h m hm) (hmixed m hm)
    refine ⟨_, hrun, ⟨converted, rfl, hsegments⟩, ?_⟩
    intro before after m m' b b' hsplit hm hm' hb hb' hid
    exact follows_of_segments rfl hsegments hsplit hm hm' hb hb' hid

/-- JSON, as far as the empty object goes. -/
def emptyObject : Codec Unit where
  marshal := fun _ => "\x7b\x7d"
  unmarshal := fun s => if s = "\x7b\x7d" then some () else none
  unmarshal_marshal := fun _ => rfl

/-- A question, a call, its result and an image. -/
theorem claude_request_kept :
    ∃ out, claudeMessagesRequestToOpenAIChat emptyObject false
        { messages :=
            [{ role := "user", content := .str "q" },
             { role := "assistant"
               content := .blocks [{ type := "tool_use", id := "x", name := "f", input := some () }] },
             { role := "user"
               content := .blocks
                [{ type := "tool_result", toolUseId := "x", content := .str "r" },
                 { type := "image", source := some { mediaType := "image/png", data := "d" } }] }] } =
          .ok out ∧
      KeepsConversation emptyObject false
        { messages :=
            [{ role := "user", content := .str "q" },
             { role := "assistant"
               content := .blocks [{ type := "tool_use", id := "x", name := "f", input := some () }] },
             { role := "user"
               content := .blocks
                [{ type := "tool_result", toolUseId := "x", content := .str "r" },
                 { type := "image", source := some { mediaType := "image/png", data := "d" } }] }] }
        out := by
  refine (claude_request_kept_iff emptyObject false _ ?_).2 ?_
  · intro m hm
    simp only [mem_cons, not_mem_nil, or_false] at hm
    rcases hm with rfl | rfl | rfl
    · exact ⟨.inl rfl, by simp [parseContent]⟩
    · refine ⟨.inr rfl, fun b hb => ?_⟩
      rw [mem_singleton.1 hb]
      exact .inr (.inr (.inl rfl))
    · refine ⟨.inl rfl, fun b hb => ?_⟩
      simp only [parseContent, mem_cons, not_mem_nil, or_false] at hb
      rcases hb with rfl | rfl
      · exact .inr (.inr (.inr rfl))
      · exact .inr (.inl ⟨rfl, Option.some_ne_none _⟩)
  · decide

theorem text_beside_tool_use_lost :
    ¬ ∀ req : ClaudeRequest Unit, (∀ m ∈ req.messages, m.IsConversation) →
      ∃ out, claudeMessagesRequestToOpenAIChat emptyObject false req = .ok out ∧
        KeepsConversation emptyObject false req out := by
  intro h
  let mixture : ClaudeMessage Unit :=
    { role := "assistant"
      content := .blocks
        [{ type := "text", text := some "t" }, { type := "tool_use", id := "x", input := some () }] }
  have hdomain : ∀ m ∈ [mixture], m.IsConversation := by
    intro m hm
    rw [mem_singleton.1 hm]
    refine ⟨.inr rfl, fun b hb => ?_⟩
    rcases mem_cons.1 hb with rfl | hb
    · exact .inl rfl
    · rw [mem_singleton.1 hb]
      exact .inr (.inr (.inl rfl))
  obtain ⟨out, hout, hkeeps⟩ := h { messages := [mixture] } hdomain
  obtain ⟨segments, heq, hsegments⟩ := hkeeps.segments
  have hparts := parts_of_carries hsegments
  cases hout
  rw [← append_cancel_left heq] at hparts
  exact absurd hparts (by decide)

end BeeApi.RelayConvert
