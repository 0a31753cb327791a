import BeeApi.Relay.FourFormats

/-!
# The formats are lawful

Each block shows the same in every stream of it, whatever stands beside it.
-/

namespace BeeApi.Quality

open RelayConvert List Kinds

/-! ## Chat -/

def ChatBlock.kinds : ChatBlock → Kinds
  | text s => { visible := s }
  | reasoning _ => {}
  | toolCall _ => { tool := true }
  | media => { media := true }

theorem contentOf_toChunk (chunks : List ChatChunk) :
    contentOf (chunks.map (·.toChunk)) = joined (chunks.map fun c => (deltaFromChat c).visible) := by
  induction chunks with
  | nil => rfl
  | cons c chunks ih =>
    rw [map_cons, map_cons, joined_cons, ← ih, ← singleton_append, contentOf_append]
    refine congrArg (· ++ _) ?_
    simp [contentOf, deltas, deltaFromChat, Function.comp_def]

theorem fragmentsOf_toChunk (chunks : List ChatChunk) :
    fragmentsOf (chunks.map (·.toChunk)) ≠ [] ↔ ∃ c ∈ chunks, 0 < (deltaFromChat c).toolCalls := by
  have hchunk : ∀ c : ChatChunk, 0 < (deltaFromChat c).toolCalls ↔
      ∃ choice ∈ c.choices, choice.delta.toolCalls ≠ [] := by
    intro c
    simp only [deltaFromChat]
    split_ifs with h <;> simpa [any_eq_true] using h
  simp only [hchunk, fragmentsOf, deltas, ne_eq, flatMap_eq_nil_iff, mem_flatMap, mem_map]
  constructor
  · intro h
    by_contra hnone
    refine h ?_
    rintro d ⟨chunk, ⟨c, hc, rfl⟩, choice, hchoice, rfl⟩
    by_contra hcalls
    exact hnone ⟨c, hc, choice, hchoice, hcalls⟩
  · rintro ⟨c, hc, choice, hchoice, hcalls⟩ hall
    exact hcalls (hall _ ⟨c.toChunk, ⟨c, hc, rfl⟩, choice, hchoice, rfl⟩)

/-- A stream of the blocks whose text is sent in two chunks. -/
def chatChunks (blocks : List ChatBlock) (t u : String) : List ChatChunk :=
  { choices := [{ delta := { content := some t } }] } ::
    { choices := [{ delta := { content := some u } }] } ::
    { choices := [{ delta := {
        reasoningContent := some (joined (blocks.map ChatBlock.reasoningOf))
        toolCalls := (blocks.filterMap ChatBlock.callOf).mapIdx fun i call =>
          { index := some i, id := call.id, type := call.type, name := call.name,
            arguments := call.arguments } } }] } ::
    if ChatBlock.media ∈ blocks then [{ usage := some {}, imageTokens := 1 }] else []

variable {t u s : String} {b : ClaudeBlock} {e : ClaudeAnswer} {blocks : List ResponsesBlock}

theorem chatSplits_chatChunks {blocks : List ChatBlock}
    (h : joined (blocks.map ChatBlock.textOf) = t ++ u) :
    ChatSplits blocks (chatChunks blocks t u) := by
  have hmedia : ∀ chunk ∈ (if ChatBlock.media ∈ blocks then
      [({ usage := some {}, imageTokens := 1 } : ChatChunk)] else []),
      chunk = { usage := some {}, imageTokens := 1 } ∧ ChatBlock.media ∈ blocks := by
    intro chunk hchunk
    split_ifs at hchunk with hmem
    · exact ⟨mem_singleton.1 hchunk, hmem⟩
    · exact (nomatch hchunk)
  have hdeltas : deltas ((chatChunks blocks t u).map (·.toChunk)) =
      [{ content := some t }, { content := some u }, {
        reasoningContent := some (joined (blocks.map ChatBlock.reasoningOf))
        toolCalls := (blocks.filterMap ChatBlock.callOf).mapIdx fun i call =>
          { index := some i, id := call.id, type := call.type, name := call.name,
            arguments := call.arguments } }] := by
    unfold chatChunks deltas
    split_ifs <;> simp
  refine ⟨?_, ?_, ?_, ?_⟩
  · rw [contentOf, hdeltas, h]
    simp [Delta.getContentString, joined_cons]
  · rw [reasoningOf, hdeltas]
    simp [Delta.getReasoningContent, joined_cons]
  · rw [toolCallsOf, fragmentsOf, hdeltas]
    simp only [flatMap_cons, flatMap_nil, nil_append, append_nil]
    rw [assembleCalls_of_nodup]
    · refine ext_getElem (by simp) fun i hi hi' => ?_
      simp [ToolCallRequest.ofFragments]
    · rw [nodup_iff_injective_get]
      intro i j hij
      simpa [Fin.ext_iff] using hij
  · constructor
    · rintro ⟨chunk, hchunk, hreports⟩
      simp only [chatChunks, mem_cons] at hchunk
      rcases hchunk with rfl | rfl | rfl | hchunk
      · cases hreports
      · cases hreports
      · cases hreports
      · exact (hmedia chunk hchunk).2
    · intro hmem
      refine ⟨{ usage := some {}, imageTokens := 1 }, ?_, by decide⟩
      simp [chatChunks, hmem]

theorem media_sum_eq_false {β : Type} {blocks : List β} {f : β → Kinds}
    (h : ∀ b, (f b).media = false) :
    (sum (blocks.map f)).media = (false || blocks.any fun _ => false) := by
  rw [media_sum, any_map]
  simp [Function.comp_def, h]

theorem visible_sum_chat (blocks : List ChatBlock) :
    (sum (blocks.map ChatBlock.kinds)).visible = joined (blocks.map ChatBlock.textOf) := by
  rw [visible_sum, map_map]
  refine congrArg joined (map_congr_left fun b _ => ?_)
  cases b <;> rfl

theorem tool_sum_chat (blocks : List ChatBlock) :
    (sum (blocks.map ChatBlock.kinds)).tool = true ↔ blocks.filterMap ChatBlock.callOf ≠ [] := by
  rw [tool_sum, any_map, any_eq_true, ne_eq, filterMap_eq_nil_iff, not_forall]
  refine exists_congr fun b => ?_
  cases b <;> simp [ChatBlock.kinds, ChatBlock.callOf]

theorem media_sum_chat (blocks : List ChatBlock) :
    (sum (blocks.map ChatBlock.kinds)).media = true ↔ ChatBlock.media ∈ blocks := by
  rw [media_sum, any_map, any_eq_true]
  constructor
  · rintro ⟨b, hb, hmedia⟩
    cases b <;> first | exact hb | cases hmedia
  · exact fun h => ⟨_, h, rfl⟩

theorem inspectKinds_chat (blocks : List ChatBlock) :
    chat.inspectKinds blocks = sum (blocks.map ChatBlock.kinds) := by
  apply Kinds.ext
  · rw [visible_sum_chat]
    exact joined_singleton _
  · rw [Bool.eq_iff_iff, tool_sum_chat]
    show decide (0 < ([chatAnswer blocks].map (·.parseToolCalls.length)).sum) = true ↔ _
    simp [chatAnswer, Message.parseToolCalls, length_pos_iff]
  · rw [Bool.eq_iff_iff, media_sum_chat]
    show (false || blocks.any fun b => decide (b = .media)) = true ↔ _
    simp

theorem kinds_chatSplits {blocks : List ChatBlock} {chunks : List ChatChunk}
    (h : ChatSplits blocks chunks) :
    sum (chunks.map fun c => (deltaFromChat c).kinds) =
      sum (blocks.map ChatBlock.kinds) := by
  apply Kinds.ext
  · rw [visible_sum_chat, ← h.content, contentOf_toChunk, Kinds.visible_sum, map_map]
    rfl
  · rw [Bool.eq_iff_iff, tool_sum_chat, ← h.calls, ne_eq, map_eq_nil_iff, toolCallsOf,
      assembleCalls_eq_nil_iff, ← ne_eq, fragmentsOf_toChunk, tool_sum, any_map, any_eq_true]
    simp [QualityStreamDelta.kinds]
  · rw [Bool.eq_iff_iff, media_sum_chat, ← h.media, media_sum, any_map, any_eq_true]
    rfl

theorem text_only_chat (b : ChatBlock) (h : b.kind = .text ∨ b.kind = .reasoning) :
    b.kinds.tool = false ∧ b.kinds.media = false := by
  cases b with
  | text _ => exact ⟨rfl, rfl⟩
  | reasoning _ => exact ⟨rfl, rfl⟩
  | toolCall | media => rcases h with h | h <;> cases h

theorem cut_chat {blocks : List ChatBlock}
    (h : (sum (blocks.map ChatBlock.kinds)).visible = t ++ u) :
    ∃ before after, ChatSplits blocks (before ++ after) ∧
      visibleText (before.map deltaFromChat) = t := by
  rw [visible_sum_chat] at h
  refine ⟨[{ choices := [{ delta := { content := some t } }] }], _, chatSplits_chatChunks h, ?_⟩
  simp [deltaFromChat, visibleText, Delta.getContentString, joined_cons]

def chatLawful : chat.Lawful where
  streamed := ChatBlock.kinds
  buffered := ChatBlock.kinds
  agree _ := ⟨fun _ => rfl, fun _ => rfl⟩
  text_only := text_only_chat
  observed _ chunks h := (chat.observedKinds_eq chunks).trans (kinds_chatSplits h)
  inspected blocks _ := inspectKinds_chat blocks
  single b := (inspectKinds_chat [b]).trans (sum_singleton _)
  splits blocks := ⟨chatChunks blocks _ "", chatSplits_chatChunks String.append_empty.symm⟩
  cut _ _ _ _ h := cut_chat h

/-! ## Claude -/

namespace ClaudeBlock

def streamed : ClaudeBlock → Kinds
  | text s => { visible := s }
  | thinking _ => {}
  | toolUse _ _ _ _ => { tool := true }

/-- What a whole answer shows of it. -/
def buffered : ClaudeBlock → Kinds
  | text s => { visible := s }
  | thinking _ => {}
  | toolUse type _ _ _ => { tool := type = .toolUse }

def pieceKinds : ClaudeBlock → String → Kinds
  | text _, s => { visible := s }
  | thinking _, _ => {}
  | toolUse _ _ _ _, _ => { tool := true }

end ClaudeBlock

theorem kinds_continues (h : e.Continues (b.piece s)) :
    (deltaFromClaude e).kinds = b.pieceKinds s := by
  unfold deltaFromClaude
  rw [h.delta, h.type, h.completion]
  cases b <;> simp [ClaudeBlock.piece, ClaudeBlock.pieceKinds, QualityStreamDelta.kinds]

theorem kinds_starts (h : e.Starts b.started) :
    (deltaFromClaude e).kinds = { tool := b.kind = .toolCall } := by
  unfold deltaFromClaude
  rw [h.delta, h.type, h.completion, h.content, h.block]
  cases b with
  | text _ => rfl
  | thinking _ => rfl
  | toolUse type _ _ _ => cases type <;> rfl

theorem silent_of_starts (h : e.Starts b.started) : e.silent = false := by
  simp [ClaudeAnswer.silent, h.block]

theorem silent_of_continues (h : e.Continues (b.piece s)) : e.silent = false := by
  cases b <;> simp [ClaudeAnswer.silent, h.delta, ClaudeBlock.piece]

theorem map_eq_of_forall₂ {α β γ : Type} {R : α → β → Prop} {f : α → γ} {g : β → γ} {l : List α}
    {l' : List β} (h : List.Forall₂ R l l') (hR : ∀ a b, R a b → g b = f a) :
    l'.map g = l.map f := by
  induction h with
  | nil => rfl
  | cons hab _ ih => rw [map_cons, map_cons, hR _ _ hab, ih]

theorem forall_mem_of_forall₂ {α β : Type} {R : α → β → Prop} {P : β → Prop} {l : List α}
    {l' : List β} (h : List.Forall₂ R l l') (hR : ∀ a b, R a b → P b) : ∀ b ∈ l', P b := by
  induction h with
  | nil => exact nofun
  | cons hab _ ih => exact forall_mem_cons.2 ⟨hR _ _ hab, ih⟩

theorem sum_streams_claude {events : List ClaudeAnswer} (h : b.Streams events) :
    sum (events.map fun e => (deltaFromClaude e).kinds) = b.streamed := by
  obtain ⟨start, rest, texts, rfl, hstart, hbody, hrest⟩ := h
  have hpieces : rest.map (fun e => (deltaFromClaude e).kinds) = texts.map b.pieceKinds :=
    map_eq_of_forall₂ hrest fun _ _ => kinds_continues
  rw [map_cons, Kinds.sum, kinds_starts hstart, hpieces]
  cases b with
  | text s =>
    have hsum := @sum_map_visible texts (ClaudeBlock.text s).pieceKinds fun _ => rfl
    rw [hsum, hbody]
    exact empty_append _
  | thinking s =>
    rw [sum_empty]
    · rfl
    · intro k hk
      obtain ⟨_, -, rfl⟩ := mem_map.1 hk
      rfl
  | toolUse type id name input =>
    refine sum_of_idem rfl fun k hk => ?_
    obtain ⟨_, -, rfl⟩ := mem_map.1 hk
    rfl

theorem silent_of_streams {events : List ClaudeAnswer} (h : b.Streams events) :
    ∀ e ∈ events, e.silent = false := by
  obtain ⟨start, rest, texts, rfl, hstart, -, hrest⟩ := h
  exact forall_mem_cons.2 ⟨silent_of_starts hstart,
    forall_mem_of_forall₂ hrest fun _ _ he => silent_of_continues he⟩

theorem kinds_silent (h : e.silent = true) : (deltaFromClaude e).kinds = {} := by
  simp only [ClaudeAnswer.silent, Bool.and_eq_true, decide_eq_true_eq] at h
  obtain ⟨⟨⟨hblock, hcontent⟩, hcompletion⟩, hdelta⟩ := h
  unfold deltaFromClaude
  rw [hblock, hcontent, hcompletion]
  cases hd : e.delta with
  | none => simp [QualityStreamDelta.kinds]
  | some d =>
    rw [hd] at hdelta
    simp only [Option.all_some, Bool.and_eq_true, decide_eq_true_eq] at hdelta
    obtain ⟨⟨⟨htext, hthinking⟩, hjson⟩, htype⟩ := hdelta
    simp [QualityStreamDelta.kinds, htext, hjson, htype]

def ClaudeBlock.start (b : ClaudeBlock) : ClaudeAnswer :=
  { type := "content_block_start", contentBlock := some b.started }

def ClaudeBlock.next (b : ClaudeBlock) (s : String) : ClaudeAnswer :=
  { type := "content_block_delta", delta := some (b.piece s) }

theorem streams_start_next (b : ClaudeBlock) {texts : List String} (h : joined texts = b.body) :
    b.Streams (b.start :: texts.map b.next) := by
  refine ⟨b.start, _, texts, rfl, ⟨rfl, rfl, rfl, rfl, rfl⟩, h, ?_⟩
  rw [forall₂_map_right_iff]
  exact forall₂_same.2 fun _ _ => ⟨rfl, rfl, rfl⟩

theorem cut_streams_claude {b : ClaudeBlock} {t u : String}
    (hkind : b.kind = .text ∨ b.kind = .reasoning) (h : b.streamed.visible = t ++ u) :
    ∃ before after, b.Streams (before ++ after) ∧
      (sum (before.map fun e => (deltaFromClaude e).kinds)).visible = t := by
  cases b with
  | text s =>
    refine ⟨[(ClaudeBlock.text s).start, (ClaudeBlock.text s).next t],
      [(ClaudeBlock.text s).next u], @streams_start_next (.text s) [t, u] ?_, ?_⟩
    · rw [joined_cons, joined_singleton]
      exact h.symm
    · simp [ClaudeBlock.start, ClaudeBlock.next, ClaudeBlock.started, ClaudeBlock.piece,
        deltaFromClaude, QualityStreamDelta.kinds, Kinds.sum, Kinds.append]
  | thinking s =>
    have ht : t = "" := (String.append_eq_empty_iff.1 h.symm).1
    exact ⟨[], _, streams_start_next (.thinking s) (joined_singleton s), ht.symm⟩
  | toolUse _ _ _ _ => rcases hkind with hkind | hkind <;> cases hkind

theorem inspectKinds_claude (blocks : List ClaudeBlock) :
    claude.inspectKinds blocks = sum (blocks.map ClaudeBlock.buffered) := by
  apply Kinds.ext
  · have hvisible : joined (((blocks.map ClaudeBlock.whole).filter (·.type = "text")).map (·.getText)) =
        joined (blocks.map (·.buffered.visible)) := by
      induction blocks with
      | nil => rfl
      | cons b blocks ih =>
        rw [map_cons, map_cons, joined_cons, ← ih]
        cases b with
        | text s => exact joined_cons _ _
        | thinking s => exact (String.empty_append).symm
        | toolUse type _ _ _ => cases type <;> exact (String.empty_append).symm
    rw [visible_sum, map_map, Function.comp_def, ← hvisible]
    exact String.empty_append
  · rw [tool_sum, Bool.eq_iff_iff, any_map, any_eq_true]
    show decide (0 < (blocks.map ClaudeBlock.whole).countP (·.type = "tool_use")) = true ↔ _
    rw [decide_eq_true_eq, countP_pos_iff]
    constructor
    · rintro ⟨_, hmem, htype⟩
      obtain ⟨b, hb, rfl⟩ := mem_map.1 hmem
      refine ⟨b, hb, ?_⟩
      cases b with
      | text | thinking => simp [ClaudeBlock.whole] at htype
      | toolUse type _ _ _ =>
        cases type <;> simp [ClaudeBlock.whole, ClaudeToolType.name, ClaudeBlock.buffered] at htype ⊢
    · rintro ⟨b, hb, htool⟩
      refine ⟨b.whole, mem_map_of_mem hb, ?_⟩
      cases b with
      | text _ => cases htool
      | thinking _ => cases htool
      | toolUse type _ _ _ => cases type <;> first | rfl | cases htool
  · exact (media_sum_eq_false fun b => by cases b <;> rfl).symm

theorem filter_not_silent {blocks : List ClaudeBlock} {events : List ClaudeAnswer}
    (h : SplitsInto ClaudeBlock.Streams blocks events) : events.filter (!·.silent) = events := by
  refine filter_eq_self.2 fun e he => ?_
  rw [h.forall_mem (fun _ _ => silent_of_streams) e he]
  rfl

theorem kinds_claudeSplits {blocks : List ClaudeBlock} {events : List ClaudeAnswer}
    (h : SplitsInto ClaudeBlock.Streams blocks (events.filter (!·.silent))) :
    sum (events.map fun e => (deltaFromClaude e).kinds) =
      sum (blocks.map ClaudeBlock.streamed) := by
  refine Eq.trans (sum_filter fun e _ hsilent => ?_).symm (h.sum fun _ _ => sum_streams_claude)
  rw [kinds_silent (by simpa using hsilent)]
  exact ⟨rfl, rfl, nofun⟩

theorem agree_claude (b : ClaudeBlock) : claude.exceptional b = false ↔ b.streamed = b.buffered := by
  cases b with
  | text | thinking => exact ⟨fun _ => rfl, fun _ => rfl⟩
  | toolUse type _ _ _ =>
    cases type with
    | toolUse => exact ⟨fun _ => rfl, fun _ => rfl⟩
    | serverToolUse | mcpToolUse => exact ⟨nofun, fun h => (nomatch congrArg tool h)⟩

theorem text_only_claude (b : ClaudeBlock) (h : b.kind = .text ∨ b.kind = .reasoning) :
    b.streamed.tool = false ∧ b.streamed.media = false := by
  cases b with
  | text _ => exact ⟨rfl, rfl⟩
  | thinking _ => exact ⟨rfl, rfl⟩
  | toolUse _ _ _ _ => rcases h with h | h <;> cases h

theorem splits_claude (blocks : List ClaudeBlock) :
    ∃ events : List ClaudeAnswer, SplitsInto ClaudeBlock.Streams blocks (events.filter (!·.silent)) := by
  obtain ⟨events, hevents⟩ := @SplitsInto.exists_pieces _ _ ClaudeBlock.Streams blocks
    fun b _ => ⟨_, streams_start_next b (joined_singleton b.body)⟩
  exact ⟨events, (filter_not_silent hevents).symm ▸ hevents⟩

theorem cut_claude {blocks : List ClaudeBlock}
    (htext : ∀ b ∈ blocks, b.kind = .text ∨ b.kind = .reasoning)
    (h : (sum (blocks.map ClaudeBlock.streamed)).visible = t ++ u) :
    ∃ before after : List ClaudeAnswer,
      SplitsInto ClaudeBlock.Streams blocks ((before ++ after).filter (!·.silent)) ∧
      visibleText (before.map deltaFromClaude) = t := by
  obtain ⟨before, after, hsplit, hbefore⟩ := SplitsInto.cut
    (fun b hb t u => @cut_streams_claude b t u (htext b hb)) (fun _ _ => sum_streams_claude) h
  refine ⟨before, after, (filter_not_silent hsplit).symm ▸ hsplit, ?_⟩
  rw [visibleText_eq, map_map]
  exact hbefore

def claudeLawful : claude.Lawful where
  streamed := ClaudeBlock.streamed
  buffered := ClaudeBlock.buffered
  agree := agree_claude
  text_only := text_only_claude
  observed _ events h := (claude.observedKinds_eq events).trans (kinds_claudeSplits h)
  inspected blocks _ := inspectKinds_claude blocks
  single b := (inspectKinds_claude [b]).trans (sum_singleton _)
  splits := splits_claude
  cut _ htext _ _ h := cut_claude htext h

/-! ## Gemini -/

def partKinds (part : GeminiPart) : Kinds where
  visible := if part.thought then "" else part.text
  tool := part.functionCall.isSome
  media := part.inlineData.any (·.mimeType ≠ "")

theorem kinds_deltaFromGemini (resp : GeminiChatResponse) :
    (deltaFromGemini resp).kinds = sum ((geminiParts resp).map partKinds) := by
  apply Kinds.ext
  · rw [Kinds.visible_sum, map_map]
    rfl
  · rw [tool_sum, Bool.eq_iff_iff, any_map, any_eq_true]
    show decide (0 < (geminiParts resp).countP (·.functionCall.isSome)) = true ↔ _
    rw [decide_eq_true_eq, countP_pos_iff]
    rfl
  · rw [media_sum, any_map]
    rfl

theorem kinds_chunks_gemini (chunks : List GeminiChatResponse) :
    sum (chunks.map fun c => (deltaFromGemini c).kinds) =
      sum ((chunks.flatMap geminiParts).map partKinds) := by
  induction chunks with
  | nil => rfl
  | cons c chunks ih =>
    rw [map_cons, Kinds.sum, ih, kinds_deltaFromGemini, flatMap_cons, map_append, Kinds.sum_append]

namespace GeminiBlock

def streamed : GeminiBlock → Kinds
  | text s => { visible := s }
  | thought _ => {}
  | functionCall _ => { tool := true }
  | inlineData data => { media := data.mimeType ≠ "" }

def buffered : GeminiBlock → Kinds
  | text s => { visible := s }
  | thought _ => {}
  | functionCall _ => { tool := true }
  | inlineData _ => {}

end GeminiBlock

theorem sum_streams_gemini {b : GeminiBlock} {parts : List GeminiPart} (h : b.Streams parts) :
    sum (parts.map partKinds) = b.streamed := by
  cases b with
  | text s =>
    obtain ⟨texts, rfl, rfl⟩ := h
    rw [map_map]
    exact sum_map_visible fun _ => rfl
  | thought s =>
    obtain ⟨texts, rfl, rfl⟩ := h
    rw [map_map]
    refine sum_empty fun k hk => ?_
    obtain ⟨_, -, rfl⟩ := mem_map.1 hk
    rfl
  | functionCall call =>
    obtain rfl : parts = [_] := h
    rfl
  | inlineData data =>
    obtain rfl : parts = [_] := h
    exact sum_singleton _

theorem cut_streams_gemini {b : GeminiBlock} {t u : String}
    (hkind : b.kind = .text ∨ b.kind = .reasoning) (h : b.streamed.visible = t ++ u) :
    ∃ before after, b.Streams (before ++ after) ∧
      (sum (before.map partKinds)).visible = t := by
  cases b with
  | text s =>
    refine ⟨[(GeminiBlock.text t).part], [(GeminiBlock.text u).part], ⟨[t, u], ?_, rfl⟩, ?_⟩
    · rw [joined_cons, joined_singleton]
      exact h.symm
    · exact congrArg visible (sum_singleton _)
  | thought s =>
    have ht : t = "" := (String.append_eq_empty_iff.1 h.symm).1
    exact ⟨[], _, ⟨[s], joined_singleton s, rfl⟩, ht.symm⟩
  | functionCall | inlineData => rcases hkind with hkind | hkind <;> cases hkind

theorem geminiParts_geminiAnswer (parts : List GeminiPart) :
    geminiParts (geminiAnswer parts) = parts :=
  append_nil parts

theorem flatMap_geminiParts (pieces : List GeminiPart) :
    (pieces.map fun part => geminiAnswer [part]).flatMap geminiParts = pieces := by
  rw [flatMap_map]
  simp [geminiParts_geminiAnswer]

theorem inspectKinds_gemini (blocks : List GeminiBlock) :
    gemini.inspectKinds blocks = sum (blocks.map GeminiBlock.buffered) := by
  apply Kinds.ext
  · rw [Kinds.visible_sum, map_map]
    show joined ((geminiParts (geminiAnswer (blocks.map GeminiBlock.part))).map _) = _
    rw [geminiParts_geminiAnswer, map_map]
    refine congrArg joined (map_congr_left fun b _ => ?_)
    cases b <;> rfl
  · rw [tool_sum, Bool.eq_iff_iff, any_map, any_eq_true]
    show decide (0 < (geminiParts (geminiAnswer (blocks.map GeminiBlock.part))).countP _) = true ↔ _
    rw [decide_eq_true_eq, geminiParts_geminiAnswer, countP_map, countP_pos_iff]
    refine exists_congr fun b => and_congr_right fun _ => ?_
    cases b <;> exact Iff.rfl
  · exact (media_sum_eq_false fun b => by cases b <;> rfl).symm

theorem agree_gemini (b : GeminiBlock) : gemini.exceptional b = false ↔ b.streamed = b.buffered := by
  cases b with
  | text | thought | functionCall => exact ⟨fun _ => rfl, fun _ => rfl⟩
  | inlineData data =>
    constructor
    · intro h
      exact Kinds.ext rfl rfl h
    · exact fun h => congrArg media h

theorem text_only_gemini (b : GeminiBlock) (h : b.kind = .text ∨ b.kind = .reasoning) :
    b.streamed.tool = false ∧ b.streamed.media = false := by
  cases b with
  | text _ => exact ⟨rfl, rfl⟩
  | thought _ => exact ⟨rfl, rfl⟩
  | functionCall | inlineData => rcases h with h | h <;> cases h

theorem splits_gemini (blocks : List GeminiBlock) :
    ∃ chunks : List GeminiChatResponse,
      SplitsInto GeminiBlock.Streams blocks (chunks.flatMap geminiParts) := by
  have hany : ∀ b : GeminiBlock, ∃ parts, b.Streams parts := by
    intro b
    cases b with
    | text s | thought s => exact ⟨_, [s], joined_singleton s, rfl⟩
    | functionCall _ => exact ⟨_, rfl⟩
    | inlineData _ => exact ⟨_, rfl⟩
  obtain ⟨parts, hparts⟩ := @SplitsInto.exists_pieces _ _ _ blocks fun b _ => hany b
  exact ⟨_, (flatMap_geminiParts parts).symm ▸ hparts⟩

theorem cut_gemini {blocks : List GeminiBlock}
    (htext : ∀ b ∈ blocks, b.kind = .text ∨ b.kind = .reasoning)
    (h : (sum (blocks.map GeminiBlock.streamed)).visible = t ++ u) :
    ∃ before after : List GeminiChatResponse,
      SplitsInto GeminiBlock.Streams blocks ((before ++ after).flatMap geminiParts) ∧
      visibleText (before.map deltaFromGemini) = t := by
  obtain ⟨before, after, hsplit, hbefore⟩ := SplitsInto.cut
    (fun b hb t u => @cut_streams_gemini b t u (htext b hb)) (fun _ _ => sum_streams_gemini) h
  refine ⟨before.map fun part => geminiAnswer [part], after.map fun part => geminiAnswer [part], ?_, ?_⟩
  · rw [← map_append, flatMap_geminiParts]
    exact hsplit
  · rw [visibleText_eq, map_map]
    show (sum (List.map (fun c => (deltaFromGemini c).kinds) _)).visible = t
    rw [kinds_chunks_gemini, flatMap_geminiParts]
    exact hbefore

def geminiLawful : gemini.Lawful where
  streamed := GeminiBlock.streamed
  buffered := GeminiBlock.buffered
  agree := agree_gemini
  text_only := text_only_gemini
  observed _ chunks h := by
    refine (gemini.observedKinds_eq chunks).trans ((kinds_chunks_gemini chunks).trans ?_)
    exact SplitsInto.sum (fun _ _ => sum_streams_gemini) h
  inspected blocks _ := inspectKinds_gemini blocks
  single b := (inspectKinds_gemini [b]).trans (sum_singleton _)
  splits := splits_gemini
  cut _ htext _ _ h := cut_gemini htext h

/-! ## Responses -/

namespace ResponsesBlock

def streamed : ResponsesBlock → Kinds
  | message text => { visible := text }
  | reasoning _ _ => {}
  | tool _ _ _ _ => { tool := true }
  | imageGenerationCall => { media := true }

def buffered : ResponsesBlock → Kinds
  | message text => { visible := text }
  | reasoning _ content => { visible := content }
  | tool type _ _ _ => { tool := type ≠ .customToolCall }
  | imageGenerationCall => { tool := true }

/-- What the first and the last event of an item show. -/
def frameKinds (b : ResponsesBlock) : Kinds := { b.streamed with visible := "" }

def pieceKinds : ResponsesBlock → String → Kinds
  | message _, s => { visible := s }
  | reasoning _ _, _ => {}
  | _, _ => { tool := true }

end ResponsesBlock

theorem kinds_frame {b : ResponsesBlock} {e : ResponsesStreamResponse} {kind : EventKind}
    (h : ResponsesFrame kind b.output.type e) (hkind : kind = .itemAdded ∨ kind = .itemDone) :
    (deltaFromResponses e).kinds = b.frameKinds := by
  obtain ⟨item, hitem, htype⟩ := Option.map_eq_some_iff.1 h.item
  have hdelta : deltaFromResponses e =
      if item.type = "function_call" || item.type = "custom_tool_call" ||
          item.type = "web_search_call" then { toolCalls := 1 }
      else if item.type = "image_generation_call" then { media := true }
      else {} := by
    unfold deltaFromResponses
    rcases hkind with rfl | rfl <;> rw [h.kind, hitem]
  rw [hdelta, htype]
  cases b with
  | message _ => rfl
  | reasoning _ _ => rfl
  | tool type _ _ _ => cases type <;> rfl
  | imageGenerationCall => rfl

theorem kinds_piece {b : ResponsesBlock} {e : ResponsesStreamResponse}
    (h : e.kind = b.bodyKind ∧ e.delta = s) : (deltaFromResponses e).kinds = b.pieceKinds s := by
  unfold deltaFromResponses
  rw [h.1, h.2]
  cases b <;> rfl

theorem sum_streams_responses {b : ResponsesBlock} {events : List ResponsesStreamResponse}
    (h : b.Streams events) :
    sum (events.map fun e => (deltaFromResponses e).kinds) = b.streamed := by
  obtain ⟨first, rest, last, texts, rfl, hfirst, hlast, hbody, himage, hrest⟩ := h
  have hpieces : rest.map (fun e => (deltaFromResponses e).kinds) = texts.map b.pieceKinds :=
    map_eq_of_forall₂ hrest fun _ _ => kinds_piece
  rw [map_cons, map_append, map_singleton, Kinds.sum, Kinds.sum_append,
    sum_singleton, kinds_frame hfirst (.inl rfl), kinds_frame hlast (.inr rfl), hpieces]
  cases b with
  | message text =>
    have hsum := @sum_map_visible texts (ResponsesBlock.message text).pieceKinds fun _ => rfl
    rw [hsum, hbody]
    exact (empty_append _).trans (append_empty _)
  | reasoning _ _ =>
    rw [sum_empty]
    · rfl
    · intro k hk
      obtain ⟨_, -, rfl⟩ := mem_map.1 hk
      rfl
  | tool type callId name arguments =>
    rw [← Kinds.append_assoc, sum_of_idem]
    · rfl
    · rfl
    · intro k hk
      obtain ⟨_, -, rfl⟩ := mem_map.1 hk
      rfl
  | imageGenerationCall =>
    rw [himage rfl]
    rfl

theorem ofItem_of_streams {b : ResponsesBlock} {events : List ResponsesStreamResponse}
    (h : b.Streams events) : ∀ e ∈ events, ofItem e = true := by
  obtain ⟨first, rest, last, texts, rfl, hfirst, hlast, -, -, hrest⟩ := h
  have hpieces : ∀ e ∈ rest, ofItem e = true := by
    refine forall_mem_of_forall₂ hrest fun s e he => ?_
    rw [ofItem, he.1]
    cases b <;> rfl
  intro e he
  rcases mem_cons.1 he with rfl | he
  · rw [ofItem, hfirst.kind]
    rfl
  · rcases mem_append.1 he with he | he
    · exact hpieces e he
    · obtain rfl := mem_singleton.1 he
      rw [ofItem, hlast.kind]
      rfl

/-- Events that are not of an item show at most the images of the whole answer. -/
theorem kinds_not_ofItem {e : ResponsesStreamResponse} (hitem : ofItem e = false)
    (hcompleted : e.kind = .completed → ∀ resp ∈ e.response,
      resp.output = blocks.map ResponsesBlock.output) :
    (deltaFromResponses e).kinds.visible = "" ∧ (deltaFromResponses e).kinds.tool = false ∧
      ((deltaFromResponses e).kinds.media = true → .imageGenerationCall ∈ blocks) := by
  have hnothing : ∀ d : QualityStreamDelta, d = {} → d.kinds.visible = "" ∧ d.kinds.tool = false ∧
      (d.kinds.media = true → .imageGenerationCall ∈ blocks) := by
    rintro d rfl
    exact ⟨rfl, rfl, nofun⟩
  unfold deltaFromResponses
  unfold ofItem at hitem
  cases hkind : e.kind with
  | textDelta | reasoningDelta | itemAdded | itemDone | argumentsDelta =>
    rw [hkind] at hitem
    cases hitem
  | completed =>
    refine ⟨rfl, rfl, fun h => ?_⟩
    cases hresponse : e.response with
    | none =>
      rw [hresponse] at h
      cases h
    | some resp =>
      rw [hresponse] at h
      have himage : hasImageGenerationCall resp = true := h
      rw [hasImageGenerationCall, hcompleted hkind resp hresponse, any_map, any_eq_true] at himage
      obtain ⟨b, hb, htype⟩ := himage
      cases b with
      | message | reasoning => simp [ResponsesBlock.output] at htype
      | tool type _ _ _ => cases type <;> simp [ResponsesBlock.output, ResponsesToolType.name] at htype
      | imageGenerationCall => exact hb
  | created | reasoningDone | argumentsDone | incomplete | failed | other => exact hnothing _ rfl

theorem media_sum_responses (blocks : List ResponsesBlock) :
    (sum (blocks.map ResponsesBlock.streamed)).media = true ↔
      .imageGenerationCall ∈ blocks := by
  rw [media_sum, any_map, any_eq_true]
  constructor
  · rintro ⟨b, hb, hmedia⟩
    cases b <;> first | exact hb | cases hmedia
  · exact fun h => ⟨_, h, rfl⟩

theorem kinds_responsesSplits {events : List ResponsesStreamResponse}
    (h : ResponsesSplits blocks events) :
    sum (events.map fun e => (deltaFromResponses e).kinds) =
      sum (blocks.map ResponsesBlock.streamed) := by
  have hitems : sum ((events.filter ofItem).map fun e => (deltaFromResponses e).kinds) =
      sum (blocks.map ResponsesBlock.streamed) := h.items.sum fun _ _ => sum_streams_responses
  refine Eq.trans (sum_filter fun e he hitem => ?_).symm hitems
  obtain ⟨hvisible, htool, hmedia⟩ := kinds_not_ofItem hitem (h.completed e he)
  refine ⟨hvisible, htool, fun hm => ?_⟩
  have hsum := congrArg media hitems
  rw [(media_sum_responses blocks).2 (hmedia hm), media_sum, any_map, any_eq_true] at hsum
  obtain ⟨y, hy, hym⟩ := hsum
  exact ⟨y, mem_of_mem_filter hy, (mem_filter.1 hy).2, hym⟩

def ResponsesBlock.events (b : ResponsesBlock) (texts : List String) : List ResponsesStreamResponse :=
  { type := "response.output_item.added", item := some b.output } ::
    (texts.map fun s => {
        type := match b with
          | .message _ => "response.output_text.delta"
          | .reasoning _ _ => "response.reasoning_text.delta"
          | _ => "response.function_call_arguments.delta"
        delta := s }) ++
    [{ type := "response.output_item.done", item := some b.output }]

theorem streams_events {b : ResponsesBlock} {texts : List String} (h : joined texts = b.body)
    (himage : b = .imageGenerationCall → texts = []) : b.Streams (b.events texts) := by
  refine ⟨_, _, _, texts, rfl, ⟨rfl, rfl⟩, ⟨rfl, rfl⟩, h, himage, ?_⟩
  rw [forall₂_map_right_iff]
  refine forall₂_same.2 fun s _ => ⟨?_, rfl⟩
  cases b <;> rfl

theorem cut_streams_responses {b : ResponsesBlock} {t u : String}
    (hkind : b.kind = .text ∨ b.kind = .reasoning) (h : b.streamed.visible = t ++ u) :
    ∃ before after, b.Streams (before ++ after) ∧
      (sum (before.map fun e => (deltaFromResponses e).kinds)).visible = t := by
  cases b with
  | message text =>
    refine ⟨((ResponsesBlock.message text).events [t, u]).take 2,
      ((ResponsesBlock.message text).events [t, u]).drop 2, ?_, ?_⟩
    · rw [take_append_drop]
      refine streams_events ?_ nofun
      rw [joined_cons, joined_singleton]
      exact h.symm
    · show ("" ++ (t ++ "") : String) = t
      rw [String.append_empty, String.empty_append]
  | reasoning summary content =>
    have ht : t = "" := (String.append_eq_empty_iff.1 h.symm).1
    exact ⟨[], (ResponsesBlock.reasoning summary content).events [_],
      streams_events (joined_singleton _) nofun, ht.symm⟩
  | tool | imageGenerationCall => rcases hkind with hkind | hkind <;> cases hkind

theorem responsesSplits_of_items {events : List ResponsesStreamResponse}
    (h : SplitsInto ResponsesBlock.Streams blocks events) : ResponsesSplits blocks events := by
  have hitems := h.forall_mem fun _ _ => ofItem_of_streams
  refine ⟨?_, fun e he hkind => ?_⟩
  · rwa [filter_eq_self.2 hitems]
  · have hitem := hitems e he
    rw [ofItem, hkind] at hitem
    cases hitem

theorem splits_responses (blocks : List ResponsesBlock) : ∃ events, ResponsesSplits blocks events := by
  have hany : ∀ b : ResponsesBlock, ∃ events, b.Streams events := by
    intro b
    by_cases himage : b = .imageGenerationCall
    · exact ⟨_, @streams_events b [] (by rw [himage]; rfl) fun _ => rfl⟩
    · exact ⟨_, streams_events (joined_singleton b.body) fun h => absurd h himage⟩
  obtain ⟨events, hevents⟩ := @SplitsInto.exists_pieces _ _ _ blocks fun b _ => hany b
  exact ⟨events, responsesSplits_of_items hevents⟩

theorem cut_responses (htext : ∀ b ∈ blocks, b.kind = .text ∨ b.kind = .reasoning)
    (h : (sum (blocks.map ResponsesBlock.streamed)).visible = t ++ u) :
    ∃ before after, ResponsesSplits blocks (before ++ after) ∧
      visibleText (before.map deltaFromResponses) = t := by
  obtain ⟨before, after, hsplit, hbefore⟩ := SplitsInto.cut
    (fun b hb t u => @cut_streams_responses b t u (htext b hb)) (fun _ _ => sum_streams_responses) h
  refine ⟨before, after, responsesSplits_of_items hsplit, ?_⟩
  rw [visibleText_eq, map_map]
  exact hbefore

def ResponsesBlock.messageText : ResponsesBlock → String
  | message text => text
  | _ => ""

theorem joined_messages (blocks : List ResponsesBlock) :
    joined (((blocks.map ResponsesBlock.output).filter fun out =>
      out.type = "message" && (out.role = "" || out.role = "assistant")).flatMap fun out =>
        (out.content.filter (·.type = "output_text")).map (·.text)) =
      joined (blocks.map ResponsesBlock.messageText) := by
  induction blocks with
  | nil => rfl
  | cons b blocks ih =>
    rw [map_cons, map_cons, joined_cons, ← ih]
    cases b with
    | message text => exact joined_cons _ _
    | reasoning | imageGenerationCall => exact String.empty_append.symm
    | tool type _ _ _ => cases type <;> exact String.empty_append.symm

theorem joined_contents (blocks : List ResponsesBlock) :
    joined ((blocks.map ResponsesBlock.output).flatMap fun out => out.content.map (·.text)) =
      joined (blocks.map (·.buffered.visible)) := by
  induction blocks with
  | nil => rfl
  | cons b blocks ih =>
    rw [map_cons, map_cons, joined_cons, flatMap_cons, joined_append, ih]
    refine congrArg (· ++ _) ?_
    cases b with
    | message text => exact joined_singleton text
    | reasoning _ content =>
      show joined ((if content = "" then [] else [_]).map _) = content
      split_ifs with hempty
      · exact hempty.symm
      · exact joined_singleton content
    | tool _ _ _ _ => rfl
    | imageGenerationCall => rfl

theorem inspectKinds_responses {blocks : List ResponsesBlock}
    (h : (∀ b ∈ blocks, b.messageText = b.buffered.visible) ∨ ∀ b ∈ blocks, b.messageText = "") :
    responses.inspectKinds blocks = sum (blocks.map ResponsesBlock.buffered) := by
  apply Kinds.ext
  · rw [Kinds.visible_sum, map_map]
    show extractOutputTextFromResponses _ = joined (blocks.map (·.buffered.visible))
    unfold extractOutputTextFromResponses
    dsimp only
    rw [joined_messages, joined_contents]
    split_ifs with hempty
    · rcases h with h | h
      · exact congrArg joined (map_congr_left h)
      · refine absurd (joined_eq_empty_iff.2 fun s hs => ?_) hempty
        obtain ⟨b, hb, rfl⟩ := mem_map.1 hs
        exact h b hb
    · rfl
  · rw [tool_sum, Bool.eq_iff_iff, any_map, any_eq_true]
    show decide (0 < (blocks.map ResponsesBlock.output).countP _) = true ↔ _
    rw [decide_eq_true_eq, countP_map, countP_pos_iff]
    refine exists_congr fun b => and_congr_right fun _ => ?_
    cases b with
    | message | reasoning | imageGenerationCall =>
      simp [ResponsesBlock.output, ResponsesBlock.buffered]
    | tool type _ _ _ =>
      cases type <;> simp [ResponsesBlock.output, ResponsesBlock.buffered, ResponsesToolType.name]
  · exact (media_sum_eq_false fun b => by cases b <;> rfl).symm

theorem agree_responses (b : ResponsesBlock) :
    responses.exceptional b = false ↔ b.streamed = b.buffered := by
  cases b with
  | message _ => exact ⟨fun _ => rfl, fun _ => rfl⟩
  | reasoning _ content =>
    show decide (content ≠ "") = false ↔ _
    rw [decide_eq_false_iff_not, not_not]
    exact ⟨fun h => Kinds.ext h.symm rfl rfl, fun h => (congrArg Kinds.visible h).symm⟩
  | tool type _ _ _ =>
    cases type with
    | functionCall | webSearchCall => exact ⟨fun _ => rfl, fun _ => rfl⟩
    | customToolCall => exact ⟨nofun, fun h => (nomatch congrArg tool h)⟩
  | imageGenerationCall => exact ⟨nofun, fun h => (nomatch congrArg tool h)⟩

theorem text_only_responses (b : ResponsesBlock) (h : b.kind = .text ∨ b.kind = .reasoning) :
    b.streamed.tool = false ∧ b.streamed.media = false := by
  cases b with
  | message _ => exact ⟨rfl, rfl⟩
  | reasoning _ _ => exact ⟨rfl, rfl⟩
  | tool | imageGenerationCall => rcases h with h | h <;> cases h

theorem inspected_responses (h : ∀ b ∈ blocks, responses.exceptional b = false) :
    responses.inspectKinds blocks = sum (blocks.map ResponsesBlock.buffered) := by
  refine inspectKinds_responses (.inl fun b hb => ?_)
  rw [← (agree_responses b).1 (h b hb)]
  cases b <;> rfl

theorem single_responses (b : ResponsesBlock) : responses.inspectKinds [b] = b.buffered := by
  refine (@inspectKinds_responses [b] ?_).trans (sum_singleton _)
  cases b with
  | message _ => exact .inl (forall_mem_singleton.2 rfl)
  | reasoning _ _ | tool _ _ _ _ | imageGenerationCall =>
    exact .inr (forall_mem_singleton.2 rfl)

def responsesLawful : responses.Lawful where
  streamed := ResponsesBlock.streamed
  buffered := ResponsesBlock.buffered
  agree := agree_responses
  text_only := text_only_responses
  observed _ events h := (responses.observedKinds_eq events).trans (kinds_responsesSplits h)
  inspected _ h := inspected_responses h
  single := single_responses
  splits := splits_responses
  cut _ htext _ _ h := cut_responses htext h

end BeeApi.Quality
