import BeeApi.RelayConvert.ClaudeToChatResponse

/-!
# The two conversions of a Claude answer

The chunks of a stream carry every delta of every block.  The conversion of the whole message keeps
the last text, and the last thinking block or, when that is empty, the first block; so the two agree
exactly when nothing is lost by this.
-/

namespace BeeApi.RelayConvert

open List Option String StreamedBlock

variable {J : Type} {c : Codec J}

/-! ## The chunks of a block -/

theorem streamChunks_append {l l' : List (ClaudeResponse J)} {i i' i'' : Option ClaudeResponseInfo}
    {a b : List Chunk} (h : streamChunks l i = .ok (a, i')) (h' : streamChunks l' i' = .ok (b, i'')) :
    streamChunks (l ++ l') i = .ok (a ++ b, i'') := by
  induction l generalizing i a with
  | nil =>
    cases h
    exact h'
  | cons r l ih =>
    rw [streamChunks] at h
    rw [cons_append, streamChunks]
    cases hr : streamResponseClaude2OpenAIWithInfo r i with
    | error e =>
      rw [hr] at h
      cases h
    | ok first =>
      rw [hr] at h
      cases hl : streamChunks l first.2 with
      | error e =>
        have h : (streamChunks l first.2 >>= fun p => Except.ok (first.1.toList ++ p.1, p.2)) =
          .ok (a, i') := h
        rw [hl] at h
        cases h
      | ok rest =>
        have h : (streamChunks l first.2 >>= fun p => Except.ok (first.1.toList ++ p.1, p.2)) =
          .ok (a, i') := h
        rw [hl] at h
        cases h
        show (streamChunks (l ++ l') first.2 >>= fun p =>
          Except.ok (first.1.toList ++ p.1, p.2)) = _
        rw [ih hl, List.append_assoc]
        rfl

theorem streamChunks_singleton {r : ClaudeResponse J} {i i' : Option ClaudeResponseInfo}
    {chunk : Option Chunk} (h : streamResponseClaude2OpenAIWithInfo r i = .ok (chunk, i')) :
    streamChunks [r] i = .ok (chunk.toList, i') := by
  rw [streamChunks, h]
  show Except.ok _ = _
  rw [append_nil]

theorem streamChunks_map {α : Type} {f : α → ClaudeResponse J} {g : α → Chunk}
    {i : Option ClaudeResponseInfo} {l : List α}
    (h : ∀ x ∈ l, streamResponseClaude2OpenAIWithInfo (f x) i = .ok (some (g x), i)) :
    streamChunks (l.map f) i = .ok (l.map g, i) := by
  induction l with
  | nil => rfl
  | cons x l ih =>
    exact streamChunks_append (l := [f x]) (streamChunks_singleton (h x mem_cons_self))
      (ih fun y hy => h y (mem_cons_of_mem _ hy))

def deltaChunk (d : Delta) : Chunk := { choices := [{ delta := d }] }

namespace StreamedBlock

/-- The deltas of the chunks of a block, for a tool block with its index among the tool calls. -/
def chatDeltas (k : ℕ) : StreamedBlock c → List Delta
  | text start deltas _ => { content := start } :: deltas.map fun s => { content := some s }
  | thinking deltas => {} :: deltas.map fun d => { reasoningContent := some (d.getD "\n") }
  | toolUse id name _ deltas _ _ =>
    { toolCalls := [{ index := some k, id := id, name := name }] } ::
      deltas.map fun s => { toolCalls := [{ index := some k, arguments := s }] }

def nextIndex (k : ℕ) : StreamedBlock c → ℕ
  | toolUse .. => k + 1
  | _ => k

def record (i : ℕ) (info : ClaudeResponseInfo) : StreamedBlock c → ClaudeResponseInfo
  | toolUse .. =>
    { openAIToolCallIndexByBlock :=
        info.openAIToolCallIndexByBlock.put i info.nextOpenAIToolCallIndex
      nextOpenAIToolCallIndex := info.nextOpenAIToolCallIndex + 1 }
  | _ => info

theorem record_next (i : ℕ) (info : ClaudeResponseInfo) (b : StreamedBlock c) :
    (b.record i info).nextOpenAIToolCallIndex = b.nextIndex info.nextOpenAIToolCallIndex := by
  cases b <;> rfl

theorem streamChunks_events {i : ℕ} {info : ClaudeResponseInfo} (b : StreamedBlock c)
    (hfresh : info.openAIToolCallIndexByBlock.get? i = none) :
    streamChunks (b.events i) (some info) =
      .ok ((b.chatDeltas info.nextOpenAIToolCallIndex).map deltaChunk, some (b.record i info)) := by
  have hstop : ∀ info : Option ClaudeResponseInfo,
      streamChunks [{ type := "content_block_stop", index := some i : ClaudeResponse J }] info =
        .ok ([], info) := fun _ => rfl
  have hblock : ∀ (d : Delta) (ds : List Delta) (info' : ClaudeResponseInfo),
      streamResponseClaude2OpenAIWithInfo
          { type := "content_block_start", index := some i, contentBlock := some b.contentBlock }
          (some info) = .ok (some (deltaChunk d), some info') →
      streamChunks (b.blockDeltas.map fun d =>
          { type := "content_block_delta", index := some i, delta := some d }) (some info') =
        .ok (ds.map deltaChunk, some info') →
      streamChunks (b.events i) (some info) = .ok ((d :: ds).map deltaChunk, some info') := by
    intro d ds info' hstart hdeltas
    have hfirst := streamChunks_append (streamChunks_singleton hstart) hdeltas
    have hall := streamChunks_append hfirst (hstop (some info'))
    rwa [append_nil] at hall
  cases b with
  | text start deltas started =>
    refine hblock _ _ info rfl ?_
    rw [blockDeltas, List.map_map, List.map_map]
    exact streamChunks_map fun _ _ => rfl
  | thinking deltas =>
    refine hblock _ _ info rfl ?_
    rw [blockDeltas, List.map_map, List.map_map]
    refine streamChunks_map fun d _ => ?_
    cases d <;> rfl
  | toolUse id name start deltas input parsed =>
    let next : ClaudeResponseInfo :=
      { openAIToolCallIndexByBlock :=
          info.openAIToolCallIndexByBlock.put i info.nextOpenAIToolCallIndex
        nextOpenAIToolCallIndex := info.nextOpenAIToolCallIndex + 1 }
    have hindex : openAIToolCallIndex (some info) i = (info.nextOpenAIToolCallIndex, some next) := by
      unfold openAIToolCallIndex
      dsimp only
      rw [hfresh]
    have hagain : openAIToolCallIndex (some next) i = (info.nextOpenAIToolCallIndex, some next) := by
      have hget : next.openAIToolCallIndexByBlock.get? i = some info.nextOpenAIToolCallIndex := by
        rw [Table.get?_put, if_pos rfl]
      unfold openAIToolCallIndex
      dsimp only
      rw [hget]
    refine hblock _ _ next ?_ ?_
    · simp only [streamResponseClaude2OpenAIWithInfo, contentBlock, String.reduceEq, if_true,
        if_false, getD_some, hindex]
      rfl
    · rw [blockDeltas, List.map_map, List.map_map]
      refine streamChunks_map fun s _ => ?_
      simp only [Function.comp_apply, streamResponseClaude2OpenAIWithInfo, String.reduceEq, if_true,
        if_false, getD_some, hagain]
      rfl

end StreamedBlock

/-! ## What the chunks carry -/

theorem deltas_map_deltaChunk (l : List Delta) : deltas (l.map deltaChunk) = l := by
  induction l with
  | nil => rfl
  | cons d l ih =>
    rw [map_cons, deltas, flatMap_cons]
    exact congrArg (d :: ·) ih

namespace StreamedBlock

def text? : StreamedBlock c → Option String
  | text _ deltas _ => some (joined deltas)
  | _ => none

def thinking? : StreamedBlock c → Option (List (Option String))
  | thinking deltas => some deltas
  | _ => none

def call? (k : ℕ) : StreamedBlock c → Option ToolCallResponse
  | toolUse id name _ deltas _ _ =>
    some { index := some k, id := id, name := name, arguments := joined deltas }
  | _ => none

theorem content_chatDeltas (k : ℕ) (b : StreamedBlock c) :
    joined ((b.chatDeltas k).map (·.getContentString)) = b.text?.getD "" := by
  cases b with
  | text start deltas started =>
    rw [chatDeltas, List.map_cons, List.map_map, joined_cons]
    have hmap : deltas.map ((·.getContentString) ∘ fun s => ({ content := some s } : Delta)) = deltas :=
      map_id deltas
    rw [hmap]
    show start.getD "" ++ joined deltas = joined deltas
    rw [started, empty_append]
  | thinking | toolUse =>
    refine joined_eq_empty_iff.2 fun s hs => ?_
    simp only [chatDeltas, List.map_cons, List.map_map, List.mem_cons, List.mem_map] at hs
    rcases hs with rfl | ⟨d, -, rfl⟩ <;> rfl

theorem reasoning_chatDeltas (k : ℕ) (b : StreamedBlock c) :
    joined ((b.chatDeltas k).map (·.getReasoningContent)) =
      joined ((b.thinking?.getD []).map (·.getD "\n")) := by
  cases b with
  | text | toolUse =>
    refine joined_eq_empty_iff.2 fun s hs => ?_
    simp only [chatDeltas, List.map_cons, List.map_map, List.mem_cons, List.mem_map] at hs
    rcases hs with rfl | ⟨d, -, rfl⟩ <;> rfl
  | thinking deltas =>
    rw [chatDeltas, List.map_cons, List.map_map, joined_cons]
    exact String.empty_append

theorem assembleCalls_chatDeltas {k : ℕ} {before : List ToolCallResponse}
    (hbefore : ∀ call ∈ assembleCalls before, ∃ j < k, call.index = some j) (b : StreamedBlock c) :
    assembleCalls (before ++ (b.chatDeltas k).flatMap (·.toolCalls)) =
      assembleCalls before ++ (b.call? k).toList := by
  have hnone : ∀ ds : List Delta, (∀ d ∈ ds, d.toolCalls = []) →
      assembleCalls (before ++ ds.flatMap (·.toolCalls)) = assembleCalls before ++ [] := by
    intro ds hds
    rw [flatMap_eq_nil_iff.2 hds, append_nil, append_nil]
  cases b with
  | text | thinking =>
    refine hnone _ fun d hd => ?_
    simp only [chatDeltas, List.mem_cons, List.mem_map] at hd
    rcases hd with rfl | ⟨d, -, rfl⟩ <;> rfl
  | toolUse id name start deltas input parsed =>
    rw [chatDeltas, List.flatMap_cons, List.flatMap_map, List.singleton_append,
      assembleCalls_append_call]
    · -- the arguments of the deltas behind those of the start
      have hjoin : ∀ (call : ToolCallResponse),
          (deltas.flatMap fun s => [{ index := some k, arguments := s : ToolCallResponse }]).foldl
            ToolCallResponse.extend call =
            { call with arguments := call.arguments ++ joined deltas } := by
        clear parsed
        induction deltas with
        | nil =>
          intro call
          rw [joined_nil, append_empty]
          rfl
        | cons s deltas ih =>
          intro call
          rw [flatMap_cons, singleton_append, foldl_cons, ih, joined_cons, ← String.append_assoc]
          rfl
      rw [hjoin]
      rw [empty_append]
      rfl
    · intro call hcall hindex
      obtain ⟨j, hj, heq⟩ := hbefore call hcall
      rw [heq] at hindex
      exact absurd (some.inj hindex) hj.ne
    · intro f hf
      obtain ⟨s, -, hs⟩ := mem_flatMap.1 hf
      rw [mem_singleton.1 hs]

end StreamedBlock

/-! ## The chunks of a stream -/

namespace ClaudeStream

/-- The deltas of the blocks, the first tool block having the index `k`. -/
def deltasFrom : ℕ → List (StreamedBlock c) → List Delta
  | _, [] => []
  | k, b :: blocks => b.chatDeltas k ++ deltasFrom (b.nextIndex k) blocks

def callsFrom : ℕ → List (StreamedBlock c) → List ToolCallResponse
  | _, [] => []
  | k, b :: blocks => (b.call? k).toList ++ callsFrom (b.nextIndex k) blocks

theorem streamChunks_eventsFrom {i : ℕ} {info : ClaudeResponseInfo} (blocks : List (StreamedBlock c))
    (hfresh : ∀ j, i ≤ j → info.openAIToolCallIndexByBlock.get? j = none) :
    ∃ info', streamChunks (eventsFrom i blocks) (some info) =
      .ok ((deltasFrom info.nextOpenAIToolCallIndex blocks).map deltaChunk, some info') := by
  induction blocks generalizing i info with
  | nil => exact ⟨info, rfl⟩
  | cons b blocks ih =>
    have hone := b.streamChunks_events (hfresh i (Nat.le_refl i))
    have hrest : ∀ j, i + 1 ≤ j → (b.record i info).openAIToolCallIndexByBlock.get? j = none := by
      intro j hj
      have hold := hfresh j (by omega)
      cases b with
      | text => exact hold
      | thinking => exact hold
      | toolUse =>
        show (info.openAIToolCallIndexByBlock.put i _).get? j = none
        rw [Table.get?_put, if_neg (by omega)]
        exact hold
    obtain ⟨info', hinfo⟩ := ih hrest
    rw [b.record_next] at hinfo
    refine ⟨info', ?_⟩
    have hall := streamChunks_append hone hinfo
    rwa [← map_append] at hall

theorem content_deltasFrom (k : ℕ) (blocks : List (StreamedBlock c)) :
    joined ((deltasFrom k blocks).map (·.getContentString)) =
      joined (blocks.filterMap text?) := by
  induction blocks generalizing k with
  | nil => rfl
  | cons b blocks ih =>
    rw [deltasFrom, map_append, joined_append, b.content_chatDeltas, ih, filterMap_cons]
    cases b.text? with
    | none => exact empty_append
    | some s => exact (joined_cons s _).symm

theorem reasoning_deltasFrom (k : ℕ) (blocks : List (StreamedBlock c)) :
    joined ((deltasFrom k blocks).map (·.getReasoningContent)) =
      joined ((blocks.filterMap thinking?).flatten.map (·.getD "\n")) := by
  induction blocks generalizing k with
  | nil => rfl
  | cons b blocks ih =>
    rw [deltasFrom, map_append, joined_append, b.reasoning_chatDeltas, ih, filterMap_cons]
    cases b.thinking? with
    | none => exact empty_append
    | some ds =>
      rw [getD_some, ← joined_append, flatten_cons, map_append]

theorem calls_deltasFrom {k : ℕ} {before : List ToolCallResponse}
    (hbefore : ∀ call ∈ assembleCalls before, ∃ j < k, call.index = some j)
    (blocks : List (StreamedBlock c)) :
    assembleCalls (before ++ (deltasFrom k blocks).flatMap (·.toolCalls)) =
      assembleCalls before ++ callsFrom k blocks := by
  induction blocks generalizing k before with
  | nil =>
    show assembleCalls (before ++ []) = _
    rw [append_nil]
    exact (append_nil _).symm
  | cons b blocks ih =>
    have hone := b.assembleCalls_chatDeltas hbefore
    rw [deltasFrom, List.flatMap_append, ← List.append_assoc, ih, hone, callsFrom,
      List.append_assoc]
    rw [hone]
    intro call hcall
    rcases mem_append.1 hcall with hcall | hcall
    · obtain ⟨j, hj, heq⟩ := hbefore call hcall
      refine ⟨j, Nat.lt_of_lt_of_le hj ?_, heq⟩
      cases b with
      | text => exact Nat.le_refl k
      | thinking => exact Nat.le_refl k
      | toolUse => exact Nat.le_succ k
    · cases b with
      | text | thinking => exact (nomatch hcall)
      | toolUse =>
        obtain rfl := mem_singleton.1 hcall
        exact ⟨k, Nat.lt_succ_self k, rfl⟩

end ClaudeStream

/-! ## The whole message -/

namespace StreamedBlock

def thinkingText? (b : StreamedBlock c) : Option String :=
  b.thinking?.map fun deltas => joined deltas.reduceOption

/-- The tool call of a block in the answer to the whole message. -/
def plainCall? : StreamedBlock c → Option ToolCallResponse
  | toolUse id name _ _ input _ => some { id := id, name := name, arguments := c.marshal input }
  | _ => none

end StreamedBlock

namespace ClaudeStream

def texts (s : ClaudeStream c) : List String := s.blocks.filterMap text?

def thinkings (s : ClaudeStream c) : List String := s.blocks.filterMap thinkingText?

def firstThinking (s : ClaudeStream c) : String :=
  (s.blocks.head?.bind thinkingText?).getD ""

end ClaudeStream

theorem getLast?_cons_getD {α : Type} (a : α) (l : List α) (d : α) :
    (a :: l).getLast?.getD d = l.getLast?.getD a := by
  rw [getLast?_cons, getD_some]

theorem foldl_convertContent (blocks : List (StreamedBlock c)) (st : ContentLoop) :
    (blocks.map assembled).foldl (convertContent c) st =
      { responseText := (blocks.filterMap text?).getLast?.getD st.responseText
        thinkingContent :=
          (blocks.filterMap thinkingText?).getLast?.getD st.thinkingContent
        tools := st.tools ++ blocks.filterMap plainCall? } := by
  induction blocks generalizing st with
  | nil =>
    show st = { st with tools := st.tools ++ [] }
    rw [append_nil]
  | cons b blocks ih =>
    rw [map_cons, foldl_cons, ih, filterMap_cons, filterMap_cons, filterMap_cons]
    cases b with
    | text start deltas started =>
      exact congr (congr (congrArg ContentLoop.mk (getLast?_cons_getD _ _ _).symm) rfl) rfl
    | thinking deltas =>
      exact congr (congr (congrArg ContentLoop.mk rfl) (getLast?_cons_getD _ _ _).symm) rfl
    | toolUse id name start deltas input parsed =>
      exact congr (congr (congrArg ContentLoop.mk rfl) rfl) (append_assoc _ [_] _)

theorem responseClaude2OpenAI_message (s : ClaudeStream c) :
    (responseClaude2OpenAI c s.message).content = s.texts.getLast?.getD "" ∧
      (responseClaude2OpenAI c s.message).reasoningContent.getD "" =
        (if s.thinkings.getLast?.getD "" ≠ "" then s.thinkings.getLast?.getD ""
          else s.firstThinking) ∧
      (responseClaude2OpenAI c s.message).toolCalls = s.blocks.filterMap plainCall? ∧
      (responseClaude2OpenAI c s.message).finishReason =
        claudeStopReasonToOpenAIFinishReason s.stopReason := by
  have hloop := foldl_convertContent s.blocks
    { responseText := ((s.message.content.head?).map (·.getText)).getD "" }
  have hcontent : s.message.content = s.blocks.map assembled := rfl
  unfold responseClaude2OpenAI
  dsimp only
  rw [hcontent] at hloop ⊢
  rw [hloop]
  refine ⟨?_, ?_, nil_append _, rfl⟩
  · -- a first block that is no text has none
    unfold ClaudeStream.texts
    cases hblocks : s.blocks with
    | nil => rfl
    | cons b blocks =>
      rw [filterMap_cons]
      cases b with
      | text start deltas started =>
        exact (getLast?_cons_getD _ _ (joined deltas)).trans (getLast?_cons_getD _ _ _).symm
      | thinking deltas => rfl
      | toolUse id name start deltas input parsed => rfl
  · have hfirst : ((s.blocks.map assembled).head?.bind (·.thinking)).getD "" =
        s.firstThinking := by
      unfold ClaudeStream.firstThinking
      cases hblocks : s.blocks with
      | nil => rfl
      | cons b blocks => cases b <;> rfl
    rw [hfirst]
    unfold ClaudeStream.thinkings
    split_ifs with hlast hone
    · rfl
    · rfl
    · exact (not_not.1 hone).symm

/-! ## What is lost -/

theorem joined_eq_getLast_iff {l : List String} :
    joined l = l.getLast?.getD "" ↔ ∀ s ∈ l.dropLast, s = "" := by
  rcases l.eq_nil_or_concat with rfl | ⟨rest, last, rfl⟩
  · exact ⟨nofun, fun _ => rfl⟩
  · rw [concat_eq_append, joined_append, joined_singleton, getLast?_concat,
      dropLast_concat, ← joined_eq_empty_iff, getD_some]
    constructor
    · intro h
      have hlength := congrArg (fun s : String => s.toList.length) h
      simp only [String.toList_append, List.length_append] at hlength
      apply toList_injective
      exact List.length_eq_zero_iff.1 (by omega)
    · intro h
      rw [h, empty_append]

theorem joined_eq_head_iff {l : List String} :
    joined l = l.head?.getD "" ↔ ∀ s ∈ l.tail, s = "" := by
  cases l with
  | nil => exact ⟨nofun, fun _ => rfl⟩
  | cons s l =>
    rw [joined_cons, head?_cons, getD_some, tail_cons, ← joined_eq_empty_iff]
    constructor
    · intro h
      have hlength := congrArg (fun s : String => s.toList.length) h
      simp only [String.toList_append, List.length_append] at hlength
      apply toList_injective
      exact List.length_eq_zero_iff.1 (by omega)
    · intro h
      rw [h, append_empty]

namespace ClaudeStream

variable (s : ClaudeStream c)

def KeepsThinking : Prop :=
  (∀ t ∈ s.thinkings.dropLast, t = "") ∨
    (s.blocks.head?.bind thinkingText?).isSome ∧ ∀ t ∈ s.thinkings.tail, t = ""

/-- The thinking that the answer to the whole message has. -/
def plainThinking : String :=
  if s.thinkings.getLast?.getD "" ≠ "" then s.thinkings.getLast?.getD "" else s.firstThinking

theorem firstThinking_of_isSome (h : (s.blocks.head?.bind thinkingText?).isSome) :
    s.firstThinking = s.thinkings.head?.getD "" := by
  unfold firstThinking thinkings
  cases hblocks : s.blocks with
  | nil => rfl
  | cons b blocks =>
    rw [hblocks] at h
    have h : b.thinkingText?.isSome := h
    obtain ⟨t, ht⟩ := isSome_iff_exists.1 h
    rw [filterMap_cons, ht]
    exact congrArg (Option.getD · "") ht

theorem joined_thinkings_of_keeps (h : s.KeepsThinking) : joined s.thinkings = s.plainThinking := by
  unfold plainThinking
  by_cases hlast : s.thinkings.getLast?.getD "" = ""
  · rw [if_neg (not_not.2 hlast)]
    rcases h with h | ⟨hfirst, htail⟩
    · -- then nothing was thought at all
      have hall : joined s.thinkings = "" := (joined_eq_getLast_iff.2 h).trans hlast
      rw [hall]
      unfold firstThinking
      cases hblocks : s.blocks with
      | nil => rfl
      | cons b blocks =>
        have hempty := joined_eq_empty_iff.1 hall
        cases ht : b.thinkingText? with
        | none => exact (congrArg (Option.getD · "") ht).symm
        | some t =>
          have hmem : t ∈ s.thinkings := mem_filterMap.2 ⟨b, hblocks ▸ mem_cons_self, ht⟩
          exact ((congrArg (Option.getD · "") ht).trans (hempty t hmem)).symm
    · rw [s.firstThinking_of_isSome hfirst]
      exact joined_eq_head_iff.2 htail
  · rw [if_pos hlast]
    refine joined_eq_getLast_iff.2 ?_
    rcases h with h | ⟨-, htail⟩
    · exact h
    · -- the last one is not empty, so it is the first one
      intro t ht
      cases hthinkings : s.thinkings with
      | nil =>
        rw [hthinkings] at ht
        exact (nomatch ht)
      | cons first rest =>
        rw [hthinkings] at ht hlast htail
        rcases rest.eq_nil_or_concat with rfl | ⟨rest, last, rfl⟩
        · exact (nomatch ht)
        · rw [concat_eq_append, ← cons_append, getLast?_concat] at hlast
          exact absurd (htail last (by simp)) hlast

theorem keeps_of_joined_thinkings (h : joined s.thinkings = s.plainThinking) : s.KeepsThinking := by
  unfold plainThinking at h
  split_ifs at h with hlast
  · exact .inl (joined_eq_getLast_iff.1 h)
  · cases hfirst : s.blocks.head?.bind thinkingText? with
    | none =>
      have hnothing : s.firstThinking = "" := by rw [firstThinking, hfirst, getD_none]
      have hall := joined_eq_empty_iff.1 (h.trans hnothing)
      exact .inl fun t ht => hall t (dropLast_subset _ ht)
    | some t =>
      have hsome : (s.blocks.head?.bind thinkingText?).isSome := by rw [hfirst]; rfl
      rw [s.firstThinking_of_isSome hsome] at h
      exact .inr ⟨hsome, joined_eq_head_iff.1 h⟩

/-- What the whole message has of the thinking is a piece of all of it. -/
theorem joined_thinkings_of_length
    (h : (joined s.thinkings).toList.length = s.plainThinking.toList.length) :
    joined s.thinkings = s.plainThinking := by
  have hsub : s.plainThinking.toList.Sublist (joined s.thinkings).toList := by
    have hpiece : ∀ t : Option String, (∀ x ∈ t, x ∈ s.thinkings) →
        (t.getD "").toList.Sublist (joined s.thinkings).toList := by
      intro t ht
      cases t with
      | none => exact nil_sublist _
      | some x =>
        rw [toList_joined]
        exact sublist_flatten_of_mem (mem_map_of_mem (ht x rfl))
    unfold plainThinking
    split_ifs
    · exact hpiece _ fun x hx => mem_of_getLast? hx
    · refine hpiece _ fun x hx => ?_
      obtain ⟨b, hb, hx⟩ := bind_eq_some_iff.1 hx
      exact mem_filterMap.2 ⟨b, mem_of_head? hb, hx⟩
  exact (toList_injective (hsub.eq_of_length h.symm)).symm

/-- Nothing of the stream is lost in the answer to the whole message, and the stop reason is not the
one that the stream leaves out. -/
def LosesNothing : Prop :=
  (∀ t ∈ s.texts.dropLast, t = "") ∧ s.KeepsThinking ∧ s.stopReason ≠ "null"

def signatures : ℕ := (s.blocks.filterMap thinking?).flatten.count none

def streamedFinishReason : Option String :=
  if claudeStopReasonToOpenAIFinishReason s.stopReason ≠ "null" then
    some (claudeStopReasonToOpenAIFinishReason s.stopReason)
  else none

def chunks : List Chunk :=
  { id := s.id
    model := s.model
    choices := [{ delta := { content := some "", role := "assistant" } }] } ::
    ((deltasFrom 0 s.blocks).map deltaChunk ++
      [{ choices := [{ finishReason := s.streamedFinishReason }] }])

theorem streamChunks_events : ∃ info, streamChunks s.events (some {}) = .ok (s.chunks, info) := by
  obtain ⟨info, hblocks⟩ := @streamChunks_eventsFrom _ _ 0 {} s.blocks fun _ _ => rfl
  have hend : streamChunks
      [{ type := "message_delta", delta := some { type := "", stopReason := some s.stopReason } },
       { type := "message_stop" : ClaudeResponse J }] (some info) =
      .ok ([{ choices := [{ finishReason := s.streamedFinishReason }] }], some info) := rfl
  have hstart : streamChunks
      [{ type := "message_start", message := some { id := s.id, model := s.model } :
        ClaudeResponse J }] (some {}) =
      .ok ([{ id := s.id
              model := s.model
              choices := [{ delta := { content := some "", role := "assistant" } }] }], some {}) := rfl
  exact ⟨some info, streamChunks_append hstart (streamChunks_append hblocks hend)⟩

theorem deltas_chunks : deltas s.chunks = { content := some "", role := "assistant" } ::
      (deltasFrom 0 s.blocks ++ [({ } : Delta)]) := by
  have hmiddle := deltas_map_deltaChunk (deltasFrom 0 s.blocks)
  unfold chunks
  rw [← singleton_append, deltas_append, deltas_append, hmiddle]
  rfl

theorem contentOf_chunks : contentOf s.chunks = joined s.texts := by
  rw [contentOf, deltas_chunks, map_cons, map_append, joined_cons, joined_append,
    content_deltasFrom]
  show "" ++ (joined s.texts ++ "") = _
  rw [empty_append, append_empty]

theorem reasoningOf_chunks : reasoningOf s.chunks =
    joined ((s.blocks.filterMap thinking?).flatten.map (·.getD "\n")) := by
  rw [reasoningOf, deltas_chunks, map_cons, map_append, joined_cons, joined_append,
    reasoning_deltasFrom]
  show "" ++ (_ ++ "") = _
  rw [empty_append, append_empty]

theorem toolCallsOf_chunks : toolCallsOf s.chunks = callsFrom 0 s.blocks := by
  have hcalls := @calls_deltasFrom _ c 0 [] nofun s.blocks
  rw [toolCallsOf, fragmentsOf, deltas_chunks, flatMap_cons, flatMap_append]
  show assembleCalls ([] ++ ((deltasFrom 0 s.blocks).flatMap (·.toolCalls) ++ [])) = _
  rw [append_nil, hcalls]
  rfl

theorem finishReasonOf_chunks : finishReasonOf s.chunks = s.streamedFinishReason := by
  have hmiddle : ∀ l : List Delta, (l.map deltaChunk).flatMap
      (fun chunk => chunk.choices.filterMap (·.finishReason)) = [] := by
    intro l
    refine flatMap_eq_nil_iff.2 fun chunk hchunk => ?_
    obtain ⟨d, -, rfl⟩ := mem_map.1 hchunk
    rfl
  rw [finishReasonOf, chunks, flatMap_cons, flatMap_append, hmiddle]
  cases s.streamedFinishReason <;> rfl

theorem callsFrom_spec (k : ℕ) (blocks : List (StreamedBlock c)) :
    List.Forall₂ (SameToolCall c) (callsFrom k blocks)
        (blocks.filterMap plainCall?) ∧
      (callsFrom k blocks).map (·.index) =
        (List.range' k (blocks.filterMap plainCall?).length).map some := by
  induction blocks generalizing k with
  | nil => exact ⟨.nil, rfl⟩
  | cons b blocks ih =>
    cases b with
    | text start deltas started => exact ih k
    | thinking deltas => exact ih k
    | toolUse id name start deltas input parsed =>
      obtain ⟨hcalls, hindices⟩ := ih (k + 1)
      refine ⟨.cons ⟨rfl, rfl, input, parsed, c.unmarshal_marshal input⟩ hcalls, ?_⟩
      show some k :: (callsFrom (k + 1) blocks).map (·.index) = _
      rw [hindices]
      rfl

/-- The line breaks of the signatures are all that the stream adds to the thinking. -/
theorem insertsBreaks_pieces (pieces : List (Option String)) :
    InsertsBreaks (pieces.count none) (joined (pieces.map (·.getD "\n")))
      (joined pieces.reduceOption) := by
  induction pieces with
  | nil => exact ⟨List.Sublist.refl _, rfl, rfl⟩
  | cons piece pieces ih =>
    rw [map_cons, joined_cons]
    cases piece with
    | none =>
      rw [reduceOption_cons_of_none, count_cons_self]
      refine ⟨?_, ?_, ?_⟩
      · rw [toList_append]
        exact ih.sublist.trans (sublist_append_right _ _)
      · rw [toList_append, filter_append, ih.others]
        rfl
      · rw [String.toList_append, List.length_append, ih.length]
        show 1 + _ = _
        omega
    | some t =>
      rw [reduceOption_cons_of_some, joined_cons, count_cons_of_ne (some_ne_none t)]
      refine ⟨?_, ?_, ?_⟩
      · rw [toList_append, toList_append]
        exact List.Sublist.append (List.Sublist.refl _) ih.sublist
      · rw [toList_append, toList_append, filter_append, filter_append, ih.others]
        rfl
      · rw [String.toList_append, String.toList_append, List.length_append, List.length_append,
          ih.length]
        show t.toList.length + _ = _
        omega

theorem joined_thinkings :
    joined s.thinkings =
      joined (s.blocks.filterMap thinking?).flatten.reduceOption := by
  unfold thinkings
  induction s.blocks with
  | nil => rfl
  | cons b blocks ih =>
    cases b with
    | text start deltas started => exact ih
    | thinking deltas =>
      show joined (joined deltas.reduceOption :: _) = joined (deltas ++ _).reduceOption
      rw [joined_cons, ih, reduceOption_append, joined_append]
    | toolUse id name start deltas input parsed => exact ih

end ClaudeStream

theorem finishReason_eq_null_iff (stopReason : String) :
    claudeStopReasonToOpenAIFinishReason stopReason = "null" ↔ stopReason = "null" := by
  unfold claudeStopReasonToOpenAIFinishReason
  split_ifs with h h h h h
  all_goals first
    | exact Iff.rfl
    | refine ⟨fun heq => absurd heq (by decide), fun heq => ?_⟩
      rw [heq] at h
      exact absurd h (by decide)

/-- **The two conversions of a Claude answer agree** exactly when every text but the last is empty, every
thinking block but the last (or the first block) is empty, and the stop reason is not `null`. -/
theorem claude_answers_agree_iff (s : ClaudeStream c) :
    (∃ chunks info, streamChunks s.events (some {}) = .ok (chunks, info) ∧
        SameAnswer c s.signatures chunks (responseClaude2OpenAI c s.message)) ↔
      s.LosesNothing := by
  obtain ⟨info, hrun⟩ := s.streamChunks_events
  obtain ⟨hcontent, hreasoning, htools, hfinish⟩ := responseClaude2OpenAI_message s
  have hbreaks := ClaudeStream.insertsBreaks_pieces
    (s.blocks.filterMap thinking?).flatten
  rw [← s.reasoningOf_chunks, ← s.joined_thinkings] at hbreaks
  have hreasoning : (responseClaude2OpenAI c s.message).reasoningContent.getD "" =
      s.plainThinking := hreasoning
  constructor
  · rintro ⟨chunks, info', hrun', hsame⟩
    obtain ⟨rfl, -⟩ := Prod.mk.inj (Except.ok.inj (hrun.symm.trans hrun'))
    refine ⟨?_, ?_, ?_⟩
    · refine joined_eq_getLast_iff.1 ?_
      rw [← s.contentOf_chunks, ← hcontent]
      exact hsame.content
    · refine s.keeps_of_joined_thinkings (s.joined_thinkings_of_length ?_)
      have hlength := hsame.reasoning.length
      rw [hreasoning] at hlength
      exact Nat.add_right_cancel (hbreaks.length.symm.trans hlength)
    · intro hnull
      have hreason := hsame.finishReason
      rw [s.finishReasonOf_chunks, ClaudeStream.streamedFinishReason,
        if_neg (not_not.2 ((finishReason_eq_null_iff _).2 hnull))] at hreason
      exact (nomatch hreason)
  · rintro ⟨htexts, hthinking, hnull⟩
    refine ⟨s.chunks, info, hrun, ?_, ?_, ?_, ?_, ?_⟩
    · rw [s.contentOf_chunks, hcontent]
      exact joined_eq_getLast_iff.2 htexts
    · rw [hreasoning, ← s.joined_thinkings_of_keeps hthinking]
      exact hbreaks
    · rw [s.toolCallsOf_chunks, htools]
      exact (ClaudeStream.callsFrom_spec 0 s.blocks).1
    · rw [s.toolCallsOf_chunks, htools, range_eq_range']
      exact (ClaudeStream.callsFrom_spec 0 s.blocks).2
    · rw [s.finishReasonOf_chunks, ClaudeStream.streamedFinishReason,
        if_pos fun h => hnull ((finishReason_eq_null_iff _).1 h), hfinish]

/-- JSON, as far as `null` goes. -/
def nullCodec : Codec Unit where
  marshal := fun _ => "null"
  unmarshal := fun s => if s = "null" then some () else none
  unmarshal_marshal := fun _ => rfl

/-- Of two texts around a tool call the answer to the whole message has one. -/
theorem first_text_lost :
    ¬ ∀ s : ClaudeStream nullCodec, ∃ chunks info,
      streamChunks s.events (some {}) = .ok (chunks, info) ∧
        SameAnswer nullCodec s.signatures chunks (responseClaude2OpenAI nullCodec s.message) := by
  intro h
  let s : ClaudeStream nullCodec :=
    { id := "m"
      model := "claude"
      blocks :=
        [.text (some "") ["a"] rfl, .toolUse "x" "f" none ["null"] () rfl, .text (some "") ["b"] rfl]
      stopReason := "end_turn" }
  obtain ⟨chunks, info, hrun, hsame⟩ := h s
  have hexplicit : streamChunks s.events (some {}) = .ok (s.chunks, some
      { openAIToolCallIndexByBlock := (∅ : Table ℕ ℕ).put 1 0, nextOpenAIToolCallIndex := 1 }) := rfl
  obtain ⟨rfl, -⟩ := Prod.mk.inj (Except.ok.inj (hexplicit.symm.trans hrun))
  exact absurd hsame.content (by decide +kernel)

end BeeApi.RelayConvert
