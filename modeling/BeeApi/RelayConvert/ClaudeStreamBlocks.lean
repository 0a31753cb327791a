import BeeApi.RelayConvert.ChatToClaudeStream

/-!
# The blocks of a converted stream

The record of a stream tells which blocks are open, and every branch of the conversion keeps it so.  The
tool calls stand in one row of blocks as long as no text comes between them; so nothing is lost when a
chunk holds one kind of delta, the tool calls are not interrupted, and the chunk with the finish reason
adds nothing unless it has the usage.
-/

namespace BeeApi.RelayConvert

open List Option String Blocks

/-! ## Events of blocks -/

/-- The events are those of a stream of blocks between two states. -/
def Produces (s s' : Blocks.State BlockKind) (events : List ClaudeEvent) : Prop :=
  ∃ bs, events.map blockEvent? = bs.map some ∧ run? s bs = some s'

section Produces

variable {s s' s'' : Blocks.State BlockKind} {a b : List ClaudeEvent}

theorem Produces.nil (s : Blocks.State BlockKind) : Produces s s [] := ⟨[], rfl, rfl⟩

theorem Produces.append (ha : Produces s s' a) (hb : Produces s' s'' b) : Produces s s'' (a ++ b) := by
  obtain ⟨as, hmapa, hruna⟩ := ha
  obtain ⟨bs, hmapb, hrunb⟩ := hb
  exact ⟨as ++ bs, by rw [map_append, map_append, hmapa, hmapb], run?_append hruna hrunb⟩

theorem Produces.singleton {e : ClaudeEvent} {b : Blocks.Event BlockKind}
    (he : blockEvent? e = some b) (hb : run? s [b] = some s') : Produces s s' [e] :=
  ⟨[b], congrArg (fun x => [x]) he, hb⟩

end Produces

structure Silent (events : List ClaudeEvent) : Prop where
  text : claudeText events = ""
  thinking : claudeThinking events = ""
  tools : events.filterMap eventFragment? = []

theorem claudeText_append (a b : List ClaudeEvent) :
    claudeText (a ++ b) = claudeText a ++ claudeText b := by
  rw [claudeText, map_append, joined_append]
  rfl

theorem claudeThinking_append (a b : List ClaudeEvent) :
    claudeThinking (a ++ b) = claudeThinking a ++ claudeThinking b := by
  rw [claudeThinking, map_append, joined_append]
  rfl

theorem silent_nil : Silent [] := ⟨rfl, rfl, rfl⟩

theorem Silent.append {a b : List ClaudeEvent} (ha : Silent a) (hb : Silent b) : Silent (a ++ b) := by
  refine ⟨?_, ?_, ?_⟩
  · rw [claudeText_append, ha.text, hb.text]
    rfl
  · rw [claudeThinking_append, ha.thinking, hb.thinking]
    rfl
  · rw [filterMap_append, ha.tools, hb.tools]
    rfl

theorem silent_stops (l : List ℕ) : Silent (l.map generateStopBlock) := by
  induction l with
  | nil => exact silent_nil
  | cons i l ih =>
    have hone : Silent [generateStopBlock i] := ⟨rfl, rfl, rfl⟩
    exact hone.append ih

/-! ## The blocks of a record -/

/-- A row of tool blocks that begins at `base`. -/
def toolBlocks (base n : ℕ) : Blocks.State BlockKind where
  next := base + n
  opened := (List.range n).map fun offset => (base + offset, .toolUse)

def openBlocks (info : ClaudeConvertInfo) : Blocks.State BlockKind :=
  match info.lastMessagesType with
  | .none => { next := info.index }
  | .text => { next := info.index + 1, opened := [(info.index, .text)] }
  | .thinking => { next := info.index + 1, opened := [(info.index, .thinking)] }
  | .tools => toolBlocks info.toolCallBaseIndex (info.toolCallMaxIndexOffset + 1)

theorem nodup_toolBlocks (base n : ℕ) : ((toolBlocks base n).opened.map Prod.fst).Nodup := by
  unfold toolBlocks
  rw [List.map_map]
  exact List.nodup_range.map fun a b h => Nat.add_left_cancel h

theorem openBlocks_advance (info : ClaudeConvertInfo) :
    openBlocks (advance info) = { next := (openBlocks info).next } := by
  unfold advance openBlocks
  cases h : info.lastMessagesType with
  | none =>
    rw [h]
  | text => rfl
  | tools => rfl
  | thinking => rfl

theorem produces_stopOpenBlocks (info : ClaudeConvertInfo) :
    Produces (openBlocks info) (openBlocks (advance info)) (stopOpenBlocks info) ∧
      Silent (stopOpenBlocks info) := by
  have hstops : ∀ opened : List (ℕ × BlockKind), (opened.map Prod.fst).Nodup → ∀ n,
      Produces ⟨n, opened⟩ { next := n } ((opened.map Prod.fst).map generateStopBlock) := by
    intro opened hnodup n
    refine ⟨opened.map fun e => .stop e.1, ?_, run?_stops hnodup⟩
    rw [List.map_map, List.map_map, List.map_map]
    rfl
  rw [openBlocks_advance]
  unfold openBlocks stopOpenBlocks
  cases info.lastMessagesType with
  | none => exact ⟨Produces.nil _, silent_nil⟩
  | text => exact ⟨hstops [(info.index, .text)] (nodup_singleton _) _, silent_stops [info.index]⟩
  | thinking =>
    exact ⟨hstops [(info.index, .thinking)] (nodup_singleton _) _, silent_stops [info.index]⟩
  | tools =>
    have hall := hstops _ (nodup_toolBlocks info.toolCallBaseIndex (info.toolCallMaxIndexOffset + 1))
      (info.toolCallBaseIndex + (info.toolCallMaxIndexOffset + 1))
    have hmap : ((toolBlocks info.toolCallBaseIndex (info.toolCallMaxIndexOffset + 1)).opened.map
        Prod.fst).map generateStopBlock =
        (List.range (info.toolCallMaxIndexOffset + 1)).map fun offset =>
          generateStopBlock (info.toolCallBaseIndex + offset) := by
      unfold toolBlocks
      rw [List.map_map, List.map_map]
      rfl
    rw [hmap] at hall
    refine ⟨hall, ?_⟩
    rw [← hmap]
    exact silent_stops _

/-! ## A text or reasoning -/

/-- The record, as far as the end of the stream needs it. -/
structure SameEnd (info info' : ClaudeConvertInfo) : Prop where
  usage : info'.usage = info.usage
  done : info'.done = info.done

theorem sameEnd_advance (info : ClaudeConvertInfo) : SameEnd info (advance info) := by
  unfold advance
  cases info.lastMessagesType <;> exact ⟨rfl, rfl⟩

theorem advance_lastMessagesType (info : ClaudeConvertInfo) :
    (advance info).lastMessagesType = .none := by
  unfold advance
  cases h : info.lastMessagesType with
  | none => exact h
  | text => rfl
  | tools => rfl
  | thinking => rfl

variable {info : ClaudeConvertInfo} {d : Delta} {n i base : ℕ} {calls : List ToolCallResponse}
  {f : ToolCallResponse} {rest sent : List Delta} {events : List ClaudeEvent} {chunk : Chunk}
  {choice : Choice}

theorem produces_startBlock {start delta : ClaudeEvent} {k : BlockKind}
    (hstart : blockEvent? start = some (.start (advance info).index k))
    (hdelta : blockEvent? delta = some (.delta (advance info).index k)) :
    Produces (openBlocks info)
      { next := (advance info).index + 1, opened := [((advance info).index, k)] }
      (stopOpenBlocks info ++ [start] ++ [delta]) := by
  have hstops := (produces_stopOpenBlocks info).1
  have hnone : openBlocks (advance info) = { next := (advance info).index } := by
    rw [openBlocks, advance_lastMessagesType]
  rw [hnone] at hstops
  exact (hstops.append (.singleton hstart (run?_start _ [] k))).append
    (.singleton hdelta (run?_delta mem_cons_self))

/-- What a text or reasoning adds to the stream. -/
structure SendsContent (info : ClaudeConvertInfo) (d : Delta) (events : List ClaudeEvent)
    (info' : ClaudeConvertInfo) : Prop where
  blocks : Produces (openBlocks info) (openBlocks info') events
  text : claudeText events = d.getContentString
  thinking : claudeThinking events = d.getReasoningContent
  tools : events.filterMap eventFragment? = []
  type : HasContent d → info'.lastMessagesType ≠ .tools
  same : SameEnd info info'
  nothing : ¬ HasContent d → info' = info

theorem convertContentDelta_spec (info : ClaudeConvertInfo)
    (hone : d.getReasoningContent = "" ∨ d.getContentString = "") :
    SendsContent info d (convertContentDelta info d).1 (convertContentDelta info d).2 := by
  have hadvance := sameEnd_advance info
  obtain ⟨-, hsilent⟩ := produces_stopOpenBlocks info
  unfold convertContentDelta
  split_ifs with hreasoning htype hcontent htype
  · -- the thinking goes on, or it is a new block
    have hcontent := hone.resolve_left hreasoning
    have hstarted : Silent (stopOpenBlocks info ++ [startThinking (advance info).index]) :=
      hsilent.append ⟨rfl, rfl, rfl⟩
    refine ⟨produces_startBlock rfl rfl, ?_, ?_, ?_, nofun, ⟨hadvance.1, hadvance.2⟩,
      fun h => absurd (.inl hreasoning) h⟩
    · rw [claudeText_append]
      refine (congrArg (· ++ _) hstarted.text).trans ?_
      rw [hcontent]
      rfl
    · rw [claudeThinking_append]
      refine (congrArg (· ++ _) hstarted.thinking).trans ?_
      show "" ++ joined ["" ++ d.getReasoningContent] = _
      rw [joined_singleton, empty_append, empty_append]
    · rw [filterMap_append]
      exact congrArg (· ++ _) hstarted.tools
  · have hcontent := hone.resolve_left hreasoning
    have htype := not_not.1 htype
    refine ⟨?_, ?_, ?_, rfl, nofun, ⟨rfl, rfl⟩, fun h => absurd (.inl hreasoning) h⟩
    · have hopen : openBlocks info =
          { next := info.index + 1, opened := [(info.index, .thinking)] } := by
        rw [openBlocks, htype]
      rw [hopen]
      exact .singleton rfl (run?_delta mem_cons_self)
    · rw [hcontent]
      rfl
    · show joined ["" ++ d.getReasoningContent] = _
      rw [joined_singleton, empty_append]
  · have hreasoning := not_not.1 hreasoning
    have hstarted : Silent (stopOpenBlocks info ++ [startText (advance info).index]) :=
      hsilent.append ⟨rfl, rfl, rfl⟩
    refine ⟨produces_startBlock rfl rfl, ?_, ?_, ?_, nofun, ⟨hadvance.1, hadvance.2⟩,
      fun h => absurd (.inr hcontent) h⟩
    · rw [claudeText_append]
      refine (congrArg (· ++ _) hstarted.text).trans ?_
      show "" ++ joined ["" ++ d.getContentString] = _
      rw [joined_singleton, empty_append, empty_append]
    · rw [claudeThinking_append]
      refine (congrArg (· ++ _) hstarted.thinking).trans ?_
      rw [hreasoning]
      rfl
    · rw [filterMap_append]
      exact congrArg (· ++ _) hstarted.tools
  · have hreasoning := not_not.1 hreasoning
    have htype := not_not.1 htype
    refine ⟨?_, ?_, ?_, rfl, nofun, ⟨rfl, rfl⟩, fun h => absurd (.inr hcontent) h⟩
    · have hopen : openBlocks info =
          { next := info.index + 1, opened := [(info.index, .text)] } := by
        rw [openBlocks, htype]
      rw [hopen]
      exact .singleton rfl (run?_delta mem_cons_self)
    · show joined ["" ++ d.getContentString] = _
      rw [joined_singleton, empty_append]
    · rw [hreasoning]
      rfl
  · have hreasoning := not_not.1 hreasoning
    have hcontent := not_not.1 hcontent
    refine ⟨.nil _, hcontent.symm, hreasoning.symm, rfl, ?_, ⟨rfl, rfl⟩, fun _ => rfl⟩
    exact fun h => absurd h (not_or.2 ⟨not_not.2 hreasoning, not_not.2 hcontent⟩)

/-! ## Tool calls -/

/-- A tool call as its block shows it, in a row of blocks that begins at `base`. -/
def inRow (base : ℕ) (call : ToolCallResponse) : ToolCallResponse where
  index := call.index.map (base + ·)
  name := call.name
  arguments := call.arguments

theorem index_inRow_eq_iff (base : ℕ) (a b : ToolCallResponse) :
    (inRow base a).index = (inRow base b).index ↔ a.index = b.index := by
  unfold inRow
  constructor
  · exact fun h => map_injective (fun x y h => Nat.add_left_cancel h) h
  · exact fun h => congrArg (Option.map (base + ·)) h

theorem inRow_extend (base : ℕ) (call f : ToolCallResponse) :
    inRow base (call.extend f) = (inRow base call).extend (inRow base f) := rfl

theorem addFragment_inRow (base : ℕ) (f : ToolCallResponse) (calls : List ToolCallResponse) :
    addFragment (inRow base f) (calls.map (inRow base)) = (addFragment f calls).map (inRow base) := by
  induction calls with
  | nil => rfl
  | cons call calls ih =>
    rw [map_cons, addFragment, addFragment]
    by_cases hindex : call.index = f.index
    · rw [if_pos hindex, if_pos ((index_inRow_eq_iff base call f).2 hindex), map_cons, inRow_extend]
    · rw [if_neg hindex, if_neg fun h => hindex ((index_inRow_eq_iff base call f).1 h),
        map_cons, ih]

theorem Numbered.inRow_mem (h : Numbered n calls) (hi : i < n) (base : ℕ) :
    some (base + i) ∈ (calls.map (inRow base)).map (·.index) := by
  obtain ⟨call, hcall, hindex⟩ := List.mem_map.1 ((h.mem_iff i).2 hi)
  rw [List.map_map]
  exact List.mem_map.2 ⟨call, hcall, congrArg (Option.map (base + ·)) hindex⟩

def shownFragments (blockIndex : ℕ) (f : ToolCallResponse) : List ToolCallResponse :=
  (if f.name ≠ "" then [{ index := some blockIndex, name := f.name }] else []) ++
    if f.arguments ≠ "" then [{ index := some blockIndex, arguments := f.arguments }] else []

theorem toolCallEvents_carries (blockIndex : ℕ) (f : ToolCallResponse) :
    (toolCallEvents blockIndex f).filterMap eventFragment? = shownFragments blockIndex f ∧
      claudeText (toolCallEvents blockIndex f) = "" ∧
      claudeThinking (toolCallEvents blockIndex f) = "" := by
  unfold toolCallEvents shownFragments
  split_ifs <;> exact ⟨rfl, rfl, rfl⟩

theorem shownFragments_old (h : Numbered n calls) (hi : i < n) (hindex : f.index = some i)
    (hname : f.name = "") :
    (shownFragments (base + i) f).foldl (fun calls f => addFragment f calls)
        (calls.map (inRow base)) = (addFragment f calls).map (inRow base) := by
  have hrow : inRow base f = { index := some (base + i), arguments := f.arguments } := by
    rw [inRow, hindex, hname]
    rfl
  rw [← addFragment_inRow, hrow, shownFragments, if_neg (not_not.2 hname), nil_append]
  split_ifs with harguments
  · rfl
  · have hblank := @addFragment_blank { index := some (base + i), arguments := f.arguments }
      (calls.map (inRow base)) rfl rfl (not_not.1 harguments) (h.inRow_mem hi base)
    exact hblank.symm

theorem shownFragments_new (h : Numbered n calls) (hindex : f.index = some n) (hname : f.name ≠ "")
    : (shownFragments (base + n) f).foldl (fun calls f => addFragment f calls)
        (calls.map (inRow base)) = (addFragment f calls).map (inRow base) := by
  have hno : some (base + n) ∉ (calls.map (inRow base)).map (·.index) := by
    intro hmem
    rw [List.map_map] at hmem
    obtain ⟨call, hcall, heq⟩ := mem_map.1 hmem
    obtain ⟨j, hj, hadd⟩ := map_eq_some_iff.1 heq
    have hlt := (h.mem_iff j).1 (mem_map.2 ⟨call, hcall, hj⟩)
    omega
  have hfirst : addFragment { index := some (base + n), name := f.name } (calls.map (inRow base)) =
      calls.map (inRow base) ++ [{ index := some (base + n), name := f.name }] :=
    addFragment_of_notMem hno
  rw [(h.add_new hindex).1, map_append, shownFragments, if_pos hname, singleton_append,
    foldl_cons, hfirst]
  have hrow : inRow base f =
      { index := some (base + n), name := f.name, arguments := f.arguments } := by
    rw [inRow, hindex]
    rfl
  rw [map_singleton, hrow]
  split_ifs with harguments
  · rw [foldl_cons, addFragment_append]
    · rw [addFragment, if_pos rfl]
      show _ ++ [ToolCallResponse.mk _ _ _ _ ("" ++ f.arguments)] = _
      rw [empty_append]
      rfl
    · exact fun call hcall heq => hno (mem_map.2 ⟨call, hcall, heq⟩)
  · rw [not_not.1 harguments]
    rfl

theorem produces_toolCall_old (hi : i < n) (hname : f.name = "") :
    Produces (toolBlocks base n) (toolBlocks base n) (toolCallEvents (base + i) f) := by
  unfold toolCallEvents
  rw [if_neg (not_not.2 hname), nil_append]
  split_ifs
  · exact .singleton rfl (run?_delta (mem_map.2 ⟨i, mem_range.2 hi, rfl⟩))
  · exact .nil _

theorem produces_toolCall_new (hname : f.name ≠ "") :
    Produces (toolBlocks base n) (toolBlocks base (n + 1)) (toolCallEvents (base + n) f) := by
  have hstart : run? (toolBlocks base n) [.start (base + n) .toolUse] =
      some (toolBlocks base (n + 1)) := by
    unfold toolBlocks
    rw [run?_start, range_succ, map_append]
    rfl
  unfold toolCallEvents
  rw [if_pos hname]
  refine Produces.append (.singleton rfl hstart) ?_
  split_ifs
  · exact .singleton rfl
      (run?_delta (mem_map.2 ⟨n, mem_range.2 (Nat.lt_succ_self n), rfl⟩))
  · exact .nil _

structure SendsTools (base n n' : ℕ) (calls fragments : List ToolCallResponse)
    (events : List ClaudeEvent) : Prop where
  blocks : Produces (toolBlocks base n) (toolBlocks base n') events
  text : claudeText events = ""
  thinking : claudeThinking events = ""
  numbered : Numbered n' (fragments.foldl (fun calls f => addFragment f calls) calls)
  tools : (events.filterMap eventFragment?).foldl (fun calls f => addFragment f calls)
      (calls.map (inRow base)) =
    (fragments.foldl (fun calls f => addFragment f calls) calls).map (inRow base)

theorem toolCallLoop_spec {base : ℕ} (fs rest : List ToolCallResponse) (i n : ℕ)
    {calls : List ToolCallResponse} (hcalls : Numbered n calls)
    (horder : InOrder n (indexed i fs ++ rest)) :
    ∃ n', n ≤ n' ∧ (fs ≠ [] → 0 < n') ∧ InOrder n' rest ∧
      (toolCallLoop base i (n - 1) fs).2 = n' - 1 ∧
      SendsTools base n n' calls (indexed i fs) (toolCallLoop base i (n - 1) fs).1 := by
  induction fs generalizing i n calls with
  | nil =>
    exact ⟨n, Nat.le_refl n, fun h => absurd rfl h, horder, rfl, .nil _, rfl, rfl, hcalls, rfl⟩
  | cons f fs ih =>
    obtain ⟨hfragments, htext, hthinking⟩ := toolCallEvents_carries (base + f.index.getD i) f
    let g : ToolCallResponse := { f with index := some (f.index.getD i) }
    have hstep : ∀ n₁, n ≤ n₁ → 0 < n₁ → InOrder n₁ (indexed (i + 1) fs ++ rest) →
        Numbered n₁ (addFragment g calls) →
        Produces (toolBlocks base n) (toolBlocks base n₁) (toolCallEvents (base + f.index.getD i) f) →
        (shownFragments (base + f.index.getD i) f).foldl (fun calls f => addFragment f calls)
          (calls.map (inRow base)) = (addFragment g calls).map (inRow base) →
        (if n - 1 < f.index.getD i then f.index.getD i else n - 1) = n₁ - 1 →
        ∃ n', n ≤ n' ∧ (f :: fs ≠ [] → 0 < n') ∧ InOrder n' rest ∧
          (toolCallLoop base i (n - 1) (f :: fs)).2 = n' - 1 ∧
          SendsTools base n n' calls (indexed i (f :: fs)) (toolCallLoop base i (n - 1) (f :: fs)).1 := by
      intro n₁ hn hpos horder₁ hcalls₁ hblocks hshown hmax
      obtain ⟨n', hn', -, hrest, hmax', hsends⟩ := ih (i + 1) n₁ hcalls₁ horder₁
      have hloop : toolCallLoop base i (n - 1) (f :: fs) =
          (toolCallEvents (base + f.index.getD i) f ++ (toolCallLoop base (i + 1) (n₁ - 1) fs).1,
            (toolCallLoop base (i + 1) (n₁ - 1) fs).2) := by
        rw [toolCallLoop]
        rw [hmax]
      rw [hloop]
      refine ⟨n', hn.trans hn', fun _ => hpos.trans_le hn', hrest, hmax', ?_, ?_, ?_, ?_, ?_⟩
      · exact hblocks.append hsends.blocks
      · rw [claudeText_append, htext, hsends.text]
        rfl
      · rw [claudeThinking_append, hthinking, hsends.thinking]
        rfl
      · exact hsends.numbered
      · rw [filterMap_append, foldl_append, hfragments, hshown]
        exact hsends.tools
    rcases horder with ⟨j, hj, hindex, hname, horder⟩ | ⟨hindex, hname, horder⟩
    · have hj' : f.index.getD i = j := some.inj hindex
      refine hstep n (Nat.le_refl n) (Nat.zero_lt_of_lt hj) horder (hcalls.add_old hindex hj) ?_ ?_ ?_
      · rw [hj']
        exact produces_toolCall_old hj hname
      · rw [hj']
        exact shownFragments_old (f := g) hcalls hj hindex hname
      · rw [hj']
        split_ifs <;> omega
    · have hn' : f.index.getD i = n := some.inj hindex
      refine hstep (n + 1) (Nat.le_succ n) (Nat.succ_pos n) horder (hcalls.add_new hindex).2 ?_ ?_ ?_
      · rw [hn']
        exact produces_toolCall_new hname
      · rw [hn']
        exact shownFragments_new (f := g) hcalls hindex hname
      · rw [hn']
        split_ifs <;> omega

/-! ## The deltas one by one -/

def indexedDeltas (ds : List Delta) : List ToolCallResponse := ds.flatMap fun d => indexed 0 d.toolCalls

structure Sent (sent rest : List Delta) (events : List ClaudeEvent) (info : ClaudeConvertInfo) :
    Prop where
  blocks : Produces {} (openBlocks info) events
  text : claudeText events = joined (sent.map (·.getContentString))
  thinking : claudeThinking events = joined (sent.map (·.getReasoningContent))
  tools : ∃ n base, Numbered n (assembleCalls (indexedDeltas sent)) ∧ InOrder n (indexedDeltas rest) ∧
    assembleCalls (events.filterMap eventFragment?) =
      (assembleCalls (indexedDeltas sent)).map (inRow base) ∧
    (info.lastMessagesType = .tools →
      base = info.toolCallBaseIndex ∧ n = info.toolCallMaxIndexOffset + 1) ∧
    (0 < n → NoToolsAfterContent rest ∧
      (info.lastMessagesType ≠ .tools → ∀ d ∈ rest, d.toolCalls = []))
  together : ToolsTogether rest
  goesOn : info.done = false
  noUsage : info.usage = none

theorem sent_nil {ds : List Delta} (horder : InOrder 0 (indexedDeltas ds)) (htogether : ToolsTogether ds) :
    Sent [] ds [] {} :=
  ⟨.nil _, rfl, rfl, ⟨0, 0, rfl, horder, rfl, nofun, nofun⟩, htogether, rfl, rfl⟩

theorem joined_map_concat (f : Delta → String) (ds : List Delta) (d : Delta) :
    joined ((ds ++ [d]).map f) = joined (ds.map f) ++ f d := by
  rw [map_append, joined_append, map_singleton, joined_singleton]

theorem assembleCalls_append (a b : List ToolCallResponse) :
    assembleCalls (a ++ b) = b.foldl (fun calls f => addFragment f calls) (assembleCalls a) :=
  foldl_append

theorem indexedDeltas_concat (ds : List Delta) (d : Delta) :
    indexedDeltas (ds ++ [d]) = indexedDeltas ds ++ indexed 0 d.toolCalls := by
  rw [indexedDeltas, flatMap_append, flatMap_singleton]
  rfl

theorem indexedDeltas_cons (d : Delta) (ds : List Delta) :
    indexedDeltas (d :: ds) = indexed 0 d.toolCalls ++ indexedDeltas ds := flatMap_cons

/-- What a chunk behind the first one makes of its delta. -/
def convertDelta (info : ClaudeConvertInfo) (d : Delta) : List ClaudeEvent × ClaudeConvertInfo :=
  if d.toolCalls ≠ [] then convertToolCalls info d.toolCalls else convertContentDelta info d

section Later

variable {sent rest : List Delta} {events : List ClaudeEvent} {info : ClaudeConvertInfo} {d : Delta}

theorem Sent.content (h : Sent sent (d :: rest) events info)
    (hone : d.getReasoningContent = "" ∨ d.getContentString = "") (htools : d.toolCalls = []) :
    Sent (sent ++ [d]) rest (events ++ (convertContentDelta info d).1) (convertContentDelta info d).2 := by
  have hsends := convertContentDelta_spec info hone
  obtain ⟨n, base, hnumbered, horder, hcalls, hrow, hrest⟩ := h.tools
  have hfragments : indexedDeltas (sent ++ [d]) = indexedDeltas sent := by
    rw [indexedDeltas_concat, htools]
    exact append_nil _
  refine ⟨h.blocks.append hsends.blocks, ?_, ?_, ⟨n, base, ?_, ?_, ?_, ?_, ?_⟩, h.together.2,
    hsends.same.done.trans h.goesOn, hsends.same.usage.trans h.noUsage⟩
  · rw [claudeText_append, h.text, hsends.text, joined_map_concat]
  · rw [claudeThinking_append, h.thinking, hsends.thinking, joined_map_concat]
  · rw [hfragments]
    exact hnumbered
  · rw [indexedDeltas_cons, htools] at horder
    exact horder
  · rw [hfragments, filterMap_append, hsends.tools, append_nil]
    exact hcalls
  · intro htype
    by_cases hcontent : HasContent d
    · exact absurd htype (hsends.type hcontent)
    · rw [hsends.nothing hcontent] at htype ⊢
      exact hrow htype
  · intro hn
    obtain ⟨hno, hbroken⟩ := hrest hn
    refine ⟨hno.2, fun htype => ?_⟩
    by_cases hcontent : HasContent d
    · exact hno.1 hcontent
    · rw [hsends.nothing hcontent] at htype
      exact fun d' hd' => hbroken htype d' (mem_cons_of_mem d hd')

theorem Sent.toolCalls (h : Sent sent (d :: rest) events info) (htools : d.toolCalls ≠ [])
    (hcontent : ¬ HasContent d) :
    Sent (sent ++ [d]) rest (events ++ (convertToolCalls info d.toolCalls).1)
      (convertToolCalls info d.toolCalls).2 := by
  obtain ⟨n, base, hnumbered, horder, hcalls, hrow, hrest⟩ := h.tools
  rw [indexedDeltas_cons] at horder
  obtain ⟨hreasoning, htext⟩ := not_or.1 hcontent
  have hreasoning := not_not.1 hreasoning
  have htext := not_not.1 htext
  -- the row of blocks that the calls belong to, and what stands before them
  have hgo : ∀ (base' : ℕ) (stops : List ClaudeEvent) (info' : ClaudeConvertInfo),
      convertToolCalls info d.toolCalls = (stops ++ (toolCallLoop base' 0 (n - 1) d.toolCalls).1,
          { info' with
            lastMessagesType := .tools
            toolCallMaxIndexOffset := (toolCallLoop base' 0 (n - 1) d.toolCalls).2
            index := base' + (toolCallLoop base' 0 (n - 1) d.toolCalls).2 }) →
      info'.toolCallBaseIndex = base' → SameEnd info info' → Silent stops →
      Produces (openBlocks info) (toolBlocks base' n) stops →
      assembleCalls (events.filterMap eventFragment?) =
        (assembleCalls (indexedDeltas sent)).map (inRow base') →
      Sent (sent ++ [d]) rest (events ++ (convertToolCalls info d.toolCalls).1)
        (convertToolCalls info d.toolCalls).2 := by
    intro base' stops info' hconvert hbase hsame hsilent hstops hcalls
    obtain ⟨n', -, hpos, horder', hmax, hsends⟩ :=
      @toolCallLoop_spec base' d.toolCalls (indexedDeltas rest) 0 n _ hnumbered horder
    have hn' : n' - 1 + 1 = n' := Nat.sub_add_cancel (hpos htools)
    rw [hconvert]
    refine ⟨?_, ?_, ?_, ⟨n', base', ?_, horder', ?_, ?_, ?_⟩, h.together.2,
      hsame.done.trans h.goesOn, hsame.usage.trans h.noUsage⟩
    · have hopen : openBlocks
          { info' with
            lastMessagesType := .tools
            toolCallMaxIndexOffset := (toolCallLoop base' 0 (n - 1) d.toolCalls).2
            index := base' + (toolCallLoop base' 0 (n - 1) d.toolCalls).2 } = toolBlocks base' n' := by
        unfold openBlocks
        rw [hbase, hmax, hn']
      rw [hopen]
      exact h.blocks.append (hstops.append hsends.blocks)
    · rw [claudeText_append, claudeText_append, h.text, hsilent.text, hsends.text, joined_map_concat,
        htext]
      rfl
    · rw [claudeThinking_append, claudeThinking_append, h.thinking, hsilent.thinking, hsends.thinking,
        joined_map_concat, hreasoning]
      rfl
    · rw [indexedDeltas_concat, assembleCalls_append]
      exact hsends.numbered
    · rw [filterMap_append, filterMap_append, hsilent.tools, nil_append,
        assembleCalls_append, hcalls, indexedDeltas_concat, assembleCalls_append]
      exact hsends.tools
    · intro _
      rw [hbase, hmax, hn']
      exact ⟨rfl, rfl⟩
    · exact fun _ => ⟨(h.together.1 htools).2, fun htype => absurd rfl htype⟩
  by_cases htype : info.lastMessagesType = .tools
  · obtain ⟨rfl, rfl⟩ := hrow htype
    refine hgo info.toolCallBaseIndex [] info ?_ rfl ⟨rfl, rfl⟩ silent_nil ?_ hcalls
    · unfold convertToolCalls
      rw [if_neg (not_not.2 htype)]
      rfl
    · have hopen : openBlocks info =
          toolBlocks info.toolCallBaseIndex (info.toolCallMaxIndexOffset + 1) := by
        rw [openBlocks, htype]
      rw [hopen]
      exact .nil _
  · have hzero : n = 0 := by
      by_contra hn
      exact htools ((hrest (Nat.pos_of_ne_zero hn)).2 htype d mem_cons_self)
    subst hzero
    have hnone : assembleCalls (indexedDeltas sent) = [] := map_eq_nil_iff.1 hnumbered
    have hsame := sameEnd_advance info
    obtain ⟨hstops, hsilent⟩ := produces_stopOpenBlocks info
    refine hgo (advance info).index (stopOpenBlocks info)
      { advance info with
        toolCallBaseIndex := (advance info).index, toolCallMaxIndexOffset := 0 }
      ?_ rfl ⟨hsame.usage, hsame.done⟩ hsilent ?_ ?_
    · unfold convertToolCalls
      rw [if_pos htype]
      rfl
    · have hopen : openBlocks (advance info) = toolBlocks (advance info).index 0 := by
        rw [openBlocks, advance_lastMessagesType]
        rfl
      rw [← hopen]
      exact hstops
    · rw [hcalls, hnone]
      rfl

theorem Sent.later (h : Sent sent (d :: rest) events info)
    (hone : d.getReasoningContent = "" ∨ d.getContentString = "")
    (hkind : d.toolCalls = [] ∨ ¬ HasContent d) :
    Sent (sent ++ [d]) rest (events ++ (convertDelta info d).1) (convertDelta info d).2 := by
  unfold convertDelta
  split_ifs with htools
  · exact h.toolCalls htools (hkind.resolve_left htools)
  · exact h.content hone (not_not.1 htools)

end Later

/-! ## The first chunk -/

theorem toolCallLoop_blank {fs rest : List ToolCallResponse} (hblank : ∀ f ∈ fs, Blank f)
    (horder : InOrder 1 (indexed i fs ++ rest)) : toolCallLoop 0 i 0 fs = ([], 0) := by
  induction fs generalizing i with
  | nil => rfl
  | cons f fs ih =>
    obtain ⟨hname, harguments⟩ := hblank f mem_cons_self
    rcases horder with ⟨j, hj, hindex, -, horder⟩ | ⟨-, hnamed, -⟩
    · have hzero : f.index.getD i = 0 := (some.inj hindex).trans (Nat.lt_one_iff.1 hj)
      rw [toolCallLoop]
      rw [hzero, if_neg (Nat.lt_irrefl 0),
        ih (fun f' hf' => hblank f' (mem_cons_of_mem f hf')) horder, toolCallEvents,
        if_neg (not_not.2 hname), if_neg (not_not.2 harguments)]
      rfl
    · exact absurd hname hnamed

theorem firstToolCall_eq {rest : List ToolCallResponse}
    (horder : InOrder 0 (indexed 0 d.toolCalls ++ rest)) (hblank : ∀ f ∈ d.toolCalls.tail, Blank f)
    : firstToolCall {} d = convertDelta {} { toolCalls := d.toolCalls } := by
  unfold firstToolCall convertDelta
  cases htools : d.toolCalls with
  | nil => rfl
  | cons f fs =>
    rw [htools] at horder hblank
    rcases horder with ⟨j, hj, -⟩ | ⟨hindex, hname, horder⟩
    · exact absurd hj (Nat.not_lt_zero j)
    · have hzero : f.index.getD 0 = 0 := some.inj hindex
      have hblank : ∀ f ∈ fs, Blank f := hblank
      have hloop : toolCallLoop 0 0 0 (f :: fs) = (toolCallEvents 0 f, 0) := by
        rw [toolCallLoop]
        dsimp only
        rw [hzero, if_neg (Nat.lt_irrefl 0), toolCallLoop_blank hblank horder, append_nil]
      have hevents : toolCallEvents 0 f = startToolUse 0 f ::
          if f.arguments ≠ "" then [inputJsonDelta 0 f.arguments] else [] := by
        rw [toolCallEvents, if_pos hname]
        rfl
      rw [if_pos (cons_ne_nil f fs)]
      show _ = (([] : List ClaudeEvent) ++ (toolCallLoop 0 0 0 (f :: fs)).1, ClaudeConvertInfo.mk .tools
        (0 + (toolCallLoop 0 0 0 (f :: fs)).2) none "" false 0 (toolCallLoop 0 0 0 (f :: fs)).2)
      rw [hloop, hevents]
      rfl

theorem firstContent_eq (d : Delta)
    (htype : info.lastMessagesType = .none ∨ info.lastMessagesType = .tools) :
    firstContent info d = convertContentDelta info d := by
  have hthinking : info.lastMessagesType ≠ .thinking := by
    rcases htype with h | h <;> rw [h] <;> decide
  have htext : info.lastMessagesType ≠ .text := by
    rcases htype with h | h <;> rw [h] <;> decide
  unfold firstContent convertContentDelta
  rw [if_pos hthinking, if_pos htext, if_pos hthinking, if_pos htext]
  dsimp only
  split_ifs
  · rw [List.append_assoc]
    rfl
  · rw [List.append_assoc]
    rfl
  · rfl

def firstDelta (d : Delta) : List ClaudeEvent × ClaudeConvertInfo :=
  ((firstToolCall {} d).1 ++ (firstContent (firstToolCall {} d).2 d).1,
    (firstContent (firstToolCall {} d).2 d).2)

theorem sent_first (horder : InOrder 0 (indexedDeltas (d :: rest)))
    (htogether : ToolsTogether (d :: rest))
    (hone : d.getReasoningContent = "" ∨ d.getContentString = "")
    (hblank : ∀ f ∈ d.toolCalls.tail, Blank f) :
    Sent [d] rest (firstDelta d).1 (firstDelta d).2 := by
  -- the tool call and the text come one after the other
  let tools : Delta := { toolCalls := d.toolCalls }
  let content : Delta := { d with toolCalls := [] }
  have hnothing : ¬ HasContent tools := not_or.2 ⟨not_not.2 rfl, not_not.2 rfl⟩
  have hfragments : indexedDeltas (tools :: content :: rest) = indexedDeltas (d :: rest) := rfl
  have hstart : Sent [] (tools :: content :: rest) [] {} := by
    refine sent_nil (hfragments ▸ horder) ⟨fun htools => ⟨fun h => absurd h hnothing, ?_⟩, ?_, ?_⟩
    · exact htogether.1 htools
    · exact fun h => absurd rfl h
    · exact htogether.2
  rw [indexedDeltas_cons] at horder
  have hfirst := hstart.later (.inl rfl) (.inr hnothing)
  rw [← firstToolCall_eq horder hblank, nil_append, nil_append] at hfirst
  have htype : (firstToolCall {} d).2.lastMessagesType = .none ∨
      (firstToolCall {} d).2.lastMessagesType = .tools := by
    unfold firstToolCall
    cases d.toolCalls with
    | nil => exact .inl rfl
    | cons f fs => exact .inr rfl
  have hsecond := hfirst.content hone rfl
  have hsame : convertContentDelta (firstToolCall {} d).2 content =
      firstContent (firstToolCall {} d).2 d := (firstContent_eq d htype).symm
  rw [hsame] at hsecond
  obtain ⟨n, base, hnumbered, horder, hcalls, hrow, hrest⟩ := hsecond.tools
  have hsent : indexedDeltas ([tools] ++ [content]) = indexedDeltas [d] := rfl
  rw [hsent] at hnumbered hcalls
  refine ⟨hsecond.blocks, ?_, ?_, ⟨n, base, hnumbered, horder, hcalls, hrow, hrest⟩,
    hsecond.together, hsecond.goesOn, hsecond.noUsage⟩
  · refine hsecond.text.trans ?_
    show joined ["", d.getContentString] = joined [d.getContentString]
    rw [joined_cons, empty_append]
  · refine hsecond.thinking.trans ?_
    show joined ["", d.getReasoningContent] = joined [d.getReasoningContent]
    rw [joined_cons, empty_append]

theorem foldl_addFragment_blank {n i base : ℕ} {fs rest calls : List ToolCallResponse}
    (hcalls : Numbered n calls) (hblank : ∀ f ∈ fs, Blank f)
    (horder : InOrder n (indexed i fs ++ rest)) :
    Numbered n ((indexed i fs).foldl (fun calls f => addFragment f calls) calls) ∧
      ((indexed i fs).foldl (fun calls f => addFragment f calls) calls).map (inRow base) =
        calls.map (inRow base) ∧ InOrder n rest := by
  induction fs generalizing i calls with
  | nil => exact ⟨hcalls, rfl, horder⟩
  | cons f fs ih =>
    obtain ⟨hname, harguments⟩ := hblank f mem_cons_self
    let g : ToolCallResponse := { f with index := some (f.index.getD i) }
    rcases horder with ⟨j, hj, hindex, -, horder⟩ | ⟨-, hnamed, -⟩
    · obtain ⟨hnumbered, hmap, hrest⟩ := ih (hcalls.add_old (f := g) hindex hj)
        (fun f' hf' => hblank f' (mem_cons_of_mem f hf')) horder
      refine ⟨hnumbered, hmap.trans ?_, hrest⟩
      rw [← addFragment_inRow]
      refine addFragment_blank rfl hname harguments ?_
      have hrow : (inRow base g).index = some (base + j) := congrArg (Option.map (base + ·)) hindex
      rw [hrow]
      exact hcalls.inRow_mem hj base
    · exact absurd hname hnamed

theorem Sent.nothing (h : Sent sent (d :: rest) events info) (hcontent : ¬ HasContent d)
    (hblank : ∀ f ∈ d.toolCalls, Blank f) : Sent (sent ++ [d]) rest events info := by
  obtain ⟨hreasoning, htext⟩ := not_or.1 hcontent
  obtain ⟨n, base, hnumbered, horder, hcalls, hrow, hrest⟩ := h.tools
  rw [indexedDeltas_cons] at horder
  obtain ⟨hnumbered', hmap, horder'⟩ := @foldl_addFragment_blank n 0 base _ _ _ hnumbered hblank horder
  refine ⟨h.blocks, ?_, ?_, ⟨n, base, ?_, horder', ?_, hrow, fun hn => ?_⟩, h.together.2, h.goesOn,
    h.noUsage⟩
  · rw [h.text, joined_map_concat, not_not.1 htext, append_empty]
  · rw [h.thinking, joined_map_concat, not_not.1 hreasoning, append_empty]
  · rw [indexedDeltas_concat, assembleCalls_append]
    exact hnumbered'
  · rw [indexedDeltas_concat, assembleCalls_append, hmap]
    exact hcalls
  · exact ⟨(hrest hn).1.2, fun htype d' hd' => (hrest hn).2 htype d' (mem_cons_of_mem d hd')⟩

/-! ## The run -/

theorem Sent.setFinishReason (h : Sent sent rest events info) (reason : String) :
    Sent sent rest events { info with finishReason := reason } :=
  ⟨h.blocks, h.text, h.thinking, h.tools, h.together, h.goesOn, h.noUsage⟩

theorem laterChunk_of_not_done (hdone : choice.isDone = false)
    (hgoes : (convertDelta info choice.delta).2.done = false) :
    laterChunk chunk choice info = convertDelta info choice.delta := by
  have hno : ¬ choice.isDone = true := by
    rw [hdone]
    decide
  unfold laterChunk
  rw [if_neg hno, if_neg fun h => hno h.1]
  have hend : ¬ (choice.isDone = true ∨ (convertDelta info choice.delta).2.done = true) := by
    rw [hdone, hgoes]
    decide
  unfold convertDelta at hend ⊢
  dsimp only
  rw [if_neg hend]

theorem deltas_cons_of_choice (h : chunk.choices = [choice]) (chunks : List Chunk) :
    deltas (chunk :: chunks) = choice.delta :: deltas chunks := by
  rw [deltas, flatMap_cons, h]
  rfl

theorem claudeEvents_body {chunks more : List Chunk} {n : ℕ} (hn : 2 ≤ n) {sent rest : List Delta}
    {events : List ClaudeEvent} {info : ClaudeConvertInfo}
    (hsingle : ∀ chunk ∈ chunks, ∃ choice, chunk.choices = [choice] ∧ choice.isDone = false)
    (hone : ∀ d ∈ deltas chunks, d.getReasoningContent = "" ∨ d.getContentString = "")
    (hkind : ∀ d ∈ deltas chunks, d.toolCalls = [] ∨ ¬ HasContent d)
    (h : Sent sent (deltas chunks ++ rest) events info) :
    ∃ events' info', claudeEvents n info (chunks ++ more) =
        events' ++ claudeEvents (n + chunks.length) info' more ∧
      Sent (sent ++ deltas chunks) rest (events ++ events') info' := by
  induction chunks generalizing n sent events info with
  | nil =>
    refine ⟨[], info, rfl, ?_⟩
    show Sent (sent ++ []) rest (events ++ []) info
    rwa [append_nil, append_nil]
  | cons chunk chunks ih =>
    obtain ⟨choice, hchoice, hdone⟩ := hsingle chunk mem_cons_self
    rw [deltas_cons_of_choice hchoice] at h hone hkind
    have hlater := h.later (hone _ mem_cons_self) (hkind _ mem_cons_self)
    have hstep : streamResponseOpenAI2Claude n chunk info = convertDelta info choice.delta := by
      unfold streamResponseOpenAI2Claude
      rw [h.goesOn, if_neg (by decide), if_neg (by omega), hchoice]
      exact laterChunk_of_not_done hdone hlater.goesOn
    obtain ⟨events', info', hrun, hsent⟩ := ih (show 2 ≤ n + 1 by omega)
      (fun c hc => hsingle c (mem_cons_of_mem chunk hc))
      (fun d hd => hone d (mem_cons_of_mem _ hd))
      (fun d hd => hkind d (mem_cons_of_mem _ hd)) hlater
    refine ⟨(convertDelta info choice.delta).1 ++ events', info', ?_, ?_⟩
    · rw [cons_append, claudeEvents, hstep]
      dsimp only
      rw [hrun, List.append_assoc, List.length_cons, Nat.add_assoc, Nat.add_comm 1]
    · rw [deltas_cons_of_choice hchoice, List.append_cons, ← List.append_assoc]
      exact hsent

theorem claudeEvents_of_done (h : info.done = true) (n : ℕ) (chunks : List Chunk) :
    claudeEvents n info chunks = [] := by
  induction chunks generalizing n with
  | nil => rfl
  | cons chunk chunks ih =>
    have hstep : streamResponseOpenAI2Claude n chunk info = ([], info) := by
      rw [streamResponseOpenAI2Claude, if_pos h]
    rw [claudeEvents, hstep]
    exact ih (n + 1)

theorem closeMessage_of_usage {usage : Option Usage} (h : usage ≠ none) (stopReason : String) :
    closeMessage info usage stopReason =
      (stopOpenBlocks info ++ [messageDelta stopReason, messageStop], { info with done := true }) := by
  obtain ⟨u, rfl⟩ := Option.ne_none_iff_exists'.1 h
  unfold closeMessage
  dsimp only
  rw [if_pos (by exact nofun), List.append_assoc]
  rfl

theorem claudeEvents_last {s : ChatStream} (hn : 2 ≤ n) (hlast : deltas [s.last] = [d])
    (hone : d.getReasoningContent = "" ∨ d.getContentString = "")
    (hkind : d.toolCalls = [] ∨ ¬ HasContent d)
    (hfinish : s.last.usage ≠ none ∨ ¬ HasContent d ∧ ∀ f ∈ d.toolCalls, Blank f)
    (h : Sent sent [d] events info) :
    ∃ events' info' stopReason, claudeEvents n info (s.last :: s.usageOnly.toList) =
        events' ++ (stopOpenBlocks info' ++ [messageDelta stopReason, messageStop]) ∧
      Sent (sent ++ [d]) [] (events ++ events') info' := by
  obtain ⟨choice, hchoice, hdone⟩ := s.last_single
  have hd : choice.delta = d := by
    rw [deltas_cons_of_choice hchoice] at hlast
    exact head_eq_of_cons_eq hlast
  subst hd
  have hset := h.setFinishReason (choice.finishReason.getD "")
  have hstep : streamResponseOpenAI2Claude n s.last info = laterChunk s.last choice info := by
    unfold streamResponseOpenAI2Claude
    rw [h.goesOn, if_neg (by decide), if_neg (by omega), hchoice]
    rfl
  by_cases husage : s.last.usage = none
  · obtain ⟨hcontent, hblank⟩ := hfinish.resolve_left (not_not.2 husage)
    have hlater : laterChunk s.last choice info =
        ([], { info with finishReason := choice.finishReason.getD "" }) := by
      unfold laterChunk
      rw [hdone, if_pos rfl, if_pos ⟨rfl, husage⟩]
    obtain ⟨chunk, hchunk⟩ := ne_none_iff_exists'.1 (s.usage.resolve_left (not_not.2 husage))
    obtain ⟨hchoices, hchunkUsage⟩ := s.usageOnly_empty chunk hchunk
    have hsome : (chunk.usage.orElse fun _ => info.usage) ≠ none := by
      obtain ⟨u, hu⟩ := ne_none_iff_exists'.1 hchunkUsage
      rw [hu]
      exact nofun
    let stopReason := openAIFinishReasonToClaudeStopReason (choice.finishReason.getD "")
    refine ⟨[], { info with finishReason := choice.finishReason.getD "" },
      if stopReason = "" then "end_turn" else stopReason, ?_, ?_⟩
    · rw [claudeEvents, hstep, hlater, hchunk]
      show (streamResponseOpenAI2Claude (n + 1) chunk _).1 ++ [] = _
      unfold streamResponseOpenAI2Claude
      rw [h.goesOn, if_neg (by decide), if_neg (by omega), hchoices, head?_nil]
      unfold usageOnlyChunk
      rw [if_pos hsome, closeMessage_of_usage hchunkUsage, append_nil]
      rfl
    · rw [append_nil]
      exact hset.nothing hcontent hblank
  · let ended : ClaudeConvertInfo := { info with finishReason := choice.finishReason.getD "" }
    let converted := convertDelta ended choice.delta
    let stopReason := openAIFinishReasonToClaudeStopReason converted.2.finishReason
    have hlater : laterChunk s.last choice info =
        (converted.1 ++ (closeMessage converted.2 s.last.usage stopReason).1,
          (closeMessage converted.2 s.last.usage stopReason).2) := by
      unfold laterChunk
      rw [hdone, if_pos rfl, if_neg fun h => husage h.2]
      dsimp only
      rw [if_pos (.inl rfl)]
      rfl
    refine ⟨converted.1, converted.2, stopReason, ?_, hset.later hone hkind⟩
    rw [claudeEvents, hstep, hlater, closeMessage_of_usage husage]
    dsimp only
    rw [claudeEvents_of_done rfl, append_nil]

/-! ## The whole stream -/

structure CarriesStream (chunks : List Chunk) (events : List ClaudeEvent) : Prop where
  wellFormed : WellFormedClaude events
  text : claudeText events = contentOf chunks
  thinking : claudeThinking events = reasoningOf chunks
  tools : claudeTools events = chatTools chunks

def startEvent (chunk : Chunk) : ClaudeEvent :=
  { type := "message_start", message := some { id := chunk.id, model := chunk.model } }

theorem carriesStream_of_sent {chunks : List Chunk} (h : Sent (deltas chunks) [] events info)
    (first : Chunk) (stopReason : String) :
    CarriesStream chunks (startEvent first ::
      (events ++ (stopOpenBlocks info ++ [messageDelta stopReason, messageStop]))) := by
  obtain ⟨hstops, hsilent⟩ := produces_stopOpenBlocks info
  have hend : Silent (stopOpenBlocks info ++ [messageDelta stopReason, messageStop]) :=
    hsilent.append ⟨rfl, rfl, rfl⟩
  have hstart : Silent [startEvent first] := ⟨rfl, rfl, rfl⟩
  refine ⟨?_, ?_, ?_, ?_⟩
  · obtain ⟨bs, hmap, hrun⟩ := h.blocks.append hstops
    rw [openBlocks_advance] at hrun
    refine ⟨startEvent first, events ++ stopOpenBlocks info, stopReason, bs, ?_, rfl, hmap, _, hrun⟩
    rw [List.append_assoc]
  · rw [← singleton_append, claudeText_append, hstart.text, claudeText_append, hend.text, h.text,
      empty_append, append_empty]
    rfl
  · rw [← singleton_append, claudeThinking_append, hstart.thinking, claudeThinking_append,
      hend.thinking, h.thinking, empty_append, append_empty]
    rfl
  · obtain ⟨n, base, -, -, hcalls, -, -⟩ := h.tools
    rw [claudeTools, ← singleton_append, filterMap_append, hstart.tools,
      List.filterMap_append, hend.tools, List.append_nil, List.nil_append, hcalls, List.map_map]
    rfl

theorem firstChunk_of_not_done (h : chunk.choices = [choice]) (hdone : choice.isDone = false) :
    streamResponseOpenAI2Claude 1 chunk {} =
      (startEvent chunk :: (firstDelta choice.delta).1, (firstDelta choice.delta).2) := by
  unfold streamResponseOpenAI2Claude firstChunk
  rw [h, head?_cons]
  dsimp only
  rw [hdone]
  rfl

theorem firstChunk_of_done (h : chunk.choices = [choice]) (hdone : choice.isDone = true)
    (husage : chunk.usage ≠ none) :
    streamResponseOpenAI2Claude 1 chunk {} = (startEvent chunk :: ((firstDelta choice.delta).1 ++
          (stopOpenBlocks { (firstDelta choice.delta).2 with
              finishReason := choice.finishReason.getD "" } ++
            [messageDelta (openAIFinishReasonToClaudeStopReason (choice.finishReason.getD "")),
              messageStop])), { (firstDelta choice.delta).2 with
          finishReason := choice.finishReason.getD "", done := true }) := by
  unfold streamResponseOpenAI2Claude firstChunk
  rw [h, head?_cons]
  dsimp only
  rw [hdone, closeMessage_of_usage husage]
  rfl

/-- **A stream of chunks becomes a Claude stream that loses nothing**, when each chunk can be
converted. -/
theorem chat_stream_carried (s : ChatStream) (horder : InOrder 0 (indexedFragments s.chunks))
    (h : s.Convertible) : CarriesStream s.chunks (claudeEvents 1 {} s.chunks) := by
  obtain ⟨last, hlast, hlastDone⟩ := s.last_single
  have hrest : deltas (s.last :: s.usageOnly.toList) = [last.delta] := by
    rw [deltas_cons_of_choice hlast]
    cases husage : s.usageOnly with
    | none => rfl
    | some chunk =>
      have hchoices := (s.usageOnly_empty chunk husage).1
      rw [toList_some, deltas, flatMap_singleton, hchoices]
      rfl
  have hlastDelta : deltas [s.last] = [last.delta] := deltas_cons_of_choice hlast []
  have hdeltas : deltas s.chunks = deltas s.body ++ [last.delta] := by
    rw [ChatStream.chunks, deltas_append, hrest]
  have horder : InOrder 0 (indexedDeltas (deltas s.chunks)) := horder
  obtain ⟨hone, hfirst, hkind⟩ := h.oneKind
  have htogether := h.together
  rw [hdeltas] at hone hfirst hkind horder htogether
  cases hbody : s.body with
  | nil =>
    -- the first chunk has the finish reason
    rw [hbody] at hone hfirst hkind horder htogether
    have husage : s.last.usage ≠ none := h.finish.resolve_right fun h => h.1 hbody
    have hsent := (sent_first horder htogether (hone _ mem_cons_self)
      (hfirst _ rfl)).setFinishReason (last.finishReason.getD "")
    have hall : [last.delta] = deltas s.chunks := by
      rw [hdeltas, hbody]
      rfl
    rw [hall] at hsent
    rw [ChatStream.chunks, hbody, nil_append, claudeEvents,
      firstChunk_of_done hlast hlastDone husage]
    dsimp only
    rw [claudeEvents_of_done rfl, append_nil, ← nil_append (s.last :: _), ← hbody]
    exact carriesStream_of_sent hsent s.last _
  | cons first body =>
    obtain ⟨choice, hchoice, hdone⟩ := s.body_single first (hbody ▸ mem_cons_self)
    have hbodyDeltas : deltas s.body ++ [last.delta] =
        choice.delta :: (deltas body ++ [last.delta]) := by
      rw [hbody, deltas_cons_of_choice hchoice]
      rfl
    rw [hbodyDeltas] at hone hfirst hkind horder htogether
    have hsent := sent_first horder htogether (hone _ mem_cons_self) (hfirst _ rfl)
    obtain ⟨events, info, hrun, hsent⟩ := @claudeEvents_body body (s.last :: s.usageOnly.toList) 2
      (Nat.le_refl 2) _ _ _ _
      (fun c hc => s.body_single c (hbody ▸ mem_cons_of_mem first hc))
      (fun d hd => hone d (mem_cons_of_mem _ (mem_append_left _ hd)))
      (fun d hd => hkind d (mem_append_left _ hd)) hsent
    obtain ⟨events', info', stopReason, hend, hsent⟩ := claudeEvents_last (s := s)
      (show 2 ≤ 2 + body.length by omega) hlastDelta
      (hone _ (mem_cons_of_mem _ (mem_append_right _ mem_cons_self)))
      (hkind _ (mem_append_right _ mem_cons_self))
      (h.finish.imp_right fun h => h.2 _ (hlastDelta ▸ mem_cons_self)) hsent
    have hall : [choice.delta] ++ deltas body ++ [last.delta] = deltas s.chunks := by
      rw [hdeltas, hbodyDeltas]
      rfl
    rw [hall] at hsent
    have hevents : claudeEvents 1 {} s.chunks = startEvent first ::
        ((firstDelta choice.delta).1 ++ events ++ events' ++
          (stopOpenBlocks info' ++ [messageDelta stopReason, messageStop])) := by
      rw [ChatStream.chunks, hbody, cons_append, claudeEvents, firstChunk_of_not_done hchoice hdone]
      dsimp only
      rw [hrun, hend, List.cons_append, ← List.append_assoc, ← List.append_assoc]
    rw [hevents]
    exact carriesStream_of_sent hsent first stopReason

def chunkOf (d : Delta) : Chunk := { choices := [{ delta := d }] }

/-- A thought, a text and a tool call in two fragments. -/
def toolStream : ChatStream where
  body :=
    [chunkOf { role := "assistant", reasoningContent := some "t" }, chunkOf { content := some "a" },
     chunkOf { toolCalls := [{ index := some 0, id := "x", name := "f" }] },
     chunkOf { toolCalls := [{ index := some 0, arguments := "null" }] }]
  last := { choices := [{ finishReason := some "tool_calls" }], usage := some {} }
  usageOnly := none
  body_single := by
    intro chunk hchunk
    simp only [mem_cons, not_mem_nil, or_false] at hchunk
    rcases hchunk with rfl | rfl | rfl | rfl <;> exact ⟨_, rfl, rfl⟩
  last_single := ⟨_, rfl, by decide⟩
  usageOnly_empty := nofun
  usage := .inl (by decide)

theorem toolStream_carried : CarriesStream toolStream.chunks (claudeEvents 1 {} toolStream.chunks) := by
  refine chat_stream_carried toolStream ?_ ⟨⟨by decide, by decide, by decide⟩, by decide, .inl (by decide)⟩
  exact .inr ⟨rfl, by decide, .inl ⟨0, by decide, rfl, rfl, trivial⟩⟩

theorem finish_text_lost :
    ¬ ∀ s : ChatStream, InOrder 0 (indexedFragments s.chunks) →
      CarriesStream s.chunks (claudeEvents 1 {} s.chunks) := by
  intro h
  let s : ChatStream :=
    { body := [chunkOf { role := "assistant", content := some "" }]
      last := { choices := [{ delta := { content := some "a" }, finishReason := some "stop" }] }
      usageOnly := some { usage := some {} }
      body_single := by
        intro chunk hchunk
        rw [mem_singleton.1 hchunk]
        exact ⟨_, rfl, rfl⟩
      last_single := ⟨_, rfl, by decide⟩
      usageOnly_empty := by
        intro chunk hchunk
        rw [← some.inj hchunk]
        exact ⟨rfl, by decide⟩
      usage := .inr (by decide) }
  have hcarries := h s trivial
  exact absurd hcarries.text (by decide +kernel)

end BeeApi.RelayConvert
