import Mathlib.Algebra.Order.Group.Nat
import Mathlib.Data.List.ReduceOption
import BeeApi.RelayConvert.ChatRuns

/-!
# What a Claude request keeps of a chat conversation

The second loop keeps all of what the first one leaves.  So a request is kept exactly when in each run
of messages that are joined only the last one has tool calls and no quotation mark stands at an end.
-/

namespace BeeApi.RelayConvert

open Strings GoJson List

/-! ## The second loop -/

variable {J F : Type} {enc : ClaudeEncoding J}

/-- A message that the first loop makes of a conversation. -/
structure Formatted (f : Message) : Prop where
  role : f.role = "system" ∨ f.role = "user" ∨ f.role = "assistant" ∨ f.role = "tool"
  notNull : f.content ≠ .null
  notEmpty : f.content ≠ .str ""
  parts : ∀ part ∈ f.parseContent, ∃ text cacheControl, part = .text text cacheControl

def outRole (f : Message) : String := if f.role = "tool" then "user" else f.role

def messageBlocks (enc : ClaudeEncoding J) (f : Message) : List (ClaudeMediaMessage J) :=
  if f.role = "tool" then [toolResultBlock enc f]
  else (f.texts.filter (· ≠ "")).map textBlock ++ f.parseToolCalls.map (toolUseBlock enc)

theorem mapM_partBlock {l : List MediaContent}
    (h : ∀ part ∈ l, ∃ text cacheControl, part = .text text cacheControl) :
    ∃ r, l.mapM (partBlock enc) = .ok r ∧
      r.reduceOption = ((l.filterMap MediaContent.text?).filter (· ≠ "")).map textBlock := by
  induction l with
  | nil => exact ⟨[], rfl, rfl⟩
  | cons part l ih =>
    obtain ⟨text, cacheControl, rfl⟩ := h part mem_cons_self
    obtain ⟨r, hr, hblocks⟩ := ih fun p hp => h p (mem_cons_of_mem _ hp)
    refine ⟨(if text ≠ "" then some (textBlock text) else none) :: r, ?_, ?_⟩
    · rw [mapM_cons, hr]
      rfl
    · have htext : MediaContent.text? (.text text cacheControl) = some text := rfl
      rw [filterMap_cons_some htext]
      by_cases hempty : text = ""
      · rw [if_neg (not_not.2 hempty), reduceOption_cons_of_none, hblocks,
          filter_cons_of_neg (by simpa using hempty)]
      · rw [if_pos hempty, reduceOption_cons_of_some, hblocks,
          filter_cons_of_pos (by simpa using hempty), map_cons]

theorem claudeContent_spec {f : Message} (hf : Formatted f) (hrole : f.role ≠ "tool") :
    ∃ content, claudeContent enc f = .ok content ∧
      ({ role := f.role, content := content } : ClaudeMessage J).allBlocks = messageBlocks enc f := by
  unfold claudeContent messageBlocks
  rw [if_neg hrole]
  split_ifs with hstring hempty
  · refine absurd ?_ hf.notEmpty
    obtain ⟨hs, -⟩ := hstring
    unfold Message.isStringContent at hs
    unfold Message.stringContent at hempty
    cases hc : f.content with
    | null | parts => rw [hc] at hs; exact (nomatch hs)
    | str s => rw [hc] at hempty; exact congrArg MessageContent.str hempty
  · refine ⟨_, rfl, ?_⟩
    rw [texts_of_isStringContent hstring.1, filter_cons_of_pos (by simpa using hempty),
      Message.parseToolCalls, hstring.2]
    rfl
  · obtain ⟨r, hr, hblocks⟩ := @mapM_partBlock _ enc _ hf.parts
    refine ⟨.blocks (r.reduceOption ++ f.parseToolCalls.map (toolUseBlock enc)), ?_, ?_⟩
    · rw [hr]
      rfl
    · rw [hblocks]
      rfl

theorem blocksOf_append (a b : List (ClaudeMessage J)) : blocksOf (a ++ b) = blocksOf a ++ blocksOf b :=
  flatMap_append

theorem blocksOf_singleton (m : ClaudeMessage J) :
    blocksOf [m] = m.allBlocks.map fun b => (m.role, b) := flatMap_singleton _ _

theorem blocksOf_addToolResult (l : List (ClaudeMessage J)) (block : ClaudeMediaMessage J) :
    blocksOf (addToolResult l block) = blocksOf l ++ [("user", block)] := by
  rcases l.eq_nil_or_concat with rfl | ⟨l, last, rfl⟩
  · rfl
  · unfold addToolResult
    rw [concat_eq_append, getLast?_concat]
    dsimp only
    split_ifs with hrole
    · rw [dropLast_concat, blocksOf_append, blocksOf_append, blocksOf_singleton,
        blocksOf_singleton, append_assoc]
      congr 1
      unfold ClaudeMessage.allBlocks
      rw [map_append, hrole]
      congr 1
    · rw [blocksOf_append, blocksOf_singleton]
      rfl

/-- The messages begin with one of the user, once there is one. -/
def StartsWithUser (st : ClaudeLoop J) : Prop :=
  if st.isFirstMessage then st.claudeMessages = []
  else ∃ m rest, st.claudeMessages = m :: rest ∧ m.role = "user"

theorem startsWithUser_addToolResult {m : ClaudeMessage J} {rest : List (ClaudeMessage J)}
    (hm : m.role = "user") (block : ClaudeMediaMessage J) :
    ∃ m' rest', addToolResult (m :: rest) block = m' :: rest' ∧ m'.role = "user" := by
  rcases rest.eq_nil_or_concat with rfl | ⟨rest, last, rfl⟩
  · unfold addToolResult
    rw [getLast?_singleton]
    dsimp only
    rw [if_pos hm]
    exact ⟨_, [], rfl, hm⟩
  · unfold addToolResult
    rw [concat_eq_append, ← cons_append, getLast?_concat]
    dsimp only
    split_ifs with hrole
    · rw [dropLast_concat]
      exact ⟨m, _, rfl, hm⟩
    · exact ⟨m, _, rfl, hm⟩

/-- The placeholder before a conversation that does not begin with the user. -/
def placeholder (first : Bool) (f : Message) : List (String × ClaudeMediaMessage J) :=
  if first = true ∧ f.role ≠ "user" then [("user", textBlock "...")] else []

theorem claudeStep_spec {f : Message} (hf : Formatted f) (hsystem : f.role ≠ "system")
    {st : ClaudeLoop J} (hst : StartsWithUser st) :
    ∃ st', claudeStep enc st f = .ok st' ∧ st'.systemMessages = st.systemMessages ∧
      st'.isFirstMessage = false ∧ StartsWithUser st' ∧
      blocksOf st'.claudeMessages = blocksOf st.claudeMessages ++ placeholder st.isFirstMessage f ++
        (messageBlocks enc f).map fun b => (outRole f, b) := by
  let claudeMessages :=
    if st.isFirstMessage = true ∧ f.role ≠ "user" then
      st.claudeMessages ++ [{ role := "user", content := .blocks [textBlock "..."] }]
    else st.claudeMessages
  have hbefore : blocksOf claudeMessages =
      blocksOf st.claudeMessages ++ placeholder st.isFirstMessage f := by
    unfold claudeMessages placeholder
    split_ifs
    · rw [blocksOf_append]
      rfl
    · rw [append_nil]
  -- the first message of all is the placeholder, or it is the one that is added
  have hstart : f.role = "user" ∧ claudeMessages = [] ∨
      ∃ m rest, claudeMessages = m :: rest ∧ m.role = "user" := by
    unfold StartsWithUser at hst
    unfold claudeMessages
    split_ifs at hst with hfirst
    · by_cases hrole : f.role = "user"
      · rw [if_neg fun h => h.2 hrole]
        exact .inl ⟨hrole, hst⟩
      · rw [if_pos ⟨hfirst, hrole⟩, hst]
        exact .inr ⟨_, [], rfl, rfl⟩
    · rw [if_neg fun h => hfirst h.1]
      exact .inr hst
  unfold claudeStep
  rw [if_neg hsystem]
  by_cases htool : f.role = "tool"
  · rw [if_pos htool]
    refine ⟨_, rfl, rfl, rfl, ?_, ?_⟩
    · rcases hstart with ⟨huser, -⟩ | ⟨m, rest, heq, hm⟩
      · exact absurd (huser.symm.trans htool) (by decide)
      · show ∃ m rest, addToolResult claudeMessages _ = m :: rest ∧ m.role = "user"
        rw [heq]
        exact startsWithUser_addToolResult hm _
    · show blocksOf (addToolResult claudeMessages _) = _
      rw [blocksOf_addToolResult, hbefore, messageBlocks, if_pos htool, outRole, if_pos htool]
      rfl
  · rw [if_neg htool]
    obtain ⟨content, hcontent, hblocks⟩ := @claudeContent_spec _ enc f hf htool
    rw [hcontent]
    refine ⟨_, rfl, rfl, rfl, ?_, ?_⟩
    · show ∃ m rest, claudeMessages ++ [_] = m :: rest ∧ m.role = "user"
      rcases hstart with ⟨huser, hnil⟩ | ⟨m, rest, heq, hm⟩
      · rw [hnil]
        exact ⟨_, [], rfl, huser⟩
      · rw [heq]
        exact ⟨m, _, rfl, hm⟩
    · show blocksOf (claudeMessages ++ [_]) = _
      rw [blocksOf_append, blocksOf_singleton, hblocks, hbefore, outRole, if_neg htool]

structure LoopResult (enc : ClaudeEncoding J) (fs : List Message) (st st' : ClaudeLoop J) : Prop where
  system : st'.systemMessages =
    st.systemMessages ++ (fs.filter (·.role = "system")).flatMap systemBlocks
  first : st'.isFirstMessage = (st.isFirstMessage && fs.all (·.role = "system"))
  starts : StartsWithUser st'
  blocks : ∃ start, (start = [] ∨ start = [("user", textBlock "...")]) ∧
    (st.isFirstMessage = false → start = []) ∧
    blocksOf st'.claudeMessages = blocksOf st.claudeMessages ++ start ++
      (fs.filter (·.role ≠ "system")).flatMap fun f =>
        (messageBlocks enc f).map fun b => (outRole f, b)

theorem foldlM_claudeStep {fs : List Message} (hfs : ∀ f ∈ fs, Formatted f) {st : ClaudeLoop J}
    (hst : StartsWithUser st) :
    ∃ st', fs.foldlM (claudeStep enc) st = .ok st' ∧ LoopResult enc fs st st' := by
  induction fs generalizing st with
  | nil =>
    refine ⟨st, rfl, (append_nil _).symm, (Bool.and_true _).symm, hst, [], .inl rfl,
      fun _ => rfl, ?_⟩
    exact ((append_nil _).trans (append_nil _)).symm
  | cons f fs ih =>
    have hrest : ∀ f' ∈ fs, Formatted f' := fun f' hf' => hfs f' (mem_cons_of_mem f hf')
    rw [foldlM_cons]
    by_cases hsystem : f.role = "system"
    · have hstep : claudeStep enc st f =
          .ok { st with systemMessages := st.systemMessages ++ systemBlocks f } := by
        rw [claudeStep, if_pos hsystem]
      have hst : StartsWithUser { st with systemMessages := st.systemMessages ++ systemBlocks f } :=
        hst
      rw [hstep]
      obtain ⟨st', hrun, hsys, hfirst, hstarts, start, hstart, hnone, hblocks⟩ := ih hrest hst
      refine ⟨st', hrun, ?_, ?_, hstarts, start, hstart, hnone, ?_⟩
      · rw [hsys, filter_cons_of_pos (by simpa using hsystem), flatMap_cons, append_assoc]
      · rw [hfirst, all_cons, decide_eq_true hsystem, Bool.true_and]
      · rw [hblocks, filter_cons_of_neg (by simpa using hsystem)]
    · obtain ⟨st₁, hstep, hsys₁, hfirst₁, hstarts₁, hblocks₁⟩ :=
        @claudeStep_spec _ enc f (hfs f mem_cons_self) hsystem st hst
      rw [hstep]
      obtain ⟨st', hrun, hsys, hfirst, hstarts, start, -, hnone, hblocks⟩ := ih hrest hstarts₁
      refine ⟨st', hrun, ?_, ?_, hstarts, placeholder st.isFirstMessage f, ?_, ?_, ?_⟩
      · rw [hsys, hsys₁, filter_cons_of_neg (by simpa using hsystem)]
      · rw [hfirst, hfirst₁, all_cons, decide_eq_false hsystem, Bool.false_and]
        exact (Bool.and_false _).symm
      · unfold placeholder
        split_ifs
        · exact .inr rfl
        · exact .inl rfl
      · intro hlate
        rw [placeholder, if_neg fun h => (by rw [hlate] at h; exact (nomatch h.1))]
      · rw [hblocks, hnone hfirst₁, hblocks₁, append_nil,
          filter_cons_of_pos (by simpa using hsystem), flatMap_cons, append_assoc]

/-! ## The blocks by kind -/

theorem textsOf_append (a b : List (ClaudeMediaMessage J)) :
    textsOf (a ++ b) = textsOf a ++ textsOf b := by
  rw [textsOf, filter_append, map_append]
  rfl

theorem textsOf_map_textBlock (l : List String) :
    textsOf (l.map (textBlock (J := J))) = l := by
  induction l with
  | nil => rfl
  | cons s l ih => exact congrArg (s :: ·) ih

theorem messageBlocks_by_kind {f : Message} (hrole : f.role ≠ "tool") :
    textsOf (messageBlocks enc f) = f.texts.filter (· ≠ "") ∧
      (messageBlocks enc f).filter (·.type = "tool_use") = f.parseToolCalls.map (toolUseBlock enc) ∧
      (messageBlocks enc f).filter (·.type = "tool_result") = [] := by
  have htext : ∀ b ∈ (f.texts.filter (· ≠ "")).map (textBlock (J := J)), b.type = "text" := by
    intro b hb
    obtain ⟨s, -, rfl⟩ := mem_map.1 hb
    rfl
  have huse : ∀ b ∈ f.parseToolCalls.map (toolUseBlock enc), b.type = "tool_use" := by
    intro b hb
    obtain ⟨call, -, rfl⟩ := mem_map.1 hb
    rfl
  rw [messageBlocks, if_neg hrole]
  refine ⟨?_, ?_, ?_⟩
  · rw [textsOf_append, textsOf_map_textBlock]
    have hnone : (f.parseToolCalls.map (toolUseBlock enc)).filter (·.type = "text") = [] :=
      filter_eq_nil_iff.2 fun b hb => by rw [huse b hb]; decide
    rw [textsOf, hnone]
    exact append_nil _
  · rw [filter_append, filter_eq_nil_iff.2 fun b hb => by rw [htext b hb]; decide,
      filter_eq_self.2 fun b hb => by rw [huse b hb]; decide]
    exact nil_append _
  · rw [filter_append, filter_eq_nil_iff.2 fun b hb => by rw [htext b hb]; decide,
      filter_eq_nil_iff.2 fun b hb => by rw [huse b hb]; decide]
    exact nil_append _

theorem textsOf_systemBlocks (f : Message) :
    textsOf (systemBlocks f : List (ClaudeMediaMessage J)) = f.texts.filter (· ≠ "") := by
  unfold systemBlocks
  split_ifs with hstring hempty
  · rw [texts_of_isStringContent hstring, filter_cons_of_pos (by simpa using hempty)]
    rfl
  · rw [texts_of_isStringContent hstring, filter_cons_of_neg (by simpa using hempty)]
    rfl
  · change _ = (f.parseContent.filterMap MediaContent.text?).filter (· ≠ "")
    generalize f.parseContent = l
    induction l with
    | nil => rfl
    | cons part l ih =>
      cases part with
      | text s cacheControl =>
        have htext : MediaContent.text? (.text s cacheControl) = some s := rfl
        rw [filterMap_cons, filterMap_cons_some htext]
        dsimp only
        by_cases hs : s = ""
        · rw [if_neg (not_not.2 hs), filter_cons_of_neg (by simpa using hs)]
          exact ih
        · rw [if_pos hs, filter_cons_of_pos (by simpa using hs)]
          exact congrArg (s :: ·) ih
      | imageUrl imageUrl => exact ih
      | inputAudio inputAudio => exact ih
      | file file => exact ih
      | videoUrl url => exact ih

/-! ## The message of a run in the second loop -/

variable {g messages : List Message}

theorem formatted_formatRun (hne : g ≠ []) (hchain : g.IsChain fun a b => joins a b = true)
    (hconv : ∀ m ∈ g, m.IsConversation) : Formatted (formatRun g) := by
  match g, hne with
  | [m], _ =>
    have hm := hconv m mem_cons_self
    show Formatted (formatOne m)
    have hcontent : (formatOne m).content =
        if m.content = .null ∨ m.content = .str "" then .str "..." else m.content := rfl
    refine ⟨hm.1, ?_, ?_, ?_⟩
    · rw [hcontent]
      split_ifs with h
      · exact nofun
      · exact fun hnull => h (.inl hnull)
    · rw [hcontent]
      split_ifs with h
      · exact fun h => absurd (MessageContent.str.inj h) (by decide)
      · exact fun hempty => h (.inr hempty)
    · unfold Message.parseContent
      rw [hcontent]
      split_ifs with h
      · intro part hpart
        exact ⟨_, _, mem_singleton.1 hpart⟩
      · exact hm.2.2
  | m :: m' :: ms, _ =>
    have hrole := role_formatRun hchain m mem_cons_self
    obtain ⟨-, -, -, hstring⟩ := @foldl_joinInto (formatOne m) m (m' :: ms)
    have hstring : (formatRun (m :: m' :: ms)).isStringContent = true :=
      hstring (.inr (cons_ne_nil m' ms))
    have hlast : ∃ made x, formatRun (m :: m' :: ms) = joinInto made x := by
      rcases (m' :: ms).eq_nil_or_concat with h | ⟨l, x, h⟩
      · exact (nomatch h)
      · refine ⟨l.foldl joinInto (formatOne m), x, ?_⟩
        show (m' :: ms).foldl joinInto (formatOne m) = _
        rw [h, concat_eq_append, foldl_append]
        rfl
    obtain ⟨made, x, hmade⟩ := hlast
    have hcontent : (formatRun (m :: m' :: ms)).content =
        .str (joinedText made.stringContent x.stringContent) := by
      rw [hmade]
      rfl
    refine ⟨hrole ▸ (hconv m mem_cons_self).1, ?_, ?_, ?_⟩
    · rw [hcontent]
      exact nofun
    · rw [hcontent]
      exact fun h => joinedText_ne_empty _ _ (MessageContent.str.inj h)
    · unfold Message.parseContent
      rw [hcontent]
      intro part hpart
      exact ⟨_, _, mem_singleton.1 hpart⟩

def runBlocks (enc : ClaudeEncoding J) (g : List Message) : List (String × ClaudeMediaMessage J) :=
  (messageBlocks enc (formatRun g)).map fun b => (outRole (formatRun g), b)

theorem map_snd_runBlocks (g : List Message) :
    (runBlocks enc g).map Prod.snd = messageBlocks enc (formatRun g) := by
  rw [runBlocks, map_map]
  exact map_id _

theorem all_system_iff (hne : g ≠ []) (hchain : g.IsChain fun a b => joins a b = true) :
    g.all (·.role = "system") = decide ((formatRun g).role = "system") := by
  cases g with
  | nil => exact absurd rfl hne
  | cons m ms =>
    have hrole := role_formatRun hchain
    rw [Bool.eq_iff_iff, all_eq_true, decide_eq_true_iff]
    constructor
    · intro h
      rw [← hrole m mem_cons_self]
      exact of_decide_eq_true (h m mem_cons_self)
    · exact fun h x hx => decide_eq_true ((hrole x hx).trans h)

theorem carriesRun_runBlocks (hne : g ≠ []) (hchain : g.IsChain fun a b => joins a b = true)
    (hconv : ∀ m ∈ g, m.IsConversation) (hkept : KeptRun g) :
    CarriesRun enc (runBlocks enc g) g := by
  cases g with
  | nil => exact absurd rfl hne
  | cons m ms =>
    have hrole := role_formatRun hchain
    have hroles : ∀ e ∈ runBlocks enc (m :: ms), ∀ x ∈ m :: ms,
        e.1 = if x.role = "tool" then "user" else x.role := by
      intro e he x hx
      obtain ⟨b, -, rfl⟩ := mem_map.1 he
      rw [hrole x hx]
      rfl
    by_cases htool : (formatRun (m :: ms)).role = "tool"
    · -- a tool message stands alone
      have hms : ms = [] := by
        cases ms with
        | nil => rfl
        | cons m' ms =>
          refine absurd ?_ (of_joins (isChain_cons_cons.1 hchain).1).2.1
          rw [hrole m mem_cons_self, htool]
      subst hms
      have hm : m.role = "tool" := (hrole m mem_cons_self).trans htool
      have hblocks : (runBlocks enc [m]).map Prod.snd = [toolResultBlock enc (formatOne m)] := by
        rw [map_snd_runBlocks, messageBlocks, if_pos htool]
        rfl
      refine ⟨hroles, fun h => absurd hm (h m mem_cons_self), fun _ => ?_, ?_, ?_⟩
      · rw [hblocks]
        rfl
      · rw [hblocks]
        have hnone : m.parseToolCalls = [] := by
          unfold Message.parseToolCalls
          have hcalls : m.toolCalls = none := by
            by_contra hcalls
            have hassistant := (hconv m mem_cons_self).2.1 hcalls
            exact absurd (hassistant.symm.trans hm) (by decide)
          rw [hcalls]
          rfl
        rw [flatMap_singleton, hnone]
        exact .nil
      · rw [hblocks, filter_cons_of_pos (p := fun x : Message => decide (x.role = "tool"))
          (decide_eq_true hm)]
        refine .cons ⟨?_, ?_⟩ .nil
        · show (if m.role = "tool" then m.toolCallId else "") = m.toolCallId
          rw [if_pos hm]
        · have hcontent : (toolResultBlock enc (formatOne m)).content = toolResultContent enc
              (if m.content = .null ∨ m.content = .str "" then .str "..." else m.content) := rfl
          rw [hcontent]
          split_ifs with hc
          · exact .inr ⟨hc, rfl⟩
          · exact .inl rfl
    · obtain ⟨htexts, huses, hresults⟩ := @messageBlocks_by_kind _ enc _ htool
      have hno : ∀ x ∈ m :: ms, x.role ≠ "tool" := fun x hx => hrole x hx ▸ htool
      refine ⟨hroles, fun _ => ?_, fun h => ?_, ?_, ?_⟩
      · rw [map_snd_runBlocks, htexts]
        exact keepsTexts_formatRun hne hchain hkept
      · obtain ⟨x, hx, heq⟩ := h
        exact absurd heq (hno x hx)
      · have hflat : (m :: ms).flatMap Message.parseToolCalls =
            ((m :: ms).getLast (cons_ne_nil m ms)).parseToolCalls := by
          conv_lhs => rw [← dropLast_append_getLast (cons_ne_nil m ms)]
          rw [flatMap_append, flatMap_eq_nil_iff.2 hkept.1, nil_append, flatMap_singleton]
        rw [map_snd_runBlocks, huses, parseToolCalls_formatRun hconv, hflat]
        exact forall₂_map_left_iff.2 (forall₂_same.2 fun _ _ => ⟨rfl, rfl⟩)
      · rw [map_snd_runBlocks, hresults, filter_eq_nil_iff.2]
        · exact .nil
        · exact fun x hx => by simpa using hno x hx

/-! ## The weight of a request -/

/-- The quotation marks of the texts and the tool calls of a Claude request. -/
def requestWeight (req : ClaudeRequest J) : ℕ :=
  quotesOf (textsOf req.systemBlocks) + (quotesOf (textsOf ((blocksOf req.messages).map Prod.snd)) +
      (((blocksOf req.messages).map Prod.snd).filter (·.type = "tool_use")).length)

theorem quotes_intercalate (l : List String) : quotes (" ".intercalate l) = quotesOf l := by
  induction l with
  | nil => rfl
  | cons s l ih =>
    cases l with
    | nil =>
      rw [String.intercalate_singleton]
      exact (Nat.add_zero _).symm
    | cons t l =>
      rw [String.intercalate_cons_cons, quotes_append, quotes_append, ih]
      rfl

theorem quotesOf_of_keepsTexts {texts : List String} (h : KeepsTexts g texts) :
    quotesOf texts = (g.map fun m => quotesOf m.texts).sum := by
  cases h with
  | @joined _ pieces hg hpieces =>
    have hsum : quotesOf pieces = quotesOf (g.map Message.stringContent) := by
      clear hg
      generalize g.map Message.stringContent = l at hpieces
      induction hpieces with
      | nil => rfl
      | cons hstands _ ih =>
        rw [quotesOf, map_cons, sum_cons, quotes_of_standsFor hstands]
        exact congrArg (_ + ·) ih
    rw [quotesOf, map_singleton, sum_singleton, quotes_intercalate, hsum, quotesOf, map_map]
    exact congrArg List.sum (map_congr_left fun m hm => (quotesOf_texts (hg m hm)).symm)
  | @parts m l hm =>
    rw [quotesOf_filter]
    exact (Nat.add_zero _).symm

theorem sum_filter_add {α : Type} (p : α → Bool) (f : α → ℕ) (l : List α) :
    ((l.filter p).map f).sum + ((l.filter fun x => !p x).map f).sum = (l.map f).sum := by
  induction l with
  | nil => rfl
  | cons x l ih =>
    cases hp : p x with
    | false =>
      rw [filter_cons_of_neg (by simp [hp]), filter_cons_of_pos (by simp [hp]),
        map_cons, map_cons, sum_cons, sum_cons]
      omega
    | true =>
      rw [filter_cons_of_pos hp, filter_cons_of_neg (by simp [hp]),
        map_cons, map_cons, sum_cons, sum_cons]
      omega

theorem sum_eq_of_forall₂ {α β : Type} {R : α → β → Prop} {f : α → ℕ} {g : β → ℕ} {l : List α}
    {l' : List β} (h : List.Forall₂ R l l') (hR : ∀ a ∈ l, ∀ b ∈ l', R a b → f a = g b) :
    (l.map f).sum = (l'.map g).sum := by
  induction h with
  | nil => rfl
  | cons hab _ ih =>
    rw [map_cons, map_cons, sum_cons, sum_cons, hR _ mem_cons_self _ mem_cons_self hab,
      ih fun a ha b hb => hR a (mem_cons_of_mem _ ha) b (mem_cons_of_mem _ hb)]

theorem sum_map_flatten {α : Type} (f : α → ℕ) (gs : List (List α)) :
    (gs.flatten.map f).sum = (gs.map fun g => (g.map f).sum).sum := by
  induction gs with
  | nil => rfl
  | cons g gs ih =>
    rw [flatten_cons, map_append, sum_append, ih]
    rfl

theorem eq_of_sum_eq {α : Type} {f g : α → ℕ} {l : List α} (hle : ∀ x ∈ l, f x ≤ g x)
    (h : (l.map f).sum = (l.map g).sum) : ∀ x ∈ l, f x = g x := by
  induction l with
  | nil => exact nofun
  | cons a l ih =>
    have hrest : ∀ x ∈ l, f x ≤ g x := fun x hx => hle x (mem_cons_of_mem a hx)
    have ha := hle a mem_cons_self
    have hsum : (l.map f).sum ≤ (l.map g).sum := sum_le_sum hrest
    rw [map_cons, map_cons, sum_cons, sum_cons] at h
    intro x hx
    rcases mem_cons.1 hx with rfl | hx
    · omega
    · exact ih hrest (by omega) x hx

theorem parseToolCalls_eq_nil {m : Message} (h : m.IsConversation) (hrole : m.role ≠ "assistant") :
    m.parseToolCalls = [] := by
  have hcalls : m.toolCalls = none := by
    by_contra hcalls
    exact hrole (h.2.1 hcalls)
  rw [Message.parseToolCalls, hcalls]
  rfl

theorem weight_of_carriesRun {seg : List (String × ClaudeMediaMessage J)} (h : CarriesRun enc seg g)
    (hrun : IsRun g) (hconv : ∀ m ∈ g, m.IsConversation) :
    quotesOf (textsOf (seg.map Prod.snd)) +
        ((seg.map Prod.snd).filter (·.type = "tool_use")).length = (g.map messageWeight).sum := by
  have hcalls : ((seg.map Prod.snd).filter (·.type = "tool_use")).length =
      (g.map fun m => m.parseToolCalls.length).sum := by
    rw [h.calls.length_eq, length_flatMap]
  obtain ⟨hne, hchain⟩ := hrun
  have hsplit : (g.map messageWeight).sum =
      (g.map fun m => if m.role = "tool" then 0 else quotesOf m.texts).sum +
        (g.map fun m => m.parseToolCalls.length).sum := sum_map_add
  rw [hsplit, hcalls]
  congr 1
  by_cases htool : ∃ m ∈ g, m.role = "tool"
  · -- then all of the run are tool messages
    have hall : ∀ m ∈ g, m.role = "tool" := by
      cases g with
      | nil => exact absurd rfl hne
      | cons m ms =>
        have hsame := role_eq_of_chain (fun _ _ h => h.1) hchain
        obtain ⟨x, hx, hxtool⟩ := htool
        have hm : m.role = "tool" := by
          rcases mem_cons.1 hx with rfl | hx
          · exact hxtool
          · exact (hsame x hx).symm.trans hxtool
        intro y hy
        rcases mem_cons.1 hy with rfl | hy
        · exact hm
        · exact (hsame y hy).trans hm
    rw [h.noText htool]
    refine (List.sum_eq_zero_iff_forall_eq_nat.2 fun n hn => ?_).symm
    obtain ⟨m, hm, rfl⟩ := List.mem_map.1 hn
    exact if_pos (hall m hm)
  · have hno : ∀ m ∈ g, m.role ≠ "tool" := fun m hm heq => htool ⟨m, hm, heq⟩
    rw [quotesOf_of_keepsTexts (h.texts hno)]
    exact congrArg List.sum (map_congr_left fun m hm => (if_neg (hno m hm)).symm)

theorem textsOf_map_flatten (segs : List (List (String × ClaudeMediaMessage J))) :
    quotesOf (textsOf (segs.flatten.map Prod.snd)) +
        ((segs.flatten.map Prod.snd).filter (·.type = "tool_use")).length =
      (segs.map fun seg => quotesOf (textsOf (seg.map Prod.snd)) +
        ((seg.map Prod.snd).filter (·.type = "tool_use")).length).sum := by
  induction segs with
  | nil => rfl
  | cons seg segs ih =>
    rw [flatten_cons, map_append, textsOf_append, quotesOf_append, filter_append,
      length_append, map_cons, sum_cons, ← ih]
    omega

theorem quotesOf_flatten (l : List (List String)) :
    quotesOf l.flatten = (l.map quotesOf).sum := by
  induction l with
  | nil => rfl
  | cons a l ih =>
    rw [flatten_cons, quotesOf_append, ih]
    rfl

theorem requestWeight_of_keepsChat {req : ClaudeRequest J} (h : KeepsChat enc messages req)
    (hconv : ∀ m ∈ messages, m.IsConversation) :
    requestWeight req = (messages.map messageWeight).sum := by
  obtain ⟨groups, prompt, segs, start, hflatten, hgroups, hprompt, hsystem, hsegs, hstart,
    hblocks⟩ := h.runs
  have hmem : ∀ g ∈ groups, ∀ m ∈ g, m.IsConversation := by
    intro g hg m hm
    exact hconv m (hflatten ▸ mem_flatten.2 ⟨g, hg, hm⟩)
  have hstartWeight : quotesOf (textsOf (start.map Prod.snd)) = 0 ∧
      (start.map Prod.snd).filter (·.type = "tool_use") = [] := by
    rcases hstart with rfl | rfl
    · exact ⟨rfl, rfl⟩
    · exact ⟨show quotesOf ["..."] = 0 by decide, rfl⟩
  -- the texts of the system prompt
  have hpromptSum : quotesOf (textsOf req.systemBlocks) =
      ((groups.filter fun g => g.all (·.role = "system")).map fun g => (g.map messageWeight).sum).sum := by
    rw [hsystem, quotesOf_flatten]
    refine (sum_eq_of_forall₂ hprompt fun g hg texts _ hkeeps => ?_).symm
    obtain ⟨hg, hall⟩ := mem_filter.1 hg
    rw [quotesOf_of_keepsTexts hkeeps]
    refine congrArg List.sum (map_congr_left fun m hm => ?_)
    have hrole : m.role = "system" := of_decide_eq_true (all_eq_true.1 hall m hm)
    have hnotTool : m.role ≠ "tool" := by rw [hrole]; decide
    have hnotAssistant : m.role ≠ "assistant" := by rw [hrole]; decide
    rw [messageWeight, if_neg hnotTool, parseToolCalls_eq_nil (hmem g hg m hm) hnotAssistant]
    rfl
  -- the blocks of the messages
  have hsegSum : (segs.map fun seg => quotesOf (textsOf (seg.map Prod.snd)) +
        ((seg.map Prod.snd).filter (·.type = "tool_use")).length).sum =
      ((groups.filter fun g => !g.all (·.role = "system")).map
        fun g => (g.map messageWeight).sum).sum := by
    refine sum_eq_of_forall₂ hsegs fun seg _ g hg hcarries => ?_
    have hg := (mem_filter.1 hg).1
    exact weight_of_carriesRun hcarries (hgroups g hg) (hmem g hg)
  have hblockSum := textsOf_map_flatten segs
  rw [requestWeight, hblocks, map_append, textsOf_append, quotesOf_append, filter_append,
    hstartWeight.1, hstartWeight.2, Nat.zero_add, nil_append, hblockSum, hpromptSum, hsegSum,
    sum_filter_add, ← sum_map_flatten, hflatten]

/-! ## The whole conversion -/

theorem filter_map_formatRun {gs : List (List Message)} {p : Bool → Bool}
    (h : ∀ g ∈ gs, g ≠ [] ∧ g.IsChain fun a b => joins a b = true) :
    (gs.map formatRun).filter (fun f => p (decide (f.role = "system"))) =
      (gs.filter fun g => p (g.all (·.role = "system"))).map formatRun := by
  rw [filter_map]
  congr 1
  refine filter_congr fun g hg => ?_
  rw [all_system_iff (h g hg).1 (h g hg).2]
  rfl

structure Converted (enc : ClaudeEncoding J) (messages : List Message) (req : ClaudeRequest J) :
    Prop where
  system : textsOf req.systemBlocks =
    ((runs messages).filter fun g => g.all (·.role = "system")).flatMap fun g =>
      (formatRun g).texts.filter (· ≠ "")
  blocks : ∃ start, (start = [] ∨ start = [("user", textBlock "...")]) ∧
    blocksOf req.messages = start ++
      (((runs messages).filter fun g => !g.all (·.role = "system")).map (runBlocks enc)).flatten
  first : (∃ m rest, req.messages = m :: rest ∧ m.role = "user") ↔ ∃ m ∈ messages, m.role ≠ "system"

theorem converted_messages (enc : ClaudeEncoding J) (hconv : ∀ m ∈ messages, m.IsConversation) :
    ∃ st, (formatMessages messages).foldlM (claudeStep enc) {} = .ok st ∧ Converted enc messages
        { system := if st.systemMessages ≠ [] then .blocks st.systemMessages else .null
          messages := st.claudeMessages } := by
  have hruns : ∀ g ∈ runs messages, g ≠ [] ∧ g.IsChain fun a b => joins a b = true :=
    fun g hg => ⟨(mem_runs hg).1, (mem_runs hg).2.1⟩
  have hformatted : ∀ g ∈ runs messages, Formatted (formatRun g) := fun g hg =>
    formatted_formatRun (mem_runs hg).1 (mem_runs hg).2.1 fun m hm => hconv m ((mem_runs hg).2.2 m hm)
  have hall : ∀ f ∈ (runs messages).map formatRun, Formatted f := by
    intro f hf
    obtain ⟨g, hg, rfl⟩ := mem_map.1 hf
    exact hformatted g hg
  obtain ⟨st, hrun, hsystem, hfirst, hstarts, start, hstart, -, hblocks⟩ :=
    @foldlM_claudeStep _ enc _ hall {} (show StartsWithUser _ from rfl)
  refine ⟨st, ?_, ?_, ?_, ?_⟩
  · rw [formatMessages_eq]
    exact hrun
  · have hsystemBlocks : ∀ l : List (ClaudeMediaMessage J),
        ({ system := if l ≠ [] then .blocks l else .null } : ClaudeRequest J).systemBlocks = l := by
      intro l
      unfold ClaudeRequest.systemBlocks
      by_cases hl : l = []
      · subst hl
        rfl
      · dsimp only
        rw [if_pos hl]
    have hfilter := @filter_map_formatRun _ (fun b => b) hruns
    show textsOf (ClaudeRequest.systemBlocks { system := _ }) = _
    rw [hsystemBlocks, hsystem]
    dsimp only at hfilter ⊢
    rw [hfilter, nil_append, flatMap_map]
    -- run by run
    generalize (runs messages).filter (fun g => g.all (·.role = "system")) = gs
    induction gs with
    | nil => rfl
    | cons g gs ih =>
      rw [flatMap_cons, textsOf_append, textsOf_systemBlocks, ih, flatMap_cons]
  · have hfilter := @filter_map_formatRun _ (fun b => !b) hruns
    have hne : (fun f : Message => decide (f.role ≠ "system")) =
        fun f => !decide (f.role = "system") := by
      funext f
      exact decide_not
    refine ⟨start, hstart, ?_⟩
    dsimp only at hfilter hblocks ⊢
    rw [hblocks, hne, hfilter, flatMap_map, flatMap_def]
    rfl
  · have hfirst : st.isFirstMessage = messages.all (·.role = "system") := by
      have hsplit : messages.all (fun m => decide (m.role = "system")) =
          (runs messages).all fun g => g.all fun m => decide (m.role = "system") := by
        conv_lhs => rw [← flatten_splitBy joins messages, all_flatten]
        rfl
      rw [hfirst, Bool.true_and, all_map, hsplit, Bool.eq_iff_iff, all_eq_true, all_eq_true]
      refine forall₂_congr fun g hg => ?_
      rw [all_system_iff (hruns g hg).1 (hruns g hg).2]
      rfl
    have hexists : (∃ m ∈ messages, m.role ≠ "system") ↔ st.isFirstMessage = false := by
      rw [hfirst, all_eq_false]
      simp only [decide_eq_true_eq]
    rw [hexists]
    unfold StartsWithUser at hstarts
    cases hst : st.isFirstMessage with
    | true =>
      rw [hst, if_pos rfl] at hstarts
      refine ⟨fun h => ?_, nofun⟩
      obtain ⟨m, rest, heq, -⟩ := h
      exact (nomatch hstarts.symm.trans heq)
    | false =>
      rw [hst, if_neg (by decide)] at hstarts
      exact ⟨fun _ => rfl, fun _ => hstarts⟩

theorem requestWeight_of_converted {req : ClaudeRequest J} (h : Converted enc messages req)
    (hconv : ∀ m ∈ messages, m.IsConversation) :
    requestWeight req = ((runs messages).map fun g => messageWeight (formatRun g)).sum := by
  obtain ⟨start, hstart, hblocks⟩ := h.blocks
  have hstartWeight : quotesOf (textsOf (start.map Prod.snd)) = 0 ∧
      (start.map Prod.snd).filter (·.type = "tool_use") = [] := by
    rcases hstart with rfl | rfl
    · exact ⟨rfl, rfl⟩
    · exact ⟨show quotesOf ["..."] = 0 by decide, rfl⟩
  have hno : ∀ g ∈ runs messages, (formatRun g).role ≠ "assistant" →
      (formatRun g).parseToolCalls = [] := by
    intro g hg hrole
    obtain ⟨hne, hchain, hmem⟩ := mem_runs hg
    cases g with
    | nil => exact absurd rfl hne
    | cons m ms =>
      have hlast := getLast_mem (cons_ne_nil m ms)
      rw [parseToolCalls_formatRun fun x hx => hconv x (hmem x hx)]
      refine parseToolCalls_eq_nil (hconv _ (hmem _ hlast)) ?_
      rw [role_formatRun hchain _ hlast]
      exact hrole
  have hsystemSum : quotesOf (textsOf req.systemBlocks) =
      (((runs messages).filter fun g => g.all (·.role = "system")).map
        fun g => messageWeight (formatRun g)).sum := by
    rw [h.system, flatMap_def, quotesOf_flatten, map_map]
    refine congrArg List.sum (map_congr_left fun g hg => ?_)
    obtain ⟨hg, hall⟩ := mem_filter.1 hg
    rw [all_system_iff (mem_runs hg).1 (mem_runs hg).2.1, decide_eq_true_iff] at hall
    have hnotTool : (formatRun g).role ≠ "tool" := by rw [hall]; decide
    have hnotAssistant : (formatRun g).role ≠ "assistant" := by rw [hall]; decide
    rw [messageWeight, if_neg hnotTool, hno g hg hnotAssistant]
    exact quotesOf_filter _
  have hblockSum : ((((runs messages).filter fun g => !g.all (·.role = "system")).map
        (runBlocks enc)).map fun seg => quotesOf (textsOf (seg.map Prod.snd)) +
          ((seg.map Prod.snd).filter (·.type = "tool_use")).length).sum =
      (((runs messages).filter fun g => !g.all (·.role = "system")).map
        fun g => messageWeight (formatRun g)).sum := by
    rw [map_map]
    refine congrArg List.sum (map_congr_left fun g hg => ?_)
    have hg := (mem_filter.1 hg).1
    dsimp only [Function.comp_apply]
    rw [map_snd_runBlocks, messageWeight]
    by_cases htool : (formatRun g).role = "tool"
    · have hnotAssistant : (formatRun g).role ≠ "assistant" := by rw [htool]; decide
      rw [if_pos htool, hno g hg hnotAssistant, messageBlocks, if_pos htool]
      rfl
    · obtain ⟨htexts, huses, -⟩ := @messageBlocks_by_kind _ enc _ htool
      rw [if_neg htool, htexts, huses, quotesOf_filter, length_map]
  rw [requestWeight, hblocks, map_append, textsOf_append, quotesOf_append, filter_append,
    hstartWeight.1, hstartWeight.2, Nat.zero_add, nil_append, textsOf_map_flatten, hblockSum,
    hsystemSum, sum_filter_add]

theorem stopSequences_iff (stop : StopField) :
    (∃ l, stopSequences stop = .ok l) ↔ ∀ l, stop = .list l → none ∉ l := by
  cases stop with
  | null | other => exact ⟨nofun, fun _ => ⟨[], rfl⟩⟩
  | str s => exact ⟨nofun, fun _ => ⟨[s], rfl⟩⟩
  | list l =>
    have hlist : (∃ l', stopSequences (.list l) = .ok l') ↔ none ∉ l := by
      unfold stopSequences
      dsimp only
      induction l with
      | nil => exact ⟨nofun, fun _ => ⟨[], rfl⟩⟩
      | cons s l ih =>
        rw [mapM_cons]
        cases s with
        | none => exact ⟨fun ⟨_, h⟩ => (nomatch h), fun h => absurd mem_cons_self h⟩
        | some s =>
          have hmem : none ∉ some s :: l ↔ none ∉ l := by simp
          rw [hmem, ← ih]
          constructor
          · rintro ⟨l', hl'⟩
            cases hrest : l.mapM assertString with
            | error e => rw [hrest] at hl'; exact (nomatch hl')
            | ok rest => exact ⟨rest, rfl⟩
          · rintro ⟨rest, hrest⟩
            rw [hrest]
            exact ⟨s :: rest, rfl⟩
    rw [hlist]
    exact ⟨fun h l' heq => StopField.list.inj heq ▸ h, fun h => h l rfl⟩

theorem unmarshalReasoning_iff (codec : GoJson.Codec F) (reasoning : Option Json) :
    unmarshalReasoning codec reasoning = .ok () ↔
      ∀ j ∈ reasoning, (Ty.struct openRouterRequestReasoning).Matches codec j := by
  cases reasoning with
  | none => exact ⟨fun _ => nofun, fun _ => rfl⟩
  | some j =>
    have hmember : (∀ j' ∈ some j, (Ty.struct openRouterRequestReasoning).Matches codec j') ↔
        (Ty.struct openRouterRequestReasoning).Matches codec j := by simp
    rw [hmember, ← Ty.decode_iff _ j (Ty.zero codec _)]
    unfold unmarshalReasoning
    dsimp only
    split_ifs with hdecode
    · exact iff_of_true rfl hdecode
    · exact iff_of_false nofun hdecode

/-- **A chat request keeps its conversation** exactly when its `reasoning` is of the kind that is asked
for, the elements of its stop list are strings, some message is no system message, and of each run of
messages that are joined only the last one has tool calls and no quotation mark stands at an end. -/
theorem chat_request_kept_iff (codec : GoJson.Codec F) (enc : ClaudeEncoding J) (req : ChatRequest)
    (h : ∀ m ∈ req.messages, m.IsConversation) :
    (∃ out stop, openAIChatRequestToClaudeMessages codec enc req = .ok (out, stop) ∧
        KeepsChat enc req.messages out) ↔
      (∀ j ∈ req.reasoning, (Ty.struct openRouterRequestReasoning).Matches codec j) ∧
      (∀ l, req.stop = .list l → none ∉ l) ∧ (∃ m ∈ req.messages, m.role ≠ "system") ∧
        ∀ g ∈ runs req.messages, KeptRun g := by
  obtain ⟨st, hmessages, hconverted⟩ := converted_messages enc h
  let made : ClaudeRequest J :=
    { system := if st.systemMessages ≠ [] then .blocks st.systemMessages else .null
      messages := st.claudeMessages }
  have hrun : ∀ stop, unmarshalReasoning codec req.reasoning = .ok () →
      stopSequences req.stop = .ok stop →
      openAIChatRequestToClaudeMessages codec enc req = .ok (made, stop) := by
    intro stop hreasoning hstop
    unfold openAIChatRequestToClaudeMessages
    rw [hreasoning, hstop]
    show (do
      let st ← (formatMessages req.messages).foldlM (claudeStep enc) {}
      return (({ system := if st.systemMessages ≠ [] then .blocks st.systemMessages else .null
                 messages := st.claudeMessages } : ClaudeRequest J), stop)) = _
    rw [hmessages]
    rfl
  have hmem : ∀ g ∈ runs req.messages, ∀ m ∈ g, m.IsConversation :=
    fun g hg m hm => h m ((mem_runs hg).2.2 m hm)
  rw [← stopSequences_iff, ← unmarshalReasoning_iff]
  constructor
  · rintro ⟨out, stop, hout, hkeeps⟩
    have hreasoning : unmarshalReasoning codec req.reasoning = .ok () := by
      cases hr : unmarshalReasoning codec req.reasoning with
      | error e =>
        unfold openAIChatRequestToClaudeMessages at hout
        rw [hr] at hout
        exact (nomatch hout)
      | ok => rfl
    have hstop : stopSequences req.stop = .ok stop := by
      cases hs : stopSequences req.stop with
      | error e =>
        unfold openAIChatRequestToClaudeMessages at hout
        rw [hreasoning, hs] at hout
        exact (nomatch hout)
      | ok stop' =>
        have hsame := Except.ok.inj ((hrun stop' hreasoning hs).symm.trans hout)
        exact congrArg Except.ok (Prod.mk.inj hsame).2
    obtain rfl : made = out :=
      (Prod.mk.inj (Except.ok.inj ((hrun stop hreasoning hstop).symm.trans hout))).1
    refine ⟨hreasoning, ⟨stop, hstop⟩, hconverted.first.1 hkeeps.first, ?_⟩
    -- a run that lost something would make the request lighter than the conversation
    have hweight := (requestWeight_of_converted hconverted h).symm.trans
      (requestWeight_of_keepsChat hkeeps h)
    have hflatten : (runs req.messages).flatten = req.messages := flatten_splitBy _ _
    have hsum : (req.messages.map messageWeight).sum =
        ((runs req.messages).map fun g => (g.map messageWeight).sum).sum := by
      rw [← sum_map_flatten, hflatten]
    have hequal := eq_of_sum_eq (fun g hg =>
      (messageWeight_formatRun (mem_runs hg).1 (mem_runs hg).2.1 (hmem g hg)).1) (hweight.trans hsum)
    intro g hg
    exact (messageWeight_formatRun (mem_runs hg).1 (mem_runs hg).2.1 (hmem g hg)).2 (hequal g hg)
  · rintro ⟨hreasoning, ⟨stop, hstop⟩, hfirst, hkept⟩
    obtain ⟨start, hstart, hblocks⟩ := hconverted.blocks
    refine ⟨made, stop, hrun stop hreasoning hstop, ⟨runs req.messages,
      ((runs req.messages).filter fun g => g.all (·.role = "system")).map fun g =>
        (formatRun g).texts.filter (· ≠ ""),
      ((runs req.messages).filter fun g => !g.all (·.role = "system")).map (runBlocks enc),
      start, flatten_splitBy _ _, fun g hg => ⟨(mem_runs hg).1, ?_⟩, ?_, ?_, ?_, hstart,
      hblocks⟩, hconverted.first.2 hfirst⟩
    · exact (mem_runs hg).2.1.imp fun a b hjoins => ⟨(of_joins hjoins).1, (of_joins hjoins).2.1⟩
    · refine forall₂_map_right_iff.2 (forall₂_same.2 fun g hg => ?_)
      have hg := (mem_filter.1 hg).1
      exact keepsTexts_formatRun (mem_runs hg).1 (mem_runs hg).2.1 (hkept g hg)
    · rw [hconverted.system, flatMap_def]
    · refine forall₂_map_left_iff.2 (forall₂_same.2 fun g hg => ?_)
      have hg := (mem_filter.1 hg).1
      exact carriesRun_runBlocks (mem_runs hg).1 (mem_runs hg).2.1 (hmem g hg) (hkept g hg)

/-- Requests whose calls have no arguments and whose parts are texts. -/
def noArguments : ClaudeEncoding Unit where
  unmarshalArguments := fun _ => ()
  marshalParts := fun _ => ()
  mediaBlock := fun _ => .ok none

/-- Two questions, and an answer in two parts of which the second has a tool call, with an effort. -/
theorem chat_request_kept :
    ∃ out stop, openAIChatRequestToClaudeMessages wholeNumbers noArguments
        { messages :=
            [{ role := "system", content := .str "s" }, { role := "user", content := .str "a" },
             { role := "user", content := .str "b" }, { role := "assistant", content := .str "c" },
             { role := "assistant"
               content := .str ""
               toolCalls := some [{ id := "x", name := "f", arguments := "\x7b\x7d" }] },
             { role := "tool", content := .str "r", toolCallId := "x" }]
          reasoning := some (.obj [("effort", .str "high")]) } = .ok (out, stop) ∧
      KeepsChat noArguments
        [{ role := "system", content := .str "s" }, { role := "user", content := .str "a" },
         { role := "user", content := .str "b" }, { role := "assistant", content := .str "c" },
         { role := "assistant"
           content := .str ""
           toolCalls := some [{ id := "x", name := "f", arguments := "\x7b\x7d" }] },
         { role := "tool", content := .str "r", toolCallId := "x" }] out := by
  refine (chat_request_kept_iff wholeNumbers noArguments { messages := _, reasoning := _ } ?_).2
    ⟨?_, ?_, ?_, by decide +kernel⟩
  · intro m hm
    simp only [mem_cons, not_mem_nil, or_false] at hm
    rcases hm with rfl | rfl | rfl | rfl | rfl | rfl <;>
      exact ⟨by decide, by decide, fun part hpart => ⟨_, _, mem_singleton.1 hpart⟩⟩
  · rintro j ⟨⟩
    exact (Ty.decode_iff _ _ (Ty.zero wholeNumbers _)).1 (by decide +kernel)
  · exact nofun
  · exact ⟨_, mem_cons_of_mem _ mem_cons_self, by decide⟩

theorem tool_call_of_first_message_lost :
    ¬ ∀ req : ChatRequest, (∀ m ∈ req.messages, m.IsConversation) →
      ∃ out stop,
        openAIChatRequestToClaudeMessages wholeNumbers noArguments req = .ok (out, stop) ∧
          KeepsChat noArguments req.messages out := by
  intro h
  let messages : List Message :=
    [{ role := "user", content := .str "q" },
     { role := "assistant", content := .str "a", toolCalls := some [{ id := "x", name := "f" }] },
     { role := "assistant", content := .str "b" }]
  have hdomain : ∀ m ∈ messages, m.IsConversation := by
    intro m hm
    simp only [messages, mem_cons, not_mem_nil, or_false] at hm
    rcases hm with rfl | rfl | rfl <;>
      exact ⟨by decide, by decide, fun part hpart => ⟨_, _, mem_singleton.1 hpart⟩⟩
  obtain ⟨out, stop, hout, hkeeps⟩ := h { messages := messages } hdomain
  have hweight := requestWeight_of_keepsChat hkeeps hdomain
  cases hout
  exact absurd hweight (by decide +kernel)

end BeeApi.RelayConvert
