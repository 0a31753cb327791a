import BeeApi.Relay.LawfulFormats

/-!
# Streaming as a way round the filter

The hold and the filter of whole answers agree on an answer in every split of it, unless one of its
blocks is read in two ways, or a chunk can end with exactly as many tokens as the threshold in front of
the apology.
-/

namespace BeeApi.Quality

open Strings List String Bool

inductive AnswerFormat
  | chat
  | claude
  | gemini
  | responses
deriving DecidableEq

namespace AnswerFormat

def format : AnswerFormat → Format
  | chat => Quality.chat
  | claude => Quality.claude
  | gemini => Quality.gemini
  | responses => Quality.responses

def lawful : (f : AnswerFormat) → f.format.Lawful
  | chat => chatLawful
  | claude => claudeLawful
  | gemini => geminiLawful
  | responses => responsesLawful

end AnswerFormat

/-- The attempt fails with the error of an apology, and the client has got nothing. -/
structure BlockedAsApology (env : Env) (h : Handler) (c : Context) : Prop where
  error : (doResponseWithQualityFilter env h c).2 = some (qualityApologyError env)
  nothing : Nothing env h c

/-- The filter of whole answers blocks the answer as an apology. -/
def IsApology (env : Env) (inspect : QualityInspect) (usage : Option Usage) : Prop :=
  applyResponseQualityFilter env inspect usage = some (qualityApologyError env)

structure NoWayRound (env : Env) (F : Format) (blocks : List F.Block) (usage : Option Usage) :
    Prop where
  same_kinds : ∀ b ∈ blocks, ∀ chunks, F.Splits [b] chunks →
    F.observedKinds chunks = F.inspectKinds [b]
  same_exempt : ∀ chunks, F.Splits blocks chunks →
    qualitySkipNonText usage (observed (chunks.map F.delta)) =
      qualitySkipNonText usage (F.inspect blocks)
  blocked : F.TextOnly blocks → IsApology env (F.inspect blocks) usage →
    ∀ chunks, F.Splits blocks chunks → ∀ (h : Handler) (c : Context),
      notesOf (h.ops c.sentResponse c.eventStreamHeaders) = chunks.map F.delta →
      h.usage = usage → h.err = none → BlockedAsApology env h c

/-- Where the text so far has exactly as many tokens as the threshold, it is an apology already. -/
def ApologyInTime (env : Env) (text : String) : Prop :=
  ∀ t u, text = t ++ u → trimSpace t ≠ "" → env.countTextToken t = env.lowTokenThreshold →
    apologyMatches env t = true

/-- No block is read in two ways, and an apology comes in time. -/
def ReadAlike (env : Env) (F : Format) (blocks : List F.Block) (usage : Option Usage) : Prop :=
  (∀ b ∈ blocks, F.exceptional b = false) ∧
    (F.TextOnly blocks → IsApology env (F.inspect blocks) usage →
      ApologyInTime env (F.inspect blocks).text)

/-! ## Apologies in a text -/

theorem isApology_iff {env : Env} {i : QualityInspect} {usage : Option Usage} :
    IsApology env i usage ↔ env.isProbe = false ∧ env.apology = true ∧
      qualitySkipNonText usage i = false ∧ containsApologyWithinThreshold env i.text = true := by
  have hcode : qualityFilterError env lowTokenCode env.lowTokenStatusCode ≠
      qualityApologyError env := by
    intro h
    have hcodes : lowTokenCode = apologyCode := congrArg Relay.NewAPIError.errorCode h
    revert hcodes
    decide
  unfold IsApology applyResponseQualityFilter
  constructor
  · intro h
    split_ifs at h with hprobe hflags hskip hmatch hlow
    · rw [and_eq_true] at hmatch
      exact ⟨eq_false_iff.2 hprobe, hmatch.1, eq_false_iff.2 hskip, hmatch.2⟩
    · exact absurd (Option.some.inj h) hcode
  · rintro ⟨hprobe, happology, hskip, hmatch⟩
    simp [hprobe, happology, hskip, hmatch]

theorem visibleText_append (a b : List QualityStreamDelta) :
    visibleText (a ++ b) = visibleText a ++ visibleText b := by
  induction a with
  | nil => exact empty_append.symm
  | cons d a ih => rw [List.cons_append, visibleText, visibleText, ih, String.append_assoc]

theorem append_eq_append {a b c d : String} (h : a ++ b = c ++ d) :
    (∃ x, c = a ++ x) ∨ ∃ x, a = c ++ x := by
  have hlist : a.toList ++ b.toList = c.toList ++ d.toList := by
    rw [← toList_append, ← toList_append, h]
  rcases append_eq_append_iff.1 hlist with ⟨x, hx, -⟩ | ⟨x, hx, -⟩
  · exact .inl ⟨String.ofList x, toList_inj.1 (by rw [hx, toList_append, toList_ofList])⟩
  · exact .inr ⟨String.ofList x, toList_inj.1 (by rw [hx, toList_append, toList_ofList])⟩

theorem qualityTokenPrefix_append (env : Env) (text : String) :
    ∃ u, qualityTokenPrefix env text ++ u = text := by
  unfold qualityTokenPrefix
  split_ifs with hwhole
  · exact ⟨"", append_empty⟩
  · dsimp only
    generalize searchPrefix _ _ _ _ _ = n
    refine ⟨String.ofList (text.toList.drop n), toList_inj.1 ?_⟩
    rw [takeRunes, toList_append, toList_ofList, toList_ofList, take_append_drop]

theorem Passes.count_eq {env : Env} (hcount : MonotoneCount env) {t u : String}
    (hmatch : containsApologyWithinThreshold env (t ++ u) = true) (hpass : Passes env t) :
    env.countTextToken t = env.lowTokenThreshold := by
  obtain ⟨hblank, hthreshold, hnot⟩ := hpass
  refine Nat.le_antisymm ?_ hthreshold
  obtain ⟨v, hv⟩ := qualityTokenPrefix_append env (t ++ u)
  unfold containsApologyWithinThreshold at hmatch
  rcases append_eq_append hv.symm with ⟨x, hx⟩ | ⟨x, hx⟩
  · -- the prefix is the longer one
    rcases count_qualityTokenPrefix hcount (t ++ u) with hle | hshort
    · rw [hx] at hle
      exact (hcount t x).trans hle
    · have hnil : x = "" := by
        rw [hx, String.toList_append, List.length_append] at hshort
        have hpos : 0 < t.toList.length := by
          refine length_pos_of_ne_nil fun hnil => hblank ?_
          rw [trimSpace_eq_empty_iff, hnil]
          exact nofun
        exact toList_inj.1 (length_eq_zero_iff.1 (by omega))
      rw [hx, hnil, append_empty, hnot] at hmatch
      cases hmatch
  · rw [hx, apologyMatches_append hmatch x] at hnot
    cases hnot

/-! ## A format -/

section Format

variable {F : Format} {env : Env} {blocks : List F.Block} {usage : Option Usage}
  {chunks : List F.Chunk}

section
variable (L : F.Lawful) (hagree : ∀ b ∈ blocks, F.exceptional b = false)
include L hagree

theorem streamed_eq_buffered :
    Kinds.sum (blocks.map L.streamed) = Kinds.sum (blocks.map L.buffered) :=
  congrArg Kinds.sum (map_congr_left fun b hb => (L.agree b).1 (hagree b hb))

theorem observedKinds_eq_inspectKinds (hsplits : F.Splits blocks chunks) :
    F.observedKinds chunks = F.inspectKinds blocks := by
  rw [L.observed _ _ hsplits, L.inspected _ hagree, streamed_eq_buffered L hagree]

theorem text_eq (hsplits : F.Splits blocks chunks) :
    (observed (chunks.map F.delta)).text = (F.inspect blocks).text :=
  congrArg Kinds.visible (observedKinds_eq_inspectKinds L hagree hsplits)

theorem skip_eq (hsplits : F.Splits blocks chunks) (husage : (∃ b ∈ blocks, F.inUsage b = true) →
      ∃ u, usage = some u ∧ (0 < u.audioTokens ∨ 0 < u.imageTokens)) :
    qualitySkipNonText usage (observed (chunks.map F.delta)) =
      qualitySkipNonText usage (F.inspect blocks) := by
  have hkinds := observedKinds_eq_inspectKinds L hagree hsplits
  have htool : decide (0 < (observed (chunks.map F.delta)).toolCalls) =
      decide (0 < (F.inspect blocks).toolCalls) := congrArg Kinds.tool hkinds
  have hmedia : (observed (chunks.map F.delta)).media =
      ((F.inspect blocks).media || blocks.any F.inUsage) := congrArg Kinds.media hkinds
  unfold qualitySkipNonText
  show (decide (0 < _) || _ || _) = (decide (0 < _) || _ || _)
  rw [htool, hmedia]
  cases hin : blocks.any F.inUsage with
  | false => rw [Bool.or_false]
  | true =>
    obtain ⟨u, rfl, hreport⟩ := husage (any_eq_true.1 hin)
    have hany : (Option.any (fun u : Usage => decide (u.audioTokens > 0) || decide (u.imageTokens > 0))
        (some u)) = true := by
      rcases hreport with h | h <;> simp [h]
    rw [hany, Bool.or_true, Bool.or_true]

end

theorem isText_of_textOnly (L : F.Lawful) (htext : F.TextOnly blocks) (hsplits : F.Splits blocks chunks) :
    ∀ d ∈ chunks.map F.delta, d.IsText := by
  have hkinds := (kinds_observed (chunks.map F.delta)).symm.trans (L.observed _ _ hsplits)
  have htool : (Kinds.sum (blocks.map L.streamed)).tool = false := by
    rw [Kinds.tool_sum, any_map, any_eq_false]
    exact fun b hb => eq_false_iff.1 (L.text_only b (htext b hb)).1
  have hmedia : (Kinds.sum (blocks.map L.streamed)).media = false := by
    rw [Kinds.media_sum, any_map, any_eq_false]
    exact fun b hb => eq_false_iff.1 (L.text_only b (htext b hb)).2
  rw [← hkinds, Kinds.tool_sum, any_map, any_eq_false] at htool
  rw [← hkinds, Kinds.media_sum, any_map, any_eq_false] at hmedia
  intro d hd
  refine ⟨?_, eq_false_iff.2 (hmedia d hd)⟩
  have hnone := htool d hd
  simp only [Function.comp_apply, QualityStreamDelta.kinds, decide_eq_true_eq] at hnone
  omega

theorem blocked_of_readAlike (L : F.Lawful) (hcount : MonotoneCount env)
    (hagree : ∀ b ∈ blocks, F.exceptional b = false) (htext : F.TextOnly blocks)
    (hapology : IsApology env (F.inspect blocks) usage)
    (hintime : ApologyInTime env (F.inspect blocks).text) (hsplits : F.Splits blocks chunks)
    (hexempt : qualitySkipNonText usage (observed (chunks.map F.delta)) =
      qualitySkipNonText usage (F.inspect blocks)) {h : Handler} {c : Context}
    (hnotes : notesOf (h.ops c.sentResponse c.eventStreamHeaders) = chunks.map F.delta)
    (husage : h.usage = usage) (herr : h.err = none) : BlockedAsApology env h c := by
  obtain ⟨hprobe, hflag, hskip, hmatch⟩ := isApology_iff.1 hapology
  have hobserved : IsApology env (observed (chunks.map F.delta)) usage :=
    isApology_iff.2 ⟨hprobe, hflag, hexempt.trans hskip, by rwa [text_eq L hagree hsplits]⟩
  have hactive : responseQualityActive env = true := by simp [responseQualityActive, hprobe, hflag]
  have hno : ∀ before after, notesOf (h.ops c.sentResponse c.eventStreamHeaders) = before ++ after →
      ¬ Passes env (({} : QualityInspect).text ++ visibleText before) := by
    intro before after heq hpass
    rw [show ({} : QualityInspect).text ++ visibleText before = visibleText before from
      empty_append] at hpass
    have hwhole : (F.inspect blocks).text = visibleText before ++ visibleText after := by
      rw [← text_eq L hagree hsplits, observed, foldl_add_text, ← hnotes, heq, visibleText_append]
      exact empty_append
    have hexact := hpass.count_eq hcount (hwhole ▸ hmatch)
    have hyes := hintime _ _ hwhole hpass.1 hexact
    rw [hpass.2.2] at hyes
    cases hyes
  obtain ⟨a, hrun, hended⟩ := @exists_ended env h c hactive
  rcases @course_of_not_passes env {} _ hflag rfl rfl
    (hnotes ▸ isText_of_textOnly L htext hsplits) hno with hcourse | hcourse
  · rw [hcourse] at hended
    have hb : Blocked env c a := hended
    exact ⟨by rw [hrun, hb.afterHandler], hb.nothing hrun⟩
  · rw [hcourse] at hended
    obtain ⟨marks, ha⟩ := hended
    have hfilter : applyResponseQualityFilter env
        ((notesOf (h.ops c.sentResponse c.eventStreamHeaders)).foldl QualityInspect.add {}) h.usage =
        some (qualityApologyError env) := by
      rw [hnotes, husage]
      exact hobserved
    rw [ha, afterHandler_holding, herr] at hrun
    rw [hfilter] at hrun
    exact ⟨congrArg Prod.snd hrun, holding_nothing (.inr hrun)⟩

def noting (F : Format) (chunks : List F.Chunk) (usage : Option Usage) : Handler where
  ops _ _ := chunks.map fun chunk => .note (F.delta chunk)
  usage := usage

theorem notesOf_noting (chunks : List F.Chunk) (usage : Option Usage) (b b' : Bool) :
    notesOf ((noting F chunks usage).ops b b') = chunks.map F.delta := by
  show notesOf (chunks.map _) = _
  induction chunks with
  | nil => rfl
  | cons chunk chunks ih => exact congrArg (F.delta chunk :: ·) ih

theorem agree_of_noWayRound (L : F.Lawful) (h : NoWayRound env F blocks usage) :
    ∀ b ∈ blocks, F.exceptional b = false := by
  intro b hb
  obtain ⟨chunks, hchunks⟩ := L.splits [b]
  have hkinds := h.same_kinds b hb chunks hchunks
  rw [L.observed _ _ hchunks, L.single] at hkinds
  exact (L.agree b).2 ((Kinds.sum_singleton _).symm.trans hkinds)

theorem inTime_of_noWayRound (L : F.Lawful) (h : NoWayRound env F blocks usage)
    (htext : F.TextOnly blocks) (hapology : IsApology env (F.inspect blocks) usage) :
    ApologyInTime env (F.inspect blocks).text := by
  intro t u heq hblank hexact
  by_contra hnot
  have hagree := agree_of_noWayRound L h
  have hvisible : (Kinds.sum (blocks.map L.streamed)).visible = t ++ u := by
    rw [streamed_eq_buffered L hagree, ← L.inspected _ hagree]
    exact heq
  obtain ⟨before, after, hsplits, hbefore⟩ := L.cut _ htext _ _ hvisible
  obtain ⟨hprobe, hflag, -, -⟩ := isApology_iff.1 hapology
  have hactive : responseQualityActive env = true := by simp [responseQualityActive, hprobe, hflag]
  have hnotes := notesOf_noting (before ++ after) usage false false
  have hpass : Passes env (({} : QualityInspect).text ++ visibleText (before.map F.delta)) := by
    rw [hbefore, show ({} : QualityInspect).text ++ t = t from empty_append]
    exact ⟨hblank, hexact.ge, eq_false_iff.2 hnot⟩
  have hstart : ¬ Passes env ({} : QualityInspect).text := fun hempty => hempty.1 (by decide)
  obtain ⟨pre, post, hcourse⟩ := course_of_passes hflag rfl rfl
    (hnotes ▸ isText_of_textOnly L htext hsplits) (hnotes.trans map_append) hstart hpass
  obtain ⟨a, hrun, hended⟩ := @exists_ended env (noting F (before ++ after) usage) {} hactive
  rw [show course env {} ((noting F (before ++ after) usage).ops ({} : Context).sentResponse
    ({} : Context).eventStreamHeaders) = .released pre post from hcourse] at hended
  have hreleased : Released _ a := hended
  have herror := (h.blocked htext hapology _ hsplits (noting F (before ++ after) usage) {} hnotes rfl
    rfl).error
  rw [hrun, hreleased.afterHandler] at herror
  cases herror

end Format

/-! ## All formats -/

/-- **Streaming is no way round the filter** for an answer exactly when none of its blocks is read in
two ways and an apology comes in time. -/
theorem noWayRound_iff {env : Env} (hcount : MonotoneCount env) (f : AnswerFormat)
    (blocks : List f.format.Block) (usage : Option Usage)
    (husage : (∃ b ∈ blocks, f.format.inUsage b = true) →
      ∃ u, usage = some u ∧ (0 < u.audioTokens ∨ 0 < u.imageTokens)) :
    NoWayRound env f.format blocks usage ↔ ReadAlike env f.format blocks usage := by
  constructor
  · exact fun h => ⟨agree_of_noWayRound f.lawful h, inTime_of_noWayRound f.lawful h⟩
  · rintro ⟨hagree, hintime⟩
    refine ⟨fun b hb chunks hchunks => ?_, fun chunks hchunks => ?_, ?_⟩
    · exact observedKinds_eq_inspectKinds f.lawful (forall_mem_singleton.2 (hagree b hb)) hchunks
    · exact skip_eq f.lawful hagree hchunks husage
    · intro htext hapology chunks hchunks h c hnotes hu herr
      exact blocked_of_readAlike f.lawful hcount hagree htext hapology (hintime htext hapology) hchunks
        (skip_eq f.lawful hagree hchunks husage) hnotes hu herr

theorem monotoneCount_apologyEnv : MonotoneCount apologyEnv := by
  intro s t
  show s.length ≤ (s ++ t).length
  rw [String.length_append]
  exact Nat.le_add_right _ _

/-- An apology of a few tokens. -/
theorem noWayRound_sorry :
    NoWayRound apologyEnv AnswerFormat.claude.format [ClaudeBlock.text "sorry"] none := by
  refine (noWayRound_iff monotoneCount_apologyEnv .claude [ClaudeBlock.text "sorry"] none ?_).2 ?_
  · rintro ⟨_, -, h⟩
    cases h
  · refine ⟨forall_mem_singleton.2 rfl, fun _ _ t u heq _ hexact => ?_⟩
    have hlength : t.length + u.length = 5 := by
      rw [← String.length_append, ← heq]
      decide +kernel
    have hthreshold : t.length = 300 := hexact
    omega

/-- Two characters are one token, and one token is the threshold. -/
def pairsEnv : Env where
  lower := id
  countTextToken s := (s.length + 1) / 2
  apology := true
  apologyKeywords := ["so"]
  lowTokenThreshold := 1

/-- A first chunk of one character releases the stream, and a tool of the server is no tool call for the
filter of whole answers. -/
theorem wayRound :
    MonotoneCount pairsEnv ∧ 0 < pairsEnv.lowTokenThreshold ∧
      ¬ NoWayRound pairsEnv AnswerFormat.chat.format [ChatBlock.text "so"] none ∧
      ¬ NoWayRound pairsEnv AnswerFormat.claude.format
        [ClaudeBlock.toolUse .serverToolUse "srvtoolu_1" "web_search" "\x7b\x7d"] none := by
  refine ⟨fun s t => ?_, by decide, fun h => ?_, fun h => ?_⟩
  · show (s.length + 1) / 2 ≤ ((s ++ t).length + 1) / 2
    rw [String.length_append]
    omega
  · have hintime := inTime_of_noWayRound AnswerFormat.chat.lawful h
      (forall_mem_singleton.2 (.inl rfl))
      (isApology_iff.2 ⟨rfl, rfl, by decide +kernel, by decide +kernel⟩)
    have hmatch := hintime "s" "o" (by decide +kernel) (by decide +kernel) (by decide +kernel)
    revert hmatch
    decide +kernel
  · have hagree := agree_of_noWayRound AnswerFormat.claude.lawful h _ mem_cons_self
    cases hagree

end BeeApi.Quality
