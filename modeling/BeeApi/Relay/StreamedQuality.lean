import BeeApi.Relay.AllOrNothing

/-!
# Apologies in a stream

The hold looks at the text so far behind every chunk, and it releases the stream at the threshold; the
filter of a whole answer looks at the longest prefix that stays within the threshold.  An apology that
the filter finds is blocked in the stream, unless a chunk ends in front of it with as many tokens as
the threshold.
-/

namespace BeeApi.Quality

open Strings QualityInspect Bool

/-! ## Growing texts -/

/-- Is the list, or what came before it, ended by white space? -/
def endsSpace : Bool → List Char → Bool
  | prevSpace, [] => prevSpace
  | _, r :: rest => endsSpace (isSpace r) rest

theorem collapse_append (prevSpace : Bool) (a b : List Char) :
    collapse prevSpace (a ++ b) = collapse prevSpace a ++ collapse (endsSpace prevSpace a) b := by
  induction a generalizing prevSpace with
  | nil => rfl
  | cons r a ih =>
    have ihTrue := ih true
    have ihFalse := ih false
    cases hr : isSpace r <;> cases prevSpace <;> simp [collapse, endsSpace, hr, ihTrue, ihFalse]

theorem toList_trimSpace (l : List Char) :
    (trimSpace (String.ofList l)).toList = (l.dropWhile isSpace).rdropWhile isSpace := by
  simp [trimSpace, List.rdropWhile]

theorem prefix_rdropWhile {p : Char → Bool} {l m : List Char} (hl : l.rdropWhile p = l)
    (h : l <+: m) : l <+: m.rdropWhile p := by
  obtain ⟨t, rfl⟩ := h
  induction t using List.reverseRecOn with
  | nil => rw [List.append_nil, hl]
  | append_singleton t x ih =>
    rw [← List.append_assoc]
    cases hx : p x with
    | true =>
      rw [List.rdropWhile_concat_pos _ _ _ hx]
      exact ih
    | false =>
      rw [List.rdropWhile_concat_neg _ _ _ (by rw [hx]; exact false_ne_true),
        List.append_assoc]
      exact List.prefix_append _ _

theorem qualityNormalize_startsWith (lower : Char → Char) {a b : String}
    (h : qualityNormalize lower a ≠ "") :
    (qualityNormalize lower a).toList <+: (qualityNormalize lower (a ++ b)).toList := by
  have hne : (collapse false (a.toList.map lower)).dropWhile isSpace ≠ [] := by
    intro hnil
    refine h (String.toList_inj.1 ?_)
    rw [qualityNormalize, toList_trimSpace, hnil]
    rfl
  have hdrop : ∀ rest : List Char, (collapse false (a.toList.map lower) ++ rest).dropWhile isSpace =
      (collapse false (a.toList.map lower)).dropWhile isSpace ++ rest := by
    intro rest
    rw [List.dropWhile_append, if_neg]
    simpa using hne
  rw [qualityNormalize, qualityNormalize, toList_trimSpace, toList_trimSpace, String.toList_append,
    List.map_append, collapse_append, hdrop]
  refine prefix_rdropWhile (List.rdropWhile_idempotent _ _) ?_
  exact (List.rdropWhile_prefix _ _).trans (List.prefix_append _ _)

theorem contains_iff (s sub : String) : contains s sub = true ↔ sub.toList <:+: s.toList := by
  unfold contains
  rw [List.any_eq_true]
  constructor
  · rintro ⟨rest, hrest, hprefix⟩
    exact (List.isPrefixOf_iff_prefix.1 hprefix).isInfix.trans ((List.mem_tails _ _).1 hrest).isInfix
  · rintro ⟨pre, post, heq⟩
    refine ⟨sub.toList ++ post, (List.mem_tails _ _).2 ⟨pre, ?_⟩, ?_⟩
    · rw [← heq, List.append_assoc]
    · exact List.isPrefixOf_iff_prefix.2 (List.prefix_append _ _)

theorem trimSpace_append_ne {a b : String} (h : trimSpace a ≠ "") : trimSpace (a ++ b) ≠ "" := by
  rw [ne_eq, trimSpace_eq_empty_iff] at h ⊢
  intro hall
  refine h fun c hc => hall c ?_
  rw [String.toList_append]
  exact List.mem_append_left _ hc

theorem apologyMatches_append {env : Env} {a : String} (h : apologyMatches env a = true)
    (b : String) : apologyMatches env (a ++ b) = true := by
  unfold apologyMatches at h ⊢
  dsimp only at h ⊢
  simp only [and_eq_true, decide_eq_true_eq, List.any_eq_true] at h ⊢
  obtain ⟨⟨hblank, hnormal⟩, phrase, hphrase, hne, hcontains⟩ := h
  have hprefix := @qualityNormalize_startsWith env.lower a b hnormal
  refine ⟨⟨trimSpace_append_ne hblank, ?_⟩, phrase, hphrase, hne, ?_⟩
  · intro hempty
    rw [hempty] at hprefix
    exact hnormal (String.toList_inj.1 (List.prefix_nil.1 hprefix))
  · rw [contains_iff] at hcontains ⊢
    exact hcontains.trans hprefix.isInfix

/-! ## The prefix within the threshold -/

/-- The search finds the longest prefix that fits, when longer ones fit less. -/
theorem searchPrefix_spec {fits : ℕ → Bool} (hfits : ∀ m n, m ≤ n → fits n = true → fits m = true)
    {fuel lo hi best : ℕ} (hfuel : hi + 1 - lo ≤ fuel) (hlo : 0 < lo) :
    (searchPrefix fits fuel lo hi best = best ∨ fits (searchPrefix fits fuel lo hi best) = true ∧
        lo ≤ searchPrefix fits fuel lo hi best) ∧
    ∀ k, lo ≤ k → k ≤ hi → fits k = true → k ≤ searchPrefix fits fuel lo hi best := by
  induction fuel generalizing lo hi best with
  | zero =>
    refine ⟨.inl rfl, fun k hk hk' _ => ?_⟩
    omega
  | succ fuel ih =>
    unfold searchPrefix
    split
    · have hmid : lo ≤ (lo + hi) / 2 ∧ (lo + hi) / 2 ≤ hi := by omega
      generalize (lo + hi) / 2 = mid at hmid
      by_cases hfit : fits mid = true
      · rw [if_pos hfit]
        obtain ⟨hres, hmax⟩ := @ih (mid + 1) hi mid (by omega) (by omega)
        refine ⟨?_, fun k hk hk' hfitk => ?_⟩
        · rcases hres with hbest | ⟨hfit', hle'⟩
          · rw [hbest]
            exact .inr ⟨hfit, hmid.1⟩
          · exact .inr ⟨hfit', by omega⟩
        · rcases Nat.lt_or_ge mid k with hlt | hge
          · exact hmax k hlt hk' hfitk
          · rcases hres with hbest | ⟨-, hle'⟩ <;> omega
      · rw [if_neg hfit]
        obtain ⟨hres, hmax⟩ := @ih lo (mid - 1) best (by omega) hlo
        refine ⟨hres, fun k hk hk' hfitk => ?_⟩
        refine hmax k hk ?_ hfitk
        by_contra hgt
        exact hfit (hfits mid k (by omega) hfitk)
    · refine ⟨.inl rfl, fun k hk hk' _ => ?_⟩
      omega

/-- A longer text does not count less. -/
def MonotoneCount (env : Env) : Prop :=
  ∀ s t : String, env.countTextToken s ≤ env.countTextToken (s ++ t)

theorem takeRunes_append_drop (text : String) {m n : ℕ} (h : m ≤ n) :
    ∃ t, takeRunes text n = takeRunes text m ++ t := by
  refine ⟨String.ofList ((text.toList.take n).drop m), String.toList_inj.1 ?_⟩
  have hmin : min m n = m := min_eq_left h
  simp only [takeRunes, String.toList_append, String.toList_ofList]
  conv_lhs => rw [← List.take_append_drop m (text.toList.take n)]
  rw [List.take_take, hmin]

theorem MonotoneCount.fits {env : Env} (hcount : MonotoneCount env) (text : String) (m n : ℕ)
    (hmn : m ≤ n)
    (hn : decide (env.countTextToken (takeRunes text n) ≤ env.lowTokenThreshold) = true) :
    decide (env.countTextToken (takeRunes text m) ≤ env.lowTokenThreshold) = true := by
  obtain ⟨u, hu⟩ := takeRunes_append_drop text hmn
  rw [decide_eq_true_eq] at hn ⊢
  rw [hu] at hn
  exact (hcount _ _).trans hn

/-- The prefix that the filter looks at is within the threshold, or it is one character. -/
theorem count_qualityTokenPrefix {env : Env} (hcount : MonotoneCount env) (text : String) :
    env.countTextToken (qualityTokenPrefix env text) ≤ env.lowTokenThreshold ∨
      (qualityTokenPrefix env text).toList.length ≤ 1 := by
  unfold qualityTokenPrefix
  split_ifs with hwhole
  · rcases hwhole with rfl | hle
    · exact .inr (Nat.zero_le _)
    · exact .inl hle
  · dsimp only
    rcases (@searchPrefix_spec _ (hcount.fits text) text.toList.length 1 text.toList.length 1
      (by omega) one_pos).1 with hone | ⟨hfits, -⟩
    · rw [hone]
      refine .inr ?_
      rw [takeRunes, String.toList_ofList]
      exact List.length_take_le _ _
    · exact .inl (of_decide_eq_true hfits)

def notesOf (ops : List Op) : List QualityStreamDelta :=
  ops.filterMap fun
    | .note delta => some delta
    | _ => none

def observed (deltas : List QualityStreamDelta) : QualityInspect :=
  deltas.foldl add {}

def visibleText : List QualityStreamDelta → String
  | [] => ""
  | d :: deltas => d.visible ++ visibleText deltas

theorem foldl_add_text (i : QualityInspect) (deltas : List QualityStreamDelta) :
    (deltas.foldl add i).text = i.text ++ visibleText deltas := by
  induction deltas generalizing i with
  | nil => exact String.append_empty.symm
  | cons d deltas ih => rw [List.foldl_cons, ih, visibleText, ← String.append_assoc]; rfl

theorem add_of_empty {d : QualityStreamDelta} (h : d.empty = true) (i : QualityInspect) :
    i.add d = i := by
  simp only [QualityStreamDelta.empty, and_eq_true, decide_eq_true_eq, not_eq_true'] at h
  obtain ⟨⟨⟨hvisible, hreasoning⟩, htools⟩, hmedia⟩ := h
  simp [add, hvisible, hreasoning, htools, hmedia]

/-! ## The course of a text -/

def QualityStreamDelta.IsText (d : QualityStreamDelta) : Prop := d.toolCalls = 0 ∧ d.media = false

/-- The hold releases a text that comes so far. -/
def Passes (env : Env) (t : String) : Prop :=
  trimSpace t ≠ "" ∧ env.lowTokenThreshold ≤ env.countTextToken t ∧ apologyMatches env t = false

section Course

variable {env : Env} {i : QualityInspect} {ops : List Op}

section
variable (happology : env.apology = true) (htools : i.toolCalls = 0) (hmedia : i.media = false)
include happology htools hmedia

theorem verdict_text :
    verdict env i = if apologyMatches env i.text then .block
      else if trimSpace i.text ≠ "" ∧ env.lowTokenThreshold ≤ env.countTextToken i.text then
        .release
      else .hold := by
  simp [verdict, happology, htools, hmedia]

theorem course_of_not_passes (htext : ∀ d ∈ notesOf ops, d.IsText)
    (hno : ∀ before after, notesOf ops = before ++ after →
      ¬ Passes env (i.text ++ visibleText before)) :
    course env i ops = .blocked ∨
      course env i ops = .undecided ((notesOf ops).foldl add i) := by
  induction ops generalizing i with
  | nil => exact .inr rfl
  | cons op ops ih =>
    have hskip : ∀ {j}, (course env j ops = .blocked ∨
        course env j ops = .undecided ((notesOf ops).foldl add j)) →
        (course env j ops).push op = .blocked ∨
          (course env j ops).push op = .undecided ((notesOf ops).foldl add j) := by
      rintro j (h | h) <;> rw [h]
      · exact .inl rfl
      · exact .inr rfl
    cases op with
    | note d =>
      obtain ⟨hd, htext⟩ := List.forall_mem_cons.1 (show ∀ x ∈ d :: notesOf ops, x.IsText from htext)
      have hfold : (notesOf (.note d :: ops)).foldl add i =
          (notesOf ops).foldl add (i.add d) := rfl
      have hnext : ∀ before after, notesOf ops = before ++ after →
          ¬ Passes env ((i.add d).text ++ visibleText before) := by
        intro before after heq
        have h := hno (d :: before) after (congrArg (d :: ·) heq)
        rwa [visibleText, ← String.append_assoc] at h
      have htools' : (i.add d).toolCalls = 0 := by simp [add, htools, hd.1]
      have hmedia' : (i.add d).media = false := by simp [add, hmedia, hd.2]
      have ih := hskip (ih htools' hmedia' htext hnext)
      rw [course, hfold]
      split_ifs with hempty
      · rwa [add_of_empty hempty] at ih ⊢
      · rw [verdict_text happology htools' hmedia']
        by_cases hmatch : apologyMatches env (i.add d).text = true
        · rw [if_pos hmatch]
          exact .inl rfl
        · have hpass := hnext [] (notesOf ops) rfl
          rw [visibleText, String.append_empty] at hpass
          rw [if_neg hmatch, if_neg]
          · exact ih
          · exact fun h => hpass ⟨h.1, h.2, eq_false_iff.2 hmatch⟩
    | writer | markSent | markEventStreamHeaders => exact hskip (ih htools hmedia htext hno)

theorem course_of_passes (htext : ∀ d ∈ notesOf ops, d.IsText)
    {before after : List QualityStreamDelta} (heq : notesOf ops = before ++ after)
    (hstart : ¬ Passes env i.text) (hpass : Passes env (i.text ++ visibleText before)) :
    ∃ pre post, course env i ops = .released pre post := by
  induction ops generalizing i before with
  | nil =>
    obtain ⟨rfl, -⟩ := List.append_eq_nil_iff.1 heq.symm
    rw [visibleText, String.append_empty] at hpass
    exact absurd hpass hstart
  | cons op ops ih =>
    have hskip : ∀ {j}, (∃ pre post, course env j ops = .released pre post) →
        ∃ pre post, (course env j ops).push op = .released pre post := by
      rintro j ⟨pre, post, h⟩
      exact ⟨op :: pre, post, by rw [h]; rfl⟩
    cases op with
    | note d =>
      cases before with
      | nil =>
        rw [visibleText, String.append_empty] at hpass
        exact absurd hpass hstart
      | cons d' before =>
        obtain ⟨rfl, hnotes⟩ := List.cons.inj (show d :: notesOf ops = d' :: (before ++ after) from heq)
        obtain ⟨hd, htext⟩ :=
          List.forall_mem_cons.1 (show ∀ x ∈ d :: notesOf ops, x.IsText from htext)
        have htools' : (i.add d).toolCalls = 0 := by simp [add, htools, hd.1]
        have hmedia' : (i.add d).media = false := by simp [add, hmedia, hd.2]
        rw [visibleText, ← String.append_assoc] at hpass
        rw [course]
        split_ifs with hempty
        · rw [← add_of_empty hempty i] at hstart
          have hrest := hskip (ih htools' hmedia' htext hnotes hstart hpass)
          rwa [add_of_empty hempty] at hrest
        · -- an apology here would still be one in the text that passes
          have hmatch : apologyMatches env (i.add d).text = false := by
            rw [eq_false_iff]
            intro hmatch
            have hlater := apologyMatches_append hmatch (visibleText before)
            have hnot := hpass.2.2
            rw [show i.text ++ d.visible = (i.add d).text from rfl, hlater] at hnot
            cases hnot
          rw [verdict_text happology htools' hmedia', if_neg (eq_false_iff.1 hmatch)]
          by_cases hrelease : trimSpace (i.add d).text ≠ "" ∧
              env.lowTokenThreshold ≤ env.countTextToken (i.add d).text
          · rw [if_pos hrelease]
            exact ⟨_, _, rfl⟩
          · rw [if_neg hrelease]
            exact hskip (ih htools' hmedia' htext hnotes (fun h => hrelease ⟨h.1, h.2.1⟩) hpass)
    | writer | markSent | markEventStreamHeaders =>
      exact hskip (ih htools hmedia htext heq hstart hpass)

end

end Course

end BeeApi.Quality
