import BeeApi.Lib.GoJson
import Mathlib.Data.List.Sort

/-!
# Rules of status codes

`status_code_ranges.go`: a text of codes and ranges of codes becomes a list of ranges that a code is
matched against.  The list is the only one of its kind with its codes (`Normal.eq_of_covers`), so that
it says nothing about how the text was written.
-/

namespace BeeApi.StatusCodes

open List Strings

structure StatusCodeRange where
  start : ℤ
  end_ : ℤ
  deriving DecidableEq

def matchesFrom (code : ℤ) : List StatusCodeRange → Bool
  | [] => false
  | r :: rest =>
    if code < r.start then false else if code ≤ r.end_ then true else matchesFrom code rest

def shouldMatchStatusCodeRanges (ranges : List StatusCodeRange) (code : ℤ) : Bool :=
  if code < 100 ∨ 599 < code then false else matchesFrom code ranges

def statusCodeRangeToString (r : StatusCodeRange) : String :=
  if r.start = r.end_ then r.start.repr else r.start.repr ++ "-" ++ r.end_.repr

def statusCodeRangesToString (ranges : List StatusCodeRange) : String :=
  ",".intercalate (ranges.map statusCodeRangeToString)

def parseHTTPStatusCodeToken (token : String) : Except String StatusCodeRange :=
  let token := String.ofList ((trimSpace token).toList.filter (· ≠ ' '))
  if token = "" then .error "empty token"
  else if contains token "-" then
    match split token '-' with
    | [first, last] =>
      if first = "" ∨ last = "" then .error ("invalid range token: " ++ token)
      else match GoJson.parseInt first, GoJson.parseInt last with
        | none, _ => .error ("invalid range start: " ++ token)
        | some _, none => .error ("invalid range end: " ++ token)
        | some start, some stop =>
          if stop < start then .error ("range start > end: " ++ token)
          else if start < 100 ∨ 599 < stop then .error ("range out of bounds: " ++ token)
          else .ok ⟨start, stop⟩
    | _ => .error ("invalid range token: " ++ token)
  else match GoJson.parseInt token with
    | none => .error ("invalid status code: " ++ token)
    | some code =>
      if code < 100 ∨ 599 < code then .error ("status code out of bounds: " ++ token)
      else .ok ⟨code, code⟩

/-- The segments of the text, which may have commas of full width. -/
def tokens (input : String) : List String :=
  let input := (trimSpace input).toList.map fun c => if c = '，' then ',' else c
  ((split (String.ofList input) ',').map trimSpace).filter (· ≠ "")

def sortedBefore (a b : StatusCodeRange) : Prop :=
  a.start < b.start ∨ a.start = b.start ∧ a.end_ ≤ b.end_

instance : DecidableRel sortedBefore := fun _ _ => inferInstanceAs (Decidable (_ ∨ _))

/-- The loop over the sorted ranges; `last` is the last one of `merged`. -/
def mergeInto (last : StatusCodeRange) : List StatusCodeRange → List StatusCodeRange
  | [] => [last]
  | r :: rest =>
    if r.start ≤ last.end_ + 1 then
      mergeInto (if last.end_ < r.end_ then { last with end_ := r.end_ } else last) rest
    else last :: mergeInto r rest

def mergeSorted (ranges : List StatusCodeRange) : List StatusCodeRange :=
  match ranges.insertionSort sortedBefore with
  | [] => []
  | first :: rest => mergeInto first rest

def parseHTTPStatusCodeRanges (input : String) : Except String (List StatusCodeRange) :=
  if trimSpace input = "" then .ok []
  else
    let invalid := (tokens input).filter fun seg => (parseHTTPStatusCodeToken seg).toOption.isNone
    let ranges := (tokens input).filterMap fun seg => (parseHTTPStatusCodeToken seg).toOption
    if invalid ≠ [] then
      .error ("invalid http status code rules: " ++ ", ".intercalate invalid)
    else .ok (mergeSorted ranges)

example : parseHTTPStatusCodeRanges "500-505,504,401,403,402" = .ok [⟨401, 403⟩, ⟨500, 505⟩] := by
  decide +kernel

/-! ## Lists of ranges -/

def Covers (ranges : List StatusCodeRange) (code : ℤ) : Prop :=
  ∃ r ∈ ranges, r.start ≤ code ∧ code ≤ r.end_

theorem covers_cons (r : StatusCodeRange) (ranges : List StatusCodeRange) (code : ℤ) :
    Covers (r :: ranges) code ↔ (r.start ≤ code ∧ code ≤ r.end_) ∨ Covers ranges code := by
  simp [Covers]

def StatusCodeRange.Ok (r : StatusCodeRange) : Prop :=
  100 ≤ r.start ∧ r.start ≤ r.end_ ∧ r.end_ ≤ 599

/-- Ranges of status codes in order, with a code between neighbours that none of them has. -/
structure Normal (ranges : List StatusCodeRange) : Prop where
  ok : ∀ r ∈ ranges, r.Ok
  apart : ranges.Pairwise fun a b => a.end_ + 1 < b.start

section

variable {r : StatusCodeRange} {ranges ranges' : List StatusCodeRange}

theorem normal_cons : Normal (r :: ranges) ↔
    r.Ok ∧ (∀ r' ∈ ranges, r.end_ + 1 < r'.start) ∧ Normal ranges := by
  constructor
  · rintro ⟨hok, hapart⟩
    rw [forall_mem_cons] at hok
    rw [pairwise_cons] at hapart
    exact ⟨hok.1, hapart.1, hok.2, hapart.2⟩
  · rintro ⟨hr, hafter, hok, hapart⟩
    exact ⟨forall_mem_cons.2 ⟨hr, hok⟩, pairwise_cons.2 ⟨hafter, hapart⟩⟩

theorem lt_of_covers {bound code : ℤ} (hafter : ∀ r ∈ ranges, bound < r.start)
    (h : Covers ranges code) : bound < code := by
  obtain ⟨r, hr, hstart, -⟩ := h
  exact (hafter r hr).trans_le hstart

/-- The early exit is right, because what comes later begins later. -/
theorem shouldMatchStatusCodeRanges_iff (h : Normal ranges) (code : ℤ) :
    shouldMatchStatusCodeRanges ranges code ↔ Covers ranges code := by
  have hloop : matchesFrom code ranges ↔ Covers ranges code := by
    induction ranges with
    | nil => simp [matchesFrom, Covers]
    | cons r ranges ih =>
      obtain ⟨⟨-, hr, -⟩, hafter, hrest⟩ := normal_cons.1 h
      have hlater : Covers ranges code → r.end_ + 1 < code := lt_of_covers hafter
      rw [matchesFrom, covers_cons, ← ih hrest] at *
      split_ifs <;> grind
  rw [shouldMatchStatusCodeRanges, ← hloop]
  split_ifs with hout
  · rw [hloop]
    simp only [false_iff]
    rintro ⟨r, hr, hcode⟩
    have := h.ok r hr
    simp only [StatusCodeRange.Ok] at this
    omega
  · rfl

/-- The first range begins with the least code and ends before the least code that is not covered. -/
theorem Normal.eq_of_covers (h : Normal ranges) (h' : Normal ranges')
    (hcovers : ∀ code, Covers ranges code ↔ Covers ranges' code) : ranges = ranges' := by
  induction ranges generalizing ranges' with
  | nil =>
    cases ranges' with
    | nil => rfl
    | cons r' ranges' =>
      have := (normal_cons.1 h').1.2.1
      exact absurd ((hcovers r'.start).2 ⟨r', mem_cons_self, le_rfl, this⟩) (by simp [Covers])
  | cons r ranges ih =>
    cases ranges' with
    | nil =>
      have := (normal_cons.1 h).1.2.1
      exact absurd ((hcovers r.start).1 ⟨r, mem_cons_self, le_rfl, this⟩) (by simp [Covers])
    | cons r' ranges' =>
      obtain ⟨⟨-, hr, -⟩, hafter, hrest⟩ := normal_cons.1 h
      obtain ⟨⟨-, hr', -⟩, hafter', hrest'⟩ := normal_cons.1 h'
      simp only [covers_cons] at hcovers
      have hlater (code : ℤ) : Covers ranges code → r.end_ + 1 < code := lt_of_covers hafter
      have hlater' (code : ℤ) : Covers ranges' code → r'.end_ + 1 < code := lt_of_covers hafter'
      have hstart : r.start = r'.start := by
        have h₁ := hcovers r.start
        have h₂ := hcovers r'.start
        have := hlater r'.start
        have := hlater' r.start
        grind
      have hend : r.end_ = r'.end_ := by
        have h₁ := hcovers (r.end_ + 1)
        have h₂ := hcovers (r'.end_ + 1)
        have := hlater (r.end_ + 1)
        have := hlater' (r'.end_ + 1)
        grind
      have hsame : ranges = ranges' := by
        refine ih hrest hrest' fun code => ?_
        have h₁ := hcovers code
        have := hlater code
        have := hlater' code
        grind
      rw [hsame, show r = r' by cases r; cases r'; simp_all]

theorem mergeInto_spec {last : StatusCodeRange} {rest : List StatusCodeRange}
    (hsorted : (last :: rest).Pairwise fun a b => a.start ≤ b.start) (hlast : last.Ok)
    (hok : ∀ r ∈ rest, r.Ok) : Normal (mergeInto last rest) ∧
      (∀ r ∈ mergeInto last rest, last.start ≤ r.start) ∧
      ∀ code, Covers (mergeInto last rest) code ↔ Covers (last :: rest) code := by
  induction rest generalizing last with
  | nil => exact ⟨⟨by simpa [mergeInto], by simp [mergeInto]⟩, by simp [mergeInto], fun _ => Iff.rfl⟩
  | cons r rest ih =>
    rw [forall_mem_cons] at hok
    rw [pairwise_cons, forall_mem_cons] at hsorted
    obtain ⟨⟨hr, hafter⟩, hrest⟩ := hsorted
    rw [mergeInto]
    split_ifs with htouch hend
    · have hlonger : ({ last with end_ := r.end_ } :: rest).Pairwise fun a b => a.start ≤ b.start :=
        pairwise_cons.2 ⟨hafter, hrest.of_cons⟩
      obtain ⟨hnormal, hfirst, hcovers⟩ := ih hlonger (by grind [StatusCodeRange.Ok]) hok.2
      refine ⟨hnormal, hfirst, fun code => ?_⟩
      rw [hcovers, covers_cons, covers_cons, covers_cons]
      grind
    · obtain ⟨hnormal, hfirst, hcovers⟩ := ih (pairwise_cons.2 ⟨hafter, hrest.of_cons⟩) hlast hok.2
      refine ⟨hnormal, hfirst, fun code => ?_⟩
      rw [hcovers, covers_cons, covers_cons, covers_cons]
      grind
    · obtain ⟨hnormal, hfirst, hcovers⟩ := ih hrest hok.1 hok.2
      refine ⟨normal_cons.2 ⟨hlast, fun r' hr' => ?_, hnormal⟩, ?_, fun code => ?_⟩
      · have := hfirst r' hr'
        omega
      · exact forall_mem_cons.2 ⟨le_rfl, fun r' hr' => hr.trans (hfirst r' hr')⟩
      · rw [covers_cons, hcovers, covers_cons last]

theorem mergeSorted_spec (hok : ∀ r ∈ ranges, r.Ok) : Normal (mergeSorted ranges) ∧
    ∀ code, Covers (mergeSorted ranges) code ↔ Covers ranges code := by
  have htotal : Std.Total sortedBefore := ⟨fun a b => by simp only [sortedBefore]; omega⟩
  have htrans : IsTrans _ sortedBefore := ⟨fun a b c h h' => by simp only [sortedBefore] at *; omega⟩
  have hsorted := pairwise_insertionSort sortedBefore ranges
  have hmem (r : StatusCodeRange) : r ∈ ranges.insertionSort sortedBefore ↔ r ∈ ranges :=
    mem_insertionSort _
  simp only [Covers, ← hmem] at hok ⊢
  rw [mergeSorted]
  cases hl : ranges.insertionSort sortedBefore with
  | nil => exact ⟨⟨by simp, .nil⟩, fun _ => Iff.rfl⟩
  | cons first rest =>
    rw [hl] at hok hsorted
    rw [forall_mem_cons] at hok
    have hstarts : (first :: rest).Pairwise fun a b => a.start ≤ b.start :=
      hsorted.imp fun h => by simp only [sortedBefore] at h; omega
    obtain ⟨hnormal, -, hcovers⟩ := mergeInto_spec hstarts hok.1 hok.2
    exact ⟨hnormal, hcovers⟩

end

/-! ## Texts -/

theorem ok_of_parseHTTPStatusCodeToken {token : String} {r : StatusCodeRange}
    (h : parseHTTPStatusCodeToken token = .ok r) : r.Ok := by
  unfold parseHTTPStatusCodeToken at h
  grind [StatusCodeRange.Ok]

def TokenCovers (token : String) (code : ℤ) : Prop :=
  ∃ r, parseHTTPStatusCodeToken token = .ok r ∧ r.start ≤ code ∧ code ≤ r.end_

theorem parseHTTPStatusCodeRanges_eq_ok_iff {input : String} {ranges : List StatusCodeRange} :
    parseHTTPStatusCodeRanges input = .ok ranges ↔
      (∀ token ∈ tokens input, ∃ r, parseHTTPStatusCodeToken token = .ok r) ∧ Normal ranges ∧
        ∀ code, Covers ranges code ↔ ∃ token ∈ tokens input, TokenCovers token code := by
  let parsed := (tokens input).filterMap fun token => (parseHTTPStatusCodeToken token).toOption
  have hmem (r : StatusCodeRange) : r ∈ parsed ↔
      ∃ token ∈ tokens input, parseHTTPStatusCodeToken token = .ok r := by
    rw [mem_filterMap]
    refine exists_congr fun token => and_congr_right fun _ => ?_
    cases parseHTTPStatusCodeToken token <;> simp [Except.toOption]
  have hvalid : ((tokens input).filter fun token => (parseHTTPStatusCodeToken token).toOption.isNone) =
      [] ↔ ∀ token ∈ tokens input, ∃ r, parseHTTPStatusCodeToken token = .ok r := by
    rw [filter_eq_nil_iff]
    refine forall₂_congr fun token _ => ?_
    cases parseHTTPStatusCodeToken token <;> simp [Except.toOption]
  have hparse : parseHTTPStatusCodeRanges input = .ok ranges ↔
      (∀ token ∈ tokens input, ∃ r, parseHTTPStatusCodeToken token = .ok r) ∧
        mergeSorted parsed = ranges := by
    rw [parseHTTPStatusCodeRanges, ← hvalid]
    split_ifs with hempty
    · have htokens : tokens input = [] := by
        rw [tokens, hempty]
        decide
      simp [parsed, htokens, mergeSorted]
    · simp only
      split_ifs with hinvalid <;> simp_all [parsed]
  obtain ⟨hnormal, hcovers⟩ := mergeSorted_spec fun r hr =>
    let ⟨_, _, htoken⟩ := (hmem r).1 hr
    ok_of_parseHTTPStatusCodeToken htoken
  have hunion (code : ℤ) : Covers (mergeSorted parsed) code ↔
      ∃ token ∈ tokens input, TokenCovers token code := by
    rw [hcovers]
    simp only [Covers, hmem, TokenCovers]
    grind
  rw [hparse]
  refine and_congr_right fun _ => ⟨?_, fun h => hnormal.eq_of_covers h.1 fun code => ?_⟩
  · rintro rfl
    exact ⟨hnormal, hunion⟩
  · rw [hunion, h.2]

theorem trimSpace_eq_self {s : String} (h : ∀ c ∈ s.toList, isSpace c = false) :
    trimSpace s = s := by
  have hdrop (l : List Char) (hl : ∀ c ∈ l, isSpace c = false) : l.dropWhile isSpace = l := by
    cases l <;> simp_all
  rw [trimSpace, hdrop _ h, hdrop _ (by simpa using h), reverse_reverse, String.ofList_toList]

theorem contains_dash_iff (s : String) : contains s "-" ↔ '-' ∈ s.toList := by
  unfold Strings.contains
  rw [show "-".toList = ['-'] from rfl]
  induction s.toList with
  | nil => simp
  | cons c l ih =>
    rw [tails, any_cons, Bool.or_eq_true, ih, mem_cons]
    simp [isPrefixOf]

theorem plain_of_mem_text {r : StatusCodeRange} {c : Char}
    (h : c ∈ (statusCodeRangeToString r).toList) :
    isSpace c = false ∧ c ≠ ' ' ∧ c ≠ ',' ∧ c ≠ '，' := by
  have hdigit : c.isDigit = true ∨ c = '-' := by
    by_contra hnot
    rw [not_or, Bool.not_eq_true] at hnot
    have hrepr (i : ℤ) : c ∉ i.repr.toList := by
      cases i <;> exact notMem_toString hnot.1 hnot.2 _
    unfold statusCodeRangeToString at h
    split_ifs at h <;> simp_all
  rcases hdigit with hdigit | rfl
  · have hval : 48 ≤ c.toNat ∧ c.toNat ≤ 57 := by
      simpa [Char.isDigit, UInt32.le_iff_toNat_le] using hdigit
    refine ⟨?_, ?_, ?_, ?_⟩
    · simp [isSpace]
      omega
    all_goals rintro rfl; exact absurd hval (by decide)
  · decide

theorem parseHTTPStatusCodeToken_toString {r : StatusCodeRange} (hr : r.Ok) :
    parseHTTPStatusCodeToken (statusCodeRangeToString r) = .ok r := by
  have htoken : String.ofList ((trimSpace (statusCodeRangeToString r)).toList.filter (· ≠ ' ')) =
      statusCodeRangeToString r := by
    rw [trimSpace_eq_self fun c hc => (plain_of_mem_text hc).1, filter_eq_self.2 fun c hc => ?_,
      String.ofList_toList]
    simpa using (plain_of_mem_text hc).2.1
  obtain ⟨start, stop⟩ := r
  obtain ⟨hlow, hle, hhigh⟩ : 100 ≤ start ∧ start ≤ stop ∧ stop ≤ 599 := hr
  have hdash (i : ℤ) (hi : 100 ≤ i) : '-' ∉ i.repr.toList := by
    lift i to ℕ using by omega
    exact fun h => absurd (isDigit_of_mem_repr h) (by decide)
  have hnil (i : ℤ) : i.repr ≠ "" := fun h => by
    simpa [h, GoJson.parseSigned, GoJson.parseDigits] using GoJson.parseSigned_repr i
  have hint (i : ℤ) (hi : 100 ≤ i ∧ i ≤ 599) : GoJson.parseInt i.repr = some i :=
    GoJson.parseInt_repr (by omega) (by omega)
  rw [parseHTTPStatusCodeToken, htoken]
  by_cases heq : start = stop
  · subst heq
    have htext : statusCodeRangeToString ⟨start, start⟩ = start.repr := if_pos rfl
    have hplain : contains start.repr "-" = false :=
      Bool.eq_false_iff.2 fun h => hdash start hlow ((contains_dash_iff _).1 h)
    simp [htext, hnil, hplain, hint start ⟨hlow, hhigh⟩, show ¬ start < 100 by omega,
      show ¬ 599 < start by omega]
  · have htext : statusCodeRangeToString ⟨start, stop⟩ = start.repr ++ "-" ++ stop.repr := if_neg heq
    have hcontains : contains (start.repr ++ "-" ++ stop.repr) "-" = true := by
      simp [contains_dash_iff]
    have hsplit : split (start.repr ++ "-" ++ stop.repr) '-' = [start.repr, stop.repr] := by
      have hpieces : ∀ l ∈ [start.repr.toList, stop.repr.toList], '-' ∉ l := by
        simp [hdash start hlow, hdash stop (by omega)]
      have := splitOn_intercalate '-' hpieces (by simp)
      simp [split] at this ⊢
      simp [this]
    simp [htext, hcontains, hsplit, hnil, hint start (by omega), hint stop (by omega), hle,
      show ¬ start < 100 by omega, show ¬ 599 < stop by omega]

theorem mem_intercalate_comma {c : Char} {ls : List (List Char)} (h : c ∈ [','].intercalate ls) :
    c = ',' ∨ ∃ l ∈ ls, c ∈ l := by
  induction ls with
  | nil => simp at h
  | cons l ls ih =>
    cases ls with
    | nil => exact .inr ⟨l, by simp, by simpa using h⟩
    | cons l' ls =>
      rw [intercalate_cons_cons, mem_append, mem_append, mem_singleton] at h
      grind

theorem tokens_toString {ranges : List StatusCodeRange} (h : Normal ranges) :
    tokens (statusCodeRangesToString ranges) = ranges.map statusCodeRangeToString := by
  by_cases hnil : ranges = []
  · subst hnil
    decide
  have htext : (statusCodeRangesToString ranges).toList =
      [','].intercalate (ranges.map fun r => (statusCodeRangeToString r).toList) := by
    rw [statusCodeRangesToString, String.toList_intercalate, map_map]
    rfl
  have hplain : ∀ c ∈ (statusCodeRangesToString ranges).toList, isSpace c = false ∧ c ≠ '，' := by
    rw [htext]
    intro c hc
    rcases mem_intercalate_comma hc with rfl | ⟨l, hl, hc⟩
    · decide
    · obtain ⟨r, -, rfl⟩ := mem_map.1 hl
      exact ⟨(plain_of_mem_text hc).1, (plain_of_mem_text hc).2.2.2⟩
  have hcommas : (statusCodeRangesToString ranges).toList.map (fun c => if c = '，' then ',' else c) =
      (statusCodeRangesToString ranges).toList :=
    (map_congr_left fun c hc => if_neg (hplain c hc).2).trans (map_id _)
  have hnocomma : ∀ l ∈ ranges.map fun r => (statusCodeRangeToString r).toList, ',' ∉ l := by
    simp only [forall_mem_map]
    exact fun r _ hc => (plain_of_mem_text hc).2.2.1 rfl
  rw [tokens, trimSpace_eq_self fun c hc => (hplain c hc).1, hcommas, String.ofList_toList, split,
    htext, splitOn_intercalate ',' hnocomma (by simpa using hnil), map_map, map_map]
  have htrim : ∀ r ∈ ranges, ((trimSpace ∘ String.ofList) ∘
      fun r => (statusCodeRangeToString r).toList) r = statusCodeRangeToString r := fun r _ => by
    simp only [Function.comp_apply, String.ofList_toList]
    exact trimSpace_eq_self fun c hc => (plain_of_mem_text hc).1
  rw [map_congr_left htrim, filter_eq_self]
  simp only [forall_mem_map, decide_eq_true_eq]
  intro r hr hempty
  have := parseHTTPStatusCodeToken_toString (h.ok r hr)
  rw [hempty, show parseHTTPStatusCodeToken "" = .error "empty token" by decide +kernel] at this
  exact nomatch this

/-- The rules of a text are the union of its tokens, in the one normal list that has these codes. -/
theorem rules_are_union {input : String} {ranges : List StatusCodeRange}
    (h : parseHTTPStatusCodeRanges input = .ok ranges) :
    Normal ranges ∧
      (∀ code, shouldMatchStatusCodeRanges ranges code ↔
        ∃ token ∈ tokens input, TokenCovers token code) ∧
      parseHTTPStatusCodeRanges (statusCodeRangesToString ranges) = .ok ranges ∧
      ∀ input', (∀ token, token ∈ tokens input' ↔ token ∈ tokens input) →
        parseHTTPStatusCodeRanges input' = .ok ranges := by
  rw [parseHTTPStatusCodeRanges_eq_ok_iff] at h
  obtain ⟨hok, hnormal, hcovers⟩ := h
  refine ⟨hnormal, fun code => (shouldMatchStatusCodeRanges_iff hnormal code).trans (hcovers code), ?_,
    fun input' hsame => ?_⟩
  · rw [parseHTTPStatusCodeRanges_eq_ok_iff, tokens_toString hnormal, forall_mem_map]
    have hback (r : StatusCodeRange) (hr : r ∈ ranges) := parseHTTPStatusCodeToken_toString (hnormal.ok r hr)
    refine ⟨fun r hr => ⟨r, hback r hr⟩, hnormal, fun code => ?_⟩
    simp only [mem_map, exists_exists_and_eq_and, TokenCovers, Covers]
    refine exists_congr fun r => and_congr_right fun hr => ?_
    simp [hback r hr]
  · simpa only [parseHTTPStatusCodeRanges_eq_ok_iff, hsame] using ⟨hok, hnormal, hcovers⟩

theorem rules_are_union_two : shouldMatchStatusCodeRanges [⟨401, 403⟩, ⟨500, 500⟩] 403 ↔
    ∃ token ∈ tokens " 402-403，401, 500", TokenCovers token 403 :=
  (rules_are_union (by decide +kernel)).2.1 403

end BeeApi.StatusCodes
