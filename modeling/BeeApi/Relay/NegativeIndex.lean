import BeeApi.Relay.MoveValue

/-!
# Negative indices of an override path

A path is its first segment with a list of segments after it.  `resolve` says what the indices from
the end denote: each one is counted in the array that the resolved path before it reaches.
`processNegativeIndex` counts it in the array that the path as written reaches before the first place
where the index's text stands, which need not be the index, and rewrites the first segment that starts
with that text.
-/

namespace BeeApi.Override

open List Option String Json

/-- The text of a path. -/
def dotted (head : List Char) : List (List Char) → List Char
  | [] => head
  | s :: rest => head ++ '.' :: dotted s rest

/-- The segment starts as an index that counts from the end. -/
def isNegative : List Char → Bool
  | '-' :: d :: _ => d.isDigit
  | _ => false

/-- The place that is counted from the end of an array, if it is in range. -/
def fromEnd (array : Option Json) (negIndex : List Char) : Option ℕ :=
  match array with
  | some (.arr items) =>
    let k := Nat.ofDigitChars 10 negIndex.tail 0
    if 1 ≤ k ∧ k ≤ items.length then some (items.length - k) else none
  | _ => none

/-- A segment with an index in range replaced by its place. -/
def resolveSegment (array : Option Json) (segment : List Char) : List Char :=
  if isNegative segment then (fromEnd array segment).elim segment fun i => i.repr.toList
  else segment

/-- The segments up to where a text first stands in one of them, that one cut off there. -/
def upTo (s : List Char) : List (List Char) → List (List Char)
  | [] => []
  | t :: rest =>
    if s <:+: t then if before s t = [] then [] else [before s t] else t :: upTo s rest

/-- The first segment that starts with a text, with another start. -/
def replaceSegment (s new : List Char) : List (List Char) → List (List Char)
  | [] => []
  | t :: rest => if s <+: t then (new ++ t.drop s.length) :: rest else t :: replaceSegment s new rest

section Texts

variable {head s t u : List Char} {segments l l' : List (List Char)}

theorem dotted_eq_intercalate (head : List Char) (l : List (List Char)) :
    dotted head l = ['.'].intercalate (head :: l) := by
  induction l generalizing head with
  | nil => simp [dotted, List.intercalate]
  | cons s rest ih => simp [dotted, ih, List.intercalate_cons_cons]

theorem dotted_injective (hhead : '.' ∉ head) (hl : ∀ s ∈ l, '.' ∉ s) (hl' : ∀ s ∈ l', '.' ∉ s)
    (h : dotted head l = dotted head l') : l = l' := by
  have hsplit := congrArg (List.splitOn '.') h
  rw [dotted_eq_intercalate, dotted_eq_intercalate,
    splitOn_intercalate _ (by simpa using ⟨hhead, hl⟩) (by simp),
    splitOn_intercalate _ (by simpa using ⟨hhead, hl'⟩) (by simp)] at hsplit
  exact (List.cons.inj hsplit).2

/-- A text without a dot that starts a path starts its first segment. -/
theorem prefix_of_prefix_dotted (hs : '.' ∉ s) (h : s <+: dotted u l) : s <+: u := by
  cases l with
  | nil => exact h
  | cons v rest =>
    rcases le_total s.length u.length with hle | hle
    · exact prefix_of_prefix_length_le h (prefix_append u _) hle
    · obtain ⟨t, rfl⟩ := prefix_of_prefix_length_le (prefix_append u _) h hle
      rw [dotted, prefix_append_right_inj] at h
      cases t with
      | nil => simp
      | cons c t =>
        rw [(cons_prefix_cons.1 h).1] at hs
        simp at hs

theorem dotted_append (s u : List Char) (l : List (List Char)) :
    dotted (s ++ u) l = s ++ dotted u l := by
  cases l <;> simp [dotted]

theorem isNegative_iff :
    isNegative s ↔ ∃ d digits, s = '-' :: d :: digits ∧ d.isDigit := by
  constructor
  · intro h
    unfold isNegative at h
    split at h
    · exact ⟨_, _, rfl, h⟩
    · cases h
  · rintro ⟨d, digits, rfl, hd⟩
    exact hd

theorem negativeIndices_dot (rest : List Char) :
    negativeIndices ('.' :: rest) =
      (if isNegative rest then ['-' :: rest.tail.takeWhile Char.isDigit] else []) ++
        negativeIndices rest := by
  by_cases h : ∃ d digits, rest = '-' :: d :: digits
  · obtain ⟨d, digits, rfl⟩ := h
    by_cases hd : d.isDigit <;> simp [negativeIndices, isNegative, hd]
  · have hnot : ¬ isNegative rest := by
      rw [isNegative_iff]
      exact fun ⟨d, digits, hrest, _⟩ => h ⟨d, digits, hrest⟩
    rw [negativeIndices, if_neg hnot, nil_append]
    exact fun d digits _ hrest => h ⟨d, digits, hrest⟩

theorem negativeIndices_append (hs : '.' ∉ s) (rest : List Char) :
    negativeIndices (s ++ rest) = negativeIndices rest := by
  induction s with
  | nil => rfl
  | cons c s ih =>
    rw [mem_cons, not_or] at hs
    rw [cons_append, negativeIndices, ih hs.2]
    exact fun _ _ hc => absurd hc.symm hs.1

theorem isNegative_dotted (s : List Char) (l : List (List Char)) :
    isNegative (dotted s l) = isNegative s := by
  rw [Bool.eq_iff_iff, isNegative_iff, isNegative_iff]
  match s with
  | [] | [c] | c :: d :: s => cases l <;> simp [dotted]

theorem negativeIndices_dotted (hhead : '.' ∉ head) (hdots : ∀ s ∈ segments, '.' ∉ s)
    (hdigits : ∀ s ∈ segments, isNegative s → s.tail.all Char.isDigit) :
    negativeIndices (dotted head segments) = segments.filter isNegative := by
  induction segments generalizing head with
  | nil => simpa [dotted, negativeIndices] using negativeIndices_append hhead []
  | cons s rest ih =>
    simp only [forall_mem_cons] at hdots hdigits
    rw [dotted, negativeIndices_append hhead, negativeIndices_dot, isNegative_dotted,
      filter_cons, ih hdots.1 hdots.2 hdigits.2]
    split
    · rename_i hs
      obtain ⟨d, digits, rfl, -⟩ := isNegative_iff.1 hs
      have hall := all_eq_true.1 (hdigits.1 hs)
      rw [tail_cons] at hall
      cases rest with
      | nil =>
        rw [dotted, tail_cons, takeWhile_eq_self_iff.2 hall]
        rfl
      | cons u rest =>
        rw [dotted, tail_append_of_ne_nil (cons_ne_nil _ _), tail_cons,
          takeWhile_append_of_pos hall]
        simp
    · rfl

theorem replaceFirst_append {new : List Char} (hhead : '.' ∉ head) (rest : List Char) :
    replaceFirst ('.' :: s) new (head ++ rest) = head ++ replaceFirst ('.' :: s) new rest := by
  induction head with
  | nil => rfl
  | cons c head ih =>
    rw [mem_cons, not_or] at hhead
    rw [cons_append, replaceFirst, if_neg (by simp [hhead.1]), ih hhead.2]
    rfl

theorem replaceFirst_dotted {new : List Char} (hhead : '.' ∉ head) (hs : '.' ∉ s)
    (hl : ∀ t ∈ l, '.' ∉ t) :
    replaceFirst ('.' :: s) ('.' :: new) (dotted head l) = dotted head (replaceSegment s new l) := by
  induction l generalizing head with
  | nil => simpa [dotted, replaceFirst, replaceSegment] using @replaceFirst_append head s ('.' :: new) hhead []
  | cons t l ih =>
    obtain ⟨ht, hl⟩ := forall_mem_cons.1 hl
    have hstarts : ('.' :: s).isPrefixOf ('.' :: dotted t l) = true ↔ s <+: t := by
      rw [List.isPrefixOf_iff_prefix, prefix_cons_inj]
      refine ⟨prefix_of_prefix_dotted hs, ?_⟩
      rintro ⟨u, rfl⟩
      rw [dotted_append]
      exact prefix_append s _
    rw [dotted, replaceFirst_append hhead, replaceFirst, replaceSegment]
    split_ifs with h h'
    · obtain ⟨u, rfl⟩ := h'
      rw [dotted, dotted_append, length_cons, drop_succ_cons, drop_left, drop_left, dotted_append]
      rfl
    · exact absurd (hstarts.1 h) ‹_›
    · exact absurd (hstarts.2 ‹_›) h
    · rw [dotted, ih ht hl]

theorem replaceSegment_append {new : List Char} (hl : ∀ t ∈ l, ¬ s <+: t) (l' : List (List Char)) :
    replaceSegment s new (l ++ l') = l ++ replaceSegment s new l' := by
  induction l with
  | nil => rfl
  | cons t l ih =>
    obtain ⟨ht, hl⟩ := forall_mem_cons.1 hl
    rw [cons_append, replaceSegment, if_neg ht, ih hl, cons_append]

theorem replaceSegment_of_mem {new : List Char} (hmem : t ∈ l) (hpre : s <+: t) :
    ∃ l₁ u l₂, l = l₁ ++ u :: l₂ ∧ s <+: u ∧
      ∀ l', replaceSegment s new (l ++ l') = l₁ ++ (new ++ u.drop s.length) :: (l₂ ++ l') := by
  induction l with
  | nil => cases hmem
  | cons v l ih =>
    by_cases hv : s <+: v
    · refine ⟨[], v, l, rfl, hv, fun l' => ?_⟩
      rw [cons_append, replaceSegment, if_pos hv, nil_append]
    · obtain ⟨l₁, u, l₂, rfl, hu, hreplace⟩ := ih ((mem_cons.1 hmem).resolve_left fun heq => hv (heq ▸ hpre))
      refine ⟨v :: l₁, u, l₂, rfl, hu, fun l' => ?_⟩
      rw [cons_append, replaceSegment, if_neg hv, hreplace, cons_append]

theorem notMem_of_mem_replaceSegment {new : List Char} (hnew : '.' ∉ new) (hl : ∀ t ∈ l, '.' ∉ t) :
    ∀ t ∈ replaceSegment s new l, '.' ∉ t := by
  induction l with
  | nil => nofun
  | cons v l ih =>
    obtain ⟨hv, hl⟩ := forall_mem_cons.1 hl
    rw [replaceSegment]
    split_ifs
    · rw [forall_mem_cons]
      refine ⟨fun hmem => ?_, hl⟩
      exact (mem_append.1 hmem).elim hnew fun hmem => hv (mem_of_mem_drop hmem)
    · exact forall_mem_cons.2 ⟨hv, ih hl⟩

/-! ## Where a text first stands -/

theorem before_append_of_infix (h : s <:+: t) (u : List Char) : before s (t ++ u) = before s t := by
  induction t with
  | nil =>
    obtain rfl := infix_nil.1 h
    cases u <;> rfl
  | cons c t ih =>
    have hstarts : s.isPrefixOf (c :: t ++ u) = s.isPrefixOf (c :: t) := by
      rw [Bool.eq_iff_iff, List.isPrefixOf_iff_prefix, List.isPrefixOf_iff_prefix]
      exact ⟨fun hpre => prefix_of_prefix_length_le hpre (prefix_append _ _) h.length_le,
        fun hpre => hpre.trans (prefix_append _ _)⟩
    rw [cons_append] at hstarts ⊢
    rw [before, before, hstarts]
    split_ifs with hpre
    · rfl
    · rw [ih ((infix_cons_iff.1 h).resolve_left fun hs => hpre (List.isPrefixOf_iff_prefix.2 hs))]

theorem before_append_of_not_infix (hs : '.' ∉ s) (h : ¬ s <:+: t) (u : List Char) :
    before s (t ++ '.' :: u) = t ++ '.' :: before s u := by
  induction t with
  | nil =>
    rw [nil_append, nil_append, before, if_neg]
    rw [List.isPrefixOf_iff_prefix]
    intro hpre
    cases s with
    | nil => exact h (infix_refl [])
    | cons c s => exact hs ((cons_prefix_cons.1 hpre).1 ▸ mem_cons_self)
  | cons c t ih =>
    rw [infix_cons_iff, not_or] at h
    rw [cons_append, before, if_neg, ih h.2, cons_append]
    rw [List.isPrefixOf_iff_prefix]
    exact fun hpre => h.1 (prefix_of_prefix_dotted (l := [u]) hs hpre)

theorem before_sublist (s t : List Char) : (before s t).Sublist t := by
  induction t with
  | nil => exact Sublist.refl []
  | cons c t ih =>
    rw [before]
    split_ifs
    · exact nil_sublist _
    · exact ih.cons_cons c

/-- A text without the dot at its end. -/
def trimDot (l : List Char) : List Char := if ['.'].isSuffixOf l then l.dropLast else l

theorem trimDot_of_notMem (h : '.' ∉ t) : trimDot t = t :=
  if_neg fun hdot => h ((isSuffixOf_iff_suffix.1 hdot).subset mem_cons_self)

theorem trimDot_append (t : List Char) (h : u ≠ []) : trimDot (t ++ '.' :: u) = t ++ '.' :: trimDot u := by
  have hsuffix : ['.'].isSuffixOf (t ++ '.' :: u) = ['.'].isSuffixOf u := by
    rw [Bool.eq_iff_iff, isSuffixOf_iff_suffix, isSuffixOf_iff_suffix]
    refine ⟨fun hdot => ?_, fun hdot => hdot.trans ((suffix_cons _ _).trans (suffix_append _ _))⟩
    refine suffix_of_suffix_length_le hdot ((suffix_cons _ _).trans (suffix_append _ _)) ?_
    exact length_pos_iff.2 h
  unfold trimDot
  rw [hsuffix]
  split_ifs
  · rw [dropLast_append_of_ne_nil (cons_ne_nil _ _), dropLast_cons_of_ne_nil h]
  · rfl

theorem before_dotted_of_infix (hhead : '.' ∉ head) (hin : s <:+: head) :
    trimDot (before s (dotted head segments)) = ['.'].intercalate (upTo s (head :: segments)) ∧
      (before s (dotted head segments) = [] ↔ upTo s (head :: segments) = []) := by
  have hbefore : before s (dotted head segments) = before s head := by
    cases segments with
    | nil => rfl
    | cons t l => exact before_append_of_infix hin _
  have hdot : '.' ∉ before s head := fun hdot => hhead ((before_sublist s head).subset hdot)
  rw [hbefore, trimDot_of_notMem hdot, upTo, if_pos hin]
  split_ifs with hnil
  · simp [hnil]
  · simp [hnil]

/-- What is read before the first occurrence of a text in a path. -/
theorem before_dotted (hhead : '.' ∉ head) (hs : '.' ∉ s) (hdots : ∀ t ∈ segments, '.' ∉ t)
    (hmem : s ∈ head :: segments) :
    trimDot (before s (dotted head segments)) = ['.'].intercalate (upTo s (head :: segments)) ∧
      (before s (dotted head segments) = [] ↔ upTo s (head :: segments) = []) := by
  induction segments generalizing head with
  | nil =>
    obtain rfl := mem_singleton.1 hmem
    exact before_dotted_of_infix hhead (infix_refl _)
  | cons t l ih =>
    by_cases hin : s <:+: head
    · exact before_dotted_of_infix hhead hin
    · obtain ⟨ht, hl⟩ := forall_mem_cons.1 hdots
      obtain ⟨htext, hnil⟩ :=
        ih ht hl ((mem_cons.1 hmem).resolve_left fun heq => hin (heq ▸ infix_refl s))
      rw [dotted, before_append_of_not_infix hs hin, upTo, if_neg hin]
      refine ⟨?_, by simp⟩
      by_cases hempty : before s (dotted t l) = []
      · rw [hempty, hnil.1 hempty]
        simp [trimDot]
      · obtain ⟨u, rest, hrest⟩ := exists_cons_of_ne_nil (mt hnil.2 hempty)
        rw [trimDot_append head hempty, htext, hrest, List.intercalate_cons_cons]
        simp

end Texts

/-! ## The two readings of an index -/

section

variable {F : Type} (gjson : Gjson F) (sjson : Sjson) (json : Json) (head : List Char)
  (segments : List (List Char))

/-- The segments of a path with every index from the end replaced by what it denotes. -/
def resolve (segments : List (List Char)) : List (List Char) :=
  segments.foldl (fun done segment =>
    done ++ [resolveSegment (gjson.get json (String.ofList (dotted head done))) segment]) []

/-- The array of an index behind some segments: what the resolved path before it reaches. -/
def ownArray (done : List (List Char)) : Option Json :=
  gjson.get json (String.ofList (dotted head (resolve gjson json head done)))

/-- What the path as written reaches before the text of an index first stands in it. -/
def countedIn (negIndex : List Char) : Option Json :=
  gjson.get json (String.ofList (['.'].intercalate (upTo negIndex (head :: segments))))

/-- An index whose text stands nowhere before it is the first one with a place, or has none; one whose
text does stand before it has the same place in the array that is reached there; and no index with a place
follows one that starts with its text and has none. -/
structure PlacesAgree : Prop where
  first : ∀ done s, done ++ [s] <+: segments → isNegative s → (∀ t ∈ head :: done, ¬ s <:+: t) →
    resolve gjson json head done = done ∨ fromEnd (ownArray gjson json head done) s = none
  again : ∀ done s, done ++ [s] <+: segments → isNegative s → (∃ t ∈ head :: done, s <:+: t) →
    fromEnd (countedIn gjson json head segments s) s = fromEnd (ownArray gjson json head done) s
  order : segments.Pairwise fun s t => isNegative s → isNegative t → t <+: s →
    fromEnd (countedIn gjson json head segments s) s = none →
      fromEnd (countedIn gjson json head segments t) t = none

/-- The place of an index happens to be written as that of a later one, whose text it starts with, and
the rest of its own digits. -/
def Coincides : Prop :=
  ∃ done s rest, segments = done ++ s :: rest ∧ ∃ t ∈ rest, isNegative t ∧ t <+: s ∧ t ≠ s ∧
    ∃ i j, fromEnd (countedIn gjson json head segments t) t = some i ∧
      fromEnd (ownArray gjson json head done) s = some j ∧
      j.repr.toList = i.repr.toList ++ s.drop t.length

/-- `deleteValue`. -/
def deleteValue (json : Json) (path : String) : Except String Json :=
  if Strings.trimSpace path = "" then .ok json else sjson.delete json path

def copyValue (json : Json) (fromPath toPath : String) : Except String Json :=
  match gjson.get json fromPath with
  | none => .error s!"source path does not exist: {fromPath}"
  | some sourceValue => sjson.set json toPath (sourceValue.mapNumbers sjson.number)

/-- The modes `delete`, `set` and `copy` of `applyOperations`, at a path without a wildcard. -/
def deleteOperation (json : Json) (opPath : String) : Except String Json :=
  deleteValue sjson json (processNegativeIndex gjson json opPath)

def setOperation (json : Json) (opPath : String) (keepOrigin : Bool) (value : Json) :
    Except String Json :=
  let path := processNegativeIndex gjson json opPath
  if keepOrigin && (gjson.get json path).isSome then .ok json else sjson.set json path value

def copyOperation (json : Json) (opFrom opTo : String) : Except String Json :=
  if opFrom = "" ∨ opTo = "" then .error "copy from/to is required"
  else
    copyValue gjson sjson json (processNegativeIndex gjson json opFrom)
      (processNegativeIndex gjson json opTo)

/-- The conditions and operations at a path are about the element that the names lead to. -/
structure ActsOn [LinearOrder F] (path : String) (names : List String) : Prop where
  condition : ∀ context condition v, condition.path = path → json.getAt names = some v →
    checkSingleCondition gjson json context condition =
      match compareGjsonValues gjson v condition.value (Strings.toLower condition.mode) with
      | .error err => .error s!"comparison failed for path {condition.path}: {err}"
      | .ok result => .ok (result ^^ condition.invert)
  set : ∀ keepOrigin value, keepOrigin = false ∨ json.getAt names = none →
    (setOperation gjson sjson json path keepOrigin value).toOption = json.setAt names value
  delete : Strings.trimSpace (processNegativeIndex gjson json path) ≠ "" →
    (deleteOperation gjson sjson json path).toOption = some (json.deleteAt names)
  move : ∀ opTo v, json.getAt names = some v →
    (moveOperation gjson sjson json path opTo).toOption =
      (sjson.set json (processNegativeIndex gjson json opTo) (v.mapNumbers sjson.number)).toOption.map
        (·.deleteAt names)
  copy : ∀ opTo v, path ≠ "" → opTo ≠ "" → json.getAt names = some v →
    copyOperation gjson sjson json path opTo =
      sjson.set json (processNegativeIndex gjson json opTo) (v.mapNumbers sjson.number)
  copyTo : ∀ opFrom v, opFrom ≠ "" → path ≠ "" →
    gjson.get json (processNegativeIndex gjson json opFrom) = some v →
      (copyOperation gjson sjson json opFrom path).toOption =
        json.setAt names (v.mapNumbers sjson.number)

/-- The result is the resolved path, and where that is read as names, what they lead to is used. -/
structure Resolves [LinearOrder F] : Prop where
  text : processNegativeIndex gjson json (String.ofList (dotted head segments)) =
    String.ofList (dotted head (resolve gjson json head segments))
  acts : ∀ names,
    Denotes gjson sjson (String.ofList (dotted head (resolve gjson json head segments))) names →
      ActsOn gjson sjson json (String.ofList (dotted head segments)) names

variable {gjson sjson json head segments}

theorem resolve_concat (l : List (List Char)) (s : List Char) :
    resolve gjson json head (l ++ [s]) = resolve gjson json head l ++ [resolveSegment
        (gjson.get json (String.ofList (dotted head (resolve gjson json head l)))) s] := by
  simp [resolve]

theorem actsOn_of_denotes [LinearOrder F] {path : String} {names : List String}
    (h : Denotes gjson sjson (processNegativeIndex gjson json path) names) :
    ActsOn gjson sjson json path names where
  condition context condition v hpath hv := by
    unfold checkSingleCondition
    dsimp only
    rw [hpath, h.get, hv]
    rfl
  set keepOrigin value hkeep := by
    unfold setOperation
    dsimp only
    rw [h.get, if_neg, h.set]
    rcases hkeep with rfl | hnone
    · simp
    · simp [hnone]
  delete hblank := by
    unfold deleteOperation deleteValue
    rw [if_neg hblank, h.delete]
  move opTo v hv := by
    unfold moveOperation moveValue
    rw [h.get, hv]
    dsimp only
    cases sjson.set json (processNegativeIndex gjson json opTo) (v.mapNumbers sjson.number) with
    | error err => rfl
    | ok result => exact h.delete result
  copy opTo v hpath hto hv := by
    unfold copyOperation copyValue
    rw [if_neg (not_or.2 ⟨hpath, hto⟩), h.get, hv]
  copyTo opFrom v hfrom hpath hv := by
    unfold copyOperation copyValue
    rw [if_neg (not_or.2 ⟨hfrom, hpath⟩), hv]
    exact h.set json _

theorem resolveIndex_eq {s : List Char} (result : List Char) (hhead : '.' ∉ head) (hs : '.' ∉ s)
    (hdots : ∀ t ∈ segments, '.' ∉ t) (hmem : s ∈ segments) :
    resolveIndex gjson json (dotted head segments) result s =
      (fromEnd (countedIn gjson json head segments s) s).elim result fun i =>
        replaceFirst ('.' :: s) ('.' :: i.repr.toList) result := by
  have htext := (before_dotted hhead hs hdots (mem_cons_of_mem head hmem)).1
  unfold trimDot at htext
  unfold countedIn
  rw [← htext]
  generalize hread : gjson.get json _ = read
  rcases read with _ | (_ | _ | _ | _ | items | _)
  all_goals simp only [resolveIndex, hread, fromEnd, elim_none]
  generalize Nat.ofDigitChars 10 s.tail 0 = k
  split
  · rename_i hk
    have hplace : (items.length : ℤ) + -(k : ℤ) = ((items.length - k : ℕ) : ℤ) := by omega
    rw [if_pos (by omega), elim_some, hplace]
    rfl
  · rename_i hk
    rw [if_neg (by omega), elim_none]

theorem notMem_resolveSegment {s : List Char} (array : Option Json) (hs : '.' ∉ s) :
    '.' ∉ resolveSegment array s := by
  unfold resolveSegment
  split
  · cases fromEnd array s with
    | none => exact hs
    | some i => exact fun h => absurd (Strings.isDigit_of_mem_repr h) (by decide)
  · exact hs

theorem not_prefix_resolveSegment {s t : List Char} {array : Option Json} (hs : isNegative s)
    (ht : isNegative t → fromEnd array t = none → ¬ s <+: t) :
    ¬ s <+: resolveSegment array t := by
  obtain ⟨d, digits, rfl, -⟩ := isNegative_iff.1 hs
  unfold resolveSegment
  split
  · rename_i hneg
    cases hplace : fromEnd array t with
    | none => exact ht hneg hplace
    | some i =>
      intro hpre
      exact absurd (Strings.isDigit_of_mem_repr (hpre.subset mem_cons_self)) (by decide)
  · rename_i hneg
    rintro ⟨u, rfl⟩
    exact hneg hs

theorem resolveSegment_inj {s : List Char} {array array' : Option Json} :
    resolveSegment array s = resolveSegment array' s ↔
      (isNegative s → fromEnd array s = fromEnd array' s) := by
  unfold resolveSegment
  split
  · rename_i hneg
    obtain ⟨d, digits, rfl, -⟩ := isNegative_iff.1 hneg
    have hne : ∀ i : ℕ, '-' :: d :: digits ≠ i.repr.toList := by
      intro i heq
      have hsign : '-' ∈ i.repr.toList := heq ▸ mem_cons_self
      exact absurd (Strings.isDigit_of_mem_repr hsign) (by decide)
    rw [forall_prop_of_true hneg]
    cases fromEnd array ('-' :: d :: digits) with
    | none =>
      cases fromEnd array' ('-' :: d :: digits) with
      | none => simp only [elim_none]
      | some j => simpa only [elim_none, elim_some, reduceCtorEq, iff_false] using hne j
    | some i =>
      cases fromEnd array' ('-' :: d :: digits) with
      | none =>
        simpa only [elim_none, elim_some, reduceCtorEq, iff_false] using (hne i).symm
      | some j =>
        rw [elim_some, elim_some, toList_inj, Strings.repr_injective.eq_iff, some_inj]
  · simp_all

section Path

variable (hhead : '.' ∉ head) (hdots : ∀ s ∈ segments, '.' ∉ s)

include hhead hdots

/-- One turn of the loop, on the segments. -/
def turn (read : List Char → Option Json) (l : List (List Char)) (s : List Char) : List (List Char) :=
  (fromEnd (read s) s).elim l fun i => replaceSegment s i.repr.toList l

theorem foldl_resolveIndex {indices l : List (List Char)} (hindices : ∀ s ∈ indices, s ∈ segments)
    (hl : ∀ t ∈ l, '.' ∉ t) :
    indices.foldl (resolveIndex gjson json (dotted head segments)) (dotted head l) =
      dotted head (indices.foldl (turn (countedIn gjson json head segments)) l) := by
  induction indices generalizing l with
  | nil => rfl
  | cons s indices ih =>
    obtain ⟨hs, hindices⟩ := forall_mem_cons.1 hindices
    rw [foldl_cons, foldl_cons, resolveIndex_eq _ hhead (hdots s hs) hdots hs, turn]
    cases fromEnd (countedIn gjson json head segments s) s with
    | none => exact ih hindices hl
    | some i =>
      rw [elim_some, elim_some, replaceFirst_dotted hhead (hdots s hs) hl]
      exact ih hindices (notMem_of_mem_replaceSegment
        (fun h => absurd (Strings.isDigit_of_mem_repr h) (by decide)) hl)

omit hhead hdots in
/-- Each index in front is replaced by its place, where none hides a later one. -/
theorem foldl_turn {read : List Char → Option Json} {l : List (List Char)} (rest : List (List Char))
    (horder : l.Pairwise fun s t => isNegative s → isNegative t → t <+: s →
      fromEnd (read s) s = none → fromEnd (read t) t = none) :
    (l.filter isNegative).foldl (turn read) (l ++ rest) =
      l.map (fun s => resolveSegment (read s) s) ++ rest := by
  induction l using List.reverseRecOn generalizing rest with
  | nil => rfl
  | append_singleton l s ih =>
    obtain ⟨hl, -, hlast⟩ := pairwise_append.1 horder
    rw [filter_append, foldl_append, List.append_assoc, ih _ hl, map_append, List.append_assoc, map_singleton,
      singleton_append, singleton_append]
    by_cases hs : isNegative s
    · rw [filter_cons_of_pos hs, filter_nil, foldl_cons, foldl_nil, turn, resolveSegment, if_pos hs]
      cases hplace : fromEnd (read s) s with
      | none => rfl
      | some i =>
        rw [elim_some, elim_some, replaceSegment_append, replaceSegment, if_pos (prefix_refl s),
          drop_length, append_nil]
        rw [List.forall_mem_map]
        intro t ht
        refine not_prefix_resolveSegment hs fun hneg hnone hpre => ?_
        have hhidden := hlast t ht s (mem_singleton_self s) hneg hs hpre hnone
        rw [hplace] at hhidden
        cases hhidden
    · rw [filter_cons_of_neg hs, filter_nil, foldl_nil, resolveSegment, if_neg hs]

omit hhead hdots in
/-- A segment that does not start as an index stays where it is. -/
theorem foldl_turn_keeps {read : List Char → Option Json} {indices l₁ l₂ : List (List Char)}
    {t : List Char} (hindices : ∀ s ∈ indices, ¬ s <+: t) :
    ∃ l₁' l₂', l₁'.length = l₁.length ∧
      indices.foldl (turn read) (l₁ ++ t :: l₂) = l₁' ++ t :: l₂' := by
  induction indices generalizing l₁ l₂ with
  | nil => exact ⟨l₁, l₂, rfl, rfl⟩
  | cons s indices ih =>
    obtain ⟨hs, hindices⟩ := forall_mem_cons.1 hindices
    rw [foldl_cons, turn]
    cases fromEnd (read s) s with
    | none => exact ih hindices
    | some i =>
      rw [elim_some]
      by_cases hmem : ∃ u ∈ l₁, s <+: u
      · obtain ⟨u, hu, hpre⟩ := hmem
        obtain ⟨l, v, l', rfl, -, hreplace⟩ := @replaceSegment_of_mem s u l₁ i.repr.toList hu hpre
        obtain ⟨l₁', l₂', hlength, hfold⟩ := @ih (l ++ (i.repr.toList ++ v.drop s.length) :: l') l₂ hindices
        refine ⟨l₁', l₂', hlength.trans (by simp), ?_⟩
        rw [hreplace, ← hfold, List.append_assoc, cons_append]
      · rw [replaceSegment_append fun u hu hpre => hmem ⟨u, hu, hpre⟩, replaceSegment, if_neg hs]
        exact ih hindices

theorem processNegativeIndex_dotted
    (hdigits : ∀ s ∈ segments, isNegative s → s.tail.all Char.isDigit) :
    processNegativeIndex gjson json (String.ofList (dotted head segments)) =
      String.ofList (dotted head
        ((segments.filter isNegative).foldl (turn (countedIn gjson json head segments)) segments)) := by
  rw [processNegativeIndex, toList_ofList, negativeIndices_dotted hhead hdots hdigits,
    foldl_resolveIndex hhead hdots (fun s hs => mem_of_mem_filter hs) hdots]

omit hhead in
theorem notMem_of_mem_resolve : ∀ s ∈ resolve gjson json head segments, '.' ∉ s := by
  induction segments using List.reverseRecOn with
  | nil => simp [resolve]
  | append_singleton l s ih =>
    simp only [forall_mem_append, forall_mem_singleton] at hdots
    rw [resolve_concat, forall_mem_append, forall_mem_singleton]
    exact ⟨ih hdots.1, notMem_resolveSegment _ hdots.2⟩

omit hhead hdots in
theorem notMem_of_mem_foldl_turn {read : List Char → Option Json} {indices l : List (List Char)}
    (hl : ∀ t ∈ l, '.' ∉ t) : ∀ t ∈ indices.foldl (turn read) l, '.' ∉ t := by
  induction indices generalizing l with
  | nil => exact hl
  | cons s indices ih =>
    rw [foldl_cons, turn]
    cases fromEnd (read s) s with
    | none => exact ih hl
    | some i =>
      exact ih (notMem_of_mem_replaceSegment
        (fun h => absurd (Strings.isDigit_of_mem_repr h) (by decide)) hl)

theorem text_iff (hdigits : ∀ s ∈ segments, isNegative s → s.tail.all Char.isDigit) :
    processNegativeIndex gjson json (String.ofList (dotted head segments)) =
        String.ofList (dotted head (resolve gjson json head segments)) ↔
      (segments.filter isNegative).foldl (turn (countedIn gjson json head segments)) segments =
        resolve gjson json head segments := by
  rw [processNegativeIndex_dotted hhead hdots hdigits, ofList_inj]
  exact ⟨dotted_injective hhead (notMem_of_mem_foldl_turn hdots) (notMem_of_mem_resolve hdots),
    congrArg _⟩

omit hhead hdots in
theorem map_eq_resolve_iff {read : List Char → Option Json} :
    segments.map (fun s => resolveSegment (read s) s) = resolve gjson json head segments ↔
      ∀ done s, done ++ [s] <+: segments → isNegative s →
        fromEnd (read s) s = fromEnd (ownArray gjson json head done) s := by
  induction segments using List.reverseRecOn with
  | nil => simp [resolve]
  | append_singleton l x ih =>
    rw [resolve_concat, map_append, map_singleton, append_singleton_inj, ih, resolveSegment_inj]
    simp only [prefix_concat_iff, append_singleton_inj]
    constructor
    · rintro ⟨hl, hx⟩ done s (⟨rfl, rfl⟩ | hpre) hneg
      · exact hx hneg
      · exact hl done s hpre hneg
    · intro h
      exact ⟨fun done s hpre => h done s (.inr hpre), h l x (.inl ⟨rfl, rfl⟩)⟩

omit hhead hdots in
theorem length_resolve (l : List (List Char)) : (resolve gjson json head l).length = l.length := by
  induction l using List.reverseRecOn with
  | nil => rfl
  | append_singleton l s ih =>
    rw [resolve_concat, List.length_append, List.length_append, ih]
    rfl

omit hhead hdots in
theorem resolve_split (done : List (List Char)) (s : List Char) (rest : List (List Char)) :
    ∃ l, resolve gjson json head (done ++ s :: rest) = resolve gjson json head done ++
      resolveSegment (ownArray gjson json head done) s :: l := by
  induction rest using List.reverseRecOn with
  | nil => exact ⟨[], resolve_concat done s⟩
  | append_singleton rest t ih =>
    obtain ⟨l, hl⟩ := ih
    rw [← cons_append, ← List.append_assoc, resolve_concat, hl, List.append_assoc, cons_append]
    exact ⟨_, rfl⟩

omit hhead hdots in
theorem exists_first_of_not_pairwise {α : Type} {R : α → α → Prop} {l : List α}
    (h : ¬ l.Pairwise R) : ∃ p t q, l = p ++ t :: q ∧ p.Pairwise R ∧ ∃ s ∈ p, ¬ R s t := by
  induction l using List.reverseRecOn with
  | nil => exact absurd Pairwise.nil h
  | append_singleton l x ih =>
    by_cases hl : l.Pairwise R
    · refine ⟨l, x, [], rfl, hl, ?_⟩
      by_contra hnone
      push Not at hnone
      refine h (pairwise_append.2 ⟨hl, pairwise_singleton R x, fun s hs t ht => ?_⟩)
      rw [mem_singleton.1 ht]
      exact hnone s hs
    · obtain ⟨p, t, q, rfl, hp, hs⟩ := ih hl
      exact ⟨p, t, q ++ [x], by simp, hp, hs⟩

omit hhead hdots in
/-- What starts with an index is that index: a segment without a place. -/
theorem of_prefix_resolveSegment {s t : List Char} {array : Option Json} (hs : isNegative s)
    (h : s <+: resolveSegment array t) :
    resolveSegment array t = t ∧ isNegative t ∧ fromEnd array t = none := by
  obtain ⟨d, digits, rfl, hd⟩ := isNegative_iff.1 hs
  obtain ⟨u, hu⟩ := h
  unfold resolveSegment at hu ⊢
  split at hu
  · rename_i hneg
    rw [if_pos hneg]
    cases hplace : fromEnd array t with
    | none => exact ⟨rfl, hneg, rfl⟩
    | some i =>
      rw [hplace, elim_some] at hu
      have hsign : '-' ∈ i.repr.toList := hu ▸ mem_cons_self
      exact absurd (Strings.isDigit_of_mem_repr hsign) (by decide)
  · rename_i hneg
    exact absurd (hu ▸ hd) hneg

omit hhead hdots in
theorem not_prefix_repr_append {s : List Char} (hs : isNegative s) (i : ℕ) (l : List Char) :
    ¬ s <+: i.repr.toList ++ l := by
  obtain ⟨d, digits, rfl, -⟩ := isNegative_iff.1 hs
  obtain ⟨c, digits', hrepr⟩ := exists_cons_of_ne_nil (mt String.toList_eq_nil_iff.1 (@Nat.repr_ne_empty i))
  rw [hrepr, cons_append]
  intro hpre
  have hc := Strings.isDigit_of_mem_repr (hrepr ▸ mem_cons_self : c ∈ i.repr.toList)
  rw [← (cons_prefix_cons.1 hpre).1] at hc
  exact absurd hc (by decide)

omit hhead hdots in
/-- The resolved path comes about behind a hidden index only by a coincidence. -/
theorem coincides_of_foldl_turn {read : List Char → Option Json}
    (hfold : (segments.filter isNegative).foldl (turn read) segments = resolve gjson json head segments)
    (horder : ¬ segments.Pairwise fun s t => isNegative s → isNegative t → t <+: s →
      fromEnd (read s) s = none → fromEnd (read t) t = none) :
    ∃ done s rest, segments = done ++ s :: rest ∧ ∃ t ∈ rest, isNegative t ∧ t <+: s ∧ t ≠ s ∧
      ∃ i j, fromEnd (read t) t = some i ∧
        fromEnd (ownArray gjson json head done) s = some j ∧
        j.repr.toList = i.repr.toList ++ s.drop t.length := by
  obtain ⟨p, t, q, rfl, hp, s, hs, hhidden⟩ := exists_first_of_not_pairwise horder
  push Not at hhidden
  obtain ⟨hnegs, hneg, hpre, hnone, hplace⟩ := hhidden
  obtain ⟨i, hi⟩ := ne_none_iff_exists'.1 hplace
  have hkept : resolveSegment (read s) s = s := by
    rw [resolveSegment, if_pos hnegs, hnone, elim_none]
  have hmem : s ∈ p.map fun s => resolveSegment (read s) s := mem_map.2 ⟨s, hs, hkept⟩
  obtain ⟨l₁, u, l₂, hmap, hu, hreplace⟩ := @replaceSegment_of_mem t s _ i.repr.toList hmem hpre
  have hturns := foldl_turn (t :: q) hp
  obtain ⟨p₁, p', rfl, rfl, hp'⟩ := map_eq_append_iff.1 hmap
  obtain ⟨u, p₂, rfl, rfl, rfl⟩ := map_eq_cons_iff.1 hp'
  obtain ⟨heq, hnegu, hnoneu⟩ := of_prefix_resolveSegment hneg hu
  rw [heq] at hu hreplace
  -- from here on the place of `t` stands where `u` was
  obtain ⟨l₁', l₂', hlength, hkeeps⟩ := @foldl_turn_keeps read (q.filter isNegative)
    (p₁.map fun s => resolveSegment (read s) s)
    (p₂.map (fun s => resolveSegment (read s) s) ++ t :: q) _
    fun v hv => not_prefix_repr_append (mem_filter.1 hv).2 i (u.drop t.length)
  obtain ⟨l, hl⟩ := @resolve_split F gjson json head p₁ u (p₂ ++ t :: q)
  have hresult := hfold
  rw [filter_append, filter_cons_of_pos hneg, foldl_append, hturns, foldl_cons, turn, hi, elim_some,
    hreplace, hkeeps, List.append_assoc, cons_append, hl] at hresult
  obtain ⟨-, hhead⟩ := append_inj hresult (by rw [hlength, List.length_map, length_resolve])
  have hsame : i.repr.toList ++ u.drop t.length = resolveSegment (ownArray gjson json head p₁) u :=
    (cons.inj hhead).1
  refine ⟨p₁, u, p₂ ++ t :: q, by simp, t, by simp, hneg, hu, ?_, i, ?_⟩
  · rintro rfl
    rw [hi] at hnoneu
    cases hnoneu
  · rw [resolveSegment, if_pos hnegu] at hsame
    cases hown : fromEnd (ownArray gjson json head p₁) u with
    | none =>
      rw [hown, elim_none] at hsame
      exact absurd ⟨[], by rw [append_nil, hsame]⟩ (not_prefix_repr_append hnegu i (u.drop t.length))
    | some j =>
      rw [hown, elim_some] at hsame
      exact ⟨j, hi, rfl, hsame.symm⟩

end Path

theorem upTo_of_not_infix {l : List (List Char)} {s : List Char} (h : ∀ t ∈ l, ¬ s <:+: t)
    (rest : List (List Char)) : upTo s (l ++ s :: rest) = l := by
  induction l with
  | nil =>
    have hself : before s s = [] := by
      cases s with
      | nil => rfl
      | cons c s => rw [before, if_pos (List.isPrefixOf_iff_prefix.2 (prefix_refl _))]
    rw [nil_append, upTo, if_pos (infix_refl s), if_pos hself]
  | cons t l ih =>
    obtain ⟨ht, hl⟩ := forall_mem_cons.1 h
    rw [cons_append, upTo, if_neg ht, ih hl]

/-- The path as written reaches nothing behind an index that has a place. -/
theorem get_dotted_eq_none
    (hwalk : ∀ done s, done ++ [s] <+: segments →
      gjson.get json (String.ofList (dotted head (done ++ [s]))) =
        (gjson.get json (String.ofList (dotted head done))).bind fun value =>
          gjson.get value (String.ofList s))
    (hindex : ∀ items, ∀ s ∈ segments, isNegative s → gjson.get (.arr items) (String.ofList s) = none)
    {done : List (List Char)} (hpre : done <+: segments) (hne : resolve gjson json head done ≠ done) :
    gjson.get json (String.ofList (dotted head done)) = none := by
  induction done using List.reverseRecOn with
  | nil => exact absurd rfl hne
  | append_singleton l s ih =>
    rw [hwalk l s hpre]
    by_cases hl : resolve gjson json head l = l
    · rw [resolve_concat, hl, Ne, append_singleton_inj, not_and] at hne
      have hsegment := hne rfl
      unfold resolveSegment fromEnd at hsegment
      split at hsegment
      · rename_i hneg
        split at hsegment
        · rename_i items hitems
          rw [hitems]
          exact hindex items s (hpre.subset (by simp)) hneg
        · exact absurd rfl hsegment
      · exact absurd rfl hsegment
    · rw [ih ((prefix_append l [s]).trans hpre) hl]
      rfl

/-- The indices of a path are resolved if each one is counted in an array that gives it its own place
and none hides a later one, and only then, but for a coincidence of digits. -/
theorem negativeIndices_resolved [LinearOrder F] {sjson : Sjson}
    (hhead : '.' ∉ head) (hdots : ∀ s ∈ segments, '.' ∉ s)
    (hdigits : ∀ s ∈ segments, isNegative s → s.tail.all Char.isDigit)
    (hwalk : ∀ done s, done ++ [s] <+: segments →
      gjson.get json (String.ofList (dotted head (done ++ [s]))) =
        (gjson.get json (String.ofList (dotted head done))).bind fun value =>
          gjson.get value (String.ofList s))
    (hindex : ∀ items, ∀ s ∈ segments, isNegative s → gjson.get (.arr items) (String.ofList s) = none) :
    (PlacesAgree gjson json head segments → Resolves gjson sjson json head segments) ∧
      (Resolves gjson sjson json head segments →
        PlacesAgree gjson json head segments ∨ Coincides gjson json head segments) := by
  -- an index whose text stands nowhere before it is counted where the path as written leads
  have hfirst : ∀ done s, done ++ [s] <+: segments → (∀ t ∈ head :: done, ¬ s <:+: t) →
      (fromEnd (countedIn gjson json head segments s) s = fromEnd (ownArray gjson json head done) s ↔
        resolve gjson json head done = done ∨ fromEnd (ownArray gjson json head done) s = none) := by
    intro done s hpre hnot
    have hcounted : countedIn gjson json head segments s =
        gjson.get json (String.ofList (dotted head done)) := by
      obtain ⟨rest, rfl⟩ := hpre
      rw [countedIn, List.append_assoc, singleton_append, ← cons_append, upTo_of_not_infix hnot,
        dotted_eq_intercalate]
    rw [hcounted]
    by_cases hsame : resolve gjson json head done = done
    · rw [ownArray, hsame]
      exact iff_of_true rfl (.inl rfl)
    · have hnone : fromEnd none s = none := rfl
      rw [get_dotted_eq_none hwalk hindex ((prefix_append done [s]).trans hpre) hsame, hnone]
      exact ⟨fun h => .inr h.symm, fun h => (h.resolve_left hsame).symm⟩
  have htext := @text_iff F gjson json head segments hhead hdots hdigits
  constructor
  · intro h
    have hresolved : processNegativeIndex gjson json (String.ofList (dotted head segments)) =
        String.ofList (dotted head (resolve gjson json head segments)) := by
      have hfold := foldl_turn [] h.order
      rw [append_nil, append_nil] at hfold
      rw [htext, hfold, map_eq_resolve_iff]
      intro done s hpre hneg
      by_cases hbefore : ∃ t ∈ head :: done, s <:+: t
      · exact h.again done s hpre hneg hbefore
      · push Not at hbefore
        exact (hfirst done s hpre hbefore).2 (h.first done s hpre hneg hbefore)
    exact ⟨hresolved, fun names hnames => actsOn_of_denotes (hresolved ▸ hnames)⟩
  · intro h
    have hfold := htext.1 h.text
    by_cases horder : segments.Pairwise fun s t => isNegative s → isNegative t → t <+: s →
        fromEnd (countedIn gjson json head segments s) s = none →
          fromEnd (countedIn gjson json head segments t) t = none
    · left
      have hturns := foldl_turn [] horder
      rw [append_nil, append_nil] at hturns
      rw [hturns, map_eq_resolve_iff] at hfold
      exact ⟨fun done s hpre hneg hnot => (hfirst done s hpre hnot).1 (hfold done s hpre hneg),
        fun done s hpre hneg _ => hfold done s hpre hneg, horder⟩
    · exact .inr (coincides_of_foldl_turn hfold horder)

end

/-- The last place of the inner array, and what stands at the first index. -/
def sampleDocument : Json :=
  .obj [("a", .arr [.obj [("b", .arr [.str "x", .str "y", .str "z"])]])]

theorem prefix_sample {done : List (List Char)} {s : List Char}
    (h : done ++ [s] <+: [['-', '1'], ['b']]) :
    done = [] ∧ s = ['-', '1'] ∨ done = [['-', '1']] ∧ s = ['b'] := by
  rw [← mem_inits] at h
  rcases done with _ | ⟨c, _ | ⟨c', done⟩⟩ <;> simp at h
  · exact .inl ⟨rfl, h⟩
  · exact .inr ⟨by rw [h.1], h.2⟩

theorem placesAgree_sample : PlacesAgree namesGjson sampleDocument ['a'] [['-', '1'], ['b']] where
  first done s hpre hneg _ := by
    rcases prefix_sample hpre with ⟨rfl, rfl⟩ | ⟨rfl, rfl⟩
    · exact .inl rfl
    · cases hneg
  again done s hpre hneg hbefore := by
    rcases prefix_sample hpre with ⟨rfl, rfl⟩ | ⟨rfl, rfl⟩
    · revert hbefore
      decide
    · cases hneg
  order := by simp [isNegative]

theorem negativeIndices_resolved_sample :
    processNegativeIndex namesGjson sampleDocument "a.-1.b" = "a.0.b" := by
  have hsegments : "a.-1.b" = String.ofList (dotted ['a'] [['-', '1'], ['b']]) := by decide
  have hresolved := (@negativeIndices_resolved _ namesGjson sampleDocument ['a'] [['-', '1'], ['b']] _
    namesSjson (by decide) (by decide) (by decide)
    (fun done s hpre => by
      rcases prefix_sample hpre with ⟨rfl, rfl⟩ | ⟨rfl, rfl⟩ <;> rfl)
    (fun items s hs hneg => by
      rcases mem_pair.1 hs with rfl | rfl
      · rfl
      · cases hneg)).1 placesAgree_sample
  rw [hsegments, hresolved.text]
  decide +kernel

/-- Both indices are counted in the first array, the second one not in its own. -/
theorem processNegativeIndex_ne_resolve :
    processNegativeIndex namesGjson sampleDocument "a.-1.b.-1" = "a.0.b.0" ∧
      String.ofList (dotted ['a'] (resolve namesGjson sampleDocument ['a']
        [['-', '1'], ['b'], ['-', '1']])) = "a.0.b.2" ∧
      namesGjson.get sampleDocument "a.0.b.0" = some (.str "x") ∧
      namesGjson.get sampleDocument "a.0.b.2" = some (.str "z") :=
  ⟨by decide +kernel, by decide +kernel, rfl, rfl⟩

end BeeApi.Override
