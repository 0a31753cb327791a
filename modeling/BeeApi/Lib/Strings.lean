import Mathlib.Data.List.DropRight
import Mathlib.Data.List.Infix
import Mathlib.Data.String.Basic

/-!
# Strings of the Go standard library

`isSpace` is `unicode.IsSpace`; the others are functions of `strings`.
-/

namespace Strings

open List String

instance isTrans_le : IsTrans String (· ≤ ·) := instIsTransLe

instance antisymm_le : @Std.Antisymm String (· ≤ ·) := instAntisymmLe

/-- The code points with the property White Space. -/
def isSpace (c : Char) : Bool :=
  let n := c.toNat
  n == 0x20 || (0x09 ≤ n && n ≤ 0x0D) || n == 0x85 || n == 0xA0 || n == 0x1680 ||
    (0x2000 ≤ n && n ≤ 0x200A) || n == 0x2028 || n == 0x2029 || n == 0x202F || n == 0x205F ||
    n == 0x3000

/-- Remove leading and trailing white space. -/
def trimSpace (s : String) : String :=
  String.ofList ((s.toList.dropWhile isSpace).reverse.dropWhile isSpace).reverse

example : trimSpace " a b\t\n" = "a b" := by decide

def hasPrefix (s pre : String) : Bool :=
  pre.toList.isPrefixOf s.toList

/-- `strings.Split` at a character. -/
def split (s : String) (sep : Char) : List String :=
  (s.toList.splitOn sep).map String.ofList

example : split "a,b,,a" ',' = ["a", "b", "", "a"] := by decide

/-- The lower case of a code point, for those that have one in ASCII; the others stay outside of
ASCII. -/
def lowerRune (c : Char) : Char :=
  if c.toNat = 0x130 then 'i' else if c.toNat = 0x212A then 'k' else c.toLower

/-- `strings.ToLower`, as far as comparing with a text in ASCII can tell. -/
def toLower (s : String) : String := String.ofList (s.toList.map lowerRune)

example : toLower "End_Turn" = "end_turn" := by decide

/-- Simple folding of the letters that an ASCII letter folds to. -/
def foldChar (c : Char) : Char :=
  if c = 'ſ' then 's' else if c = '\u212A' then 'k' else c.toLower

/-- `strings.EqualFold` with an ASCII text. -/
def equalFold (s ascii : String) : Bool := s.toList.map foldChar = ascii.toList.map foldChar

/-- `strings.Trim` of a character. -/
def trimChar (s : String) (c : Char) : String :=
  String.ofList ((s.toList.dropWhile (· = c)).reverse.dropWhile (· = c)).reverse

def contains (s sub : String) : Bool :=
  s.toList.tails.any fun rest => sub.toList.isPrefixOf rest

example : contains "gemini-2.5-pro-thinking-128" "-thinking-" = true := by decide

theorem trimSpace_trimSpace (s : String) : trimSpace (trimSpace s) = trimSpace s := by
  have hright : ∀ l : List Char, (l.reverse.dropWhile isSpace).reverse = l.rdropWhile isSpace :=
    fun _ => rfl
  unfold trimSpace
  rw [toList_ofList, hright, hright]
  -- the left end of a trimmed text is the left end of the text without its leading white space
  have hleft : ((s.toList.dropWhile isSpace).rdropWhile isSpace).dropWhile isSpace =
      (s.toList.dropWhile isSpace).rdropWhile isSpace := by
    cases ht : (s.toList.dropWhile isSpace).rdropWhile isSpace with
    | nil => rfl
    | cons c t =>
      have hprefix : c :: t <+: s.toList.dropWhile isSpace := ht ▸ rdropWhile_prefix isSpace _
      obtain ⟨rest, hrest⟩ := hprefix
      have hself : (c :: (t ++ rest)).dropWhile isSpace = c :: (t ++ rest) := by
        rw [← cons_append, hrest, dropWhile_idempotent]
      have hc : isSpace c = false := by
        cases hc : isSpace c with
        | false => rfl
        | true =>
          rw [dropWhile_cons_of_pos hc] at hself
          have hlen := congrArg List.length hself
          have hle := (dropWhile_sublist (l := t ++ rest) isSpace).length_le
          rw [length_cons] at hlen
          omega
      rw [dropWhile_cons_of_neg (by simp [hc])]
  rw [hleft, rdropWhile_idempotent]

/-! ## White space around a text -/

theorem toList_trimSpace_sublist (s : String) : (trimSpace s).toList.Sublist s.toList := by
  rw [trimSpace, toList_ofList, ← reverse_sublist, reverse_reverse]
  exact (dropWhile_sublist isSpace).trans (dropWhile_sublist isSpace).reverse

theorem length_trimSpace_le (s : String) : (trimSpace s).length ≤ s.length := by
  rw [← length_toList, ← length_toList]
  exact (toList_trimSpace_sublist s).length_le

theorem trimSpace_eq_empty_iff (s : String) : trimSpace s = "" ↔ ∀ c ∈ s.toList, isSpace c := by
  rw [trimSpace, ← toList_inj, toList_ofList]
  simp only [toList_empty, reverse_eq_nil_iff, dropWhile_eq_nil_iff, mem_reverse]
  refine ⟨fun h => ?_, fun h c hc => h c ((dropWhile_sublist isSpace).subset hc)⟩
  -- what is left after the leading white space is white space, so there is nothing left
  have hnil : s.toList.dropWhile isSpace = [] := by
    cases hd : s.toList.dropWhile isSpace with
    | nil => rfl
    | cons c rest =>
      have hhead := head?_dropWhile_not isSpace s.toList
      rw [hd, head?_cons] at hhead
      exact absurd (h c (by rw [hd]; exact mem_cons_self)) (by simpa using hhead)
  exact dropWhile_eq_nil_iff.1 hnil

/-- A list with a text that says something says something when it is joined. -/
theorem trimSpace_intercalate_ne {sep s : String} {l : List String} (hs : s ∈ l)
    (h : trimSpace s ≠ "") : trimSpace (sep.intercalate l) ≠ "" := by
  rw [Ne, trimSpace_eq_empty_iff] at h ⊢
  refine fun hall => h fun c hc => hall c ?_
  rw [toList_intercalate]
  clear hall h
  induction l with
  | nil => cases hs
  | cons t rest ih =>
    rcases mem_cons.1 hs with rfl | hrest
    · cases rest with
      | nil => simpa using hc
      | cons u rest => simp [List.intercalate_cons_cons, hc]
    · have hne : rest.map String.toList ≠ [] := by
        simpa using ne_nil_of_mem hrest
      rw [map_cons, intercalate_cons_of_ne_nil hne]
      exact mem_append_right _ (ih hrest)

theorem length_intercalate_le {sep : String} {l l' : List String}
    (hle : List.Forall₂ (fun s s' => s.length ≤ s'.length) l l') :
    (sep.intercalate l).length ≤ (sep.intercalate l').length := by
  induction hle with
  | nil => exact le_refl _
  | @cons s s' rest rest' hs hrest ih =>
    cases hrest with
    | nil => simpa using hs
    | cons _ _ =>
      simp only [String.intercalate_cons_cons, String.length_append] at ih ⊢
      omega

/-- Two lists whose texts are one by one no longer are joined to one text only if they are equal. -/
theorem eq_of_intercalate_eq {sep : String} {l l' : List String}
    (hle : List.Forall₂ (fun s s' => s.length ≤ s'.length) l l')
    (h : sep.intercalate l = sep.intercalate l') : l = l' := by
  induction hle with
  | nil => rfl
  | @cons s s' rest rest' hs hrest ih =>
    cases hrest with
    | nil => simpa using h
    | @cons t t' u u' ht hu =>
      have hle' := @length_intercalate_le sep _ _ (.cons ht hu)
      rw [String.intercalate_cons_cons, String.intercalate_cons_cons] at h
      have hlength := congrArg String.length h
      simp only [String.length_append] at hlength
      have hlists := congrArg String.toList h
      simp only [String.toList_append, List.append_assoc] at hlists
      obtain ⟨hhead, htail⟩ := append_inj hlists (by
        rw [String.length_toList, String.length_toList]
        omega)
      rw [String.toList_injective hhead, ih (toList_injective (append_cancel_left htail))]

section Separated

variable {α : Type*} {x : α} {a a' b b' : List α}

/-- A separator that is in neither left part splits a text in one way. -/
theorem eq_of_append_sep_left (ha : x ∉ a) (ha' : x ∉ a') (h : a ++ x :: b = a' ++ x :: b') :
    a = a' ∧ b = b' := by
  induction a generalizing a' with
  | nil =>
    cases a' with
    | nil => exact ⟨rfl, tail_eq_of_cons_eq h⟩
    | cons c a' => exact absurd (mem_cons.2 (.inl (head_eq_of_cons_eq h))) ha'
  | cons c a ih =>
    cases a' with
    | nil => exact absurd (mem_cons.2 (.inl (head_eq_of_cons_eq h).symm)) ha
    | cons c' a' =>
      obtain ⟨rfl, htail⟩ := List.cons.inj h
      obtain ⟨rfl, hb⟩ := ih (not_mem_of_not_mem_cons ha) (not_mem_of_not_mem_cons ha')
        htail
      exact ⟨rfl, hb⟩

/-- A separator that is in neither right part splits a text in one way. -/
theorem eq_of_append_sep_right (hb : x ∉ b) (hb' : x ∉ b') (h : a ++ x :: b = a' ++ x :: b') :
    a = a' ∧ b = b' := by
  have hreverse := congrArg List.reverse h
  simp only [List.reverse_append, List.reverse_cons, List.append_assoc, List.singleton_append]
    at hreverse
  obtain ⟨hright, hleft⟩ := eq_of_append_sep_left (by simpa using hb) (by simpa using hb') hreverse
  exact ⟨List.reverse_injective hleft, List.reverse_injective hright⟩

end Separated

theorem isDigit_of_mem_repr {m : ℕ} {c : Char} (h : c ∈ (Nat.repr m).toList) : c.isDigit := by
  rw [Nat.repr, toList_ofList] at h
  exact Nat.isDigit_of_mem_toDigits (by decide) (by decide) h

theorem repr_injective : Nat.repr.Injective := by
  intro m n h
  have hdigits := ofList_injective h
  rw [← Nat.ofDigitChars_toDigits (b := 10) (by decide) (by decide) (n := m), hdigits]
  exact Nat.ofDigitChars_toDigits (by decide) (by decide)

theorem toString_negSucc (m : ℕ) : toString (Int.negSucc m) = "-" ++ Nat.repr (m + 1) := rfl

theorem notMem_toString {c : Char} (hdigit : c.isDigit = false) (hsign : c ≠ '-') (n : ℤ) :
    c ∉ (toString n).toList := by
  have hdigits : ∀ m : ℕ, c ∉ (Nat.repr m).toList := by
    intro m hm
    rw [isDigit_of_mem_repr hm] at hdigit
    cases hdigit
  cases n with
  | ofNat m => exact hdigits m
  | negSucc m =>
    rw [toString_negSucc, toList_append, mem_append, not_or]
    exact ⟨by simpa using hsign, hdigits (m + 1)⟩

theorem toString_int_injective {m n : ℤ} (h : toString m = toString n) : m = n := by
  -- only the numeral of a negative number has the sign
  have hmixed : ∀ m n : ℕ, toString (Int.negSucc m) ≠ Nat.repr n := by
    intro m n heq
    have hmem : '-' ∈ (Nat.repr n).toList := by
      rw [← heq, toString_negSucc, toList_append]
      exact mem_append_left _ (by decide)
    exact absurd (isDigit_of_mem_repr hmem) (by decide)
  cases m with
  | ofNat m =>
    cases n with
    | ofNat n => exact congrArg Int.ofNat (repr_injective h)
    | negSucc n => exact absurd h.symm (hmixed n m)
  | negSucc m =>
    cases n with
    | ofNat n => exact absurd h (hmixed m n)
    | negSucc n =>
      rw [toString_negSucc, toString_negSucc, String.append_right_inj] at h
      exact congrArg Int.negSucc (Nat.succ_injective (repr_injective h))

end Strings
