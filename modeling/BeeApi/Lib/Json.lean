import Mathlib.Algebra.BigOperators.Group.List.Basic
import Mathlib.Algebra.Order.Ring.Nat

/-!
# JSON values

The values that `encoding/json` decodes into an `any`, and the text it writes for them.
-/

/-- A number has the text written for it and its digits without an exponent. -/
inductive Json
  | null
  | bool (b : Bool)
  | num (text plain : String)
  | str (s : String)
  | arr (l : List Json)
  | obj (fields : List (String × Json))

namespace Json

open List

/-- The fields of an object, in the order of their names. -/
abbrev Fields := List (String × Json)

/-- The value of a field, `null` where there is none. -/
def get (fields : Fields) (key : String) : Json := (fields.lookup key).getD .null

/-! ## Encoding -/

/-- Four digits, as an escape has them. -/
def hexDigits (n : ℕ) : List Char :=
  [n / 4096 % 16, n / 256 % 16, n / 16 % 16, n % 16].map Nat.digitChar

/-- The escapes that `encoding/json` writes, those for HTML included. -/
def escape (c : Char) : List Char :=
  if c = '"' ∨ c = '\\' then ['\\', c]
  else if c = '\n' then ['\\', 'n']
  else if c = '\r' then ['\\', 'r']
  else if c = '\t' then ['\\', 't']
  else if c.toNat = 8 then ['\\', 'b']
  else if c.toNat = 12 then ['\\', 'f']
  else if c.toNat < 32 ∨ c = '<' ∨ c = '>' ∨ c = '&' ∨ c.toNat = 0x2028 ∨ c.toNat = 0x2029 then
    '\\' :: 'u' :: hexDigits c.toNat
  else [c]

/-- A string literal. -/
def quote (s : String) : List Char := '"' :: s.toList.flatMap escape ++ ['"']

mutual

/-- The text of a value. -/
def encode : Json → List Char
  | .null => "null".toList
  | .bool b => (if b then "true" else "false").toList
  | .num text _ => text.toList
  | .str s => quote s
  | .arr l => '[' :: List.intercalate [','] (encodeList l) ++ [']']
  | .obj fields => '\x7b' :: List.intercalate [','] (encodeFields fields) ++ ['\x7d']

/-- The texts of the elements. -/
def encodeList : List Json → List (List Char)
  | [] => []
  | j :: rest => encode j :: encodeList rest

/-- The texts of the fields, each behind its name. -/
def encodeFields : List (String × Json) → List (List Char)
  | [] => []
  | (key, j) :: rest => (quote key ++ ':' :: encode j) :: encodeFields rest

end

/-- `json.Marshal`. -/
def marshal (j : Json) : String := String.ofList (encode j)

example : marshal (.obj [("a", .arr [.null, .str "<\"\n"])]) =
    "\x7b\"a\":[null,\"\\u003c\\\"\\n\"]\x7d" := by decide +kernel

/-! ## Lengths -/

theorem encodeList_eq_map (l : List Json) : encodeList l = l.map encode := by
  induction l with
  | nil => rfl
  | cons j rest ih => rw [encodeList, ih, map_cons]

theorem one_le_length_escape (c : Char) : 1 ≤ (escape c).length := by
  unfold escape
  split_ifs <;> simp

theorem length_le_quote (s : String) : s.length ≤ (quote s).length := by
  have hescaped : s.toList.length ≤ (s.toList.flatMap escape).length := by
    induction s.toList with
    | nil => simp
    | cons c rest ih =>
      have hc := one_le_length_escape c
      simp only [flatMap_cons, length_append, length_cons]
      omega
  rw [String.length_toList] at hescaped
  simp only [quote, length_cons, length_append]
  omega

theorem sum_length_le_intercalate (sep : List Char) (l : List (List Char)) :
    (l.map List.length).sum ≤ (List.intercalate sep l).length := by
  induction l with
  | nil => simp
  | cons x rest ih =>
    cases rest with
    | nil => simp [List.intercalate]
    | cons y rest =>
      rw [intercalate_cons_cons, map_cons, sum_cons]
      simp only [length_append]
      omega

theorem length_encode_le_of_lookup {fields : Fields} {key : String} {j : Json}
    (h : fields.lookup key = some j) :
    (encode j).length ≤ ((encodeFields fields).map List.length).sum := by
  induction fields with
  | nil => cases h
  | cons field rest ih =>
    obtain ⟨key', j'⟩ := field
    rw [encodeFields, map_cons, sum_cons]
    rw [lookup_cons] at h
    split at h
    · cases h
      simp only [length_append, length_cons]
      omega
    · have hrest := ih h
      omega

/-- A text in a field makes the object longer than itself. -/
theorem length_lt_encode_obj {fields : Fields} {key s : String}
    (h : fields.lookup key = some (.str s)) : s.length < (encode (.obj fields)).length := by
  have hfield := length_encode_le_of_lookup h
  have hquote := length_le_quote s
  have hsum := sum_length_le_intercalate [','] (encodeFields fields)
  simp only [encode, length_cons, length_append] at hfield ⊢
  omega

theorem sum_length_lt_marshal_arr (l : List Json) :
    (l.map fun j => (encode j).length).sum < (marshal (.arr l)).length := by
  have hsum := sum_length_le_intercalate [','] (encodeList l)
  rw [encodeList_eq_map, map_map] at hsum
  rw [marshal, String.length_ofList, encode, encodeList_eq_map]
  simp only [length_cons, length_append]
  exact lt_of_le_of_lt hsum (by omega)

/-- Neither an array nor an object. -/
def isScalar : Json → Bool
  | .arr _ => false
  | .obj _ => false
  | _ => true

section

variable {motive : Json → Prop} (arr : ∀ l : List Json, (∀ j ∈ l, motive j) → motive (.arr l))
  (obj : ∀ fields : Fields, (∀ f ∈ fields, motive f.2) → motive (.obj fields))
  (scalar : ∀ j : Json, j.isScalar = true → motive j)

include arr obj scalar

mutual

/-- Induction on what a value contains. -/
@[elab_as_elim] theorem induct : (j : Json) → motive j
  | .arr l => arr l (inductList l)
  | .obj fields => obj fields (inductFields fields)
  | .null => scalar _ rfl
  | .bool _ => scalar _ rfl
  | .num _ _ => scalar _ rfl
  | .str _ => scalar _ rfl

theorem inductList : (l : List Json) → ∀ j ∈ l, motive j
  | [] => fun _ hj => absurd hj not_mem_nil
  | j :: rest => forall_mem_cons.2 ⟨induct j, inductList rest⟩

theorem inductFields : (fields : Fields) → ∀ f ∈ fields, motive f.2
  | [] => nofun
  | (_, j) :: rest => forall_mem_cons.2 ⟨induct j, inductFields rest⟩

end

end

end Json
