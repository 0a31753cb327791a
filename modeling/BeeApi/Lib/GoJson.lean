import BeeApi.Lib.Json
import BeeApi.Lib.Strings
import BeeApi.Lib.Table
import Mathlib.Data.Finset.Sort

/-!
# Decoding into values that exist

Types as reflection sees them, their values, and what `json.Marshal` and `json.Unmarshal` do with them.
A text is decoded into a value that is there already: a member that the text does not name stays, an
element of an array is decoded into what the backing array of the slice holds at its place, entries are
added to a map, and a mismatch is noted while the rest of the text is decoded.  `Ty.Clean` says when
nothing of the old value shows in the result.
-/

namespace GoJson

open List Option Table Finset Bool

/-! ## Numbers -/

inductive Width
  | w8
  | w16
  | w32
  | w64
deriving DecidableEq

def Width.bits : Width → ℕ
  | .w8 => 8
  | .w16 => 16
  | .w32 => 32
  | .w64 => 64

def parseDigits (digits : List Char) : Option ℕ :=
  if digits ≠ [] ∧ digits.all Char.isDigit then some (Nat.ofDigitChars 10 digits 0) else none

/-- `strconv.ParseInt(s, 10, 64)` without the check of the range. -/
def parseSigned (s : String) : Option ℤ :=
  match s.toList with
  | '-' :: digits => (parseDigits digits).map fun n => -Int.ofNat n
  | '+' :: digits => (parseDigits digits).map Int.ofNat
  | digits => (parseDigits digits).map Int.ofNat

def parseInt (s : String) : Option ℤ :=
  (parseSigned s).filter fun i => -2 ^ 63 ≤ i ∧ i < 2 ^ 63

def parseUint (s : String) : Option ℕ := (parseDigits s.toList).filter fun n => n < 2 ^ 64

theorem parseDigits_toDigits (n : ℕ) : parseDigits (Nat.toDigits 10 n) = some n := by
  have hall : (Nat.toDigits 10 n).all Char.isDigit = true :=
    all_eq_true.2 fun _ hc => Nat.isDigit_of_mem_toDigits (by decide) (by decide) hc
  rw [parseDigits, if_pos ⟨Nat.toDigits_ne_nil, hall⟩, Nat.ofDigitChars_ten_toDigits]

theorem parseUint_repr {n : ℕ} (h : n < 2 ^ 64) : parseUint n.repr = some n := by
  rw [parseUint, Nat.toList_repr, parseDigits_toDigits, filter_some, if_pos]
  simpa using h

theorem parseSigned_repr (i : ℤ) : parseSigned i.repr = some i := by
  rw [Int.repr_eq_if]
  split_ifs with hi
  · have hfirst : ∀ c ∈ Nat.toDigits 10 i.toNat, c ≠ '-' ∧ c ≠ '+' := by
      intro c hc
      have hdigit := Nat.isDigit_of_mem_toDigits (by decide) (by decide) hc
      constructor <;> rintro rfl <;> exact absurd hdigit (by decide)
    have hparse : (parseDigits (Nat.toDigits 10 i.toNat)).map Int.ofNat = some i := by
      rw [parseDigits_toDigits, map_some, Int.ofNat_eq_natCast, Int.toNat_of_nonneg hi]
    unfold parseSigned
    rw [Nat.toList_repr]
    split
    · rename_i heq
      exact absurd rfl (hfirst '-' (by rw [heq]; exact mem_cons_self)).1
    · rename_i heq
      exact absurd rfl (hfirst '+' (by rw [heq]; exact mem_cons_self)).2
    · exact hparse
  · have hlist : ("-" ++ (-i).toNat.repr).toList = '-' :: Nat.toDigits 10 (-i).toNat := by
      rw [String.toList_append, Nat.toList_repr]
      rfl
    unfold parseSigned
    rw [hlist]
    show (parseDigits (Nat.toDigits 10 (-i).toNat)).map _ = some i
    rw [parseDigits_toDigits, map_some, Int.ofNat_eq_natCast, Int.toNat_of_nonneg (by omega),
      neg_neg]

theorem parseInt_repr {i : ℤ} (hlo : -2 ^ 63 ≤ i) (hhi : i < 2 ^ 63) : parseInt i.repr = some i := by
  rw [parseInt, parseSigned_repr, filter_some, if_pos]
  simpa using ⟨hlo, hhi⟩

theorem parseInt_toInt {w : Width} (x : BitVec w.bits) : parseInt x.toInt.repr = some x.toInt := by
  have hbits : (2 : ℤ) ^ (w.bits - 1) ≤ 2 ^ 63 :=
    pow_le_pow_right₀ (by decide) (by cases w <;> decide)
  exact parseInt_repr ((neg_le_neg hbits).trans (BitVec.le_toInt x)) (BitVec.toInt_lt.trans_le hbits)

theorem parseUint_toNat {w : Width} (x : BitVec w.bits) : parseUint x.toNat.repr = some x.toNat := by
  refine parseUint_repr (lt_of_lt_of_le x.isLt ?_)
  cases w <;> decide

/-! ## Types and values -/

mutual

/-- A type.  A map has strings for its keys. -/
inductive Ty
  | string
  | bool
  | int (width : Width)
  | uint (width : Width)
  | float
  | ptr (elem : Ty)
  | map (elem : Ty)
  | slice (elem : Ty)
  | struct (fields : Fields)

/-- The exported fields of a struct: the name in the text and whether the member is omitted when it is
empty, or nothing for a member that is not written. -/
inductive Fields
  | nil
  | cons (tag : Option (String × Bool)) (ty : Ty) (rest : Fields)

end

/-- Numbers with a point and their texts, and the folding under which names match. -/
structure Codec (F : Type) where
  zero : F
  isZero : F → Bool
  format : F → String
  number : F → String
  parse : String → Option F
  truncate : F → ℤ
  truncateUint : F → ℕ
  isNegative : F → Bool
  foldName : String → String
  parse_format : ∀ x, parse (format x) = some x
  parse_number : ∀ x, parse (number x) = some x

/-- Numbers without a point. -/
def wholeNumbers : Codec ℤ where
  zero := 0
  isZero x := x = 0
  format x := x.repr
  number x := x.repr
  parse := parseSigned
  truncate x := x
  truncateUint := Int.toNat
  isNegative x := x < 0
  foldName := String.toLower
  parse_format := parseSigned_repr
  parse_number := parseSigned_repr

section Values

variable (F : Type)

mutual

/-- The values of a type.  A slice has its elements and what the backing array holds behind them. -/
def Ty.Val : Ty → Type
  | .string => String
  | .bool => Bool
  | .int w => BitVec w.bits
  | .uint w => BitVec w.bits
  | .float => F
  | .ptr t => Option t.Val
  | .map t => Option (Table String t.Val)
  | .slice t => Option (List t.Val × List t.Val)
  | .struct fs => fs.Vals

def Fields.Vals : Fields → Type
  | .nil => Unit
  | .cons _ t rest => t.Val × rest.Vals

end

end Values

variable {F : Type} (codec : Codec F)

mutual

def Ty.zero : (t : Ty) → t.Val F
  | .string => ""
  | .bool => false
  | .int w => 0#w.bits
  | .uint w => 0#w.bits
  | .float => codec.zero
  | .ptr _ => none
  | .map _ => none
  | .slice _ => none
  | .struct fs => fs.zero

def Fields.zero : (fs : Fields) → fs.Vals F
  | .nil => ()
  | .cons _ t rest => (t.zero, rest.zero)

end

/-- `isEmptyValue`, what `omitempty` goes by. -/
def Ty.isEmpty : (t : Ty) → t.Val F → Bool
  | .string, (s : String) => s = ""
  | .bool, (b : Bool) => !b
  | .int w, (x : BitVec w.bits) => x = 0#w.bits
  | .uint w, (x : BitVec w.bits) => x = 0#w.bits
  | .float, (x : F) => codec.isZero x
  | .ptr _, (p : Option _) => p.isNone
  | .map _, (m : Option (Table String _)) => m.all fun m => m.rows.isEmpty
  | .slice _, (s : Option (List _ × List _)) => s.all fun s => s.1.isEmpty
  | .struct _, _ => false

def Fields.names : Fields → List String
  | .nil => []
  | .cons tag _ rest => tag.elim rest.names fun tag => tag.1 :: rest.names

/-- The names of a struct: one that several fields claim belongs to none of them. -/
def Fields.visible (fs : Fields) : List String := fs.names.filter fun name => fs.names.count name = 1

def jsonName (visible : List String) (tag : Option (String × Bool)) : Option (String × Bool) :=
  tag.filter fun tag => tag.1 ∈ visible

/-- The field that a key of the text means: the one of that name, or one that differs in the case. -/
def resolve (visible : List String) (key : String) : Option String :=
  if key ∈ visible then some key
  else visible.find? fun name => codec.foldName name = codec.foldName key

/-- The members of the text for a field, in their order. -/
def select (visible : List String) (name : String) (entries : List (String × Json)) : List Json :=
  entries.filterMap fun e => if resolve codec visible e.1 = some name then some e.2 else none

mutual

/-- What `json.Marshal` writes for a value. -/
def Ty.encode : (t : Ty) → t.Val F → Json
  | .string, (s : String) => .str s
  | .bool, (b : Bool) => .bool b
  | .int w, (x : BitVec w.bits) => .num x.toInt.repr x.toInt.repr
  | .uint w, (x : BitVec w.bits) => .num x.toNat.repr x.toNat.repr
  | .float, (x : F) => .num (codec.number x) (codec.format x)
  | .ptr t, (p : Option (t.Val F)) => p.elim .null t.encode
  | .map t, (m : Option (Table String (t.Val F))) => m.elim .null fun m =>
      .obj ((m.keys.toFinset.sort).map fun key => (key, (m.get? key).elim .null t.encode))
  | .slice t, (s : Option (List (t.Val F) × List (t.Val F))) => s.elim .null fun s =>
      .arr (s.1.map t.encode)
  | .struct fs, vals => .obj (fs.encode fs.visible vals)

def Fields.encode : (fs : Fields) → List String → fs.Vals F → List (String × Json)
  | .nil, _, _ => []
  | .cons tag t rest, visible, (v, vals) =>
    match jsonName visible tag with
    | none => rest.encode visible vals
    | some (name, omitempty) =>
      if omitempty && t.isEmpty codec v then rest.encode visible vals
      else (name, t.encode v) :: rest.encode visible vals

end

/-! ## Unmarshal -/

/-- A member that is neither of the type nor `null` is a mismatch; `null` changes nothing. -/
def keep {V : Type} (j : Json) (old : V) : V × Bool :=
  match j with
  | .null => (old, true)
  | _ => (old, false)

/-- The elements of an array, each decoded into what the backing array holds at its place. -/
def decodeElems {V : Type} (decode : Json → V → V × Bool) (zero : V) :
    List Json → List V → List V × Bool
  | [], _ => ([], true)
  | j :: rest, backing =>
    ((decode j (backing.headD zero)).1 :: (decodeElems decode zero rest backing.tail).1,
      (decode j (backing.headD zero)).2 && (decodeElems decode zero rest backing.tail).2)

/-- The entries of an object, each decoded into a new element that replaces the one of its key. -/
def decodeEntries {V : Type} (decode : Json → V → V × Bool) (zero : V)
    (entries : List (String × Json)) (m : Table String V) : Table String V × Bool :=
  entries.foldl (fun r e => (r.1.put e.1 (decode e.2 zero).1, r.2 && (decode e.2 zero).2)) (m, true)

def decodeMembers {V : Type} (decode : Json → V → V × Bool) (members : List Json) (old : V) :
    V × Bool :=
  members.foldl (fun r j => ((decode j r.1).1, r.2 && (decode j r.1).2)) (old, true)

mutual

/-- What `json.Unmarshal` makes of a value, and whether everything matched. -/
def Ty.decode : (t : Ty) → Json → t.Val F → t.Val F × Bool
  | .string, j, (old : String) =>
    match j with
    | .str s => (s, true)
    | j => keep j old
  | .bool, j, (old : Bool) =>
    match j with
    | .bool b => (b, true)
    | j => keep j old
  | .int w, j, (old : BitVec w.bits) =>
    match j with
    | .num text _ =>
      match (parseInt text).filter fun i => (BitVec.ofInt w.bits i).toInt = i with
      | some i => (BitVec.ofInt w.bits i, true)
      | none => (old, false)
    | j => keep j old
  | .uint w, j, (old : BitVec w.bits) =>
    match j with
    | .num text _ =>
      match (parseUint text).filter fun n => (BitVec.ofNat w.bits n).toNat = n with
      | some n => (BitVec.ofNat w.bits n, true)
      | none => (old, false)
    | j => keep j old
  | .float, j, (old : F) =>
    match j with
    | .num text _ => ((codec.parse text).getD old, (codec.parse text).isSome)
    | j => keep j old
  | .ptr t, j, (old : Option (t.Val F)) =>
    match j with
    | .null => (none, true)
    | j => (some (t.decode j (old.getD (t.zero codec))).1, (t.decode j (old.getD (t.zero codec))).2)
  | .map t, j, (old : Option (Table String (t.Val F))) =>
    match j with
    | .null => (none, true)
    | .obj entries =>
      (some (decodeEntries t.decode (t.zero codec) entries (old.getD ∅)).1,
        (decodeEntries t.decode (t.zero codec) entries (old.getD ∅)).2)
    | _ => (old, false)
  | .slice t, j, (old : Option (List (t.Val F) × List (t.Val F))) =>
    match j with
    | .null => (none, true)
    | .arr [] => (some ([], []), true)
    | .arr elems =>
      (some ((decodeElems t.decode (t.zero codec) elems (old.elim [] fun s => s.1 ++ s.2)).1,
          (old.elim [] fun s => s.1 ++ s.2).drop elems.length),
        (decodeElems t.decode (t.zero codec) elems (old.elim [] fun s => s.1 ++ s.2)).2)
    | _ => (old, false)
  | .struct fs, j, old =>
    match j with
    | .obj entries => fs.decode fs.visible entries old
    | j => keep j old

def Fields.decode : (fs : Fields) → List String → List (String × Json) → fs.Vals F → fs.Vals F × Bool
  | .nil, _, _, _ => ((), true)
  | .cons tag t rest, visible, entries, (v, vals) =>
    match jsonName visible tag with
    | none => ((v, (rest.decode visible entries vals).1), (rest.decode visible entries vals).2)
    | some (name, _) =>
      (((decodeMembers t.decode (select codec visible name entries) v).1,
          (rest.decode visible entries vals).1),
        (decodeMembers t.decode (select codec visible name entries) v).2 &&
          (rest.decode visible entries vals).2)

end

/-- Each element shows nothing of what the backing array holds at its place. -/
def CleanElems {V : Type} (clean : V → V → Prop) (zero : V) : List V → List V → Prop
  | [], _ => True
  | v :: rest, backing => clean (backing.headD zero) v ∧ CleanElems clean zero rest backing.tail

mutual

/-- The text of the new value names everything in which the old value differs from the zero value: no
key of an old map is missing, no member that is omitted was not empty, neither here nor below. -/
def Ty.Clean : (t : Ty) → (old new : t.Val F) → Prop
  | .ptr t, (old : Option (t.Val F)), (new : Option (t.Val F)) =>
    ∀ v ∈ new, t.encode codec v = .null ∨ t.Clean (old.getD (t.zero codec)) v
  | .map t, (old : Option (Table String (t.Val F))), (new : Option (Table String (t.Val F))) =>
    ∀ n ∈ new, (∀ key ∈ (old.getD ∅).keys, key ∈ n.keys) ∧
      ∀ key v, n.get? key = some v → t.Clean (t.zero codec) v
  | .slice t, (old : Option (List (t.Val F) × List (t.Val F))),
      (new : Option (List (t.Val F) × List (t.Val F))) =>
    ∀ n ∈ new, CleanElems t.Clean (t.zero codec) n.1 (old.elim [] fun s => s.1 ++ s.2)
  | .struct fs, old, new => fs.Clean fs.visible old new
  | .string, _, _ | .bool, _, _ | .int _, _, _ | .uint _, _, _ | .float, _, _ => True

def Fields.Clean : (fs : Fields) → List String → (old new : fs.Vals F) → Prop
  | .nil, _, _, _ => True
  | .cons tag t rest, visible, (o, old), (v, new) =>
    (match jsonName visible tag with
      | none => True
      | some (_, omitempty) =>
        if omitempty && t.isEmpty codec v then t.isEmpty codec o = true
        else t.Clean o v ∧ (omitempty = true → t.encode codec v ≠ .null)) ∧
      rest.Clean visible old new

end

/-! ## What is read back -/

section Elements

variable {V : Type} {decode : Json → V → V × Bool} {encode : V → Json} {clean : V → V → Prop} {zero : V}

/-- What holds of each element holds of all, together with what the backing array holds. -/
theorem decodeElems_encode (h : ∀ o v, (decode (encode v) o).2 = true ∧
    (encode (decode (encode v) o).1 = encode v ↔ clean o v)) (elems backing : List V) :
    (decodeElems decode zero (elems.map encode) backing).2 = true ∧
      ((decodeElems decode zero (elems.map encode) backing).1.map encode = elems.map encode ↔
        CleanElems clean zero elems backing) := by
  induction elems generalizing backing with
  | nil => exact ⟨rfl, Iff.intro (fun _ => trivial) fun _ => rfl⟩
  | cons v rest ih =>
    obtain ⟨hok, hclean⟩ := h (backing.headD zero) v
    obtain ⟨hoks, hcleans⟩ := ih backing.tail
    refine ⟨by rw [List.map_cons, decodeElems, hok, hoks]; rfl, ?_⟩
    rw [List.map_cons, decodeElems, List.map_cons, List.cons.injEq, hclean, hcleans, CleanElems]

theorem decodeEntries_map (decode : Json → V → V × Bool) (zero : V) (f : String → Json) (keys : List String) (m : Table String V) :
    (decodeEntries decode zero (keys.map fun key => (key, f key)) m).2 =
        (keys.all fun key => (decode (f key) zero).2) ∧
      ∀ key, (decodeEntries decode zero (keys.map fun key => (key, f key)) m).1.get? key =
        if key ∈ keys then some (decode (f key) zero).1 else m.get? key := by
  have hfold : ∀ (m : Table String V) (ok : Bool), ∃ m', (keys.map fun key => (key, f key)).foldl
      (fun r e => (r.1.put e.1 (decode e.2 zero).1, r.2 && (decode e.2 zero).2)) (m, ok) =
        (m', ok && keys.all fun key => (decode (f key) zero).2) ∧
      ∀ key, m'.get? key = if key ∈ keys then some (decode (f key) zero).1 else m.get? key := by
    induction keys with
    | nil => exact fun m ok => ⟨m, by simp, fun key => by simp⟩
    | cons first rest ih =>
      intro m ok
      obtain ⟨m', hm', hget⟩ := ih (m.put first (decode (f first) zero).1)
        (ok && (decode (f first) zero).2)
      refine ⟨m', by rw [List.map_cons, List.foldl_cons, hm', List.all_cons, Bool.and_assoc],
        fun key => ?_⟩
      rw [hget, get?_put]
      by_cases hrest : key ∈ rest
      · rw [if_pos hrest, if_pos (mem_cons_of_mem _ hrest)]
      · by_cases hfirst : key = first
        · rw [if_neg hrest, if_pos hfirst, hfirst, if_pos List.mem_cons_self]
        · rw [if_neg hrest, if_neg hfirst, if_neg (by simp [hrest, hfirst])]
  obtain ⟨m', hm', hget⟩ := hfold m true
  unfold decodeEntries
  rw [hm']
  exact ⟨true_and _, hget⟩

/-- The entries of a map in the order of their keys. -/
def sortedEntries (encode : V → Json) (m : Table String V) : List (String × Json) :=
  (m.keys.toFinset.sort).map fun key => (key, (m.get? key).elim .null encode)

theorem sortedEntries_inj {m n : Table String V} : sortedEntries encode m = sortedEntries encode n ↔
    (∀ key, key ∈ m.keys ↔ key ∈ n.keys) ∧
      ∀ key ∈ n.keys, (m.get? key).elim .null encode = (n.get? key).elim .null encode := by
  unfold sortedEntries
  constructor
  · intro heq
    have hsorted := congrArg (List.map Prod.fst) heq
    rw [List.map_map, List.map_map] at hsorted
    have hkeys : m.keys.toFinset = n.keys.toFinset := by
      have hlists : m.keys.toFinset.sort = n.keys.toFinset.sort := by
        rwa [show ((Prod.fst ∘ fun key => (key, (m.get? key).elim .null encode)) : String → String) = id
          from rfl, show ((Prod.fst ∘ fun key => (key, (n.get? key).elim .null encode)) :
          String → String) = id from rfl, List.map_id, List.map_id] at hsorted
      rw [← sort_toFinset m.keys.toFinset (· ≤ ·), hlists, sort_toFinset]
    have hmem : ∀ key, key ∈ m.keys ↔ key ∈ n.keys := by
      intro key
      rw [← List.mem_toFinset, hkeys, List.mem_toFinset]
    refine ⟨hmem, fun key hkey => ?_⟩
    rw [hkeys] at heq
    have hpair := map_inj_left.1 heq key (by
      rw [Finset.mem_sort, List.mem_toFinset]
      exact hkey)
    exact (Prod.mk.inj hpair).2
  · rintro ⟨hmem, hentries⟩
    have hkeys : m.keys.toFinset = n.keys.toFinset := by
      ext key
      rw [List.mem_toFinset, List.mem_toFinset, hmem]
    rw [hkeys]
    refine map_congr_left fun key hkey => ?_
    rw [hentries key (by rwa [Finset.mem_sort, List.mem_toFinset] at hkey)]

theorem decodeEntries_encode (h : ∀ o v, (decode (encode v) o).2 = true ∧
    (encode (decode (encode v) o).1 = encode v ↔ clean o v)) (m n : Table String V) :
    (decodeEntries decode zero (sortedEntries encode n) m).2 = true ∧
      (sortedEntries encode (decodeEntries decode zero (sortedEntries encode n) m).1 =
          sortedEntries encode n ↔
        (∀ key ∈ m.keys, key ∈ n.keys) ∧ ∀ key v, n.get? key = some v → clean zero v) := by
  obtain ⟨hok, hget⟩ := decodeEntries_map decode zero (fun key => (n.get? key).elim .null encode)
    (n.keys.toFinset.sort) m
  have hmem : ∀ key, key ∈ n.keys.toFinset.sort ↔ key ∈ n.keys := fun key => by
    rw [Finset.mem_sort, List.mem_toFinset]
  refine ⟨?_, ?_⟩
  · refine hok.trans (all_eq_true.2 fun key hkey => ?_)
    obtain ⟨v, hv⟩ := (mem_keys_iff n key).1 ((hmem key).1 hkey)
    rw [hv]
    exact (h zero v).1
  · have hresult : ∀ key v, n.get? key = some v →
        (decodeEntries decode zero (sortedEntries encode n) m).1.get? key =
          some (decode (encode v) zero).1 := by
      intro key v hv
      refine (hget key).trans ?_
      rw [if_pos ((hmem key).2 ((mem_keys_iff n key).2 ⟨v, hv⟩)), hv]
      rfl
    have hkeys : ∀ key, key ∈ (decodeEntries decode zero (sortedEntries encode n) m).1.keys ↔
        key ∈ n.keys ∨ key ∈ m.keys := by
      intro key
      rw [mem_keys_iff, show (decodeEntries decode zero (sortedEntries encode n) m).1.get? key =
        _ from hget key]
      by_cases hn : key ∈ n.keys
      · simp [hn, (hmem key).2 hn]
      · rw [if_neg (fun hk => hn ((hmem key).1 hk)), ← mem_keys_iff]
        simp [hn]
    rw [sortedEntries_inj]
    constructor
    · rintro ⟨hsame, hentries⟩
      refine ⟨fun key hkey => (hsame key).1 ((hkeys key).2 (.inr hkey)), fun key v hv => ?_⟩
      have hentry := hentries key ((mem_keys_iff n key).2 ⟨v, hv⟩)
      rw [hresult key v hv, hv] at hentry
      exact (h zero v).2.1 hentry
    · rintro ⟨hold, hclean⟩
      refine ⟨fun key => ?_, fun key hkey => ?_⟩
      · rw [hkeys]
        exact ⟨fun hk => hk.elim id (hold key), .inl⟩
      · obtain ⟨v, hv⟩ := (mem_keys_iff n key).1 hkey
        rw [hresult key v hv, hv]
        exact (h zero v).2.2 (hclean key v hv)

end Elements

section ReadBack

variable {codec}

/-- Values with the same text are both empty or both not, `null` aside. -/
theorem Ty.isEmpty_eq_of_encode_eq {t : Ty} {v w : t.Val F} (h : t.encode codec v = t.encode codec w)
    (hnull : t.encode codec w ≠ .null) : t.isEmpty codec v = t.isEmpty codec w := by
  cases t with
  | string =>
    obtain rfl := Json.str.inj h
    rfl
  | bool =>
    obtain rfl := Json.bool.inj h
    rfl
  | int width =>
    change BitVec width.bits at v w
    have hparse := congrArg parseInt (Json.num.inj h).1
    rw [parseInt_toInt, parseInt_toInt] at hparse
    obtain rfl := BitVec.eq_of_toInt_eq (some.inj hparse)
    rfl
  | uint width =>
    change BitVec width.bits at v w
    have hparse := congrArg parseUint (Json.num.inj h).1
    rw [parseUint_toNat, parseUint_toNat] at hparse
    obtain rfl := BitVec.eq_of_toNat_eq (some.inj hparse)
    rfl
  | float =>
    change F at v w
    have hparse := congrArg codec.parse (Json.num.inj h).1
    rw [codec.parse_number, codec.parse_number] at hparse
    cases hparse
    rfl
  | ptr t =>
    change Option (t.Val F) at v w
    cases w with
    | none => exact absurd rfl hnull
    | some w =>
      cases v with
      | none => exact absurd h.symm hnull
      | some v => rfl
  | map t =>
    change Option (Table String (t.Val F)) at v w
    cases w with
    | none => exact absurd rfl hnull
    | some n =>
      cases v with
      | none => exact absurd h.symm hnull
      | some m =>
        have hkeys := (sortedEntries_inj.1 (Json.obj.inj h)).1
        have hempty : ∀ m : Table String (t.Val F), m.rows.isEmpty = true ↔ ∀ key, key ∉ m.keys := by
          intro m
          rw [List.isEmpty_iff, ← List.map_eq_nil_iff (f := Prod.fst), List.eq_nil_iff_forall_not_mem]
          rfl
        refine eq_iff_iff.2 ?_
        show m.rows.isEmpty = true ↔ n.rows.isEmpty = true
        rw [hempty, hempty]
        exact forall_congr' fun key => not_congr (hkeys key)
  | slice t =>
    change Option (List (t.Val F) × List (t.Val F)) at v w
    cases w with
    | none => exact absurd rfl hnull
    | some n =>
      cases v with
      | none => exact absurd h.symm hnull
      | some m =>
        have hempty := congrArg List.isEmpty (Json.arr.inj h)
        rwa [isEmpty_map, isEmpty_map] at hempty
  | struct fs => rfl

theorem Ty.decode_int {w : Width} (old new : (Ty.int w).Val F) :
    (Ty.int w).decode codec ((Ty.int w).encode codec new) old = (new, true) := by
  change BitVec w.bits at new
  show (match (parseInt new.toInt.repr).filter _ with
    | some i => _
    | none => _) = _
  rw [parseInt_toInt, filter_some, if_pos (by simp)]
  show (BitVec.ofInt w.bits new.toInt, true) = _
  rw [BitVec.ofInt_toInt]
  rfl

theorem Ty.decode_uint {w : Width} (old new : (Ty.uint w).Val F) :
    (Ty.uint w).decode codec ((Ty.uint w).encode codec new) old = (new, true) := by
  change BitVec w.bits at new
  show (match (parseUint new.toNat.repr).filter _ with
    | some i => _
    | none => _) = _
  rw [parseUint_toNat, filter_some, if_pos (by simp)]
  show (BitVec.ofNat w.bits new.toNat, true) = _
  rw [BitVec.ofNat_toNat, BitVec.setWidth_eq]
  rfl

theorem Ty.decode_float (old new : Ty.float.Val F) :
    Ty.float.decode codec (Ty.float.encode codec new) old = (new, true) := by
  change F at new
  show ((codec.parse (codec.number new)).getD _, (codec.parse (codec.number new)).isSome) = _
  rw [codec.parse_number]
  rfl

/-- A nil that is not empty is a pointer to one, and `null` sets that pointer to nil. -/
theorem Ty.isEmpty_decode_null {t : Ty} {v : t.Val F} (h : t.encode codec v = .null) (old : t.Val F) :
    t.isEmpty codec (t.decode codec .null old).1 = true := by
  cases t with
  | ptr t => rfl
  | map t => rfl
  | slice t => rfl
  | _ => exact Json.noConfusion h

theorem Ty.decode_ptr {t : Ty} {j : Json} (h : j ≠ .null) (old : Option (t.Val F)) :
    (Ty.ptr t).decode codec j old = (some (t.decode codec j (old.getD (t.zero codec))).1,
        (t.decode codec j (old.getD (t.zero codec))).2) := by
  cases j with
  | null => exact absurd rfl h
  | _ => rfl

theorem Ty.decode_slice (codec : Codec F) {t : Ty} (elems : List Json) (old : Option (List (t.Val F) × List (t.Val F))) :
    ∃ behind, (Ty.slice t).decode codec (.arr elems) old =
      (some ((decodeElems (t.decode codec) (t.zero codec) elems (old.elim [] fun s => s.1 ++ s.2)).1,
          behind),
        (decodeElems (t.decode codec) (t.zero codec) elems (old.elim [] fun s => s.1 ++ s.2)).2) := by
  cases elems with
  | nil => exact ⟨[], rfl⟩
  | cons j rest => exact ⟨_, rfl⟩

theorem name_mem_of_jsonName {visible : List String} {tag : Option (String × Bool)} {name : String}
    {omitempty : Bool} (h : jsonName visible tag = some (name, omitempty)) :
    tag = some (name, omitempty) ∧ name ∈ visible := by
  obtain ⟨htag, hvisible⟩ := filter_eq_some_iff.1 h
  exact ⟨htag, by simpa using hvisible⟩

/-- A struct without its first field, and what its text is. -/
theorem Fields.encode_cons (codec : Codec F) (tag : Option (String × Bool)) (t : Ty) (rest : Fields)
    (visible : List String) (v : t.Val F) (vals : rest.Vals F) :
    (Fields.cons tag t rest).encode codec visible (v, vals) = match jsonName visible tag with
      | none => rest.encode codec visible vals
      | some (name, omitempty) =>
        if omitempty && t.isEmpty codec v then rest.encode codec visible vals
        else (name, t.encode codec v) :: rest.encode codec visible vals := rfl

theorem Fields.key_mem_of_encode : (fs : Fields) → {visible : List String} → {vals : fs.Vals F} →
    {e : String × Json} → e ∈ fs.encode codec visible vals → e.1 ∈ visible ∧ e.1 ∈ fs.names
  | .nil, _, _, _, h => absurd h not_mem_nil
  | .cons tag t rest, visible, (v, vals), e, h => by
    have hrest : e ∈ rest.encode codec visible vals → e.1 ∈ visible ∧
        e.1 ∈ (Fields.cons tag t rest).names := by
      intro hmem
      obtain ⟨hvisible, hname⟩ := rest.key_mem_of_encode hmem
      refine ⟨hvisible, ?_⟩
      rw [Fields.names]
      cases tag with
      | none => exact hname
      | some tag => exact mem_cons_of_mem _ hname
    rw [Fields.encode_cons] at h
    cases hjson : jsonName visible tag with
    | none =>
      rw [hjson] at h
      exact hrest h
    | some named =>
      obtain ⟨name, omitempty⟩ := named
      rw [hjson] at h
      dsimp only at h
      obtain ⟨rfl, hvisible⟩ := name_mem_of_jsonName hjson
      split at h
      · exact hrest h
      · rcases mem_cons.1 h with rfl | hmem
        · exact ⟨hvisible, mem_cons_self⟩
        · exact hrest hmem

theorem select_eq_nil {visible : List String} {name : String} {entries : List (String × Json)}
    (hkeys : ∀ e ∈ entries, e.1 ∈ visible) (hname : ∀ e ∈ entries, e.1 ≠ name) :
    select codec visible name entries = [] := by
  refine filterMap_eq_nil_iff.2 fun e he => ?_
  rw [resolve, if_pos (hkeys e he), if_neg]
  exact fun heq => hname e he (some.inj heq)

theorem select_cons {visible : List String} {key : String} (hkey : key ∈ visible) (name : String)
    (j : Json) (entries : List (String × Json)) :
    select codec visible name ((key, j) :: entries) =
      if key = name then j :: select codec visible name entries
      else select codec visible name entries := by
  unfold select
  rw [filterMap_cons, resolve, if_pos hkey]
  by_cases heq : key = name
  · rw [if_pos (congrArg some heq), if_pos heq]
  · rw [if_neg (fun h => heq (some.inj h)), if_neg heq]

/-- One field of a struct: an omitted one keeps its old value, which then has to be empty too. -/
theorem Fields.decode_encode_cons {t : Ty} {rest : Fields} {visible : List String} {name : String}
    {omitempty : Bool} {o v : t.Val F} {old new result : rest.Vals F} {members : List Json}
    (hname : name ∉ rest.names) (ht : (t.decode codec (t.encode codec v) o).2 = true ∧
      (t.encode codec (t.decode codec (t.encode codec v) o).1 = t.encode codec v ↔ t.Clean codec o v))
    (hmembers : members = if omitempty && t.isEmpty codec v then [] else [t.encode codec v])
    (hrest : rest.encode codec visible result = rest.encode codec visible new ↔
      rest.Clean codec visible old new) :
    (decodeMembers (t.decode codec) members o).2 = true ∧
      ((if omitempty && t.isEmpty codec (decodeMembers (t.decode codec) members o).1 then
            rest.encode codec visible result
          else (name, t.encode codec (decodeMembers (t.decode codec) members o).1) ::
            rest.encode codec visible result) =
          (if omitempty && t.isEmpty codec v then rest.encode codec visible new
            else (name, t.encode codec v) :: rest.encode codec visible new) ↔
        (if omitempty && t.isEmpty codec v then t.isEmpty codec o = true
          else t.Clean codec o v ∧ (omitempty = true → t.encode codec v ≠ .null)) ∧
          rest.Clean codec visible old new) := by
  have hother : ∀ (vals : rest.Vals F) (j : Json) (l : List (String × Json)),
      rest.encode codec visible vals ≠ (name, j) :: l := by
    intro vals j l heq
    have hmem : (name, j) ∈ rest.encode codec visible vals := by
      rw [heq]
      exact mem_cons_self
    exact hname (rest.key_mem_of_encode hmem).2
  by_cases homitted : (omitempty && t.isEmpty codec v) = true
  · rw [if_pos homitted] at hmembers ⊢
    rw [if_pos homitted]
    subst hmembers
    obtain ⟨homit, -⟩ := and_eq_true_iff.1 homitted
    refine ⟨rfl, ?_⟩
    show (if omitempty && t.isEmpty codec o then _ else (name, t.encode codec o) :: _) = _ ↔ _
    rw [homit, Bool.true_and]
    split
    · rename_i hempty
      rw [hrest]
      exact ⟨fun h => ⟨hempty, h⟩, fun h => h.2⟩
    · rename_i hempty
      exact ⟨fun h => absurd h.symm (hother _ _ _), fun h => absurd h.1 hempty⟩
  · rw [if_neg homitted] at hmembers ⊢
    rw [if_neg homitted]
    subst hmembers
    have hone : decodeMembers (t.decode codec) [t.encode codec v] o =
        t.decode codec (t.encode codec v) o := by
      show (_, true && _) = _
      rw [Bool.true_and]
    rw [hone]
    refine ⟨ht.1, ?_⟩
    rw [← ht.2, ← hrest]
    by_cases hshown : (omitempty && t.isEmpty codec (t.decode codec (t.encode codec v) o).1) = true
    · -- the member is gone from the text: the value was a nil that is not empty
      rw [if_pos hshown]
      obtain ⟨homit, hempty⟩ := and_eq_true_iff.1 hshown
      refine ⟨fun h => absurd h (hother _ _ _), ?_⟩
      rintro ⟨⟨hencode, hnull⟩, -⟩
      rw [Ty.isEmpty_eq_of_encode_eq hencode (hnull homit)] at hempty
      exact absurd (and_eq_true_iff.2 ⟨homit, hempty⟩) homitted
    · rw [if_neg hshown, List.cons.injEq, Prod.mk.injEq]
      constructor
      · rintro ⟨⟨-, hencode⟩, hresult⟩
        refine ⟨⟨hencode, fun homit hnull => hshown ?_⟩, hresult⟩
        rw [hnull]
        exact and_eq_true_iff.2 ⟨homit, Ty.isEmpty_decode_null hnull o⟩
      · rintro ⟨⟨hencode, -⟩, hresult⟩
        exact ⟨⟨rfl, hencode⟩, hresult⟩

mutual

/-- Decoding the text of a value finds no mismatch, and gives a value with that text if and only if
nothing of the old value shows. -/
theorem Ty.decode_encode : (t : Ty) → (old new : t.Val F) →
    (t.decode codec (t.encode codec new) old).2 = true ∧
      (t.encode codec (t.decode codec (t.encode codec new) old).1 = t.encode codec new ↔
        t.Clean codec old new)
  | .string, old, new => ⟨rfl, fun _ => trivial, fun _ => rfl⟩
  | .bool, old, new => ⟨rfl, fun _ => trivial, fun _ => rfl⟩
  | .int w, old, new => by
    rw [Ty.decode_int]
    exact ⟨rfl, fun _ => trivial, fun _ => rfl⟩
  | .uint w, old, new => by
    rw [Ty.decode_uint]
    exact ⟨rfl, fun _ => trivial, fun _ => rfl⟩
  | .float, old, new => by
    rw [Ty.decode_float]
    exact ⟨rfl, fun _ => trivial, fun _ => rfl⟩
  | .ptr t, old, new => by
    change Option (t.Val F) at old new
    cases new with
    | none => exact ⟨rfl, nofun, fun _ => rfl⟩
    | some v =>
      by_cases hnull : t.encode codec v = .null
      · have htext : (Ty.ptr t).encode codec (some v) = .null := hnull
        rw [htext]
        exact ⟨rfl, fun _ w hw => .inl (some.inj hw ▸ hnull), fun _ => rfl⟩
      · have htext : (Ty.ptr t).encode codec (some v) = t.encode codec v := rfl
        obtain ⟨hok, hclean⟩ := t.decode_encode (old.getD (t.zero codec)) v
        rw [htext, Ty.decode_ptr hnull]
        refine ⟨hok, ?_⟩
        refine hclean.trans ⟨fun h w hw => .inr (some.inj hw ▸ h), fun h => ?_⟩
        exact (h v rfl).resolve_left hnull
  | .map t, old, new => by
    change Option (Table String (t.Val F)) at old new
    cases new with
    | none => exact ⟨rfl, nofun, fun _ => rfl⟩
    | some n =>
      obtain ⟨hok, hclean⟩ := decodeEntries_encode (fun o v => t.decode_encode o v)
        (old.getD ∅) n
      refine ⟨hok, ?_⟩
      show Json.obj _ = Json.obj _ ↔ _
      rw [Json.obj.injEq]
      refine hclean.trans ⟨?_, fun h => h n rfl⟩
      rintro h m ⟨⟩
      exact h
  | .slice t, old, new => by
    change Option (List (t.Val F) × List (t.Val F)) at old new
    cases new with
    | none => exact ⟨rfl, nofun, fun _ => rfl⟩
    | some n =>
      obtain ⟨hok, hclean⟩ := decodeElems_encode (fun o v => t.decode_encode o v) n.1
        (old.elim [] fun s => s.1 ++ s.2)
      obtain ⟨behind, hdecode⟩ := Ty.decode_slice codec (n.1.map (t.encode codec)) old
      have htext : (Ty.slice t).encode codec (some n) = .arr (n.1.map (t.encode codec)) := rfl
      rw [htext, hdecode]
      refine ⟨hok, ?_⟩
      show Json.arr _ = Json.arr _ ↔ _
      rw [Json.arr.injEq]
      refine hclean.trans ⟨?_, fun h => h n rfl⟩
      rintro h m ⟨⟩
      exact h
  | .struct fs, old, new => by
    obtain ⟨hok, hclean⟩ := fs.decode_encode fs.visible (fs.encode codec fs.visible new) old new
      (fun name hname => by
        have hone : fs.names.count name = 1 := by simpa using (mem_filter.1 hname).2
        exact hone.le) fun _ _ _ => rfl
    refine ⟨hok, ?_⟩
    show Json.obj _ = Json.obj _ ↔ _
    rw [Json.obj.injEq]
    exact hclean

theorem Fields.decode_encode : (fs : Fields) → (visible : List String) →
    (entries : List (String × Json)) → (old new : fs.Vals F) →
    (∀ name ∈ visible, fs.names.count name ≤ 1) →
    (∀ name ∈ visible, name ∈ fs.names → select codec visible name entries =
      select codec visible name (fs.encode codec visible new)) →
    (fs.decode codec visible entries old).2 = true ∧
      (fs.encode codec visible (fs.decode codec visible entries old).1 = fs.encode codec visible new ↔
        fs.Clean codec visible old new)
  | .nil, _, _, _, _, _, _ => ⟨rfl, fun _ => trivial, fun _ => rfl⟩
  | .cons tag t rest, visible, entries, (o, old), (v, new), hcount, hentries => by
    have hnames : (Fields.cons tag t rest).names = tag.elim rest.names fun tag => tag.1 :: rest.names :=
      rfl
    have hcountRest : ∀ name ∈ visible, rest.names.count name ≤ 1 := by
      intro name hname
      refine le_trans ?_ (hcount name hname)
      rw [hnames]
      cases tag with
      | none => exact le_rfl
      | some tag => exact count_le_count_cons
    cases hjson : jsonName visible tag with
    | none =>
      have htext : (Fields.cons tag t rest).encode codec visible (v, new) =
          rest.encode codec visible new := by
        rw [Fields.encode_cons, hjson]
      obtain ⟨hok, hclean⟩ := rest.decode_encode visible entries old new hcountRest (by
        intro name hname hrest
        rw [← htext]
        refine hentries name hname ?_
        rw [hnames]
        cases tag with
        | none => exact hrest
        | some tag => exact mem_cons_of_mem _ hrest)
      rw [Fields.decode, Fields.Clean, htext, hjson]
      refine ⟨hok, ?_⟩
      rw [Fields.encode_cons, hjson]
      exact hclean.trans ⟨fun h => ⟨trivial, h⟩, fun h => h.2⟩
    | some named =>
      obtain ⟨name, omitempty⟩ := named
      obtain ⟨rfl, hvisible⟩ := name_mem_of_jsonName hjson
      have hname : name ∉ rest.names := by
        intro hmem
        have hone := hcount name hvisible
        rw [hnames, elim_some, count_cons_self] at hone
        exact absurd (count_pos_iff.2 hmem) (by omega)
      have htext := Fields.encode_cons codec (some (name, omitempty)) t rest visible v new
      rw [hjson] at htext
      dsimp only at htext
      have hkeys : ∀ e ∈ rest.encode codec visible new, e.1 ∈ visible := fun e he =>
        (rest.key_mem_of_encode he).1
      have hmembers : select codec visible name entries =
          if omitempty && t.isEmpty codec v then [] else [t.encode codec v] := by
        have hnone : select codec visible name (rest.encode codec visible new) = [] := by
          refine select_eq_nil hkeys fun e he heq => hname ?_
          rw [← heq]
          exact (rest.key_mem_of_encode he).2
        rw [hentries name hvisible mem_cons_self, htext]
        split_ifs
        · exact hnone
        · rw [select_cons hvisible, if_pos rfl, hnone]
      obtain ⟨hok, hclean⟩ := rest.decode_encode visible entries old new hcountRest (by
        intro other hother hrest
        rw [hentries other hother (mem_cons_of_mem _ hrest), htext]
        split_ifs
        · rfl
        · rw [select_cons hvisible, if_neg]
          rintro rfl
          exact hname hrest)
      obtain ⟨hmember, hfield⟩ := Fields.decode_encode_cons hname (t.decode_encode o v) hmembers hclean
      rw [Fields.decode, Fields.Clean, hjson]
      dsimp only
      rw [hmember, hok]
      refine ⟨rfl, ?_⟩
      rw [htext, Fields.encode_cons, hjson]
      exact hfield

end

end ReadBack

/-! ## What matches -/

section Matches

variable {F : Type} (codec : Codec F)

mutual

/-- A value of a text that a type takes, whatever value is there already; `null` always is one. -/
def Ty.Matches : Ty → Json → Prop
  | .string, j => j = .null ∨ ∃ s, j = .str s
  | .bool, j => j = .null ∨ ∃ b, j = .bool b
  | .int w, j => j = .null ∨ ∃ text plain i, j = .num text plain ∧ parseInt text = some i ∧
      (BitVec.ofInt w.bits i).toInt = i
  | .uint w, j => j = .null ∨ ∃ text plain n, j = .num text plain ∧ parseUint text = some n ∧
      (BitVec.ofNat w.bits n).toNat = n
  | .float, j => j = .null ∨ ∃ text plain x, j = .num text plain ∧ codec.parse text = some x
  | .ptr t, j => j = .null ∨ t.Matches j
  | .map t, j => j = .null ∨ ∃ entries, j = .obj entries ∧ ∀ e ∈ entries, t.Matches e.2
  | .slice t, j => j = .null ∨ ∃ elems, j = .arr elems ∧ ∀ e ∈ elems, t.Matches e
  | .struct fs, j => j = .null ∨ ∃ entries, j = .obj entries ∧ fs.Matches fs.visible entries

/-- Every member that means one of the fields matches it. -/
def Fields.Matches : Fields → List String → List (String × Json) → Prop
  | .nil, _, _ => True
  | .cons tag t rest, visible, entries =>
    (∀ named ∈ jsonName visible tag, ∀ j ∈ select codec visible named.1 entries, t.Matches j) ∧
      rest.Matches visible entries

end

variable {codec}

section

variable {V : Type} {decode : Json → V → V × Bool} {Matches : Json → Prop}
  (h : ∀ j old, (decode j old).2 = true ↔ Matches j)

include h

theorem decodeMembers_iff (members : List Json) (old : V) :
    (decodeMembers decode members old).2 = true ↔ ∀ j ∈ members, Matches j := by
  have hfold : ∀ r : V × Bool, (members.foldl
      (fun r j => ((decode j r.1).1, r.2 && (decode j r.1).2)) r).2 = true ↔
        r.2 = true ∧ ∀ j ∈ members, Matches j := by
    induction members with
    | nil => simp
    | cons j rest ih =>
      intro r
      rw [foldl_cons, ih, Bool.and_eq_true, h, List.forall_mem_cons]
      tauto
  exact (hfold (old, true)).trans (and_iff_right rfl)

theorem decodeEntries_iff (zero : V) (entries : List (String × Json)) (m : Table String V) :
    (decodeEntries decode zero entries m).2 = true ↔ ∀ e ∈ entries, Matches e.2 := by
  have hfold : ∀ r : Table String V × Bool, (entries.foldl
      (fun r e => (r.1.put e.1 (decode e.2 zero).1, r.2 && (decode e.2 zero).2)) r).2 = true ↔
        r.2 = true ∧ ∀ e ∈ entries, Matches e.2 := by
    induction entries with
    | nil => simp
    | cons e rest ih =>
      intro r
      rw [foldl_cons, ih, Bool.and_eq_true, h, List.forall_mem_cons]
      tauto
  exact (hfold (m, true)).trans (and_iff_right rfl)

theorem decodeElems_iff (zero : V) (elems : List Json) (backing : List V) :
    (decodeElems decode zero elems backing).2 = true ↔ ∀ e ∈ elems, Matches e := by
  induction elems generalizing backing with
  | nil => simp [decodeElems]
  | cons j rest ih => simp only [decodeElems, Bool.and_eq_true, h, ih, List.forall_mem_cons]

end

mutual

theorem Ty.decode_iff : (t : Ty) → (j : Json) → (old : t.Val F) →
    ((t.decode codec j old).2 = true ↔ t.Matches codec j)
  | .string, j, old => by
    unfold Ty.decode Ty.Matches
    cases j <;> simp [keep]
  | .bool, j, old => by
    unfold Ty.decode Ty.Matches
    cases j <;> simp [keep]
  | .int w, j, old => by
    unfold Ty.decode Ty.Matches
    cases j with
    | num text plain =>
      cases hparse : parseInt text with
      | none => simp [hparse]
      | some i =>
        by_cases hi : i.bmod (2 ^ w.bits) = i <;> simp [hparse, Option.filter_some, hi]
    | _ => simp [keep]
  | .uint w, j, old => by
    unfold Ty.decode Ty.Matches
    cases j with
    | num text plain =>
      cases hparse : parseUint text with
      | none => simp [hparse]
      | some n =>
        by_cases hn : n % 2 ^ w.bits = n <;> simp [hparse, Option.filter_some, hn]
    | _ => simp [keep]
  | .float, j, old => by
    unfold Ty.decode Ty.Matches
    cases j <;> simp [keep, isSome_iff_exists]
  | .ptr t, j, old => by
    have helem := fun v => t.decode_iff j v
    unfold Ty.decode Ty.Matches
    cases j <;> simp [helem]
  | .map t, j, old => by
    unfold Ty.decode Ty.Matches
    cases j with
    | obj entries => simp [decodeEntries_iff t.decode_iff]
    | _ => simp
  | .slice t, j, old => by
    unfold Ty.decode Ty.Matches
    cases j with
    | arr elems => cases elems <;> simp [decodeElems_iff t.decode_iff]
    | _ => simp
  | .struct fs, j, old => by
    unfold Ty.decode Ty.Matches
    cases j with
    | obj entries => simpa using fs.decode_iff fs.visible entries old
    | _ => simp [keep]

theorem Fields.decode_iff : (fs : Fields) → (visible : List String) →
    (entries : List (String × Json)) → (old : fs.Vals F) →
    ((fs.decode codec visible entries old).2 = true ↔ fs.Matches codec visible entries)
  | .nil, _, _, _ => by simp [Fields.decode, Fields.Matches]
  | .cons tag t rest, visible, entries, (v, vals) => by
    cases hname : jsonName visible tag with
    | none => simp [Fields.decode, Fields.Matches, hname, rest.decode_iff]
    | some named =>
      simp [Fields.decode, Fields.Matches, hname, rest.decode_iff, decodeMembers_iff t.decode_iff]

end

end Matches

end GoJson
