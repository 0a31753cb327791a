import BeeApi.Lib.Json
import BeeApi.Lib.Strings

/-!
# Values inside of a JSON value

A path is a list of names; the name of an item of an array is its index.  What stands at a path is
read, written and removed, and every other value is found again afterwards.
-/

namespace Json

open List Option

/-- The index that a name stands for in an array. -/
def place (name : String) : Option ℕ :=
  let i := Nat.ofDigitChars 10 name.toList 0
  if i.repr = name then some i else none

/-- The value under a name. -/
def child : Json → String → Option Json
  | .obj fields, name => fields.lookup name
  | .arr items, name => (place name).bind fun i => items[i]?
  | _, _ => none

/-- The field is replaced, or appended. -/
def putField (name : String) (value : Json) : Fields → Fields
  | [] => [(name, value)]
  | (n, v) :: rest => if name = n then (n, value) :: rest else (n, v) :: putField name value rest

/-- The items with the one at `i` written; nulls stand for those that are missing before it. -/
def putItem (items : List Json) (i : ℕ) (value : Json) : List Json :=
  items.take i ++ List.replicate (i - items.length) .null ++ value :: items.drop (i + 1)

/-- A value that is no container becomes one. -/
def putChild : Json → String → Json → Option Json
  | .obj fields, name, value => some (.obj (putField name value fields))
  | .arr items, name, value => (place name).map fun i => .arr (putItem items i value)
  | _, name, value =>
    some ((place name).elim (.obj [(name, value)]) fun i => .arr (putItem [] i value))

/-- The value without what is under a name; later items move up. -/
def dropChild : Json → String → Json
  | .obj fields, name => .obj (fields.eraseP fun field => name == field.1)
  | .arr items, name => (place name).elim (.arr items) fun i => .arr (items.eraseIdx i)
  | json, _ => json

/-- The value at a path. -/
def getAt : Json → List String → Option Json
  | json, [] => some json
  | json, name :: path => (json.child name).bind fun c => c.getAt path

/-- The value with another one at a path. -/
def setAt : Json → List String → Json → Option Json
  | _, [], value => some value
  | json, name :: path, value =>
    (((json.child name).getD .null).setAt path value).bind fun c => json.putChild name c

/-- The value without what is at a path. -/
def deleteAt : Json → List String → Json
  | json, [] => json
  | json, name :: path =>
    if path = [] then json.dropChild name
    else ((json.child name).bind fun c => json.putChild name (c.deleteAt path)).getD json

/-- The name of a child after another one has been removed. -/
def shiftedName : Json → String → String → String
  | .arr _, removed, name =>
    match place removed, place name with
    | some i, some j => if i < j then (j - 1).repr else name
    | _, _ => name
  | _, _, name => name

/-- The path to a value after another one has been removed. -/
def shifted : Json → List String → List String → List String
  | json, n :: removed, name :: path =>
    if removed = [] then json.shiftedName n name :: path
    else name :: if name = n then ((json.child n).getD .null).shifted removed path else path
  | _, _, path => path

/-- The number of items or fields. -/
def memberCount : Json → ℕ
  | .obj fields => fields.length
  | .arr items => items.length
  | _ => 0

/-- Neither path leads through the other. -/
def Apart (path path' : List String) : Prop := ¬ path <+: path' ∧ ¬ path' <+: path

variable {json json' c c' v w : Json} {name n : String} {p q r : List String}

/-! ## Children -/

theorem place_repr (i : ℕ) : place i.repr = some i := by
  have hvalue : Nat.ofDigitChars 10 i.repr.toList 0 = i := by simp
  simp only [place, hvalue, if_true]

theorem repr_of_place {i : ℕ} (h : place name = some i) : i.repr = name := by
  simp only [place, ite_none_right_eq_some, some_inj] at h
  rw [← h.2, h.1]

theorem lookup_putField (name n : String) (value : Json) (fields : Fields) :
    (putField name value fields).lookup n = if n = name then some value else fields.lookup n := by
  induction fields with
  | nil => grind [putField]
  | cons field rest ih => grind [putField]

theorem getElem?_putItem (items : List Json) (i j : ℕ) (value : Json) :
    (putItem items i value)[j]? =
      if j = i then some value else if j < i ∧ items.length ≤ j then some .null else items[j]? := by
  simp only [putItem, getElem?_append, getElem?_cons]
  grind

theorem child_putChild (h : json.putChild name v = some json') : json'.child name = some v := by
  cases json with
  | obj fields =>
    cases h
    simp [child, lookup_putField]
  | arr items =>
    obtain ⟨i, hi, rfl⟩ := map_eq_some_iff.1 h
    simp [child, hi, getElem?_putItem]
  | _ =>
    cases h
    cases hi : place name <;> simp [child, hi, getElem?_putItem]

theorem child_putChild_of_ne (hne : n ≠ name) (hc : json.child n = some c)
    (h : json.putChild name v = some json') : json'.child n = some c := by
  cases json with
  | obj fields =>
    cases h
    simpa [child, lookup_putField, hne] using hc
  | arr items =>
    obtain ⟨i, hi, rfl⟩ := map_eq_some_iff.1 h
    obtain ⟨j, hj, hc⟩ := bind_eq_some_iff.1 hc
    have hij : j ≠ i := by
      rintro rfl
      exact hne ((repr_of_place hj).symm.trans (repr_of_place hi))
    have hlt := (List.getElem?_eq_some_iff.1 hc).1
    simp [child, hj, getElem?_putItem, hij, hc, hlt.not_ge]
  | _ => cases hc

/-- The other children are found under their names after the removal. -/
theorem child_dropChild (hne : n ≠ name) (hname : (json.child name).isSome) :
    (json.dropChild name).child (json.shiftedName name n) = json.child n := by
  cases json with
  | obj fields =>
    clear hname
    simp only [child, dropChild, shiftedName]
    induction fields with
    | nil => rfl
    | cons field rest ih => grind
  | arr items =>
    obtain ⟨i, hi⟩ : ∃ i, place name = some i := by
      rw [← isSome_iff_exists]
      exact isSome_of_isSome_bind hname
    simp only [child, dropChild, shiftedName, hi, elim_some]
    cases hj : place n with
    | none => simp [hj]
    | some j =>
      have hij : j ≠ i := by
        rintro rfl
        exact hne ((repr_of_place hj).symm.trans (repr_of_place hi))
      dsimp only
      split_ifs with hlt
      · rw [place_repr, bind_some, bind_some, getElem?_eraseIdx,
          if_neg (by omega), Nat.sub_add_cancel (by omega)]
      · rw [hj, bind_some, bind_some, getElem?_eraseIdx, if_pos (by omega)]
  | _ => cases hname

theorem memberCount_dropChild (hname : (json.child name).isSome) :
    (json.dropChild name).memberCount + 1 = json.memberCount := by
  cases json with
  | obj fields =>
    simp only [child, dropChild, memberCount] at hname ⊢
    induction fields with
    | nil => cases hname
    | cons field rest ih => grind
  | arr items =>
    obtain ⟨w, hw⟩ := isSome_iff_exists.1 hname
    obtain ⟨i, hi, hw⟩ := bind_eq_some_iff.1 hw
    have hlt := (List.getElem?_eq_some_iff.1 hw).1
    simp only [dropChild, hi, elim_some, memberCount, length_eraseIdx, if_pos hlt]
    omega
  | _ => cases hname

theorem putChild_of_child (hc : json.child name = some c) (v : Json) :
    ∃ json', json.putChild name v = some json' := by
  cases json with
  | obj fields => exact ⟨_, rfl⟩
  | arr items =>
    obtain ⟨i, hi, -⟩ := bind_eq_some_iff.1 hc
    exact ⟨_, by rw [putChild, hi, map_some]⟩
  | _ => cases hc

theorem shiftedName_putChild (hc : json.child n = some c) (h : json.putChild name v = some json')
    (m : String) : json'.shiftedName n m = json.shiftedName n m := by
  cases json with
  | obj fields =>
    cases h
    rfl
  | arr items =>
    obtain ⟨i, -, rfl⟩ := map_eq_some_iff.1 h
    rfl
  | _ => cases hc

theorem dropChild_of_none (h : json.child name = none) : json.dropChild name = json := by
  cases json with
  | obj fields =>
    rw [dropChild, eraseP_of_forall_not]
    rw [child, lookup_eq_none_iff] at h
    simpa using h
  | arr items =>
    rw [dropChild]
    rw [child] at h
    cases hi : place name with
    | none => rfl
    | some i =>
      rw [hi, bind_some, getElem?_eq_none_iff] at h
      rw [elim_some, eraseIdx_of_length_le h]
  | _ => rfl

theorem putChild_child (h : json.child name = some c) : json.putChild name c = some json := by
  cases json with
  | obj fields =>
    rw [putChild, some_inj, obj.injEq]
    rw [child] at h
    induction fields with
    | nil => cases h
    | cons e rest ih => grind [putField]
  | arr items =>
    obtain ⟨i, hi, hc⟩ := bind_eq_some_iff.1 h
    rw [putChild, hi, map_some, some_inj, arr.injEq]
    refine ext_getElem? fun j => ?_
    rw [getElem?_putItem]
    have hlt := (List.getElem?_eq_some_iff.1 hc).1
    split_ifs with hj hbefore
    · rw [hj, hc]
    · omega
    · rfl
  | _ => cases h

/-- The names of each object are pairwise different. -/
def Distinct : Json → Prop
  | .obj fields => (fields.map Prod.fst).Nodup
  | _ => True

/-- After a child was written and removed nothing is left of it: an object has no member of that name,
and in an array the next item has come to its place. -/
theorem child_dropChild_putChild (hc : (c.child name).isSome) (hdistinct : c.Distinct)
    (hput : c.putChild name v = some c') :
    (c'.dropChild name).child name = none ∨ ∃ items i, c = .arr items ∧ name = i.repr ∧
      (c'.dropChild name).child name = c.child (i + 1).repr := by
  cases c with
  | obj fields =>
    cases hput
    refine .inl ?_
    rw [dropChild, child, lookup_eq_none_iff]
    change (fields.map Prod.fst).Nodup at hdistinct
    clear hc
    induction fields with
    | nil => simp [putField]
    | cons e rest ih =>
      rw [map_cons, nodup_cons] at hdistinct
      unfold putField
      by_cases hname : name = e.1
      · rw [if_pos hname, eraseP_cons_of_pos (by simp [hname])]
        rintro e' he'
        have hne : e'.1 ≠ name := fun heq => hdistinct.1 (hname ▸ heq ▸ mem_map_of_mem he')
        simpa using Ne.symm hne
      · rw [if_neg hname, eraseP_cons_of_neg (by simp [hname])]
        exact forall_mem_cons.2 ⟨by simpa using hname, ih hdistinct.2⟩
  | arr items =>
    obtain ⟨w, hw⟩ := isSome_iff_exists.1 hc
    obtain ⟨i, hi, hw⟩ := bind_eq_some_iff.1 hw
    have hlt := (List.getElem?_eq_some_iff.1 hw).1
    rw [putChild, hi, map_some, some_inj] at hput
    subst hput
    refine .inr ⟨items, i, rfl, (repr_of_place hi).symm, ?_⟩
    rw [dropChild, hi, elim_some, child, child, hi, place_repr, bind_some, bind_some,
      getElem?_eraseIdx, if_neg (lt_irrefl i), getElem?_putItem, if_neg (by omega), if_neg (by omega)]
  | _ => cases hc

/-! ## Numbers -/

mutual

/-- Every number read and written again. -/
def mapNumbers (number : String → String → String × String) : Json → Json
  | .num text plain => .num (number text plain).1 (number text plain).2
  | .arr l => .arr (mapNumbersList number l)
  | .obj fields => .obj (mapNumbersFields number fields)
  | j => j

def mapNumbersList (number : String → String → String × String) : List Json → List Json
  | [] => []
  | j :: rest => mapNumbers number j :: mapNumbersList number rest

def mapNumbersFields (number : String → String → String × String) : Fields → Fields
  | [] => []
  | (name, j) :: rest => (name, mapNumbers number j) :: mapNumbersFields number rest

end

section Numbers

variable (number : String → String → String × String)

theorem mapNumbersList_eq_map (l : List Json) :
    mapNumbersList number l = l.map (mapNumbers number) := by
  induction l with
  | nil => rfl
  | cons j rest ih => rw [mapNumbersList, ih, map_cons]

theorem mapNumbersFields_eq_map (fields : Fields) :
    mapNumbersFields number fields = fields.map fun e => (e.1, mapNumbers number e.2) := by
  induction fields with
  | nil => rfl
  | cons e rest ih => rw [mapNumbersFields, ih, map_cons]

theorem child_mapNumbers (json : Json) (name : String) :
    (json.mapNumbers number).child name = (json.child name).map (mapNumbers number) := by
  cases json with
  | obj fields =>
    rw [mapNumbers, mapNumbersFields_eq_map, child, child]
    induction fields with
    | nil => rfl
    | cons e rest ih => grind
  | arr items =>
    rw [mapNumbers, mapNumbersList_eq_map, child, child]
    cases place name <;> simp
  | _ => rfl

theorem getAt_mapNumbers (json : Json) (p : List String) :
    (json.mapNumbers number).getAt p = (json.getAt p).map (mapNumbers number) := by
  induction p generalizing json with
  | nil => rfl
  | cons name p ih =>
    rw [getAt, getAt, child_mapNumbers]
    cases json.child name with
    | none => rfl
    | some c => exact ih c

theorem memberCount_mapNumbers (json : Json) :
    (json.mapNumbers number).memberCount = json.memberCount := by
  cases json with
  | obj fields => rw [mapNumbers, mapNumbersFields_eq_map, memberCount, memberCount, length_map]
  | arr items => rw [mapNumbers, mapNumbersList_eq_map, memberCount, memberCount, length_map]
  | _ => rfl

end Numbers

/-! ## Paths -/

theorem apart_cons : Apart (name :: p) (name :: q) ↔ Apart p q := by
  simp [Apart]

theorem getAt_setAt (h : json.setAt p v = some json') : json'.getAt p = some v := by
  induction p generalizing json json' with
  | nil => exact h.symm
  | cons name p ih =>
    obtain ⟨c, hc, hput⟩ := bind_eq_some_iff.1 h
    rw [getAt, child_putChild hput]
    exact ih hc

theorem getAt_setAt_of_apart (hapart : Apart p q) (hq : json.getAt q = some w)
    (h : json.setAt p v = some json') : json'.getAt q = some w := by
  induction p generalizing json json' q with
  | nil => exact absurd nil_prefix hapart.1
  | cons name p ih =>
    cases q with
    | nil => exact absurd nil_prefix hapart.2
    | cons n q =>
      obtain ⟨c, hc, hput⟩ := bind_eq_some_iff.1 h
      obtain ⟨d, hd, hw⟩ := bind_eq_some_iff.1 hq
      by_cases hn : n = name
      · subst hn
        rw [hd] at hc
        rw [getAt, child_putChild hput]
        exact ih (apart_cons.1 hapart) hw hc
      · rwa [getAt, child_putChild_of_ne hn hd hput]

/-- A removal leaves every value that is apart from what is removed. -/
theorem getAt_deleteAt (hp : json.getAt p = some v) (hapart : Apart p q)
    (hq : json.getAt q = some w) : (json.deleteAt p).getAt (json.shifted p q) = some w := by
  induction p generalizing json q with
  | nil => exact absurd nil_prefix hapart.1
  | cons name p ih =>
    cases q with
    | nil => exact absurd nil_prefix hapart.2
    | cons n q =>
      obtain ⟨c, hc, hv⟩ := bind_eq_some_iff.1 hp
      obtain ⟨d, hd, hw⟩ := bind_eq_some_iff.1 hq
      rw [deleteAt, shifted]
      by_cases hlast : p = []
      · have hne : n ≠ name := by
          rintro rfl
          exact hapart.1 (hlast ▸ ⟨q, rfl⟩)
        rw [if_pos hlast, if_pos hlast, getAt, child_dropChild hne (by rw [hc]; rfl), hd]
        exact hw
      · obtain ⟨json', hput⟩ := putChild_of_child hc (c.deleteAt p)
        rw [if_neg hlast, if_neg hlast, hc, bind_some, hput, getD_some, getAt]
        by_cases hn : n = name
        · subst hn
          cases hc.symm.trans hd
          rw [child_putChild hput, if_pos rfl]
          exact ih hv (apart_cons.1 hapart) hw
        · rwa [if_neg hn, child_putChild_of_ne hn hd hput]

/-- Writing elsewhere does not change where a removal leaves the other values. -/
theorem shifted_setAt (hp : json.getAt p = some w) (hq : ¬ q <+: p)
    (h : json.setAt q v = some json') : json'.shifted p r = json.shifted p r := by
  induction p generalizing json json' q r with
  | nil => cases r <;> rfl
  | cons n p ih =>
    cases q with
    | nil => exact absurd nil_prefix hq
    | cons name q =>
      cases r with
      | nil => rfl
      | cons m r =>
        obtain ⟨c, hc, hput⟩ := bind_eq_some_iff.1 h
        obtain ⟨d, hd, hw⟩ := bind_eq_some_iff.1 hp
        rw [shifted, shifted, shiftedName_putChild hd hput]
        by_cases hn : n = name
        · subst hn
          rw [hd] at hc
          rw [child_putChild hput, hd, getD_some, getD_some, ih hw (by simpa using hq) hc]
        · rw [child_putChild_of_ne hn hd hput, hd]

theorem getAt_append (json : Json) (p q : List String) :
    json.getAt (p ++ q) = (json.getAt p).bind fun c => c.getAt q := by
  induction p generalizing json with
  | nil => rfl
  | cons name p ih =>
    rw [cons_append, getAt, getAt]
    cases json.child name with
    | none => rfl
    | some c => exact ih c

theorem getAt_of_isScalar (h : json.isScalar = true) (hp : p ≠ []) : json.getAt p = none := by
  cases p with
  | nil => exact absurd rfl hp
  | cons name p => cases json <;> first | rfl | exact absurd h Bool.false_ne_true

theorem deleteAt_of_none (h : json.getAt p = none) : json.deleteAt p = json := by
  induction p generalizing json with
  | nil => cases h
  | cons name p ih =>
    rw [deleteAt]
    rw [getAt] at h
    cases hc : json.child name with
    | none =>
      split_ifs
      · exact dropChild_of_none hc
      · rfl
    | some c =>
      rw [hc, bind_some] at h
      split_ifs with hlast
      · subst hlast
        cases h
      · rw [bind_some, ih h, putChild_child hc, getD_some]

theorem getAt_deleteAt_below (hr : r ≠ []) :
    (json.deleteAt (p ++ r)).getAt p = (json.getAt p).map fun c => c.deleteAt r := by
  induction p generalizing json with
  | nil => rfl
  | cons name p ih =>
    rw [cons_append, deleteAt, if_neg (by simp [hr]), getAt, getAt]
    cases hc : json.child name with
    | none => rw [bind_none, getD_none, hc, bind_none, map_none]
    | some c =>
      obtain ⟨json', hput⟩ := putChild_of_child hc (c.deleteAt (p ++ r))
      rw [bind_some, hput, getD_some, child_putChild hput]
      exact ih

theorem memberCount_deleteAt (hp : json.getAt (p ++ [name]) = some v) :
    ∃ c c', json.getAt p = some c ∧ (json.deleteAt (p ++ [name])).getAt p = some c' ∧
      c'.memberCount + 1 = c.memberCount := by
  rw [getAt_append] at hp
  obtain ⟨c, hc, hchild⟩ := bind_eq_some_iff.1 hp
  obtain ⟨d, hd, -⟩ := bind_eq_some_iff.1 hchild
  refine ⟨c, c.dropChild name, hc, ?_, memberCount_dropChild (by rw [hd]; rfl)⟩
  rw [getAt_deleteAt_below (by simp), hc]
  rfl

theorem length_shifted (json : Json) (r p : List String) : (json.shifted r p).length = p.length := by
  induction r generalizing json p with
  | nil => rfl
  | cons n r ih =>
    cases p with
    | nil => rfl
    | cons name p =>
      rw [shifted]
      split_ifs
      · rfl
      · rw [length_cons, ih, length_cons]
      · rfl

theorem shifted_append (json : Json) (r p q : List String) :
    ∃ q', q'.length = q.length ∧ json.shifted r (p ++ q) = json.shifted r p ++ q' := by
  induction p generalizing json r with
  | nil => exact ⟨json.shifted r q, length_shifted json r q, by cases r <;> rfl⟩
  | cons name p ih =>
    cases r with
    | nil => exact ⟨q, rfl, rfl⟩
    | cons n r =>
      rw [cons_append, shifted, shifted]
      split_ifs
      · exact ⟨q, rfl, rfl⟩
      · obtain ⟨q', hlength, hshifted⟩ := ih ((json.child n).getD .null) r
        exact ⟨q', hlength, by rw [hshifted, cons_append]⟩
      · exact ⟨q, rfl, rfl⟩

theorem shiftedName_self (json : Json) (name : String) : json.shiftedName name name = name := by
  unfold shiftedName
  split
  · split
    · rename_i i j hi hj
      obtain rfl := some.inj (hi.symm.trans hj)
      rw [if_neg (lt_irrefl _)]
    · rfl
  · rfl

/-- What lies at or below the removed value keeps its path. -/
theorem shifted_self (json : Json) (p q : List String) (name : String) :
    json.shifted (p ++ [name]) (p ++ name :: q) = p ++ name :: q := by
  induction p generalizing json with
  | nil => rw [nil_append, nil_append, shifted, if_pos rfl, shiftedName_self]
  | cons n p ih => rw [cons_append, cons_append, shifted, if_neg (by simp), if_pos rfl, ih]

/-- The next item comes to the place of the one that is removed. -/
theorem shifted_next {items : List Json} (h : json.getAt p = some (.arr items)) (i : ℕ) :
    json.shifted (p ++ [i.repr]) (p ++ (i + 1).repr :: q) = p ++ i.repr :: q := by
  induction p generalizing json with
  | nil =>
    cases h
    rw [nil_append, nil_append, shifted, if_pos rfl, shiftedName, place_repr, place_repr]
    dsimp only
    rw [if_pos (Nat.lt_succ_self i), Nat.add_sub_cancel]
    rfl
  | cons n p ih =>
    obtain ⟨c, hc, hitems⟩ := bind_eq_some_iff.1 h
    rw [cons_append, cons_append, shifted, if_neg (by simp), if_pos rfl, hc, getD_some, ih hitems]
    rfl

/-- A removal below a path moves only what lies below it too. -/
theorem shifted_of_not_prefix (hp : ¬ p <+: q ∨ q = p) (hr : r ≠ []) :
    json.shifted (p ++ r) q = q := by
  induction p generalizing json q with
  | nil =>
    obtain hp | rfl := hp
    · exact absurd nil_prefix hp
    · cases r <;> rfl
  | cons n p ih =>
    cases q with
    | nil => rfl
    | cons name q =>
      rw [cons_append, shifted, if_neg (by simp [hr])]
      split_ifs with hname
      · subst hname
        rw [ih]
        simpa using hp
      · rfl

theorem shiftedName_inj {a b : String} (ha : a ≠ n) (hb : b ≠ n)
    (h : json.shiftedName n a = json.shiftedName n b) : a = b := by
  have hrepr : ∀ {i j : ℕ}, i.repr = j.repr → i = j := fun {i j} hij => by
    have hplace := congrArg place hij
    rw [place_repr, place_repr] at hplace
    exact some.inj hplace
  cases json with
  | arr items =>
    unfold shiftedName at h
    dsimp only at h
    cases hn : place n with
    | none => simpa [hn] using h
    | some i =>
      have hne : ∀ {m : String} {j : ℕ}, m ≠ n → place m = some j → j ≠ i := by
        rintro m j hm hj rfl
        exact hm ((repr_of_place hj).symm.trans (repr_of_place hn))
      rw [hn] at h
      cases hpa : place a with
      | none =>
        cases hpb : place b with
        | none => simpa [hpa, hpb] using h
        | some j =>
          rw [hpa, hpb] at h
          dsimp only at h
          split_ifs at h
          · rw [h, place_repr] at hpa
            cases hpa
          · exact h
      | some k =>
        have hk := hne ha hpa
        cases hpb : place b with
        | none =>
          rw [hpa, hpb] at h
          dsimp only at h
          split_ifs at h
          · rw [← h, place_repr] at hpb
            cases hpb
          · exact h
        | some j =>
          have hj := hne hb hpb
          rw [hpa, hpb] at h
          rw [← repr_of_place hpa, ← repr_of_place hpb] at h ⊢
          dsimp only at h
          split_ifs at h <;> have hsame := hrepr h <;> first | (congr 1; omega) | omega
  | _ => exact h

/-- The paths of different values stay so. -/
theorem prefix_of_shifted (hq : ¬ p <+: q) (hr : ¬ p <+: r)
    (h : json.shifted p q <+: json.shifted p r) : q <+: r := by
  induction p generalizing json q r with
  | nil => exact absurd nil_prefix hq
  | cons n p ih =>
    cases q with
    | nil => exact nil_prefix
    | cons a q =>
      cases r with
      | nil => simp [shifted] at h; split_ifs at h
      | cons b r =>
        rw [shifted, shifted] at h
        split_ifs at h with hlast ha hb hb
        · subst hlast
          have hname : ∀ {m : String} {l}, ¬ [n] <+: m :: l → m ≠ n := by
            rintro m l hm rfl
            exact hm ⟨l, rfl⟩
          obtain ⟨hnames, hrest⟩ := cons_prefix_cons.1 h
          exact cons_prefix_cons.2 ⟨shiftedName_inj (hname hq) (hname hr) hnames, hrest⟩
        · obtain ⟨hab, hrest⟩ := cons_prefix_cons.1 h
          subst ha
          subst hb
          exact cons_prefix_cons.2 ⟨rfl, ih (by simpa using hq) (by simpa using hr) hrest⟩
        · exact absurd ((cons_prefix_cons.1 h).1.symm.trans ha) hb
        · exact absurd ((cons_prefix_cons.1 h).1.trans hb) ha
        · exact h

theorem getAt_setAt_prefix (hp : json.getAt p = some c) (h : json.setAt (p ++ r) v = some json') :
    ∃ c', c.setAt r v = some c' ∧ json'.getAt p = some c' := by
  induction p generalizing json json' with
  | nil =>
    cases hp
    exact ⟨json', h, rfl⟩
  | cons name p ih =>
    obtain ⟨d, hd, hc⟩ := bind_eq_some_iff.1 hp
    obtain ⟨d', hset, hput⟩ := bind_eq_some_iff.1 h
    rw [hd, getD_some] at hset
    obtain ⟨c', hc', hget⟩ := ih hc hset
    exact ⟨c', hc', by rw [getAt, child_putChild hput]; exact hget⟩

end Json
