import BeeApi.Lib.JsonPath
import BeeApi.Lib.Run
import BeeApi.Relay.OverrideConditions

/-!
# The move of a parameter

The value is written at its new path and then removed from the old one.  That keeps every value of the
document as long as the removal does not reach what was written, and nothing but the way to the old
path stood at the new one.
-/

namespace BeeApi.Override

open Json

/-- What `sjson` writes; `Result.Value` reads a number as a float64, and its text is written anew. -/
structure Sjson where
  set : Json → String → Json → Except String Json
  delete : Json → String → Except String Json
  number : String → String → String × String

section

variable {F : Type} (gjson : Gjson F) (sjson : Sjson)

def moveValue (json : Json) (fromPath toPath : String) : Except String Json :=
  match gjson.get json fromPath with
  | none => .error s!"source path does not exist: {fromPath}"
  | some sourceValue => do
    let result ← sjson.set json toPath (sourceValue.mapNumbers sjson.number)
    sjson.delete result fromPath

/-- The mode `move` of `applyOperations`. -/
def moveOperation (json : Json) (opFrom opTo : String) : Except String Json :=
  moveValue gjson sjson json (processNegativeIndex gjson json opFrom)
    (processNegativeIndex gjson json opTo)

/-- The text of a path that is read and written as names. -/
structure Denotes (path : String) (names : List String) : Prop where
  get : ∀ json, gjson.get json path = json.getAt names
  set : ∀ json value, (sjson.set json path value).toOption = json.setAt names value
  delete : ∀ json, (sjson.delete json path).toOption = some (json.deleteAt names)

/-- The value at `container ++ [name]` is at `target` instead, unchanged, and every other value where
the removal leaves it, apart from that one; a container on the way to either has kept its members. -/
structure Moved (json : Json) (container : List String) (name : String) (target : List String)
    (result : Json) : Prop where
  found : ∃ v, json.getAt (container ++ [name]) = some v ∧
    result.getAt (json.shifted (container ++ [name]) target) = some v
  /-- what held the value has one member less than after the value was written, or is gone -/
  gone : (∃ v written c c', json.getAt (container ++ [name]) = some v ∧
    json.setAt target v = some written ∧ written.getAt container = some c ∧
      result.getAt container = some c' ∧ c'.memberCount + 1 = c.memberCount) ∨
    target <+: container ++ [name] ∧ result.getAt (container ++ [name]) = none
  kept : ∀ path v, json.getAt path = some v → ¬ container ++ [name] <+: path →
    (path <+: container ++ [name] ∨ path <+: target ∧ path ≠ target → v.isScalar = true) →
      result.getAt (json.shifted (container ++ [name]) path) = some v ∧
        ¬ json.shifted (container ++ [name]) target <+: json.shifted (container ++ [name]) path

/-- The numbers of the value survive, the new path does not lead through the old one, and there is
nothing at it but what leads to the value, and no scalar on the way to it.  Where it does lead to the
value, that has nothing under the names that lead there. -/
structure Movable (number : String → String → String × String) (json : Json)
    (source target : List String) : Prop where
  exact : ∀ v, json.getAt source = some v → v.mapNumbers number = v
  outside : ¬ source <+: target
  free : ∀ path v, json.getAt path = some v → ¬ source <+: path → ¬ path <+: source →
    ¬ target <+: path
  passable : ∀ path v, json.getAt path = some v → path <+: target → path ≠ target →
    v.isScalar = false
  nested : ∀ rest v, source = target ++ rest → json.getAt source = some v → v.getAt rest = none

variable {gjson sjson} {json written result v : Json} {number : String → String → String × String}
  {opFrom opTo name : String} {container target : List String}

theorem not_prefix_of_outside (hv : json.getAt (container ++ [name]) = some v)
    (hdistinct : ∀ c, json.getAt container = some c → c.Distinct)
    (hset : json.setAt target (v.mapNumbers number) = some written)
    (h : Moved json container name target (written.deleteAt (container ++ [name]))) :
    ¬ container ++ [name] <+: target := by
  rintro ⟨rest, rfl⟩
  obtain ⟨w, hw, hfound⟩ := h.found
  obtain rfl := Option.some.inj (hv.symm.trans hw)
  rw [List.append_assoc, List.singleton_append] at hset hfound
  rw [shifted_self, getAt_append, getAt_deleteAt_below (by simp)] at hfound
  rw [getAt_append] at hv
  obtain ⟨c, hc, hchild⟩ := Option.bind_eq_some_iff.1 hv
  obtain ⟨c', hput, hc'⟩ := getAt_setAt_prefix hc hset
  obtain ⟨x, -, hput⟩ := Option.bind_eq_some_iff.1 hput
  rw [hc', Option.map_some, Option.bind_some] at hfound
  obtain ⟨d, hd, -⟩ := Option.bind_eq_some_iff.1 hchild
  have hsome : (c.child name).isSome := by
    rw [hd]
    rfl
  change (c'.dropChild name).getAt (name :: rest) = some v at hfound
  obtain hnone | ⟨items, i, rfl, rfl, hnext⟩ :=
    child_dropChild_putChild hsome (hdistinct c hc) hput
  · rw [getAt, hnone] at hfound
    cases hfound
  · -- what is found at the place is the next item
    have hnext : json.getAt (container ++ (i + 1).repr :: rest) = some v := by
      rw [getAt_append, hc, Option.bind_some, getAt, ← hnext]
      exact hfound
    have hne : (i : ℕ).repr ≠ (i + 1).repr := by
      intro heq
      have hplace := congrArg place heq
      rw [place_repr, place_repr] at hplace
      exact i.succ_ne_self (Option.some.inj hplace).symm
    have hapart : ∀ l l', ¬ container ++ i.repr :: l <+: container ++ (i + 1).repr :: l' ∧
        ¬ container ++ (i + 1).repr :: l' <+: container ++ i.repr :: l := by
      intro l l'
      simp [List.prefix_append_right_inj, hne, hne.symm]
    refine (h.kept _ v hnext (hapart _ _).1 ?_).2 ?_
    · rintro (hpre | ⟨hpre, -⟩)
      · exact absurd hpre (hapart _ _).2
      · rw [List.append_assoc] at hpre
        exact absurd hpre (hapart _ _).2
    · rw [List.append_assoc, List.singleton_append, shifted_self, shifted_next hc]

theorem movable_of_moved (hv : json.getAt (container ++ [name]) = some v)
    (hdistinct : ∀ c, json.getAt container = some c → c.Distinct)
    (hset : json.setAt target (v.mapNumbers number) = some written)
    (h : Moved json container name target (written.deleteAt (container ++ [name]))) :
    Movable number json (container ++ [name]) target := by
  have houtside := not_prefix_of_outside hv hdistinct hset h
  obtain ⟨w, hw, hfound⟩ := h.found
  obtain rfl := Option.some.inj (hv.symm.trans hw)
  have hwhole : v.mapNumbers number = v ∧
      ∀ rest, container ++ [name] = target ++ rest → v.getAt rest = none := by
    by_cases hpre : target <+: container ++ [name]
    · obtain ⟨rest, hrest⟩ := hpre
      have hne : rest ≠ [] := by
        rintro rfl
        exact houtside ⟨[], by rw [← hrest, List.append_nil, List.append_nil]⟩
      rw [← hrest, shifted_of_not_prefix (.inr rfl) hne, getAt_deleteAt_below hne,
        getAt_setAt hset, Option.map_some, Option.some_inj] at hfound
      -- a removal inside of the value would leave it with a member less
      have hnone : (v.mapNumbers number).getAt rest = none := by
        rw [Option.eq_none_iff_forall_not_mem]
        intro x hx
        obtain ⟨q, n, rfl⟩ := List.eq_nil_or_concat' rest |>.resolve_left hne
        obtain ⟨c, c', hc, hc', hcount⟩ := memberCount_deleteAt hx
        rw [hfound] at hc'
        rw [getAt_mapNumbers, hc', Option.map_some, Option.some_inj] at hc
        rw [← hc, memberCount_mapNumbers] at hcount
        omega
      rw [deleteAt_of_none hnone] at hfound
      refine ⟨hfound, fun rest' hrest' => ?_⟩
      obtain rfl := List.append_cancel_left (hrest'.symm.trans hrest.symm)
      rwa [hfound] at hnone
    · have hsource := getAt_setAt_of_apart ⟨hpre, houtside⟩ hv hset
      have hmoved := getAt_deleteAt hsource ⟨houtside, hpre⟩ (getAt_setAt hset)
      rw [shifted_setAt hv hpre hset, hfound, Option.some_inj] at hmoved
      exact ⟨hmoved.symm, fun rest hrest => absurd ⟨rest, hrest.symm⟩ hpre⟩
  refine ⟨fun w hw => ?_, houtside, fun path w hw hbelow habove htarget => ?_,
    fun path w hw hpath hne => ?_, fun rest w hrest hw => ?_⟩
  · rw [hv] at hw
    exact Option.some.inj hw ▸ hwhole.1
  · obtain ⟨s, rfl⟩ := htarget
    refine (h.kept _ w hw hbelow ?_).2 ?_
    · rintro (hpre | ⟨hpre, hne⟩)
      · exact absurd hpre habove
      · exact absurd (hpre.eq_of_length_le (by simp)) hne
    · obtain ⟨s', -, hshifted⟩ := shifted_append json (container ++ [name]) target s
      exact ⟨s', hshifted.symm⟩
  · by_contra hscalar
    rw [Bool.not_eq_false] at hscalar
    obtain ⟨s, rfl⟩ := hpath
    obtain ⟨s', hlength, hshifted⟩ := shifted_append json (container ++ [name]) path s
    have hs' : s' ≠ [] := by
      rintro rfl
      rw [List.length_nil] at hlength
      exact hne (by rw [List.length_eq_zero_iff.1 hlength.symm, List.append_nil])
    have hkept := (h.kept path w hw (fun hpre => houtside (hpre.trans ⟨s, rfl⟩))
      fun _ => hscalar).1
    rw [hshifted, getAt_append, hkept, Option.bind_some, getAt_of_isScalar hscalar hs'] at hfound
    cases hfound
  · rw [hv] at hw
    exact Option.some.inj hw ▸ hwhole.2 rest hrest

theorem moved_of_movable (hv : json.getAt (container ++ [name]) = some v)
    (hset : json.setAt target (v.mapNumbers number) = some written)
    (h : Movable number json (container ++ [name]) target) :
    Moved json container name target (written.deleteAt (container ++ [name])) := by
  rw [h.exact v hv] at hset
  -- a value above the source is a container
  have habove : ∀ path w, json.getAt path = some w → ¬ container ++ [name] <+: path →
      (path <+: container ++ [name] ∨ path <+: target ∧ path ≠ target → w.isScalar = true) →
        ¬ path <+: container ++ [name] := by
    rintro path w hw hbelow hscalar hpre
    have hwscalar := hscalar (.inl hpre)
    obtain ⟨s, hs⟩ := hpre
    have hne : s ≠ [] := by
      rintro rfl
      exact hbelow ⟨[], by rw [← hs, List.append_nil, List.append_nil]⟩
    rw [← hs, getAt_append, hw, Option.bind_some, getAt_of_isScalar hwscalar hne] at hv
    cases hv
  by_cases hpre : target <+: container ++ [name]
  · obtain ⟨rest, hrest⟩ := id hpre
    have hne : rest ≠ [] := by
      rintro rfl
      exact h.outside ⟨[], by rw [← hrest, List.append_nil, List.append_nil]⟩
    have hnone : written.getAt (container ++ [name]) = none := by
      rw [← hrest, getAt_append, getAt_setAt hset]
      exact h.nested rest v hrest.symm hv
    rw [deleteAt_of_none hnone]
    refine ⟨⟨v, hv, ?_⟩, .inr ⟨hpre, hnone⟩, fun path w hw hbelow hscalar => ?_⟩
    · rw [← hrest, shifted_of_not_prefix (.inr rfl) hne]
      exact getAt_setAt hset
    · have hsource := habove path w hw hbelow hscalar
      have htarget := h.free path w hw hbelow hsource
      rw [← hrest, shifted_of_not_prefix (.inl htarget) hne, shifted_of_not_prefix (.inr rfl) hne]
      exact ⟨getAt_setAt_of_apart ⟨htarget, fun hpath => hsource (hpath.trans hpre)⟩ hw hset,
        htarget⟩
  · have hsource := getAt_setAt_of_apart ⟨hpre, h.outside⟩ hv hset
    have hsame (path) := shifted_setAt (r := path) hv hpre hset
    refine ⟨⟨v, hv, ?_⟩, .inl ?_, fun path w hw hbelow hscalar => ?_⟩
    · rw [← hsame]
      exact getAt_deleteAt hsource ⟨h.outside, hpre⟩ (getAt_setAt hset)
    · obtain ⟨c, c', hc, hc', hcount⟩ := memberCount_deleteAt hsource
      exact ⟨v, written, c, c', hv, hset, hc, hc', hcount⟩
    · have hapart := habove path w hw hbelow hscalar
      have htarget := h.free path w hw hbelow hapart
      have hpath : ¬ path <+: target := by
        intro hpath
        by_cases heq : path = target
        · exact htarget (heq ▸ List.prefix_refl _)
        · have := h.passable path w hw hpath heq
          rw [hscalar (.inr ⟨hpath, heq⟩)] at this
          cases this
      refine ⟨?_, fun hshifted => htarget (prefix_of_shifted h.outside hbelow hshifted)⟩
      rw [← hsame]
      exact getAt_deleteAt hsource ⟨hbelow, hapart⟩ (getAt_setAt_of_apart ⟨htarget, hpath⟩ hw hset)

end

def names (path : String) : List String := (path.toList.splitOn '.').map String.ofList

def namesGjson : Gjson ℤ where
  get := fun json path => json.getAt (names path)
  num := fun text => text.toInt?.getD 0

def namesSjson : Sjson where
  set := fun json path value =>
    match json.setAt (names path) value with
    | some result => .ok result
    | none => .error "cannot set array element for non-numeric key"
  delete := fun json path => .ok (json.deleteAt (names path))
  number := Prod.mk

theorem denotes_names (path : String) : Denotes namesGjson namesSjson path (names path) where
  get _ := rfl
  set json value := by
    simp only [namesSjson]
    cases json.setAt (names path) value <;> rfl
  delete _ := rfl

def sampleItems : Json := .obj [("a", .arr [.str "x", .str "y", .str "z"])]

theorem movable_firstItem : Movable Prod.mk sampleItems ["a", "0"] ["a", "3"] where
  exact v hv := by
    cases hv
    rfl
  outside := by decide
  free path v hv _ _ := by
    rintro ⟨s, rfl⟩
    cases hv
  passable path v hv hpath hne := by
    have hmem : path ∈ List.inits ["a", "3"] := (List.mem_inits _ _).2 hpath
    simp only [List.inits, List.mem_cons, List.map_cons, List.map_nil, List.not_mem_nil, or_false]
      at hmem
    rcases hmem with rfl | rfl | rfl
    · cases hv
      rfl
    · cases hv
      rfl
    · exact absurd rfl hne
  nested rest v hrest _ := by simp at hrest

end BeeApi.Override
