import BeeApi.Model.Channel

/-!
# Abilities

`AddAbilities` and `UpdateAbilities` of `model/ability.go` write one row for every group and every
model that a channel names.  Two pairs are told apart by the text "group|model", so that a pair whose
text another pair had before gets no row.
-/

namespace BeeApi.Relay

open List Option Table

/-- The pairs in the order of the two loops. -/
def channelPairs (channel : Channel) : List (String × String) :=
  (Strings.split channel.models ',').flatMap fun model =>
    (Strings.split channel.group ',').map fun group => (group, model)

/-- The key of `abilitySet`. -/
def pairText (pair : String × String) : String := pair.1 ++ "|" ++ pair.2

/-- The pairs that are not in `abilitySet` when their turn comes. -/
def newPairs (abilitySet : List String) : List (String × String) → List (String × String)
  | [] => []
  | pair :: pairs =>
    if pairText pair ∈ abilitySet then newPairs abilitySet pairs
    else pair :: newPairs (pairText pair :: abilitySet) pairs

def abilityPairs (channel : Channel) : List (String × String) := newPairs [] (channelPairs channel)

/-- The row of every pair; a priority that is not set has the default of the column. -/
def abilityOf (channel : Channel) : Ability where
  enabled := channel.status = channelStatusEnabled
  priority := some (channel.priority.getD 0)
  weight := channel.weight.getD 0
  tag := channel.tag

/-- `Create` of one row with `OnConflict{DoNothing}`. -/
def createAbility (abilities : Table (String × String × ℤ) Ability) (key : String × String × ℤ)
    (ability : Ability) : Table (String × String × ℤ) Ability :=
  (abilities.insert? key ability).getD abilities

def addAbilities (abilities : Table (String × String × ℤ) Ability) (id : ℤ) (channel : Channel) :
    Table (String × String × ℤ) Ability :=
  (abilityPairs channel).foldl
    (fun abilities pair => createAbility abilities (pair.1, pair.2, id) (abilityOf channel)) abilities

def deleteAbilities (abilities : Table (String × String × ℤ) Ability) (id : ℤ) :
    Table (String × String × ℤ) Ability :=
  abilities.eraseWhere fun key _ => key.2.2 = id

def updateAbilities (abilities : Table (String × String × ℤ) Ability) (id : ℤ) (channel : Channel) :
    Table (String × String × ℤ) Ability :=
  addAbilities (deleteAbilities abilities id) id channel

/-- `UpdateAbilities` of the channels one after the other. -/
def rebuildAbilities (abilities : Table (String × String × ℤ) Ability) (rows : List Candidate) :
    Table (String × String × ℤ) Ability :=
  rows.foldl (fun abilities c => updateAbilities abilities c.1 c.2) abilities

def buildAbilities (channels : Table ℤ Channel) : Table (String × String × ℤ) Ability :=
  channels.rows.foldl (fun abilities c => updateAbilities abilities c.1 c.2) ∅

theorem newPairs_subset (abilitySet : List String) (pairs : List (String × String)) :
    newPairs abilitySet pairs ⊆ pairs := by
  induction pairs generalizing abilitySet with
  | nil => exact List.Subset.refl _
  | cons pair pairs ih =>
    rw [newPairs]
    split_ifs
    · exact subset_cons_of_subset pair (ih abilitySet)
    · exact cons_subset_cons pair (ih _)

theorem mem_newPairs {abilitySet : List String} {pairs : List (String × String)}
    {pair : String × String} (hpair : pair ∈ pairs) (hset : pairText pair ∉ abilitySet)
    (htext : ∀ pair' ∈ pairs, pairText pair' = pairText pair → pair' = pair) :
    pair ∈ newPairs abilitySet pairs := by
  induction pairs generalizing abilitySet with
  | nil => cases hpair
  | cons first pairs ih =>
    have htail : ∀ pair' ∈ pairs, pairText pair' = pairText pair → pair' = pair :=
      fun pair' hmem => htext pair' (mem_cons_of_mem first hmem)
    rw [newPairs]
    by_cases hfirst : first = pair
    · rw [hfirst, if_neg hset]
      exact mem_cons_self
    · have hmem : pair ∈ pairs := (mem_cons.1 hpair).resolve_left (Ne.symm hfirst)
      have hne : pairText first ≠ pairText pair := fun heq => hfirst (htext first mem_cons_self heq)
      split_ifs
      · exact ih hmem hset htail
      · refine mem_cons_of_mem first (ih hmem ?_ htail)
        exact fun hmem' => (mem_cons.1 hmem').elim (Ne.symm hne) hset

theorem mem_channelPairs {channel : Channel} {pair : String × String} :
    pair ∈ channelPairs channel ↔ pair.1 ∈ Strings.split channel.group ',' ∧
      pair.2 ∈ Strings.split channel.models ',' := by
  unfold channelPairs
  rw [mem_flatMap]
  constructor
  · rintro ⟨model, hmodel, hpair⟩
    obtain ⟨group, hgroup, rfl⟩ := mem_map.1 hpair
    exact ⟨hgroup, hmodel⟩
  · rintro ⟨hgroup, hmodel⟩
    exact ⟨pair.2, hmodel, mem_map.2 ⟨pair.1, hgroup, rfl⟩⟩

theorem mem_channelPairs_of_mem_abilityPairs {channel : Channel} {pair : String × String}
    (h : pair ∈ abilityPairs channel) : pair ∈ channelPairs channel :=
  newPairs_subset _ _ h

theorem get?_createAbility (abilities : Table (String × String × ℤ) Ability)
    (key key' : String × String × ℤ) (ability : Ability) :
    (createAbility abilities key ability).get? key' =
      if key' = key then some ((abilities.get? key).getD ability) else abilities.get? key' := by
  unfold createAbility
  cases hinsert : abilities.insert? key ability with
  | none =>
    have hmem := (mem_keys_iff _ _).1 ((insert?_eq_none_iff _ _ _).1 hinsert)
    obtain ⟨old, hold⟩ := hmem
    rw [getD_none, hold]
    split_ifs with hkey
    · rw [hkey, hold]
      rfl
    · rfl
  | some abilities' =>
    have hnone := ((insert?_eq_some_iff _ _ _ _).1 hinsert).1
    rw [getD_some, get?_of_insert? hinsert, hnone]
    rfl

theorem get?_addAbilities {abilities : Table (String × String × ℤ) Ability} {id : ℤ}
    (channel : Channel) (key : String × String × ℤ) :
    (addAbilities abilities id channel).get? key =
      if key.2.2 = id ∧ (key.1, key.2.1) ∈ abilityPairs channel then
        some ((abilities.get? key).getD (abilityOf channel))
      else abilities.get? key := by
  obtain ⟨group, model, id'⟩ := key
  unfold addAbilities
  induction abilityPairs channel generalizing abilities with
  | nil => simp
  | cons pair pairs ih =>
    rw [foldl_cons, ih, get?_createAbility]
    obtain ⟨group₁, model₁⟩ := pair
    by_cases hkey : (group, model, id') = (group₁, model₁, id)
    · obtain ⟨rfl, rfl, rfl⟩ := by simpa using hkey
      simp
    · have hpair : id' = id → (group, model) ≠ (group₁, model₁) := by
        rintro rfl heq
        exact hkey (by simpa using heq)
      rw [if_neg hkey]
      by_cases hid : id' = id
      · simp [hid, hpair hid]
      · simp [hid]

theorem get?_updateAbilities {abilities : Table (String × String × ℤ) Ability} {id : ℤ}
    (channel : Channel) (key : String × String × ℤ) :
    (updateAbilities abilities id channel).get? key = if key.2.2 = id then
        if (key.1, key.2.1) ∈ abilityPairs channel then some (abilityOf channel) else none
      else abilities.get? key := by
  unfold updateAbilities deleteAbilities
  rw [get?_addAbilities, get?_eraseWhere]
  by_cases hid : key.2.2 = id <;> cases abilities.get? key <;> simp [hid]

theorem get?_rebuildAbilities {rows : List Candidate} (hnodup : (rows.map Prod.fst).Nodup)
    (abilities : Table (String × String × ℤ) Ability) (key : String × String × ℤ) :
    (rebuildAbilities abilities rows).get? key = match rows.find? fun c => c.1 = key.2.2 with
      | some c => if (key.1, key.2.1) ∈ abilityPairs c.2 then some (abilityOf c.2) else none
      | none => abilities.get? key := by
  unfold rebuildAbilities
  induction rows generalizing abilities with
  | nil => rfl
  | cons c rows ih =>
    rw [map_cons, nodup_cons] at hnodup
    rw [foldl_cons, ih hnodup.2, find?_cons]
    by_cases hid : c.1 = key.2.2
    · have hnone : rows.find? (fun c => c.1 = key.2.2) = none := by
        rw [find?_eq_none]
        intro d hd heq
        exact hnodup.1 (mem_map.2 ⟨d, hd, (of_decide_eq_true heq).trans hid.symm⟩)
      rw [hnone]
      simp [hid, get?_updateAbilities]
    · simp only [hid, decide_false]
      cases rows.find? fun c => c.1 = key.2.2 with
      | some d => rfl
      | none =>
        rw [get?_updateAbilities, if_neg (Ne.symm hid)]

theorem find?_filter_rows (channels : Table ℤ Channel) (p : Candidate → Bool) (id : ℤ) :
    ((channels.rows.filter p).find? fun c => c.1 = id) =
      (channels.get? id).bind fun channel => if p (id, channel) then some (id, channel) else none := by
  have hmem : ∀ c, c ∈ channels.rows.filter p ∧ c.1 = id ↔
      channels.get? id = some c.2 ∧ c.1 = id ∧ p (id, c.2) = true := by
    rintro ⟨id', channel⟩
    rw [mem_filter, get?_eq_some_iff]
    constructor
    · rintro ⟨⟨hrow, hp⟩, rfl⟩
      exact ⟨hrow, rfl, hp⟩
    · rintro ⟨hrow, rfl, hp⟩
      exact ⟨⟨hrow, hp⟩, rfl⟩
  cases hfind : (channels.rows.filter p).find? fun c => c.1 = id with
  | some c =>
    obtain ⟨hget, hid, hp⟩ := (hmem c).1
      ⟨mem_of_find?_eq_some hfind, by simpa using find?_some hfind⟩
    rw [hget, bind_some, if_pos hp, ← hid]
  | none =>
    rw [find?_eq_none] at hfind
    cases hget : channels.get? id with
    | none => rfl
    | some channel =>
      rw [bind_some, if_neg]
      intro hp
      have := ((hmem (id, channel)).2 ⟨hget, rfl, hp⟩).1
      exact hfind (id, channel) this (by simp)

theorem get?_buildAbilities (channels : Table ℤ Channel) (key : String × String × ℤ) :
    (buildAbilities channels).get? key = (channels.get? key.2.2).bind fun channel =>
        if (key.1, key.2.1) ∈ abilityPairs channel then some (abilityOf channel) else none := by
  have hfind := find?_filter_rows channels (fun _ => true) key.2.2
  rw [filter_true] at hfind
  rw [show buildAbilities channels = rebuildAbilities ∅ channels.rows from rfl,
    get?_rebuildAbilities channels.nodup, hfind]
  cases channels.get? key.2.2 with
  | none => rfl
  | some channel => rfl

end BeeApi.Relay
