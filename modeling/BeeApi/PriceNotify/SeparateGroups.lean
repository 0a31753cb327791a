import BeeApi.PriceNotify.PriceItems

/-!
# A view tells nothing of other groups

What a viewer gets is a function of the changes that concern it and of the ratios of the groups it sees.
The name of an item between two groups is `user group->target`, and the filter takes it apart at the first
`->`: a group whose own name has one can pass for another group.
-/

namespace BeeApi.PriceNotify

open List Option String

/-! ## Published changes -/

structure ValueChange (F : Type) where
  oldValue : F
  newValue : F
  direction : PriceDirection

/-- What `ComputePriceDiff` finds; the groups of a model are those it had when the batch was published. -/
inductive PriceChange (F : Type)
  | groupRatio (group : String) (value : ValueChange F)
  | groupGroupRatio (userGroup target : String) (value : ValueChange F)
  | model (type : ModelPriceType) (modelName : String) (groups : List String)
      (value : ValueChange F)

/-- The item of `diffGroupRatio`, `diffGroupGroupRatio` or `diffModelLevelKey`. -/
def PriceChange.item {F : Type} : PriceChange F → PriceDiffItem F
  | .groupRatio group value =>
    { scope := .group, groupName := group, priceType := .groupRatio, oldValue := value.oldValue
      newValue := value.newValue, direction := value.direction, affectedGroups := [group] }
  | .groupGroupRatio userGroup target value =>
    { scope := .group, groupName := userGroup ++ "->" ++ target, priceType := .groupGroupRatio
      oldValue := value.oldValue, newValue := value.newValue, direction := value.direction
      affectedGroups := [userGroup] }
  | .model type modelName groups value =>
    { scope := .model, modelName := modelName, priceType := .model type, oldValue := value.oldValue
      newValue := value.newValue, direction := value.direction, affectedGroups := groups }

/-- The change is one of a visible group, one of the viewer's own group towards a visible one, or one of
a model that is enabled for a visible group. -/
def PriceChange.concerns {F : Type} (viewerGroup : String) (visibleSet : Finset String)
    (modelGroups : String → Option (List String)) : PriceChange F → Bool
  | .groupRatio group _ => group ∈ visibleSet
  | .groupGroupRatio userGroup target _ =>
    viewerGroup ≠ "" && userGroup = viewerGroup && target ∈ visibleSet
  | .model _ modelName _ _ => (modelGroups modelName).any (visibleGroups · visibleSet ≠ [])

def PriceDiffItem.Names {F : Type} (item : PriceDiffItem F) (g : String) : Prop :=
  g ∈ item.affectedGroups ∨ item.display.get? g ≠ none ∨ item.scope = .group ∧
    match item.groupGroupRatioParts with
    | some (ug, target) => g = ug ∨ g = target
    | none => g = item.groupName

def PriceChangeBatchView.Names {F : Type} (view : PriceChangeBatchView F) (g : String) : Prop :=
  g ∈ view.affectedGroups ∨ ∃ item ∈ view.items, item.Names g

structure Ratios.SameFor {F : Type} (viewerGroup : String) (visibleSet : Finset String)
    (r r' : Ratios F) : Prop where
  groupRatio : ∀ g ∈ visibleSet, r.groupRatio g = r'.groupRatio g
  groupGroupRatio : ∀ g ∈ visibleSet,
    r.groupGroupRatio viewerGroup g = r'.groupGroupRatio viewerGroup g
  modelRatio : r.modelRatio = r'.modelRatio
  usdPerMillionFactor : r.usdPerMillionFactor = r'.usdPerMillionFactor
  roundPriceUsd : r.roundPriceUsd = r'.roundPriceUsd

/-- Whatever is published, the filtered items and the view of the batch depend on nothing but what
concerns the viewer, and name no other group. -/
def Separate (F : Type) [Mul F] (viewerGroup : String) (visibleSet : Finset String)
    (modelGroups : String → Option (List String)) : Prop :=
  ∀ (changes changes' : List (PriceChange F)) (r r' : Ratios F) (batch : PricePublishBatch F),
    changes.filter (·.concerns viewerGroup visibleSet modelGroups) =
      changes'.filter (·.concerns viewerGroup visibleSet modelGroups) →
    r.SameFor viewerGroup visibleSet r' →
    filterPriceItemsForViewer r viewerGroup visibleSet modelGroups (changes.map (·.item)) =
      filterPriceItemsForViewer r' viewerGroup visibleSet modelGroups (changes'.map (·.item)) ∧
    batchView r viewerGroup visibleSet modelGroups { batch with items := changes.map (·.item) } =
      batchView r' viewerGroup visibleSet modelGroups { batch with items := changes'.map (·.item) } ∧
    ∀ view, batchView r viewerGroup visibleSet modelGroups
        { batch with items := changes.map (·.item) } = some view →
      ∀ g, view.Names g → g ∈ visibleSet ∨ viewerGroup ≠ "" ∧ g = viewerGroup

/-! ## Names with a separator -/

def HasArrow (name : String) : Prop := (splitArrow name.toList).isSome

instance (name : String) : Decidable (HasArrow name) := inferInstanceAs (Decidable (_ = true))

theorem splitArrow_cons_eq_none_iff {c : Char} {l : List Char} : splitArrow (c :: l) = none ↔
    ¬ (c = '-' ∧ l.head? = some '>') ∧ splitArrow l = none := by
  conv_lhs => rw [splitArrow]
  split_ifs with h
  · exact ⟨nofun, fun hne => absurd h hne.1⟩
  · exact map_eq_none_iff.trans ⟨fun hnone => ⟨h, hnone⟩, And.right⟩

theorem splitArrow_append {a : List Char} (ha : splitArrow a = none) (b : List Char) :
    splitArrow (a ++ '-' :: '>' :: b) = some (a, b) := by
  induction a with
  | nil => rfl
  | cons c a ih =>
    obtain ⟨hc, ha⟩ := splitArrow_cons_eq_none_iff.1 ha
    have hhead : ¬ (c = '-' ∧ (a ++ '-' :: '>' :: b).head? = some '>') := by
      cases a with
      | nil => exact fun h => absurd h.2 (by simp)
      | cons d a => exact hc
    rw [cons_append, splitArrow, if_neg hhead, ih ha]
    rfl

theorem of_splitArrow {l a b : List Char} (h : splitArrow l = some (a, b)) :
    l = a ++ '-' :: '>' :: b ∧ splitArrow a = none := by
  induction l generalizing a with
  | nil => cases h
  | cons c l ih =>
    unfold splitArrow at h
    split_ifs at h with hc
    · cases h
      obtain ⟨rfl, hhead⟩ := hc
      obtain ⟨l', rfl⟩ := head?_eq_some_iff.1 hhead
      exact ⟨rfl, rfl⟩
    · obtain ⟨⟨a', b'⟩, hsplit, heq⟩ := map_eq_some_iff.1 h
      cases heq
      obtain ⟨rfl, hnone⟩ := ih hsplit
      refine ⟨rfl, splitArrow_cons_eq_none_iff.2 ⟨fun h => hc ⟨h.1, ?_⟩, hnone⟩⟩
      cases a' with
      | nil => exact absurd h.2 (by simp)
      | cons d a' => exact h.2

theorem splitArrow_append_ne_none (a b : List Char) : splitArrow (a ++ '-' :: '>' :: b) ≠ none := by
  induction a with
  | nil => exact nofun
  | cons c a ih => exact fun h => ih (splitArrow_cons_eq_none_iff.1 h).2

/-- Behind the first separator of a name there is no other one: the parts are those it was made of. -/
theorem eq_of_splitArrow_append {a b u v : List Char}
    (h : splitArrow (a ++ '-' :: '>' :: b) = some (u, v)) (hv : splitArrow v = none) :
    a = u ∧ b = v := by
  cases ha : splitArrow a with
  | none =>
    rw [splitArrow_append ha] at h
    cases h
    exact ⟨rfl, rfl⟩
  | some parts =>
    obtain ⟨rfl, hnone⟩ := of_splitArrow ha
    rw [List.append_assoc, List.cons_append, List.cons_append, splitArrow_append hnone] at h
    cases h
    exact absurd hv (splitArrow_append_ne_none _ _)

/-- No group passes for the viewer's: the viewer is anonymous, or its items are never taken apart into
its name, or no target that it sees has a separator. -/
def OwnIsKnown (viewerGroup : String) (visibleSet : Finset String) : Prop :=
  viewerGroup = "" ∨ HasArrow viewerGroup ∨ ∀ g ∈ visibleSet, ¬ HasArrow g

section Items

variable {F : Type} {viewerGroup userGroup target g : String} {visibleSet : Finset String}
  {modelGroups : String → Option (List String)} {value : ValueChange F}

theorem groupGroupRatioParts_eq_some_iff {ug rest : String} :
    (PriceChange.groupGroupRatio userGroup target value).item.groupGroupRatioParts =
      some (ug, rest) ↔
    splitArrow (userGroup.toList ++ '-' :: '>' :: target.toList) = some (ug.toList, rest.toList) := by
  have hparts : (PriceChange.groupGroupRatio userGroup target value).item.groupGroupRatioParts =
      (splitArrow (userGroup ++ "->" ++ target).toList).map fun parts =>
        (String.ofList parts.1, String.ofList parts.2) := rfl
  have hlist : (userGroup ++ "->" ++ target).toList =
      userGroup.toList ++ '-' :: '>' :: target.toList := by
    rw [String.toList_append, String.toList_append, List.append_assoc]
    rfl
  rw [hparts, hlist, map_eq_some_iff]
  constructor
  · rintro ⟨⟨a, b⟩, hsplit, heq⟩
    cases heq
    rw [hsplit, toList_ofList, toList_ofList]
  · intro hsplit
    exact ⟨_, hsplit, by rw [ofList_toList, ofList_toList]⟩

theorem own_of_parts (h : OwnIsKnown viewerGroup visibleSet) (hviewer : viewerGroup ≠ "")
    {rest : String} (hparts :
      (PriceChange.groupGroupRatio userGroup target value).item.groupGroupRatioParts =
        some (viewerGroup, rest)) (hrest : rest ∈ visibleSet) :
    userGroup = viewerGroup ∧ target = rest := by
  have hsplit := groupGroupRatioParts_eq_some_iff.1 hparts
  have hnone : splitArrow rest.toList = none := by
    rcases h with h | h | h
    · exact absurd h hviewer
    · unfold HasArrow at h
      rw [(of_splitArrow hsplit).2] at h
      cases h
    · exact not_isSome_iff_eq_none.1 (h rest hrest)
  obtain ⟨hug, htarget⟩ := eq_of_splitArrow_append hsplit hnone
  exact ⟨toList_injective hug, toList_injective htarget⟩

theorem mem_of_mem_visibleGroups {currentGroups : List String}
    (h : g ∈ visibleGroups currentGroups visibleSet) : g ∈ visibleSet := by
  unfold visibleGroups at h
  split_ifs at h
  · exact (Finset.mem_sort _).1 h
  · exact of_decide_eq_true (mem_filter.1 h).2

variable {r r' : Ratios F}

theorem viewerGroupRatioFunc_sameFor (h : r.SameFor viewerGroup visibleSet r')
    (hg : g ∈ visibleSet) :
    viewerGroupRatioFunc r viewerGroup g = viewerGroupRatioFunc r' viewerGroup g := by
  unfold viewerGroupRatioFunc
  rw [h.groupRatio g hg, h.groupGroupRatio g hg]

variable [Mul F]

section
variable (h : r.SameFor viewerGroup visibleSet r') (item : PriceDiffItem F)
include h item

theorem displayEntry_sameFor (type : ModelPriceType) (groupRatio : F) :
    displayEntry r item type groupRatio = displayEntry r' item type groupRatio := by
  unfold displayEntry
  rw [h.modelRatio, h.usdPerMillionFactor, h.roundPriceUsd]

theorem buildPriceItemDisplay_sameFor {groups : List String} (hgroups : ∀ g ∈ groups, g ∈ visibleSet) :
    buildPriceItemDisplay r item groups (viewerGroupRatioFunc r viewerGroup) =
      buildPriceItemDisplay r' item groups (viewerGroupRatioFunc r' viewerGroup) := by
  unfold buildPriceItemDisplay
  split
  · refine foldl_ext _ _ _ fun display g hg => ?_
    rw [viewerGroupRatioFunc_sameFor h (hgroups g hg), displayEntry_sameFor h]
  · rfl

theorem filterPriceItem_sameFor : filterPriceItem r viewerGroup visibleSet modelGroups item =
      filterPriceItem r' viewerGroup visibleSet modelGroups item := by
  unfold filterPriceItem
  cases modelGroups item.modelName with
  | none => rfl
  | some currentGroups =>
    dsimp only
    rw [buildPriceItemDisplay_sameFor h item fun g hg => mem_of_mem_visibleGroups hg]

end

variable (r viewerGroup visibleSet modelGroups value) in
theorem filterPriceItem_groupRatio (group : String) :
    filterPriceItem r viewerGroup visibleSet modelGroups (PriceChange.groupRatio group value).item =
      if group ∈ visibleSet then some (PriceChange.groupRatio group value).item else none := rfl

variable (r viewerGroup visibleSet modelGroups userGroup target value) in
theorem filterPriceItem_groupGroupRatio :
    filterPriceItem r viewerGroup visibleSet modelGroups
      (PriceChange.groupGroupRatio userGroup target value).item =
      match (PriceChange.groupGroupRatio userGroup target value).item.groupGroupRatioParts with
      | none => none
      | some (ug, rest) =>
        if viewerGroup = "" ∨ ug ≠ viewerGroup ∨ rest ∉ visibleSet then none
        else some (PriceChange.groupGroupRatio userGroup target value).item := rfl

variable (r viewerGroup visibleSet modelGroups value) in
theorem filterPriceItem_model (type : ModelPriceType) (modelName : String) (groups : List String) :
    filterPriceItem r viewerGroup visibleSet modelGroups
      (PriceChange.model type modelName groups value).item =
      match modelGroups modelName with
      | none => none
      | some currentGroups =>
        if visibleGroups currentGroups visibleSet = [] then none
        else some { (PriceChange.model type modelName groups value).item with
          affectedGroups := visibleGroups currentGroups visibleSet
          display := buildPriceItemDisplay r (PriceChange.model type modelName groups value).item
            (visibleGroups currentGroups visibleSet) (viewerGroupRatioFunc r viewerGroup) } := rfl

theorem filterPriceItem_of_not_concerns (h : OwnIsKnown viewerGroup visibleSet)
    {change : PriceChange F} (hc : change.concerns viewerGroup visibleSet modelGroups = false) :
    filterPriceItem r viewerGroup visibleSet modelGroups change.item = none := by
  cases change with
  | groupRatio group value =>
    rw [filterPriceItem_groupRatio]
    exact if_neg (of_decide_eq_false hc)
  | groupGroupRatio userGroup target value =>
    rw [filterPriceItem_groupGroupRatio]
    split
    · rfl
    · rename_i ug rest hparts
      refine if_pos ?_
      by_contra hshown
      rw [not_or, not_or, not_not, not_not] at hshown
      obtain ⟨hviewer, rfl, hrest⟩ := hshown
      obtain ⟨rfl, rfl⟩ := own_of_parts h hviewer hparts hrest
      simp [PriceChange.concerns, hviewer, hrest] at hc
  | model type modelName groups value =>
    rw [filterPriceItem_model]
    have hc : (modelGroups modelName).any (visibleGroups · visibleSet ≠ []) = false := hc
    cases hgroups : modelGroups modelName with
    | none => rfl
    | some currentGroups =>
      rw [hgroups] at hc
      exact if_pos (not_not.1 (of_decide_eq_false hc))

theorem filterPriceItemsForViewer_eq (h : OwnIsKnown viewerGroup visibleSet)
    (changes : List (PriceChange F)) :
    filterPriceItemsForViewer r viewerGroup visibleSet modelGroups (changes.map (·.item)) =
      filterPriceItemsForViewer r viewerGroup visibleSet modelGroups
        ((changes.filter (·.concerns viewerGroup visibleSet modelGroups)).map (·.item)) := by
  unfold filterPriceItemsForViewer
  rw [filterMap_map, filterMap_map, filterMap_filter]
  refine filterMap_congr fun change _ => ?_
  split_ifs with hc
  · rfl
  · exact filterPriceItem_of_not_concerns h (Bool.eq_false_of_not_eq_true hc)

theorem names_of_filterPriceItem (h : OwnIsKnown viewerGroup visibleSet) {change : PriceChange F}
    {out : PriceDiffItem F}
    (hout : filterPriceItem r viewerGroup visibleSet modelGroups change.item = some out)
    (hg : out.Names g) : g ∈ visibleSet ∨ viewerGroup ≠ "" ∧ g = viewerGroup := by
  cases change with
  | groupRatio group value =>
    rw [filterPriceItem_groupRatio] at hout
    split_ifs at hout with hgroup
    cases hout
    rcases hg with hg | hg | ⟨-, rfl⟩
    · exact .inl (mem_singleton.1 hg ▸ hgroup)
    · exact absurd rfl hg
    · exact .inl hgroup
  | groupGroupRatio userGroup target value =>
    rw [filterPriceItem_groupGroupRatio] at hout
    split at hout
    · cases hout
    · rename_i ug rest hparts
      split_ifs at hout with hshown
      cases hout
      rw [not_or, not_or, not_not, not_not] at hshown
      obtain ⟨hviewer, rfl, hrest⟩ := hshown
      rcases hg with hg | hg | ⟨-, hg⟩
      · exact .inr ⟨hviewer, (mem_singleton.1 hg).trans (own_of_parts h hviewer hparts hrest).1⟩
      · exact absurd rfl hg
      · rw [hparts] at hg
        rcases (hg : g = ug ∨ g = rest) with rfl | rfl
        · exact .inr ⟨hviewer, rfl⟩
        · exact .inl hrest
  | model type modelName groups value =>
    rw [filterPriceItem_model] at hout
    split at hout
    · cases hout
    · rename_i currentGroups _
      split_ifs at hout
      cases hout
      rcases hg with hg | hg | ⟨hscope, -⟩
      · exact .inl (mem_of_mem_visibleGroups hg)
      · by_contra hnot
        refine hg (Table.get?_foldl_put_of_notMem id _ _ _ _ fun hin => hnot (.inl ?_))
        exact mem_of_mem_visibleGroups (map_id _ ▸ hin)
      · cases hscope

end Items

/-! ## The view -/

section View

variable {F : Type} [Mul F] {r r' : Ratios F} {viewerGroup : String} {visibleSet : Finset String}
  {modelGroups : String → Option (List String)}

theorem batchView_congr {batch batch' : PricePublishBatch F} (hid : batch.id = batch'.id)
    (hcreated : batch.createdAt = batch'.createdAt) (hnote : batch.note = batch'.note)
    (h : filterPriceItemsForViewer r viewerGroup visibleSet modelGroups batch.items =
      filterPriceItemsForViewer r' viewerGroup visibleSet modelGroups batch'.items) :
    batchView r viewerGroup visibleSet modelGroups batch =
      batchView r' viewerGroup visibleSet modelGroups batch' := by
  unfold batchView
  rw [h, hid, hcreated, hnote]

theorem names_of_batchView {batch : PricePublishBatch F} {view : PriceChangeBatchView F} {g : String}
    (hview : batchView r viewerGroup visibleSet modelGroups batch = some view) (hg : view.Names g) :
    ∃ item ∈ filterPriceItemsForViewer r viewerGroup visibleSet modelGroups batch.items,
      item.Names g := by
  unfold batchView at hview
  dsimp only at hview
  split_ifs at hview
  cases hview
  rcases hg with hg | hg
  · obtain ⟨item, hitem, hin⟩ := mem_flatMap.1
      (mem_toFinset.1 ((Finset.mem_sort _).1 hg))
    exact ⟨item, hitem, .inl hin⟩
  · exact hg

theorem separate_of_ownIsKnown (h : OwnIsKnown viewerGroup visibleSet) :
    Separate F viewerGroup visibleSet modelGroups := by
  intro changes changes' r r' batch hagree hsame
  have hitems : filterPriceItemsForViewer r viewerGroup visibleSet modelGroups
      (changes.map (·.item)) =
      filterPriceItemsForViewer r' viewerGroup visibleSet modelGroups (changes'.map (·.item)) := by
    rw [filterPriceItemsForViewer_eq h changes, hagree, ← filterPriceItemsForViewer_eq h changes']
    exact filterMap_congr fun item _ => filterPriceItem_sameFor hsame item
  refine ⟨hitems, batchView_congr rfl rfl rfl hitems, fun view hview g hg => ?_⟩
  obtain ⟨out, hin, hout⟩ := names_of_batchView hview hg
  obtain ⟨item, hitem, hfilter⟩ := mem_filterMap.1 hin
  obtain ⟨change, -, rfl⟩ := mem_map.1 hitem
  exact names_of_filterPriceItem h hfilter hout

theorem ownIsKnown_of_separate [Inhabited F] (h : Separate F viewerGroup visibleSet modelGroups) :
    OwnIsKnown viewerGroup visibleSet := by
  by_contra hnot
  unfold OwnIsKnown at hnot
  push Not at hnot
  obtain ⟨hviewer, harrow, g, hg, hgarrow⟩ := hnot
  obtain ⟨⟨x, y⟩, hsplit⟩ := Option.isSome_iff_exists.1 hgarrow
  obtain ⟨hlist, -⟩ := of_splitArrow hsplit
  let value : ValueChange F := ⟨default, default, .up⟩
  let r : Ratios F := ⟨fun _ => default, fun _ _ => none, fun _ => default, default, id⟩
  let change : PriceChange F :=
    .groupGroupRatio (viewerGroup ++ "->" ++ String.ofList x) (String.ofList y) value
  have hparts : change.item.groupGroupRatioParts = some (viewerGroup, g) := by
    refine groupGroupRatioParts_eq_some_iff.2 ?_
    simp only [String.toList_append, String.toList_ofList, hlist, List.append_assoc]
    exact splitArrow_append (Option.not_isSome_iff_eq_none.1 harrow) _
  have hother : change.concerns viewerGroup visibleSet modelGroups = false := by
    have hne : viewerGroup ++ "->" ++ String.ofList x ≠ viewerGroup := by
      intro heq
      have hlength := congrArg (fun s : String => s.toList.length) heq
      simp only [String.toList_append, List.length_append] at hlength
      have : ("->" : String).toList.length = 2 := rfl
      omega
    simp [change, PriceChange.concerns, hne]
  have hshown : filterPriceItem r viewerGroup visibleSet modelGroups change.item =
      some change.item := by
    rw [filterPriceItem_groupGroupRatio]
    rw [hparts]
    exact if_neg (by simp [hviewer, hg])
  have heq := (h [change] [] r r ⟨0, 0, "", false, []⟩ (by simp [hother])
    ⟨fun _ _ => rfl, fun _ _ => rfl, rfl, rfl, rfl⟩).1
  have hone : filterPriceItemsForViewer r viewerGroup visibleSet modelGroups [change.item] =
      [change.item] := List.filterMap_cons_some hshown
  rw [List.map_singleton, hone] at heq
  cases heq

end View
end BeeApi.PriceNotify
