import BeeApi.Relay.OverrideConditions

/-!
# Pruning objects

`prune_objects` walks a value and drops the objects that satisfy the conditions.
-/

namespace BeeApi.Override

open List

structure PruneObjectsOptions where
  conditions : List ConditionOperation
  logic : String := "AND"
  recursive : Bool := true

section

variable {F : Type} [LinearOrder F] (gjson : Gjson F) (options : PruneObjectsOptions)
  (contextJSON : Option Json)

def shouldPruneObject (node : Json.Fields) : Except String Bool :=
  checkConditions gjson (.obj node) contextJSON options.conditions options.logic

mutual

/-- The value that is kept, and whether it is dropped. -/
def pruneObjectsNode : Json → Bool → Except String (Json × Bool)
  | .arr value, _ => do
    let result ← pruneItems value
    return (.arr result, false)
  | .obj value, isRoot => do
    let shouldDrop ← shouldPruneObject gjson options contextJSON value
    if shouldDrop && !isRoot then return (.null, true)
    else if !options.recursive then return (.obj value, false)
    else
      let value ← pruneMembers value
      return (.obj value, false)
  | node, _ => .ok (node, false)

def pruneItems : List Json → Except String (List Json)
  | [] => .ok []
  | item :: rest => do
    let next ← pruneObjectsNode item false
    let result ← pruneItems rest
    return if next.2 then result else next.1 :: result

/-- The members in the order of the iteration, which deletes or replaces only the member it is at. -/
def pruneMembers : Json.Fields → Except String Json.Fields
  | [] => .ok []
  | (key, child) :: rest => do
    let next ← pruneObjectsNode child false
    let value ← pruneMembers rest
    return if next.2 then value else (key, next.1) :: value

end

end

/-! ## The value without the matching objects -/

section

variable (sat : Json.Fields → Bool)

def isMatch : Json → Bool
  | .obj fields => sat fields
  | _ => false

mutual

/-- The value in which every object below it that satisfies `sat` is removed. -/
def removeMatching : Json → Json
  | .arr items => .arr (removeItems items)
  | .obj fields => .obj (removeMembers fields)
  | node => node

def removeItems : List Json → List Json
  | [] => []
  | item :: rest =>
    if isMatch sat item then removeItems rest else removeMatching item :: removeItems rest

def removeMembers : Json.Fields → Json.Fields
  | [] => []
  | (key, child) :: rest =>
    if isMatch sat child then removeMembers rest else (key, removeMatching child) :: removeMembers rest

end

mutual

def objects : Json → List Json.Fields
  | .arr items => itemObjects items
  | .obj fields => fields :: memberObjects fields
  | _ => []

def itemObjects : List Json → List Json.Fields
  | [] => []
  | item :: rest => objects item ++ itemObjects rest

def memberObjects : Json.Fields → List Json.Fields
  | [] => []
  | (_, child) :: rest => objects child ++ memberObjects rest

end

def innerObjects : Json → List Json.Fields
  | .obj fields => memberObjects fields
  | node => objects node

/-- What the conditions say of an object, where they are evaluated. -/
def satisfies {F : Type} [LinearOrder F] (gjson : Gjson F) (options : PruneObjectsOptions)
    (contextJSON : Option Json) (node : Json.Fields) : Bool :=
  (shouldPruneObject gjson options contextJSON node).toOption.getD false

end

/-! ## What is removed -/

section

variable {sat : Json.Fields → Bool}

theorem removeMembers_eq (fields : Json.Fields) :
    removeMembers sat fields =
      (fields.filter fun f => !isMatch sat f.2).map fun f => (f.1, removeMatching sat f.2) := by
  induction fields with
  | nil => simp [removeMembers]
  | cons f rest ih => cases hmatch : isMatch sat f.2 <;> simp [removeMembers, hmatch, ih]

theorem removeItems_eq (items : List Json) :
    removeItems sat items = (items.filter fun j => !isMatch sat j).map (removeMatching sat) := by
  induction items with
  | nil => simp [removeItems]
  | cons j rest ih => cases hmatch : isMatch sat j <;> simp [removeItems, hmatch, ih]

theorem isMatch_eq_false_of_isScalar {j : Json} (h : j.isScalar = true) : isMatch sat j = false := by
  cases j <;> simp_all [Json.isScalar, isMatch]

theorem removeMatching_eq_self_of_isScalar {j : Json} (h : j.isScalar = true) : removeMatching sat j = j := by
  cases j <;> simp_all [Json.isScalar, removeMatching]

@[simp] theorem isScalar_removeMatching (j : Json) :
    (removeMatching sat j).isScalar = j.isScalar := by
  cases j <;> simp [Json.isScalar, removeMatching]

theorem scalars_removeMembers (fields : Json.Fields) :
    (removeMembers sat fields).filter (fun f => f.2.isScalar) = fields.filter fun f => f.2.isScalar := by
  induction fields with
  | nil => simp [removeMembers]
  | cons f rest ih =>
    cases hscalar : f.2.isScalar with
    | true =>
      simp [removeMembers, isMatch_eq_false_of_isScalar hscalar, hscalar,
        removeMatching_eq_self_of_isScalar hscalar, ih]
    | false => cases hmatch : isMatch sat f.2 <;> simp [removeMembers, hmatch, hscalar, ih]

theorem lookup_removeMembers {fields : Json.Fields} {key : String}
    (hscalar : ∀ j, fields.lookup key = some j → j.isScalar = true) :
    (removeMembers sat fields).lookup key = fields.lookup key := by
  induction fields with
  | nil => simp [removeMembers]
  | cons f rest ih =>
    obtain ⟨name, j⟩ := f
    rw [lookup_cons] at hscalar ⊢
    cases hkey : key == name with
    | true =>
      have hj : j.isScalar = true := hscalar j (by simp [hkey])
      simp [removeMembers, isMatch_eq_false_of_isScalar hj, removeMatching_eq_self_of_isScalar hj,
        lookup_cons, hkey]
    | false =>
      have hrest := ih (by simpa [hkey] using hscalar)
      cases hmatch : isMatch sat j <;> simp [removeMembers, hmatch, lookup_cons, hkey, hrest]

theorem itemObjects_eq (items : List Json) : itemObjects items = items.flatMap objects := by
  induction items with
  | nil => simp [itemObjects]
  | cons j rest ih => simp [itemObjects, ih]

theorem memberObjects_eq (fields : Json.Fields) :
    memberObjects fields = fields.flatMap fun f => objects f.2 := by
  induction fields with
  | nil => simp [memberObjects]
  | cons f rest ih => simp [memberObjects, ih]

theorem isMatch_eq_false {j : Json} (h : ∀ o ∈ objects j, sat o = false) : isMatch sat j = false := by
  cases j <;> simp_all [objects, isMatch]

theorem mem_objects_of_mem_innerObjects {j : Json} {o : Json.Fields} (h : o ∈ innerObjects j) :
    o ∈ objects j := by
  cases j <;> simp_all [innerObjects, objects]

/-- An object below the result stayed, and it lost only what matches below it. -/
def Stayed (sat : Json.Fields → Bool) (l : List Json.Fields) (o : Json.Fields) : Prop :=
  ∃ o' ∈ l, o = removeMembers sat o' ∧ sat o' = false

theorem stayed_of_mem_objects (j : Json) (hmatch : isMatch sat j = false) :
    ∀ o ∈ objects (removeMatching sat j), Stayed sat (objects j) o := by
  induction j using Json.induct with
  | arr l ih =>
    intro o ho
    simp only [removeMatching, objects, itemObjects_eq, removeItems_eq, mem_flatMap, mem_map,
      mem_filter] at ho
    obtain ⟨_, ⟨j, ⟨hj, hkeep⟩, rfl⟩, ho⟩ := ho
    obtain ⟨o', ho', h⟩ := ih j hj (by simpa using hkeep) o ho
    refine ⟨o', ?_, h⟩
    simp only [objects, itemObjects_eq, mem_flatMap]
    exact ⟨j, hj, ho'⟩
  | obj fields ih =>
    intro o ho
    rw [removeMatching, objects] at ho
    rcases mem_cons.1 ho with rfl | ho
    · exact ⟨fields, by simp [objects], rfl, hmatch⟩
    · simp only [memberObjects_eq, removeMembers_eq, mem_flatMap, mem_map, mem_filter] at ho
      obtain ⟨_, ⟨f, ⟨hf, hkeep⟩, rfl⟩, ho⟩ := ho
      obtain ⟨o', ho', h⟩ := ih f hf (by simpa using hkeep) o ho
      refine ⟨o', ?_, h⟩
      simp only [objects, memberObjects_eq, mem_cons, mem_flatMap]
      exact .inr ⟨f, hf, ho'⟩
  | scalar j h =>
    intro o ho
    rw [removeMatching_eq_self_of_isScalar h] at ho
    cases j <;> simp_all [objects, Json.isScalar]

theorem stayed_of_mem_innerObjects (j : Json) :
    ∀ o ∈ innerObjects (removeMatching sat j), Stayed sat (innerObjects j) o := by
  cases j with
  | obj fields =>
    intro o ho
    simp only [removeMatching, innerObjects, memberObjects_eq, removeMembers_eq, mem_flatMap,
      mem_map, mem_filter] at ho
    obtain ⟨_, ⟨f, ⟨hf, hkeep⟩, rfl⟩, ho⟩ := ho
    obtain ⟨o', ho', h⟩ := stayed_of_mem_objects f.2 (by simpa using hkeep) o ho
    refine ⟨o', ?_, h⟩
    simp only [innerObjects, memberObjects_eq, mem_flatMap]
    exact ⟨f, hf, ho'⟩
  | _ => exact stayed_of_mem_objects _ rfl

theorem exists_of_mem_objects (j : Json) :
    ∀ o ∈ objects (removeMatching sat j), ∃ o' ∈ objects j, o = removeMembers sat o' := by
  intro o ho
  cases j with
  | obj fields =>
    rw [removeMatching, objects] at ho
    rcases mem_cons.1 ho with rfl | ho
    · exact ⟨fields, by simp [objects], rfl⟩
    · obtain ⟨o', ho', h, -⟩ := stayed_of_mem_innerObjects (.obj fields) o ho
      exact ⟨o', mem_objects_of_mem_innerObjects ho', h⟩
  | _ =>
    obtain ⟨o', ho', h, -⟩ := stayed_of_mem_objects _ rfl o ho
    exact ⟨o', ho', h⟩

theorem removeMatching_eq_self (j : Json) (h : ∀ o ∈ innerObjects j, sat o = false) :
    removeMatching sat j = j := by
  induction j using Json.induct with
  | arr l ih =>
    have hall : ∀ j ∈ l, ∀ o ∈ objects j, sat o = false := by
      intro j hj o ho
      apply h
      simp only [innerObjects, objects, itemObjects_eq, mem_flatMap]
      exact ⟨j, hj, ho⟩
    have hkeep : l.filter (fun j => !isMatch sat j) = l :=
      filter_eq_self.2 fun j hj => by simp [isMatch_eq_false (hall j hj)]
    have hmap : l.map (removeMatching sat) = l.map id := map_congr_left fun j hj =>
      ih j hj fun o ho => hall j hj o (mem_objects_of_mem_innerObjects ho)
    rw [removeMatching, removeItems_eq, hkeep, hmap, map_id]
  | obj fields ih =>
    have hall : ∀ f ∈ fields, ∀ o ∈ objects f.2, sat o = false := by
      intro f hf o ho
      apply h
      simp only [innerObjects, memberObjects_eq, mem_flatMap]
      exact ⟨f, hf, ho⟩
    have hkeep : fields.filter (fun f => !isMatch sat f.2) = fields :=
      filter_eq_self.2 fun f hf => by simp [isMatch_eq_false (hall f hf)]
    have hmap : fields.map (fun f => (f.1, removeMatching sat f.2)) = fields.map id :=
      map_congr_left fun f hf => by
        rw [ih f hf fun o ho => hall f hf o (mem_objects_of_mem_innerObjects ho), id]
    rw [removeMatching, removeMembers_eq, hkeep, hmap, map_id]
  | scalar j hscalar => exact removeMatching_eq_self_of_isScalar hscalar

end

/-! ## What the walk returns -/

section

variable {F : Type} [LinearOrder F] {gjson : Gjson F} {options : PruneObjectsOptions}
  {contextJSON : Option Json} {sat : Json.Fields → Bool}

/-- What the walk makes of a value, given what the conditions say of its objects. -/
def outcome (sat : Json.Fields → Bool) (j : Json) (isRoot : Bool) : Json × Bool :=
  if isMatch sat j && !isRoot then (.null, true) else (removeMatching sat j, false)

theorem pruneItems_eq {items : List Json}
    (h : ∀ j ∈ items, pruneObjectsNode gjson options contextJSON j false = .ok (outcome sat j false)) :
    pruneItems gjson options contextJSON items = .ok (removeItems sat items) := by
  induction items with
  | nil => simp [pruneItems, removeItems]
  | cons j rest ih =>
    rw [pruneItems, h j (by simp), ih fun j' hj' => h j' (by simp [hj'])]
    cases hmatch : isMatch sat j <;> simp [outcome, removeItems, hmatch, bind, Except.bind, pure, Except.pure]

theorem pruneMembers_eq {fields : Json.Fields}
    (h : ∀ f ∈ fields, pruneObjectsNode gjson options contextJSON f.2 false = .ok (outcome sat f.2 false)) :
    pruneMembers gjson options contextJSON fields = .ok (removeMembers sat fields) := by
  induction fields with
  | nil => simp [pruneMembers, removeMembers]
  | cons f rest ih =>
    rw [pruneMembers, h f (by simp), ih fun f' hf' => h f' (by simp [hf'])]
    cases hmatch : isMatch sat f.2 <;>
      simp [outcome, removeMembers, hmatch, bind, Except.bind, pure, Except.pure]

theorem pruneObjectsNode_eq (hrecursive : options.recursive = true) (j : Json)
    (heval : ∀ o ∈ objects j, shouldPruneObject gjson options contextJSON o = .ok (sat o)) (isRoot : Bool) :
    pruneObjectsNode gjson options contextJSON j isRoot = .ok (outcome sat j isRoot) := by
  induction j using Json.induct generalizing isRoot with
  | arr l ih =>
    have hitems := pruneItems_eq fun j hj => ih j hj (fun o ho => heval o (by
      simp only [objects, itemObjects_eq, mem_flatMap]
      exact ⟨j, hj, ho⟩)) false
    simp [pruneObjectsNode, hitems, outcome, isMatch, removeMatching, bind, Except.bind, pure, Except.pure]
  | obj fields ih =>
    have hmembers := pruneMembers_eq fun f hf => ih f hf (fun o ho => heval o (by
      simp only [objects, memberObjects_eq, mem_cons, mem_flatMap]
      exact .inr ⟨f, hf, ho⟩)) false
    rw [pruneObjectsNode, heval fields (by simp [objects])]
    cases hdrop : sat fields && !isRoot <;>
      simp [hdrop, hrecursive, hmembers, outcome, isMatch, removeMatching, bind, Except.bind, pure,
        Except.pure]
  | scalar j h =>
    cases j <;> simp_all [Json.isScalar, pruneObjectsNode, outcome, isMatch, removeMatching]

/-! ## Conditions on scalar members -/

def NamesMember (gjson : Gjson F) (path : String) : Prop :=
  negativeIndices path.toList = [] ∧ ∀ fields, gjson.get (.obj fields) path = fields.lookup path

/-- The conditions mention only members of the object itself, which are scalar in the objects of the value. -/
def MentionsScalars (gjson : Gjson F) (options : PruneObjectsOptions) (node : Json) : Prop :=
  ∀ c ∈ options.conditions, NamesMember gjson c.path ∧
    ∀ o ∈ objects node, ∀ j, o.lookup c.path = some j → j.isScalar = true

theorem checkSingleCondition_removeMembers {c : ConditionOperation} {fields : Json.Fields}
    (hnames : NamesMember gjson c.path)
    (hscalar : ∀ j, fields.lookup c.path = some j → j.isScalar = true) :
    checkSingleCondition gjson (.obj (removeMembers sat fields)) contextJSON c =
      checkSingleCondition gjson (.obj fields) contextJSON c := by
  have hpath : ∀ json, processNegativeIndex gjson json c.path = c.path := by
    intro json
    simp [processNegativeIndex, hnames.1]
  simp only [checkSingleCondition, hpath, hnames.2, lookup_removeMembers hscalar]

theorem shouldPruneObject_removeMembers {fields : Json.Fields} (hscalars : ∀ c ∈ options.conditions,
      NamesMember gjson c.path ∧ ∀ j, fields.lookup c.path = some j → j.isScalar = true) :
    shouldPruneObject gjson options contextJSON (removeMembers sat fields) =
      shouldPruneObject gjson options contextJSON fields := by
  have hresults : options.conditions.mapM
        (checkSingleCondition gjson (.obj (removeMembers sat fields)) contextJSON) =
      options.conditions.mapM (checkSingleCondition gjson (.obj fields) contextJSON) := by
    revert hscalars
    generalize options.conditions = conditions
    intro hscalars
    induction conditions with
    | nil => rfl
    | cons c rest ih =>
      rw [mapM_cons, mapM_cons, ih fun c' hc' => hscalars c' (by simp [hc']),
        checkSingleCondition_removeMembers (hscalars c (by simp)).1 (hscalars c (by simp)).2]
  simp only [shouldPruneObject, checkConditions, hresults]

theorem shouldPruneObject_eq {o : Json.Fields} {b : Bool}
    (h : shouldPruneObject gjson options contextJSON o = .ok b) :
    shouldPruneObject gjson options contextJSON o = .ok (satisfies gjson options contextJSON o) := by
  simp [satisfies, h, Except.toOption]

theorem pruneObjectsNode_again (hrecursive : options.recursive = true) (node : Json)
    (hsat : ∀ o ∈ objects node, shouldPruneObject gjson options contextJSON o = .ok (sat o))
    (hscalars : MentionsScalars gjson options node) :
    (∀ o ∈ innerObjects (removeMatching sat node),
        shouldPruneObject gjson options contextJSON o = .ok false) ∧
      pruneObjectsNode gjson options contextJSON (removeMatching sat node) true =
        .ok (removeMatching sat node, false) := by
  have hstay : ∀ o ∈ objects node, shouldPruneObject gjson options contextJSON (removeMembers sat o) =
      .ok (sat o) := by
    intro o ho
    rw [← hsat o ho]
    exact shouldPruneObject_removeMembers fun c hc => ⟨(hscalars c hc).1, (hscalars c hc).2 o ho⟩
  have hinner : ∀ o ∈ innerObjects (removeMatching sat node),
      shouldPruneObject gjson options contextJSON o = .ok false := by
    intro o ho
    obtain ⟨o', ho', rfl, hfalse⟩ := stayed_of_mem_innerObjects node o ho
    rw [hstay o' (mem_objects_of_mem_innerObjects ho'), hfalse]
  have heval : ∀ o ∈ objects (removeMatching sat node), shouldPruneObject gjson options contextJSON o =
      .ok (satisfies gjson options contextJSON o) := by
    intro o ho
    obtain ⟨o', ho', rfl⟩ := exists_of_mem_objects node o ho
    exact shouldPruneObject_eq (hstay o' ho')
  have hself : removeMatching (satisfies gjson options contextJSON) (removeMatching sat node) =
      removeMatching sat node := by
    apply removeMatching_eq_self
    intro o ho
    simp [satisfies, hinner o ho, Except.toOption]
  refine ⟨hinner, ?_⟩
  rw [pruneObjectsNode_eq hrecursive _ heval true, outcome, hself]
  simp

/-- `prune_objects` removes exactly the matching objects below the root.  Where the conditions read only
scalar members, nothing that matches is left and the result stays as it is. -/
theorem pruneObjectsNode_removes_matching (hrecursive : options.recursive = true) (node : Json)
    (heval : ∀ o ∈ objects node, ∃ b, shouldPruneObject gjson options contextJSON o = .ok b) :
    pruneObjectsNode gjson options contextJSON node true =
        .ok (removeMatching (satisfies gjson options contextJSON) node, false) ∧
      (∀ fields : Json.Fields, (removeMembers (satisfies gjson options contextJSON) fields).filter
        (fun f => f.2.isScalar) = fields.filter fun f => f.2.isScalar) ∧
      (MentionsScalars gjson options node →
        (∀ o ∈ innerObjects (removeMatching (satisfies gjson options contextJSON) node),
          shouldPruneObject gjson options contextJSON o = .ok false) ∧
        pruneObjectsNode gjson options contextJSON
            (removeMatching (satisfies gjson options contextJSON) node) true =
          .ok (removeMatching (satisfies gjson options contextJSON) node, false)) := by
  have hsat : ∀ o ∈ objects node, shouldPruneObject gjson options contextJSON o =
      .ok (satisfies gjson options contextJSON o) := by
    intro o ho
    obtain ⟨b, hb⟩ := heval o ho
    exact shouldPruneObject_eq hb
  refine ⟨?_, scalars_removeMembers, pruneObjectsNode_again hrecursive node hsat⟩
  simpa [outcome] using pruneObjectsNode_eq hrecursive node hsat true

end

/-- `gjson`, for paths that are the name of a member. -/
def memberGjson : Gjson ℤ where
  get := fun json path =>
    match json with
    | .obj fields => fields.lookup path
    | _ => none
  num := fun text => text.toInt?.getD 0

def sampleOptions : PruneObjectsOptions where
  conditions := [{ path := "type", mode := "full", value := .str "x" }]

def sampleNode : Json :=
  .obj [("type", .str "x"), ("input", .arr [.obj [("type", .str "x")],
    .obj [("id", .num "1" "1"), ("sub", .obj [("type", .str "x")])]])]

theorem pruneObjectsNode_removes_matching_of_sample :
    pruneObjectsNode memberGjson sampleOptions none sampleNode true =
        .ok (.obj [("type", .str "x"), ("input", .arr [.obj [("id", .num "1" "1")]])], false) ∧
      ∀ o ∈ innerObjects (removeMatching (satisfies memberGjson sampleOptions none) sampleNode),
        shouldPruneObject memberGjson sampleOptions none o = .ok false := by
  have heval : ∀ o ∈ objects sampleNode,
      ∃ b, shouldPruneObject memberGjson sampleOptions none o = .ok b := by
    simp only [sampleNode, objects, memberObjects, itemObjects, nil_append, append_nil,
      cons_append, forall_mem_cons]
    exact ⟨⟨true, by decide +kernel⟩, ⟨true, by decide +kernel⟩, ⟨false, by decide +kernel⟩,
      ⟨true, by decide +kernel⟩, nofun⟩
  obtain ⟨hprune, -, hagain⟩ := pruneObjectsNode_removes_matching rfl sampleNode heval
  refine ⟨hprune.trans rfl, (hagain ?_).1⟩
  intro c hc
  rw [mem_singleton.1 hc]
  refine ⟨⟨by decide +kernel, fun _ => rfl⟩, ?_⟩
  simp [sampleNode, objects, memberObjects, itemObjects, lookup_cons, Json.isScalar]

end BeeApi.Override
