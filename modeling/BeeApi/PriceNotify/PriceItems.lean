import Mathlib.Data.Finset.Sort
import BeeApi.Lib.Strings
import BeeApi.Lib.Table

/-!
# Price changes as a viewer sees them

A published batch lists changed ratios of groups, changed ratios of one group towards another, and changed
ratios and prices of models.  `filterPriceItemsForViewer` leaves what concerns the groups that a viewer
sees.  The prices are numbers of any type with a multiplication and a rounding.
-/

namespace BeeApi.PriceNotify

inductive ModelPriceType
  | modelRatio
  | completionRatio
  | cacheRatio
  | createCacheRatio
  | modelPrice
deriving DecidableEq

inductive PriceType
  | groupRatio
  | groupGroupRatio
  | model (type : ModelPriceType)
deriving DecidableEq

inductive PriceScope
  | group
  | model
deriving DecidableEq

inductive PriceDirection
  | up
  | down
  | added
  | removed
deriving DecidableEq

structure PriceDisplayEntry (F : Type) where
  oldUsd : F
  newUsd : F
  /-- `per_1m` or `per_call`. -/
  unit : String

/-- `PriceDiffItem`; a stored item has its affected groups as JSON and no display. -/
structure PriceDiffItem (F : Type) where
  scope : PriceScope
  groupName : String := ""
  modelName : String := ""
  priceType : PriceType
  oldValue : F
  newValue : F
  direction : PriceDirection
  affectedGroups : List String
  display : Table String (PriceDisplayEntry F) := .empty

/-- `strings.SplitN(s, "->", 2)`, when it finds the separator. -/
def splitArrow : List Char → Option (List Char × List Char)
  | [] => none
  | c :: rest =>
    if c = '-' ∧ rest.head? = some '>' then some ([], rest.tail)
    else (splitArrow rest).map fun parts => (c :: parts.1, parts.2)

def PriceDiffItem.groupGroupRatioParts {F : Type} (item : PriceDiffItem F) :
    Option (String × String) :=
  if item.priceType ≠ .groupGroupRatio then none
  else (splitArrow item.groupName.toList).map fun parts =>
    (String.ofList parts.1, String.ofList parts.2)

/-- The current ratios, `usdPerMillionFactor` and `roundPriceUsd`. -/
structure Ratios (F : Type) where
  groupRatio : String → F
  groupGroupRatio : String → String → Option F
  modelRatio : String → F
  usdPerMillionFactor : F
  roundPriceUsd : F → F

section Filter

variable {F : Type} [Mul F] (r : Ratios F)

def viewerGroupRatioFunc (viewerGroup g : String) : F :=
  if viewerGroup ≠ "" then (r.groupGroupRatio viewerGroup g).getD (r.groupRatio g)
  else r.groupRatio g

/-- The entry of a group with a ratio, as `BuildPriceItemDisplay` makes it. -/
def displayEntry (item : PriceDiffItem F) (type : ModelPriceType) (groupRatio : F) :
    PriceDisplayEntry F :=
  match type with
  | .modelRatio =>
    { oldUsd := r.roundPriceUsd (item.oldValue * r.usdPerMillionFactor * groupRatio)
      newUsd := r.roundPriceUsd (item.newValue * r.usdPerMillionFactor * groupRatio)
      unit := "per_1m" }
  | .completionRatio | .cacheRatio | .createCacheRatio =>
    let modelRatio := r.modelRatio item.modelName
    { oldUsd := r.roundPriceUsd (modelRatio * item.oldValue * r.usdPerMillionFactor * groupRatio)
      newUsd := r.roundPriceUsd (modelRatio * item.newValue * r.usdPerMillionFactor * groupRatio)
      unit := "per_1m" }
  | .modelPrice =>
    { oldUsd := r.roundPriceUsd (item.oldValue * groupRatio)
      newUsd := r.roundPriceUsd (item.newValue * groupRatio)
      unit := "per_call" }

def buildPriceItemDisplay (item : PriceDiffItem F) (groups : List String)
    (groupRatioFor : String → F) : Table String (PriceDisplayEntry F) :=
  match item.scope, item.priceType with
  | .model, .model type =>
    groups.foldl (fun display g => display.put g (displayEntry r item type (groupRatioFor g))) .empty
  | _, _ => .empty

/-- The groups of a model that the viewer sees: `intersectGroups`, or all of them. -/
def visibleGroups (currentGroups : List String) (visibleSet : Finset String) : List String :=
  if "all" ∈ currentGroups then visibleSet.sort LE.le
  else currentGroups.filter (· ∈ visibleSet)

variable (viewerGroup : String) (visibleSet : Finset String)
  (modelGroups : String → Option (List String))

/-- One round of the loop of `filterPriceItemsForViewer`. -/
def filterPriceItem (item : PriceDiffItem F) : Option (PriceDiffItem F) :=
  if item.priceType = .groupGroupRatio then
    match item.groupGroupRatioParts with
    | none => none
    | some (ug, target) =>
      if viewerGroup = "" ∨ ug ≠ viewerGroup ∨ target ∉ visibleSet then none else some item
  else if item.scope = .group then if item.groupName ∈ visibleSet then some item else none
  else
    match modelGroups item.modelName with
    | none => none
    | some currentGroups =>
      let visible := visibleGroups currentGroups visibleSet
      if visible = [] then none
      else some { item with
        affectedGroups := visible
        display := buildPriceItemDisplay r item visible (viewerGroupRatioFunc r viewerGroup) }

def filterPriceItemsForViewer (items : List (PriceDiffItem F)) : List (PriceDiffItem F) :=
  items.filterMap (filterPriceItem r viewerGroup visibleSet modelGroups)

structure PriceDiffSummary where
  up : ℕ := 0
  down : ℕ := 0
  added : ℕ := 0
  removed : ℕ := 0

def summarizePriceItems (items : List (PriceDiffItem F)) : PriceDiffSummary where
  up := items.countP (·.direction = .up)
  down := items.countP (·.direction = .down)
  added := items.countP (·.direction = .added)
  removed := items.countP (·.direction = .removed)

def unionItemGroups (items : List (PriceDiffItem F)) : List String :=
  (items.flatMap (·.affectedGroups)).toFinset.sort LE.le

structure PricePublishBatch (F : Type) where
  id : ℤ
  createdAt : ℤ
  note : String := ""
  isBaseline : Bool := false
  items : List (PriceDiffItem F)

structure PriceChangeBatchView (F : Type) where
  id : ℤ
  publishedAt : ℤ
  note : String
  affectedGroups : List String
  summary : PriceDiffSummary
  items : List (PriceDiffItem F)

/-- One round of the loop of `buildVisiblePriceChanges`. -/
def batchView (batch : PricePublishBatch F) : Option (PriceChangeBatchView F) :=
  let visibleItems := filterPriceItemsForViewer r viewerGroup visibleSet modelGroups batch.items
  if visibleItems = [] then none
  else some {
    id := batch.id
    publishedAt := batch.createdAt
    note := batch.note
    affectedGroups := unionItemGroups visibleItems
    summary := summarizePriceItems visibleItems
    items := visibleItems }

end Filter
end BeeApi.PriceNotify
