import BeeApi.Lib.Strings
import BeeApi.Lib.Table

/-!
# The model mapping of a channel

`ModelMappedHelper` follows the mapping to the end of a chain, and a request goes upstream under the name
found there.  `normalizeChannelModelMapping` reads the same text into a map that the upkeep of the model
lists looks up once.
-/

namespace BeeApi.ModelRemoval

open Strings List

/-- The mapping text of a channel; `unmarshal` reads a JSON object whose members are texts. -/
structure Mapping where
  unmarshal : String → Option (Table String String)
  modelMapping : Option String := none

/-- What `normalizeChannelModelMapping` ranges over. -/
def Mapping.parsed (cfg : Mapping) : Table String String :=
  match cfg.modelMapping with
  | none => ∅
  | some text =>
    let rawMapping := trimSpace text
    if rawMapping = "" ∨ rawMapping = "\x7b\x7d" then ∅ else (cfg.unmarshal rawMapping).getD ∅

def normalizeEntry (normalized : Table String String) (entry : String × String) :
    Table String String :=
  if trimSpace entry.1 = "" ∨ trimSpace entry.2 = "" then normalized
  else normalized.put (trimSpace entry.1) (trimSpace entry.2)

/-- The rest of `normalizeChannelModelMapping`, with the entries in the order of the iteration. -/
def normalizeMapping (entries : List (String × String)) : Table String String :=
  entries.foldl normalizeEntry ∅

def upstreamTarget (entries : List (String × String)) (model : String) : String :=
  ((normalizeMapping entries).get? model).getD model

def compactModelSuffix : String := "-openai-compact"

def trimCompactSuffix (model : String) : String :=
  if compactModelSuffix.toList.isSuffixOf model.toList then
    String.ofList (model.toList.take (model.length - compactModelSuffix.length))
  else model

inductive Chain
  /-- The first model is mapped to itself. -/
  | unmapped
  | cycle
  | ending (currentModel : String) (isModelMapped : Bool)
deriving DecidableEq

def followChain (modelMap : Table String String) (originModelName : String) :
    ℕ → String → List String → Bool → Chain
  | 0, currentModel, _, isModelMapped => .ending currentModel isModelMapped
  | fuel + 1, currentModel, visitedModels, isModelMapped =>
    match modelMap.get? currentModel with
    | none => .ending currentModel isModelMapped
    | some mappedModel =>
      if mappedModel = "" then .ending currentModel isModelMapped
      else if mappedModel ∈ visitedModels then
        if mappedModel = currentModel then
          if currentModel = originModelName then .unmapped else .ending currentModel true
        else .cycle
      else followChain modelMap originModelName fuel mappedModel (mappedModel :: visitedModels) true

def unmarshalFailed : String := "unmarshal_model_mapping_failed"

def containsCycle : String := "model_mapping_contains_cycle"

/-- The name that a request has upstream, or the error of `ModelMappedHelper`. -/
def Mapping.modelMappedHelper (cfg : Mapping) (isResponsesCompact : Bool) (originModelName : String) :
    Except String String :=
  let mappingModelName := if isResponsesCompact then trimCompactSuffix originModelName else originModelName
  let modelMapping := cfg.modelMapping.getD ""
  if modelMapping = "" ∨ modelMapping = "\x7b\x7d" then .ok mappingModelName
  else
    match cfg.unmarshal modelMapping with
    | none => .error unmarshalFailed
    | some modelMap =>
      match followChain modelMap originModelName (modelMap.rows.length + 1) mappingModelName
          [mappingModelName] false with
      | .unmapped => .ok originModelName
      | .cycle => .error containsCycle
      | .ending currentModel isModelMapped =>
        if isModelMapped then .ok currentModel else .ok mappingModelName

theorem visited_length_le {modelMap : Table String String} {currentModel : String}
    {visitedModels : List String}
    (hvisited : ∀ m ∈ visitedModels, m ≠ currentModel → m ∈ modelMap.rows.map Prod.fst)
    (hnodup : visitedModels.Nodup) (hcurrent : currentModel ∈ visitedModels) :
    visitedModels.length ≤ modelMap.rows.length + 1 := by
  have hsubset : visitedModels.erase currentModel ⊆ modelMap.rows.map Prod.fst := by
    intro m hm
    rw [hnodup.mem_erase_iff] at hm
    exact hvisited m hm.2 hm.1
  have hlength := ((hnodup.erase currentModel).subperm hsubset).length_le
  rw [length_erase_of_mem hcurrent, length_map] at hlength
  omega

theorem mem_keys_of_visited {modelMap : Table String String} {currentModel mappedModel : String}
    {visitedModels : List String} (hget : modelMap.get? currentModel = some mappedModel)
    (hvisited : ∀ m ∈ visitedModels, m ≠ currentModel → m ∈ modelMap.rows.map Prod.fst) :
    ∀ m ∈ mappedModel :: visitedModels, m ≠ mappedModel → m ∈ modelMap.rows.map Prod.fst := by
  intro m hm hne
  by_cases heq : m = currentModel
  · rw [heq]
    exact mem_map_of_mem ((Table.get?_eq_some_iff _ _ _).1 hget)
  · exact hvisited m ((mem_cons.1 hm).resolve_left hne) heq

/-- No chain is longer than the map, so that the loop ends by itself. -/
theorem followChain_add {modelMap : Table String String} {originModelName : String} {fuel : ℕ} (k : ℕ)
    {currentModel : String} {visitedModels : List String} (isModelMapped : Bool)
    (hvisited : ∀ m ∈ visitedModels, m ≠ currentModel → m ∈ modelMap.rows.map Prod.fst)
    (hnodup : visitedModels.Nodup) (hcurrent : currentModel ∈ visitedModels)
    (hfuel : modelMap.rows.length + 1 < fuel + visitedModels.length) :
    followChain modelMap originModelName (fuel + k) currentModel visitedModels isModelMapped =
      followChain modelMap originModelName fuel currentModel visitedModels isModelMapped := by
  induction fuel generalizing currentModel visitedModels isModelMapped with
  | zero =>
    have hlength := visited_length_le hvisited hnodup hcurrent
    omega
  | succ fuel ih =>
    rw [Nat.add_right_comm, followChain, followChain]
    cases hget : modelMap.get? currentModel with
    | none => rfl
    | some mappedModel =>
      dsimp only
      split_ifs with hempty hmem
      · rfl
      · rfl
      · rfl
      · rfl
      · apply ih true (mem_keys_of_visited hget hvisited) (nodup_cons.2 ⟨hmem, hnodup⟩)
          mem_cons_self
        simp only [length_cons]
        omega

theorem followChain_enough (modelMap : Table String String) (originModelName model : String) (k : ℕ) :
    followChain modelMap originModelName (modelMap.rows.length + 1 + k) model [model] false =
      followChain modelMap originModelName (modelMap.rows.length + 1) model [model] false := by
  refine followChain_add k false ?_ (by simp) mem_cons_self (by simp)
  intro m hm hne
  exact absurd (mem_singleton.1 hm) hne

end BeeApi.ModelRemoval
