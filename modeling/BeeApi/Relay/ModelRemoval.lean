import BeeApi.Relay.Abilities
import BeeApi.Relay.ModelMapping
import BeeApi.Relay.ModelNames

/-!
# Models that are removed and added back

A model that the upstream refuses is taken out of the models of a channel and watched in its settings; a
later recheck adds it back when the upstream lists it.  A call fetches the upstream list first, and its
transaction, under the lock of the row, comes later.
-/

namespace BeeApi.ModelRemoval

open Relay (Ability channelStatusEnabled updateAbilities)
open Strings

inductive ModelRemovalReason
  | modelMissing
  | rateLimit
  | forbidden
deriving DecidableEq

structure OperationSetting where
  modelMissingRecheckIntervalSeconds : ℤ := 600
  modelRateLimitRecheckIntervalSeconds : ℤ := 180
  modelForbiddenRecheckIntervalSeconds : ℤ := 1800
  modelRemovalMaxRemovedPerChannel : ℤ := 5
  modelMissingRemovalCapEnabled : Bool := false

def modelMissingRemovalWatchMaxHoldSeconds : ℤ := 86400

def modelRemovalMaxRemovedPerChannelFallback : ℤ := 5

/-- An interval of less than a minute is not meant. -/
def intervalOr (seconds fallback : ℤ) : ℤ := if seconds < 60 then fallback else seconds

namespace OperationSetting

variable (setting : OperationSetting)

def missingRecheckInterval : ℤ := intervalOr setting.modelMissingRecheckIntervalSeconds 600

def rateLimitRecheckInterval : ℤ := intervalOr setting.modelRateLimitRecheckIntervalSeconds 180

def forbiddenRecheckInterval : ℤ := intervalOr setting.modelForbiddenRecheckIntervalSeconds 1800

def recheckIntervalSecondsFor : ModelRemovalReason → ℤ
  | .rateLimit => setting.rateLimitRecheckInterval
  | .forbidden => setting.forbiddenRecheckInterval
  | .modelMissing => setting.missingRecheckInterval

def maxRemovedPerChannel : ℤ :=
  if 1 ≤ setting.modelRemovalMaxRemovedPerChannel then setting.modelRemovalMaxRemovedPerChannel
  else modelRemovalMaxRemovedPerChannelFallback

def removalCapApplies : ModelRemovalReason → Bool
  | .modelMissing => setting.modelMissingRemovalCapEnabled
  | _ => true

end OperationSetting

/-- The members of the channel's own settings that belong to the watch. -/
structure OtherSettings where
  modelMissingRemovalDisabled : Bool := false
  modelMissingRemovedModels : List String := []
  modelRemovalReasons : Table String ModelRemovalReason := ∅
  modelMissingRecheckAt : ℤ := 0
  modelMissingRemovedAt : ℤ := 0

def setModelRemovalReason (reasons : Table String ModelRemovalReason) (modelName : String)
    (reason : ModelRemovalReason) : Table String ModelRemovalReason :=
  if trimSpace modelName = "" then reasons else reasons.put (trimSpace modelName) reason

def pruneModelRemovalReasons (reasons : Table String ModelRemovalReason) (watched : List String) :
    Table String ModelRemovalReason :=
  reasons.eraseWhere fun model _ => model ∉ watched

/-- The row of the channel, its settings apart, and the rows of `abilities`. -/
structure Db where
  channel : Relay.Channel
  settings : OtherSettings := {}
  abilities : Table (String × String × ℤ) Ability := ∅

/-- A call of `runModelMissingRemoval` that has fetched the upstream list. -/
structure RemovalCall where
  originModel : String
  reason : ModelRemovalReason
  /-- The failed request was a compaction; the call itself does not see it. -/
  isResponsesCompact : Bool
  upstreamModels : List String
  capValue : ℤ
deriving DecidableEq

inductive Outcome
  | channelUnavailable
  | lastModel
  | capped (removedCount : ℕ)
  /-- The model had been removed before, and only the abilities are written again. -/
  | rebuilt (db : Db)
  | removed (db : Db)

/-- The settings after a removal; the earlier of two rechecks is kept. -/
def watch (setting : OperationSetting) (now : ℤ) (call : RemovalCall) (settings : OtherSettings) :
    OtherSettings :=
  let nextRecheckAt := now + setting.recheckIntervalSecondsFor call.reason
  { settings with
    modelMissingRemovedModels :=
      mergeModelNames settings.modelMissingRemovedModels [call.originModel]
    modelRemovalReasons :=
      setModelRemovalReason settings.modelRemovalReasons call.originModel call.reason
    modelMissingRemovedAt := now
    modelMissingRecheckAt :=
      if now < settings.modelMissingRecheckAt ∧ settings.modelMissingRecheckAt < nextRecheckAt then
        settings.modelMissingRecheckAt
      else nextRecheckAt }

/-- The transaction of `runModelMissingRemoval`. -/
def removeModel (channelId : ℤ) (setting : OperationSetting) (now : ℤ) (call : RemovalCall) (db : Db) :
    Outcome :=
  if db.channel.status ≠ channelStatusEnabled ∨ db.settings.modelMissingRemovalDisabled then
    .channelUnavailable
  else if call.originModel ∉ localModels db.channel then
    .rebuilt { db with abilities := updateAbilities db.abilities channelId db.channel }
  else if (localModels db.channel).length ≤ 1 then .lastModel
  else
    let removedCount := (normalizeModelNames db.settings.modelMissingRemovedModels).length
    if setting.removalCapApplies call.reason ∧ call.capValue ≤ removedCount then .capped removedCount
    else
      let channel :=
        { db.channel with
          models := joinModels (subtractModelNames (localModels db.channel) [call.originModel]) }
      .removed {
        channel := channel
        settings := watch setting now call db.settings
        abilities := updateAbilities db.abilities channelId channel }

def classifyModelMissingWatchedModels (removedModels upstreamModels : List String)
    (entries : List (String × String)) : List String × List String :=
  let removed := normalizeModelNames removedModels
  (removed.filter fun model => upstreamTarget entries model ∈ upstreamModels,
    removed.filter fun model => upstreamTarget entries model ∉ upstreamModels)

/-- The end of a recheck that has a list; the abilities are written without a failure. -/
def restoreModels (channelId : ℤ) (setting : OperationSetting) (now : ℤ)
    (classified : List String × List String) (db : Db) : Db :=
  let (restored, stillMissing) := classified
  let originModels := localModels db.channel
  let mergedModels := mergeModelNames originModels restored
  let channel :=
    if restored ≠ [] ∧ originModels.length < mergedModels.length then
      { db.channel with models := joinModels mergedModels }
    else db.channel
  let settings :=
    { db.settings with
      modelMissingRemovedModels := stillMissing
      modelRemovalReasons := pruneModelRemovalReasons db.settings.modelRemovalReasons stillMissing
      modelMissingRecheckAt := if stillMissing = [] then 0 else now + setting.missingRecheckInterval
      modelMissingRemovedAt :=
        if stillMissing = [] then 0 else db.settings.modelMissingRemovedAt }
  { channel := channel
    settings := settings
    abilities :=
      if restored ≠ [] then updateAbilities db.abilities channelId channel else db.abilities }

/-- The transaction of `recheckChannelModelMissingModels`; there is no result when there is nothing to
do.  A list that was not fetched, or that is empty, defers the recheck. -/
def recheckModels (channelId : ℤ) (setting : OperationSetting) (now : ℤ)
    (entries : List (String × String)) (upstreamModels : Option (List String)) (db : Db) : Option Db :=
  let settings := db.settings
  if db.channel.status ≠ channelStatusEnabled then none
  else if settings.modelMissingRecheckAt ≤ 0 ∨ settings.modelMissingRemovedModels = [] then none
  else if 0 < settings.modelMissingRemovedAt ∧
      modelMissingRemovalWatchMaxHoldSeconds < now - settings.modelMissingRemovedAt then
    some { db with
      settings :=
        { modelMissingRemovalDisabled := settings.modelMissingRemovalDisabled } }
  else
    match upstreamModels with
    | none | some [] =>
      some { db with
        settings :=
          { settings with modelMissingRecheckAt := now + setting.missingRecheckInterval } }
    | some (m :: ms) =>
      some (restoreModels channelId setting now
        (classifyModelMissingWatchedModels settings.modelMissingRemovedModels (m :: ms) entries) db)

/-- A removal in the log, with the models that were watched before it. -/
structure Removal where
  call : RemovalCall
  setting : OperationSetting
  watched : List String

structure State where
  db : Db
  now : ℤ := 0
  /-- The removals and the rechecks between their fetch and their transaction. -/
  calls : List RemovalCall := []
  rechecks : List (Option (List String)) := []
  /-- What the log says of the removals. -/
  removals : List Removal := []

inductive Action
  /-- `runModelMissingRemoval` up to its transaction; `entries` is an order of the mapping. -/
  | fetchRemoval (originModel : String) (reason : ModelRemovalReason) (isResponsesCompact : Bool)
    (upstreamModels : Option (List String)) (entries : List (String × String))
    (setting : OperationSetting)
  | removal (call : ℕ) (setting : OperationSetting)
  | fetchRecheck (upstreamModels : Option (List String))
  | recheck (call : ℕ) (entries : List (String × String)) (setting : OperationSetting)
  | setStatus (status : ℤ)
  | tick (seconds : ℕ)

/-- The model is listed upstream, which refutes that it is missing. -/
def shouldSkipRemoval (reason : ModelRemovalReason) (upstreamModels : List String) (target : String) :
    Bool :=
  reason = .modelMissing && target ∈ upstreamModels

def fetchedCall (originModel : String) (reason : ModelRemovalReason) (isResponsesCompact : Bool)
    (upstreamModels : Option (List String)) (entries : List (String × String))
    (setting : OperationSetting) (db : Db) : Option RemovalCall :=
  if db.channel.status ≠ channelStatusEnabled ∨ db.settings.modelMissingRemovalDisabled then none
  else
    match upstreamModels with
    | none | some [] => none
    | some (m :: ms) =>
      if shouldSkipRemoval reason (m :: ms) (upstreamTarget entries originModel) then none
      else
        some
          { originModel := originModel
            reason := reason
            isResponsesCompact := isResponsesCompact
            upstreamModels := m :: ms
            capValue := setting.maxRemovedPerChannel }

def afterRemoval (s : State) (setting : OperationSetting) (call : RemovalCall) : Outcome → State
  | .rebuilt db => { s with db := db }
  | .removed db =>
    { s with
      db := db
      removals := s.removals ++ [⟨call, setting, s.db.settings.modelMissingRemovedModels⟩] }
  | _ => s

def step (cfg : Mapping) (channelId : ℤ) (s : State) : Action → Option State
  | .fetchRemoval originModel reason isResponsesCompact upstreamModels entries setting =>
    if entries.Perm cfg.parsed.rows then
      some { s with
        calls := s.calls ++ (fetchedCall originModel reason isResponsesCompact upstreamModels entries
          setting s.db).toList }
    else none
  | .removal i setting =>
    match s.calls[i]? with
    | none => none
    | some call =>
      some (afterRemoval { s with calls := s.calls.eraseIdx i } setting call
        (removeModel channelId setting s.now call s.db))
  | .fetchRecheck upstreamModels => some { s with rechecks := s.rechecks ++ [upstreamModels] }
  | .recheck i entries setting =>
    match s.rechecks[i]? with
    | none => none
    | some upstreamModels =>
      if entries.Perm cfg.parsed.rows then
        some { s with
          db := (recheckModels channelId setting s.now entries upstreamModels s.db).getD s.db
          rechecks := s.rechecks.eraseIdx i }
      else none
  | .setStatus status =>
    some { s with
      db :=
        { s.db with
          channel := { s.db.channel with status := status }
          abilities := s.db.abilities.updateWhere (fun key _ => key.2.2 = channelId) fun ability =>
            { ability with enabled := status = channelStatusEnabled } } }
  | .tick seconds => some { s with now := s.now + seconds }

end BeeApi.ModelRemoval
