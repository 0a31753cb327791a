import BeeApi.Relay.Abilities
import BeeApi.Relay.Health
import BeeApi.Relay.Status

/-!
# The writers of channels and abilities

`Insert`, `Update`, `deleteChannelsWithLedger`, `EnableChannelByTag`, `DisableChannelByTag`,
`EditChannelByTag` and `BatchSetChannelTag` of `model/channel.go`, `BeforeUpdate` of
`model/iq_test_control.go`, the change of one channel by `EnforceIQTestRun`, and
`UpdateChannelHealthFields`.  Each changes rows of channels, and their abilities by statements of its
own.
-/

namespace BeeApi.Relay

/-- The statements of a call that fail: the write of the channels, the read of the row that was written,
and the statements on the abilities, with the number of chunks that are in the table by then. -/
structure Faults where
  write : Bool := false
  reload : Bool := false
  abilities : Bool := false
  chunks : ℕ := 0

/-- `BeforeUpdate`, where the update touches a watched column. -/
def invalidateIQ (row : Channel) : Channel :=
  { row with iqBaselinePriority := none, iqAppliedPriority := none, iqDisabled := false }

/-! ## Insert and update -/

/-- The row that is created: columns that are not set have their defaults. -/
def createdRow (given : Channel) : Channel :=
  { given with
    status := if given.status = 0 then channelStatusEnabled else given.status
    weight := some (given.weight.getD 0)
    group := if given.group = "" then "default" else given.group
    priority := some (given.priority.getD 0)
    autoBan := some (given.autoBan.getD 1)
    verifyDisabled := some (given.verifyDisabled.getD 0)
    degradeLevel := some (given.degradeLevel.getD 0)
    originalPriority := some (given.originalPriority.getD 0)
    originalWeight := some (given.originalWeight.getD 0)
    lastDemoteAt := some (given.lastDemoteAt.getD 0)
    lastUpgradeAt := some (given.lastUpgradeAt.getD 0)
    routingMode := some (given.routingMode.getD 0)
    cacheDomain := some (given.cacheDomain.getD "")
    keys := [] }

/-- `Insert`.  The abilities are created in chunks of fifty, outside of a transaction. -/
def insertChannel (s : ChannelState) (id : ℤ) (given : Channel) (faults : Faults) :
    ChannelState × Bool :=
  if faults.write then (s, false)
  else
    match s.channels.insert? id (createdRow given) with
    | none => (s, false)
    | some channels =>
      if faults.abilities then
        ({ s with
          channels := channels
          abilities := ((abilityPairs (createdRow given)).take (50 * faults.chunks)).foldl
            (fun abilities pair =>
              createAbility abilities (pair.1, pair.2, id) (abilityOf (createdRow given)))
            s.abilities }, false)
      else
        ({ s with
          channels := channels
          abilities := addAbilities s.abilities id (createdRow given) }, true)

/-- The key list of `Update`: a JSON array, or one key a line. -/
def updateKeys (env : ChannelEnv) (keyStr : String) : List String :=
  if keyStr = "" then []
  else
    let trimmed := Strings.trimSpace keyStr
    match if Strings.hasPrefix trimmed "[" then (env.rawArray trimmed).getD [] else [] with
    | [] => Strings.split (Strings.trimChar keyStr '\n') '\n'
    | keys => keys

/-- The size of the key list, and the status list without the indexes beyond it. -/
def resizeKeys (env : ChannelEnv) (existing : Option Channel) (given : Channel) : Channel :=
  if given.channelInfo.isMultiKey then
    let keyStr := if given.key ≠ "" then given.key else (existing.map Channel.key).getD ""
    let size := (updateKeys env keyStr).length
    { given with
      channelInfo := { given.channelInfo with
        multiKeySize := size
        multiKeyStatusList := given.channelInfo.multiKeyStatusList.eraseWhere fun idx _ => size ≤ idx } }
  else given

/-- `Updates` with a structure writes the columns that are not zero.  `touches` says that it writes a
watched column that is not one of `Channel`'s. -/
def mergeColumns (row given : Channel) (touches : Bool) : Channel :=
  let merged :=
    { row with
      type := if given.type = 0 then row.type else given.type
      key := if given.key = "" then row.key else given.key
      status := if given.status = 0 then row.status else given.status
      weight := given.weight <|> row.weight
      models := if given.models = "" then row.models else given.models
      group := if given.group = "" then row.group else given.group
      usedQuota := if given.usedQuota = 0 then row.usedQuota else given.usedQuota
      priority := given.priority <|> row.priority
      autoBan := given.autoBan <|> row.autoBan
      otherInfo := if given.otherInfo = ∅ then row.otherInfo else given.otherInfo
      otherSettings := if given.otherSettings = "" then row.otherSettings else given.otherSettings
      tag := given.tag <|> row.tag
      channelInfo := if given.channelInfo = {} then row.channelInfo else given.channelInfo
      verifyDisabled := given.verifyDisabled <|> row.verifyDisabled
      iqBaselinePriority := given.iqBaselinePriority <|> row.iqBaselinePriority
      iqAppliedPriority := given.iqAppliedPriority <|> row.iqAppliedPriority
      iqDisabled := given.iqDisabled || row.iqDisabled
      degradeLevel := given.degradeLevel <|> row.degradeLevel
      originalPriority := given.originalPriority <|> row.originalPriority
      originalWeight := given.originalWeight <|> row.originalWeight
      lastDemoteAt := given.lastDemoteAt <|> row.lastDemoteAt
      lastUpgradeAt := given.lastUpgradeAt <|> row.lastUpgradeAt
      lastDemoteReason := given.lastDemoteReason <|> row.lastDemoteReason
      routingMode := given.routingMode <|> row.routingMode
      capacityLimit := given.capacityLimit <|> row.capacityLimit
      capacityFullStrategy := given.capacityFullStrategy <|> row.capacityFullStrategy
      cacheDomain := given.cacheDomain <|> row.cacheDomain }
  if touches || given.priority.isSome || given.status ≠ 0 || given.models ≠ "" || given.key ≠ "" ||
      given.channelInfo ≠ {} || given.degradeLevel.isSome || given.verifyDisabled.isSome then
    invalidateIQ merged
  else merged

/-- `Update`.  An error of the read after the write is ignored: the abilities are then those of the
columns that were given. -/
def updateChannel (env : ChannelEnv) (s : ChannelState) (id : ℤ) (given : Channel) (touches : Bool)
    (faults : Faults) : ChannelState × Bool :=
  if faults.write then (s, false)
  else
    let given := resizeKeys env (s.channels.get? id) given
    let channels := s.channels.modify id fun row => mergeColumns row given touches
    let channel := if faults.reload then given else (channels.get? id).getD given
    if faults.abilities then ({ s with channels := channels }, false)
    else
      ({ s with
        channels := channels
        abilities := updateAbilities s.abilities id channel }, true)

/-- The ids that the scopes select, one after the other. -/
def selectedIds (channels : Table ℤ Channel) (scopes : List (ℤ → Channel → Bool)) : List ℤ :=
  scopes.flatMap fun scope => (channels.rows.filter fun c => scope c.1 c.2).map Prod.fst

/-- `deleteChannelsWithLedger`, one transaction: a channel that is selected twice is not deleted twice,
which is an error. -/
def deleteChannelsWithLedger (s : ChannelState) (scopes : List (ℤ → Channel → Bool))
    (requireOne : Bool) (fails : Bool) : ChannelState × Bool :=
  let ids := selectedIds s.channels scopes
  if fails ∨ (requireOne = true ∧ ids.length ≠ 1) ∨ ¬ ids.Nodup then (s, false)
  else
    ({ s with
      channels := s.channels.eraseWhere fun id _ => id ∈ ids
      abilities := s.abilities.eraseWhere fun key _ => key.2.2 ∈ ids }, true)

/-- `UpdateChannelStatus` with the effect of `BeforeUpdate`.  An error of `UpdateAbilityStatus` is only
logged. -/
def updateStatus (env : ChannelEnv) (s : ChannelState) (call : StatusCall) (abilitiesFail : Bool) :
    ChannelState × Bool :=
  let (s', ok) := updateChannelStatus env s call
  ({ s' with
    channels := if ok then s'.channels.modify call.channelId invalidateIQ else s'.channels
    abilities := if abilitiesFail then s.abilities else s'.abilities }, ok)

/-- `EnableChannelByTag` and `DisableChannelByTag`, with the status that they write. -/
def setStatusByTag (s : ChannelState) (tag : String) (status : ℤ) (faults : Faults) :
    ChannelState × Bool :=
  if faults.write then (s, false)
  else
    let channels := s.channels.updateWhere (fun _ row => row.tag = some tag) fun row =>
      invalidateIQ { row with status := status }
    if faults.abilities then ({ s with channels := channels }, false)
    else
      ({ s with
        channels := channels
        abilities := s.abilities.updateWhere (fun _ ability => ability.tag = some tag) fun ability =>
          { ability with enabled := status = channelStatusEnabled } }, true)

def enableChannelByTag (s : ChannelState) (tag : String) (faults : Faults) : ChannelState × Bool :=
  setStatusByTag s tag channelStatusEnabled faults

def disableChannelByTag (s : ChannelState) (tag : String) (faults : Faults) : ChannelState × Bool :=
  setStatusByTag s tag channelStatusManuallyDisabled faults

/-! ## Tags -/

/-- The arguments of `EditChannelByTag`; `touches` says that the model mapping or an override is one of
them. -/
structure TagEdit where
  newTag : Option String := none
  models : Option String := none
  group : Option String := none
  priority : Option ℤ := none
  weight : Option ℕ := none
  touches : Bool := false

/-- An argument that is there and not empty. -/
def givenText (text : Option String) : Option String := text.filter fun t => t ≠ ""

def TagEdit.recreates (edit : TagEdit) : Bool :=
  (givenText edit.models).isSome || (givenText edit.group).isSome

def editRow (edit : TagEdit) (row : Channel) : Channel :=
  let edited :=
    { row with
      tag := edit.newTag <|> row.tag
      models := (givenText edit.models).getD row.models
      group := (givenText edit.group).getD row.group
      priority := edit.priority <|> row.priority
      weight := edit.weight <|> row.weight }
  if edit.touches || (givenText edit.models).isSome || edit.priority.isSome then invalidateIQ edited
  else edited

/-- `UpdateAbilityByTag`: `Updates` with a structure, in which a weight of zero is not written. -/
def updateAbilityByTag (abilities : Table (String × String × ℤ) Ability) (tag : String)
    (edit : TagEdit) : Table (String × String × ℤ) Ability :=
  abilities.updateWhere (fun _ ability => ability.tag = some tag) fun ability =>
    { ability with
      tag := edit.newTag <|> ability.tag
      priority := edit.priority <|> ability.priority
      weight := if edit.weight.getD 0 = 0 then ability.weight else edit.weight.getD 0 }

/-- `EditChannelByTag`.  Errors on the way to new abilities are only logged. -/
def editChannelByTag (s : ChannelState) (tag : String) (edit : TagEdit) (faults : Faults) :
    ChannelState × Bool :=
  if faults.write then (s, false)
  else
    let channels := s.channels.updateWhere (fun _ row => row.tag = some tag) fun row => editRow edit row
    let updatedTag := edit.newTag.getD tag
    if edit.recreates then
      if faults.abilities then ({ s with channels := channels }, true)
      else
        ({ s with
          channels := channels
          abilities := rebuildAbilities s.abilities
            (channels.rows.filter fun c => c.2.tag = some updatedTag) }, true)
    else if faults.abilities then ({ s with channels := channels }, false)
    else
      ({ s with
        channels := channels
        abilities := updateAbilityByTag s.abilities tag edit }, true)

/-- `BatchSetChannelTag`: the channels are read outside of the transaction, as they were before it. -/
def batchSetChannelTag (s : ChannelState) (ids : List ℤ) (tag : Option String) (fails : Bool) :
    ChannelState × Bool :=
  if fails then (s, false)
  else
    ({ s with
      channels := s.channels.updateWhere (fun id _ => id ∈ ids) fun row => { row with tag := tag }
      abilities := rebuildAbilities s.abilities (s.channels.rows.filter fun c => c.1 ∈ ids) }, true)

/-! ## The IQ test -/

def minInt64 : ℤ := -2 ^ 63

def maxInt64 : ℤ := 2 ^ 63 - 1

def iqFloor (base step : ℤ) : ℤ := if base < minInt64 + 5 * step then minInt64 else base - 5 * step

def iqPriorityStep (current target step : ℤ) : ℤ :=
  if current < target then
    if maxInt64 - step < current ∨ target < current + step then target else current + step
  else if target < current then
    if current < minInt64 + step ∨ current - step < target then target else current - step
  else current

/-- What a run has found out about a channel: the streaks and the step of its control row, whether the
breaker is reached, the settings, whether the channel or its model has changed since, or the transaction
fails. -/
structure IQDecision where
  negative : Bool
  allPassed : Bool
  failStreak : ℕ
  passStreak : ℕ
  step : ℤ
  breaker : Bool := false
  disableBelowBaseline : Bool := false
  permanentDisabled : Bool := false
  conflict : Bool := false
  fails : Bool := false

/-- The columns that `EnforceIQTestRun` writes, and the priority of the abilities; `none` writes
nothing. -/
def iqUpdates (row : Channel) (d : IQDecision) : Option (Channel × ℤ) :=
  let before := row.getPriority
  let healthy := row.degradeLevel.getD 0 = 0 ∧ d.permanentDisabled = false ∧ row.verifyDisabled.getD 0 = 0
  if ¬ healthy then none
  else if d.negative = true ∧ 2 ≤ d.failStreak ∧ row.status = channelStatusEnabled then
    if d.breaker then none
    else if d.disableBelowBaseline then
      some ({ row with status := channelStatusAutoDisabled, iqDisabled := true }, before)
    else
      let base := row.iqBaselinePriority.getD before
      let after := iqPriorityStep before (iqFloor base d.step) d.step
      if after = before then none
      else
        some ({ row with
          iqBaselinePriority := some base
          iqAppliedPriority := some after
          priority := some after }, after)
  else if d.allPassed = true ∧ 2 ≤ d.passStreak then
    let enables := row.iqDisabled = true ∧ row.status = channelStatusAutoDisabled
    let enabled := if enables then { row with status := channelStatusEnabled, iqDisabled := false } else row
    match row.iqBaselinePriority with
    | some base =>
      if row.iqAppliedPriority = some before then
        let after := iqPriorityStep before base d.step
        some ({ enabled with
          priority := some after
          iqBaselinePriority := if after = base then none else some base
          iqAppliedPriority := if after = base then none else some after }, after)
      else if enables then some (enabled, before)
      else none
    | none => if enables then some (enabled, before) else none
  else none

/-- The transaction of `EnforceIQTestRun` for one channel. -/
def enforceIQ (s : ChannelState) (id : ℤ) (d : IQDecision) : ChannelState × Bool :=
  if d.fails then (s, false)
  else
    match s.channels.get? id with
    | none => (s, false)
    | some row =>
      if d.conflict then (s, true)
      else
        match iqUpdates row d with
        | none => (s, true)
        | some (updated, after) =>
          ({ s with
            channels := s.channels.modify id fun _ => updated
            abilities := s.abilities.updateWhere (fun key _ => key.2.2 = id) fun ability =>
              { ability with
                priority := some after
                enabled := updated.status = channelStatusEnabled } }, true)

/-- What a transition of the health of a channel writes; `none` writes nothing. -/
def healthRow (cfg : ChannelHealthConfig) (ch : Channel) : HealthStep → Option Channel
  | .demoteTo call targetLevel reason => demoteTo cfg call ch targetLevel reason
  | .upgradeOneLevel call => upgradeOneLevel cfg call ch
  | .preChannelEnableHook call => preChannelEnableHook cfg call ch

/-- A transition of the health of a channel, which writes no abilities. -/
def updateChannelHealth (cfg : ChannelHealthConfig) (s : ChannelState) (id : ℤ) (a : HealthStep) :
    ChannelState × Bool :=
  match s.channels.get? id with
  | none => (s, false)
  | some row =>
    match healthRow cfg row a with
    | none => (s, false)
    | some updated => ({ s with channels := s.channels.modify id fun _ => invalidateIQ updated }, true)

inductive AbilityStep where
  | insert (id : ℤ) (given : Channel) (faults : Faults)
  | update (id : ℤ) (given : Channel) (touches : Bool) (faults : Faults)
  | deleteChannelsWithLedger (scopes : List (ℤ → Channel → Bool)) (requireOne fails : Bool)
  | updateChannelStatus (call : StatusCall) (abilitiesFail : Bool)
  | enableChannelByTag (tag : String) (faults : Faults)
  | disableChannelByTag (tag : String) (faults : Faults)
  | editChannelByTag (tag : String) (edit : TagEdit) (faults : Faults)
  | batchSetChannelTag (ids : List ℤ) (tag : Option String) (fails : Bool)
  | enforceIQ (id : ℤ) (d : IQDecision)
  | health (cfg : ChannelHealthConfig) (id : ℤ) (a : HealthStep)

def abilityCall (env : ChannelEnv) (s : ChannelState) : AbilityStep → ChannelState × Bool
  | .insert id given faults => insertChannel s id given faults
  | .update id given touches faults => updateChannel env s id given touches faults
  | .deleteChannelsWithLedger scopes requireOne fails =>
    BeeApi.Relay.deleteChannelsWithLedger s scopes requireOne fails
  | .updateChannelStatus call abilitiesFail => updateStatus env s call abilitiesFail
  | .enableChannelByTag tag faults => BeeApi.Relay.enableChannelByTag s tag faults
  | .disableChannelByTag tag faults => BeeApi.Relay.disableChannelByTag s tag faults
  | .editChannelByTag tag edit faults => BeeApi.Relay.editChannelByTag s tag edit faults
  | .batchSetChannelTag ids tag fails => BeeApi.Relay.batchSetChannelTag s ids tag fails
  | .enforceIQ id d => BeeApi.Relay.enforceIQ s id d
  | .health cfg id a => updateChannelHealth cfg s id a

def abilityNext (env : ChannelEnv) (s : ChannelState) (a : AbilityStep) : Option ChannelState :=
  some (abilityCall env s a).1

end BeeApi.Relay
