import BeeApi.Lib.Strings
import BeeApi.Lib.Table

/-!
# Channels

The row of `model.Channel` with the columns that routing, the health state machine and the status
changes read and write.  A channel is known by its id, which is the key of a table of channels, so that
a channel in hand is a pair of its id and its row.  `Keys` is not a column: it is filled in the memory
cache.
-/

namespace BeeApi.Relay

def channelTypeAdvancedCustom : ℤ := 59

def channelStatusEnabled : ℤ := 1

def channelStatusManuallyDisabled : ℤ := 2

def channelStatusAutoDisabled : ℤ := 3

def multiKeyModeRandom : String := "random"

def multiKeyModePolling : String := "polling"

/-- `ChannelInfo`, the JSON column of a channel with several keys; the maps are keyed by the index of
the key. -/
structure ChannelInfo where
  isMultiKey : Bool := false
  multiKeySize : ℕ := 0
  multiKeyStatusList : Table ℕ ℤ := ∅
  multiKeyDisabledReason : Table ℕ String := ∅
  multiKeyDisabledTime : Table ℕ ℤ := ∅
  multiKeyPollingIndex : ℤ := 0
  multiKeyMode : String := ""
deriving DecidableEq

/-- An entry of the JSON object `other_info`. -/
inductive InfoValue where
  | string (s : String)
  | number (n : ℤ)
deriving DecidableEq

structure Channel where
  type : ℤ := 0
  key : String := ""
  status : ℤ := channelStatusEnabled
  weight : Option ℕ := none
  models : String := ""
  group : String := "default"
  usedQuota : ℤ := 0
  priority : Option ℤ := none
  autoBan : Option ℤ := some 1
  otherInfo : Table String InfoValue := ∅
  otherSettings : String := ""
  tag : Option String := none
  channelInfo : ChannelInfo := {}
  verifyDisabled : Option ℤ := some 0
  iqBaselinePriority : Option ℤ := none
  iqAppliedPriority : Option ℤ := none
  iqDisabled : Bool := false
  degradeLevel : Option ℤ := some 0
  originalPriority : Option ℤ := some 0
  originalWeight : Option ℕ := some 0
  lastDemoteAt : Option ℤ := some 0
  lastUpgradeAt : Option ℤ := some 0
  lastDemoteReason : Option String := none
  routingMode : Option ℤ := none
  capacityLimit : Option ℤ := none
  capacityFullStrategy : Option String := none
  cacheDomain : Option String := none
  keys : List String := []
deriving DecidableEq

/-- `model.Ability`, without its key: the group, the model and the channel id. -/
structure Ability where
  enabled : Bool
  priority : Option ℤ
  weight : ℕ
  tag : Option String
deriving DecidableEq

abbrev Candidate := ℤ × Channel

namespace Channel

def getPriority (channel : Channel) : ℤ := channel.priority.getD 0

def getWeight (channel : Channel) : ℤ := channel.weight.getD 0

def getRoutingMode (channel : Channel) : ℤ := channel.routingMode.getD 0

def getCapacityLimit (channel : Channel) : ℤ := channel.capacityLimit.getD channel.getWeight

def getCapacityFullStrategy (channel : Channel) : String := channel.capacityFullStrategy.getD ""

def getAutoBan (channel : Channel) : Bool := channel.autoBan = some 1

/-- The cache domain; a channel without one is its own. -/
def getCacheDomain (id : ℤ) (channel : Channel) : String :=
  let domain := Strings.trimSpace (channel.cacheDomain.getD "")
  if domain ≠ "" then domain else "ch:" ++ toString id

/-- `GetKeys`; `rawArray` reads a JSON array as the texts of its elements. -/
def getKeys (rawArray : String → Option (List String)) (channel : Channel) : List String :=
  if channel.key = "" then []
  else if channel.keys ≠ [] then channel.keys
  else
    let trimmed := Strings.trimSpace channel.key
    match if Strings.hasPrefix trimmed "[" then rawArray trimmed else none with
    | some keys => keys
    | none => Strings.split (Strings.trimChar channel.key '\n') '\n'

end Channel

end BeeApi.Relay
