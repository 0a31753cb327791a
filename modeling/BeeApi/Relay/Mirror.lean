import BeeApi.Relay.AbilityWriters
import BeeApi.Relay.LostUpdate

/-!
# The abilities mirror the channels

The table of abilities is a redundant copy: for every channel it has one row for every group and every
model of it, with the status, the priority, the weight and the tag of the channel.  Every writer that
changes what the copy has must change it in step.
-/

namespace BeeApi.Relay

open List Option Table Bool

/-! ## The mirror -/

def MirrorsAt (s : ChannelState) (id : ℤ) : Prop :=
  ∀ group model, s.abilities.get? (group, model, id) = (s.channels.get? id).bind fun channel =>
      if (group, model) ∈ channelPairs channel then some (abilityOf channel) else none

/-- The abilities of every channel are the pairs of its groups and models, and no other row is there. -/
def Mirrors (s : ChannelState) : Prop := ∀ id, MirrorsAt s id

/-- The texts by which `AddAbilities` tells the pairs of the channel apart are different. -/
def Unambiguous (channel : Channel) : Prop :=
  ∀ pair ∈ channelPairs channel, ∀ pair' ∈ channelPairs channel,
    pairText pair = pairText pair' → pair = pair'

/-- The channels have the same abilities, but for the status. -/
structure SameRouting (a b : Channel) : Prop where
  models : a.models = b.models
  group : a.group = b.group
  priority : a.priority = b.priority
  weight : a.weight = b.weight
  tag : a.tag = b.tag

variable {env : ChannelEnv} {s s' : ChannelState} {id : ℤ}

theorem Unambiguous.mem_abilityPairs_iff {channel : Channel} (h : Unambiguous channel)
    {pair : String × String} : pair ∈ abilityPairs channel ↔ pair ∈ channelPairs channel := by
  refine ⟨mem_channelPairs_of_mem_abilityPairs, fun hpair => ?_⟩
  exact mem_newPairs hpair (not_mem_nil) fun pair' hpair' => h pair' hpair' pair hpair

variable {a b updated : Channel} {faults : Faults} {call : StatusCall} {tag : String}

theorem channelPairs_congr (hmodels : a.models = b.models) (hgroup : a.group = b.group) :
    channelPairs a = channelPairs b := by
  unfold channelPairs
  rw [hmodels, hgroup]

theorem SameRouting.pairs (h : SameRouting a b) : channelPairs a = channelPairs b :=
  channelPairs_congr h.models h.group

theorem SameRouting.ability (h : SameRouting a b) :
    abilityOf a = { abilityOf b with enabled := a.status = channelStatusEnabled } := by
  unfold abilityOf
  rw [h.priority, h.weight, h.tag]

theorem MirrorsAt.congr (h : MirrorsAt s id) (hchannel : s'.channels.get? id = s.channels.get? id)
    (hability : ∀ group model, s'.abilities.get? (group, model, id) =
      s.abilities.get? (group, model, id)) : MirrorsAt s' id := by
  intro group model
  rw [hability, hchannel]
  exact h group model

theorem MirrorsAt.map (h : MirrorsAt s id) {g : Channel → Channel} {f : Ability → Ability}
    (hchannel : s'.channels.get? id = (s.channels.get? id).map g)
    (hability : ∀ group model, s'.abilities.get? (group, model, id) =
      (s.abilities.get? (group, model, id)).map f)
    (hstep : ∀ channel, s.channels.get? id = some channel →
      channelPairs (g channel) = channelPairs channel ∧
        abilityOf (g channel) = f (abilityOf channel)) : MirrorsAt s' id := by
  intro group model
  rw [hability, hchannel, h group model]
  cases hget : s.channels.get? id with
  | none => rfl
  | some channel =>
    obtain ⟨hpairs, hof⟩ := hstep channel hget
    rw [map_some, bind_some, bind_some, hpairs, hof]
    split_ifs <;> rfl

theorem mirrorsAt_of_rebuilt {channel row : Channel} (hrow : s'.channels.get? id = some row)
    (hpairs : channelPairs channel = channelPairs row) (hof : abilityOf channel = abilityOf row)
    (hunamb : Unambiguous channel)
    (habilities : ∀ group model, s'.abilities.get? (group, model, id) =
      if (group, model) ∈ abilityPairs channel then some (abilityOf channel) else none) :
    MirrorsAt s' id := by
  intro group model
  rw [habilities, hrow, bind_some, hof]
  simp only [hunamb.mem_abilityPairs_iff, hpairs]

/-! ## What each writer must meet -/

def HealthWrites (cfg : ChannelHealthConfig) (row : Channel) : HealthStep → Prop
  | .demoteTo call targetLevel _ =>
    ¬ (0 < cfg.demoteCooldownSec ∧ call.cooldownActive) ∧ call.locked = false ∧
      call.loadFails = false ∧ row.getAutoBan = true ∧ row.degradeLevel.getD 0 < targetLevel ∧
      call.updateFails = false
  | .upgradeOneLevel call =>
    call.locked = false ∧ call.loadFails = false ∧ 0 < row.degradeLevel.getD 0 ∧
      call.updateFails = false
  | .preChannelEnableHook call =>
    cfg.enabled = true ∧ call.loadFails = false ∧ row.degradeLevel.getD 0 < healthLevelL1 ∧
      call.updateFails = false

def healthValues (cfg : ChannelHealthConfig) (row : Channel) : HealthStep → ℤ × ℕ
  | .demoteTo _ targetLevel _ =>
    if row.degradeLevel.getD 0 = 0 then
      applyDegrade cfg (row.priority.getD 0) (row.weight.getD 0) targetLevel
    else applyDegrade cfg (row.originalPriority.getD 0) (row.originalWeight.getD 0) targetLevel
  | .upgradeOneLevel _ =>
    applyDegrade cfg (row.originalPriority.getD (row.priority.getD 0))
      (row.originalWeight.getD (row.weight.getD 0)) (row.degradeLevel.getD 0 - 1)
  | .preChannelEnableHook _ => (row.priority.getD 0 - 1, enableHookWeight (row.weight.getD 0))

/-- The call keeps the abilities in step.  An insert, an update and an edit of models or groups need texts
that tell the pairs apart, an update a row that is there; `EditChannelByTag` keeps a weight that is not
zero; `BatchSetChannelTag` changes no tag; a health transition leaves priority and weight; and no
statement on the abilities fails after the channels are written. -/
def InStep (env : ChannelEnv) (s : ChannelState) : AbilityStep → Prop
  | .insert _ given faults =>
    faults.write = false → faults.abilities = false ∧ Unambiguous (createdRow given)
  | .update id given touches faults =>
    faults.write = false → faults.reload = false ∧ faults.abilities = false ∧
      ∃ row, s.channels.get? id = some row ∧
        Unambiguous (mergeColumns row (resizeKeys env (some row) given) touches)
  | .deleteChannelsWithLedger _ _ _ => True
  | .updateChannelStatus call abilitiesFail =>
    ∀ row, s.channels.get? call.channelId = some row → row.status ≠ call.status →
      call.saves = true ∧ abilitiesFail = false
  | .enableChannelByTag _ faults => faults.write = false → faults.abilities = false
  | .disableChannelByTag _ faults => faults.write = false → faults.abilities = false
  | .editChannelByTag tag edit faults =>
    faults.write = false → faults.abilities = false ∧ ∀ id row, s.channels.get? id = some row →
        if edit.recreates then
          (row.tag = some tag → Unambiguous (editRow edit row)) ∧
            (row.tag = some (edit.newTag.getD tag) → Unambiguous row)
        else row.tag = some tag → edit.weight = some 0 → row.weight.getD 0 = 0
  | .batchSetChannelTag ids tag fails =>
    fails = false → ∀ id ∈ ids, ∀ row, s.channels.get? id = some row →
      row.tag = tag ∧ Unambiguous row
  | .enforceIQ _ _ => True
  | .health cfg id a =>
    ∀ row, s.channels.get? id = some row → HealthWrites cfg row a →
      healthValues cfg row a = (row.priority.getD 0, row.weight.getD 0)

/-! ## Insert, update and delete -/

theorem get?_abilities_of_none (h : Mirrors s) (hnone : s.channels.get? id = none)
    (group model : String) : s.abilities.get? (group, model, id) = none := by
  rw [h id group model, hnone]
  rfl

theorem mirrors_insert {given : Channel} (h : Mirrors s)
    (hin : InStep env s (.insert id given faults)) :
    Mirrors (insertChannel s id given faults).1 := by
  unfold insertChannel
  cases hwrite : faults.write with
  | true => exact h
  | false =>
    obtain ⟨hfault, hunamb⟩ := hin hwrite
    rw [if_neg Bool.false_ne_true]
    cases hinsert : s.channels.insert? id (createdRow given) with
    | none => exact h
    | some channels =>
      have hnone : s.channels.get? id = none := ((insert?_eq_some_iff _ _ _ _).1 hinsert).1
      dsimp only
      rw [hfault, if_neg Bool.false_ne_true]
      intro id'
      by_cases hid : id' = id
      · subst hid
        refine @mirrorsAt_of_rebuilt _ _ _ (createdRow given) ?_ rfl rfl hunamb fun group model => ?_
        · rw [get?_of_insert? hinsert, if_pos rfl]
        · dsimp only
          rw [get?_addAbilities, get?_abilities_of_none h hnone]
          simp
      · refine (h id').congr ?_ fun group model => ?_
        · rw [get?_of_insert? hinsert, if_neg hid]
        · dsimp only
          rw [get?_addAbilities, if_neg fun hkey => hid hkey.1]

theorem mirrors_update {given : Channel} {touches : Bool} (h : Mirrors s)
    (hin : InStep env s (.update id given touches faults)) :
    Mirrors (updateChannel env s id given touches faults).1 := by
  unfold updateChannel
  cases hwrite : faults.write with
  | true => exact h
  | false =>
    obtain ⟨hreload, hfault, row, hrow, hunamb⟩ := hin hwrite
    have hmerged : (s.channels.modify id fun row' =>
        mergeColumns row' (resizeKeys env (some row) given) touches).get? id =
          some (mergeColumns row (resizeKeys env (some row) given) touches) := by
      rw [get?_modify_self, hrow]
      rfl
    rw [if_neg Bool.false_ne_true, hrow]
    dsimp only
    rw [hreload, if_neg Bool.false_ne_true, hfault, if_neg Bool.false_ne_true, hmerged, getD_some]
    generalize mergeColumns row (resizeKeys env (some row) given) touches = merged at hunamb hmerged
    intro id'
    by_cases hid : id' = id
    · subst hid
      refine mirrorsAt_of_rebuilt hmerged rfl rfl hunamb fun group model => ?_
      rw [get?_updateAbilities, if_pos rfl]
    · refine (h id').congr ?_ fun group model => ?_
      · exact get?_modify_of_ne _ _ hid
      · dsimp only
        rw [get?_updateAbilities, if_neg hid]

theorem mirrors_delete {scopes : List (ℤ → Channel → Bool)} {requireOne fails : Bool}
    (h : Mirrors s) : Mirrors (deleteChannelsWithLedger s scopes requireOne fails).1 := by
  unfold deleteChannelsWithLedger
  dsimp only
  split
  · exact h
  intro id group model
  rw [get?_eraseWhere, get?_eraseWhere, h id group model]
  by_cases hid : id ∈ selectedIds s.channels scopes
  · cases s.channels.get? id with
    | none => rfl
    | some channel =>
      simp only [Option.bind_some, Option.filter_some, hid, decide_true, Bool.not_true,
        Bool.false_eq_true, if_false, Option.bind_none]
      split_ifs <;> simp
  · cases s.channels.get? id with
    | none => rfl
    | some channel =>
      simp only [Option.bind_some, Option.filter_some, hid, decide_false, Bool.not_false, if_true]
      split_ifs <;> simp

/-! ## Status -/

theorem handlerMultiKeyUpdate_enabled_iff (env : ChannelEnv) (channel : Channel) (call : StatusCall)
    (hne : channel.status ≠ (handlerMultiKeyUpdate env channel call).status) :
    (handlerMultiKeyUpdate env channel call).status = channelStatusEnabled ↔
      call.status = channelStatusEnabled := by
  unfold handlerMultiKeyUpdate at hne ⊢
  dsimp only at hne ⊢
  split
  · exact Iff.rfl
  split
  · exact Iff.rfl
  rename_i hnil hblank
  rw [if_neg hnil, if_neg hblank] at hne
  cases hidx : (channel.getKeys env.rawArray).findIdx? (· = call.usingKey) with
  | none =>
    rw [hidx] at hne
    exact absurd rfl hne
  | some keyIndex =>
    rw [hidx] at hne
    dsimp only at hne ⊢
    obtain ⟨hlt, -, -⟩ := findIdx?_eq_some_iff_getElem.1 hidx
    split
    · rename_i hnone
      have hauto : channelStatusAutoDisabled ≠ channelStatusEnabled := by decide
      refine iff_of_false hauto fun hen => ?_
      -- the key that is enabled is an enabled one
      rw [hasEnabledMultiKey, List.any_eq_false] at hnone
      refine hnone keyIndex (mem_range.2 hlt) ?_
      rw [setKeyStatus, if_pos hen, keyStatus, get?_erase, if_pos rfl]
      rfl
    · rename_i hsome
      rw [if_neg hsome] at hne
      split
      · rename_i hen
        exact iff_of_true rfl hen.1
      · rename_i hkeep
        rw [if_neg hkeep] at hne
        exact absurd rfl hne

theorem updatedStatusRow_routing {channel : Channel} {b : Bool}
    (h : updatedStatusRow env channel call = some (updated, b)) :
    SameRouting updated channel ∧
      if b then updated.status = channelStatusEnabled ↔ call.status = channelStatusEnabled
      else updated.status = channel.status := by
  obtain ⟨status, info, otherInfo, hmulti⟩ := handlerMultiKeyUpdate_eq env channel call
  have hverify : ∀ row : Channel, SameRouting row channel →
      SameRouting (if row.status = channelStatusEnabled then { row with verifyDisabled := some 0 }
        else row) channel ∧
      (if row.status = channelStatusEnabled then { row with verifyDisabled := some 0 }
        else row).status = row.status := by
    intro row hrow
    split_ifs
    · exact ⟨⟨hrow.models, hrow.group, hrow.priority, hrow.weight, hrow.tag⟩, rfl⟩
    · exact ⟨hrow, rfl⟩
  unfold updatedStatusRow at h
  dsimp only at h
  split at h
  · cases h
  by_cases hkeys : channel.channelInfo.isMultiKey = true
  · rw [if_pos hkeys, if_pos hkeys] at h
    have hen := handlerMultiKeyUpdate_enabled_iff env channel call
    have hrouting : SameRouting (handlerMultiKeyUpdate env channel call) channel := by
      rw [hmulti]
      exact ⟨rfl, rfl, rfl, rfl, rfl⟩
    generalize handlerMultiKeyUpdate env channel call = row at h hen hrouting
    cases h
    obtain ⟨hsame, hstatus⟩ := hverify row hrouting
    refine ⟨hsame, ?_⟩
    rw [hstatus]
    by_cases hne : channel.status = row.status
    · rw [decide_eq_false (not_not.2 hne), if_neg Bool.false_ne_true]
      exact hne.symm
    · rw [decide_eq_true hne, if_pos rfl]
      exact hen hne
  · rw [if_neg hkeys, if_neg hkeys] at h
    cases h
    obtain ⟨hsame, hstatus⟩ := hverify
      { setStatusInfo channel call.reason call.now with status := call.status }
      ⟨rfl, rfl, rfl, rfl, rfl⟩
    refine ⟨hsame, ?_⟩
    rw [hstatus, if_pos rfl]

theorem updateStoredStatus_cases (env : ChannelEnv) (s : ChannelState) (call : StatusCall) :
    updateStoredStatus env s call = (s, false) ∨
      ∃ row updated b, s.channels.get? call.channelId = some row ∧ row.status ≠ call.status ∧
        updatedStatusRow env row call = some (updated, b) ∧
        updateStoredStatus env s call = ({ s with
              channels :=
                if call.saves then saveWithoutKey s.channels call.channelId updated else s.channels
              abilities :=
                if b then
                  updateAbilityStatus s.abilities call.channelId (call.status = channelStatusEnabled)
                else s.abilities }, call.saves) := by
  unfold updateStoredStatus
  cases hrow : s.channels.get? call.channelId with
  | none => exact .inl rfl
  | some row =>
    dsimp only
    by_cases hstatus : row.status = call.status
    · have hearly : updatedStatusRow env row call = none := by
        unfold updatedStatusRow
        rw [if_pos hstatus]
      rw [hearly]
      exact .inl rfl
    · obtain ⟨⟨updated, b⟩, hupdated⟩ : ∃ r, updatedStatusRow env row call = some r := by
        unfold updatedStatusRow
        rw [if_neg hstatus]
        exact ⟨_, rfl⟩
      rw [hupdated]
      exact .inr ⟨row, updated, b, rfl, hstatus, hupdated, rfl⟩

theorem mirrors_updateStored {ok : Bool} (h : Mirrors s)
    (hin : InStep env s (.updateChannelStatus call false))
    (hstored : updateStoredStatus env s call = (s', ok)) :
    Mirrors { s' with
      channels := if ok then s'.channels.modify call.channelId invalidateIQ else s'.channels } := by
  obtain hsame | ⟨row, updated, b, hrow, hne, hupdated, heq⟩ := updateStoredStatus_cases env s call
  · rw [hsame] at hstored
    cases hstored
    exact h
  obtain ⟨hsame, hstatus⟩ := updatedStatusRow_routing hupdated
  rw [heq, (hin row hrow hne).1] at hstored
  cases hstored
  rw [if_pos rfl, if_pos rfl]
  intro id
  by_cases hid : id = call.channelId
  · subst hid
    have hsame' : SameRouting (invalidateIQ { updated with key := row.key }) row :=
      ⟨hsame.models, hsame.group, hsame.priority, hsame.weight, hsame.tag⟩
    refine (h call.channelId).map (g := fun _ => invalidateIQ { updated with key := row.key })
      (f := fun ability => { ability with enabled := updated.status = channelStatusEnabled })
      ?_ (fun group model => ?_) fun channel hchannel => ?_
    · dsimp only
      rw [get?_modify_self, saveWithoutKey, get?_modify_self, hrow]
      rfl
    · have hability := h call.channelId group model
      rw [hrow, bind_some] at hability
      cases b with
      | true =>
        rw [if_pos rfl] at hstatus
        rw [if_pos rfl, updateAbilityStatus, get?_updateWhere, hability]
        simp [hstatus]
      | false =>
        rw [if_neg Bool.false_ne_true] at hstatus
        rw [if_neg Bool.false_ne_true, hability, hstatus]
        split_ifs <;> rfl
    · rw [hrow] at hchannel
      cases hchannel
      exact ⟨hsame'.pairs, hsame'.ability⟩
  · refine (h id).congr ?_ fun group model => ?_
    · dsimp only
      rw [get?_modify_of_ne _ _ hid, saveWithoutKey, get?_modify_of_ne _ _ hid]
    · dsimp only
      cases b with
      | true =>
        rw [if_pos rfl, updateAbilityStatus, get?_updateWhere]
        cases s.abilities.get? (group, model, id) <;> simp [hid]
      | false => rfl

theorem mirrors_updateStatus {abilitiesFail : Bool} (h : Mirrors s)
    (hin : InStep env s (.updateChannelStatus call abilitiesFail)) :
    Mirrors (updateStatus env s call abilitiesFail).1 := by
  have hin' : InStep env s (.updateChannelStatus call false) :=
    fun row hrow hne => ⟨(hin row hrow hne).1, rfl⟩
  -- the cache does not matter
  have hcache : ∀ cache, Mirrors { s with cache := cache } := fun _ => h
  have hstored : ∀ cache, Mirrors
        { (updateStoredStatus env { s with cache := cache } call).1 with
          channels :=
            if (updateStoredStatus env { s with cache := cache } call).2 then
              (updateStoredStatus env { s with cache := cache } call).1.channels.modify
                call.channelId invalidateIQ
            else (updateStoredStatus env { s with cache := cache } call).1.channels
          abilities :=
            if abilitiesFail then s.abilities
            else (updateStoredStatus env { s with cache := cache } call).1.abilities } := by
    intro cache
    obtain hsame | ⟨row, updated, b, hrow, hne, -, -⟩ :=
      updateStoredStatus_cases env { s with cache := cache } call
    · rw [hsame]
      cases abilitiesFail with
      | true => exact h
      | false => exact h
    · rw [(hin row hrow hne).2]
      exact mirrors_updateStored (hcache cache) hin' rfl
  unfold updateStatus updateChannelStatus
  by_cases henv : env.memoryCacheEnabled = true
  · rw [if_pos henv]
    cases updateCachedStatus env s.cache call with
    | none =>
      cases abilitiesFail with
      | true => exact h
      | false => exact h
    | some cache => exact hstored cache
  · rw [if_neg henv]
    exact hstored s.cache

/-! ## Tags -/

theorem mirrors_setStatusByTag {status : ℤ} (h : Mirrors s)
    (hfault : faults.write = false → faults.abilities = false) :
    Mirrors (setStatusByTag s tag status faults).1 := by
  unfold setStatusByTag
  cases hwrite : faults.write with
  | true => exact h
  | false =>
    rw [if_neg Bool.false_ne_true, hfault hwrite, if_neg Bool.false_ne_true]
    intro id
    refine (h id).map (get?_updateWhere _ _ _ _)
      (fun group model => get?_updateWhere _ _ _ _) fun row hrow => ?_
    by_cases htag : row.tag = some tag
    · simp only [htag, abilityOf, decide_true, if_true]
      exact ⟨rfl, rfl⟩
    · simp only [htag, abilityOf, decide_false, false_eq_true, if_false]
      exact ⟨trivial, trivial⟩

theorem editRow_models (edit : TagEdit) (row : Channel) :
    (editRow edit row).models = (givenText edit.models).getD row.models := by
  unfold editRow
  split <;> rfl

theorem editRow_group (edit : TagEdit) (row : Channel) :
    (editRow edit row).group = (givenText edit.group).getD row.group := by
  unfold editRow
  split <;> rfl

theorem editRow_tag (edit : TagEdit) (row : Channel) :
    (editRow edit row).tag = (edit.newTag <|> row.tag) := by
  unfold editRow
  split <;> rfl

theorem abilityOf_editRow (edit : TagEdit) (row : Channel) :
    abilityOf (editRow edit row) =
      { enabled := row.status = channelStatusEnabled
        priority := some ((edit.priority <|> row.priority).getD 0)
        weight := (edit.weight <|> row.weight).getD 0
        tag := edit.newTag <|> row.tag } := by
  unfold editRow
  split <;> rfl

theorem mirrorsAt_editAbilities {edit : TagEdit} (h : MirrorsAt s id)
    (hrecreates : edit.recreates = false)
    (hweight : ∀ row, s.channels.get? id = some row → row.tag = some tag →
      edit.weight = some 0 → row.weight.getD 0 = 0)
    (hchannels : s'.channels = s.channels.updateWhere (fun _ row => row.tag = some tag)
      fun row => editRow edit row)
    (habilities : s'.abilities = updateAbilityByTag s.abilities tag edit) : MirrorsAt s' id := by
  obtain ⟨hmodels, hgroup⟩ : (givenText edit.models).isSome = false ∧
      (givenText edit.group).isSome = false := or_eq_false_iff.1 hrecreates
  have hmodels' : givenText edit.models = none := by simpa using hmodels
  have hgroup' : givenText edit.group = none := by simpa using hgroup
  refine h.map (by rw [hchannels]; exact get?_updateWhere _ _ _ _)
    (fun group model => by
      rw [habilities, updateAbilityByTag]
      exact get?_updateWhere _ _ _ _) fun row hrow => ?_
  by_cases htag : row.tag = some tag
  · have hability : (abilityOf row).tag = some tag := htag
    simp only [htag, hability, decide_true, if_true]
    refine ⟨channelPairs_congr ?_ ?_, ?_⟩
    · rw [editRow_models, hmodels']
      rfl
    · rw [editRow_group, hgroup']
      rfl
    · rw [abilityOf_editRow]
      have hpriority : some ((edit.priority <|> row.priority).getD 0) =
          (edit.priority <|> (abilityOf row).priority) := by
        cases edit.priority <;> rfl
      have hweight' : (edit.weight <|> row.weight).getD 0 =
          if edit.weight.getD 0 = 0 then (abilityOf row).weight else edit.weight.getD 0 := by
        cases hw : edit.weight with
        | none => rfl
        | some w =>
          by_cases hzero : w = 0
          · subst hzero
            exact (hweight row hrow htag hw).symm
          · exact (if_neg hzero).symm
      rw [hpriority, hweight', htag]
      rfl
  · have hability : (abilityOf row).tag ≠ some tag := htag
    simp only [htag, hability, decide_false, false_eq_true, if_false]
    exact ⟨trivial, trivial⟩

theorem mirrors_editChannelByTag {edit : TagEdit} (h : Mirrors s)
    (hin : InStep env s (.editChannelByTag tag edit faults)) :
    Mirrors (editChannelByTag s tag edit faults).1 := by
  unfold editChannelByTag
  cases hwrite : faults.write with
  | true => exact h
  | false =>
    obtain ⟨hfault, hrows⟩ := hin hwrite
    rw [if_neg Bool.false_ne_true, hfault]
    cases hrecreates : edit.recreates with
    | false =>
      rw [if_neg Bool.false_ne_true, if_neg Bool.false_ne_true]
      intro id
      refine mirrorsAt_editAbilities (h id) hrecreates (fun row hrow => ?_) rfl rfl
      have hrow' := hrows id row hrow
      rw [hrecreates, if_neg Bool.false_ne_true] at hrow'
      exact hrow'
    | true =>
      rw [if_pos rfl, if_neg Bool.false_ne_true]
      intro id
      generalize hchannels : s.channels.updateWhere (fun _ row => row.tag = some tag)
        (fun row => editRow edit row) = channels
      have hget : channels.get? id = (s.channels.get? id).map fun row =>
          if row.tag = some tag then editRow edit row else row := by
        rw [← hchannels, get?_updateWhere]
        simp only [decide_eq_true_eq]
      have hnodup : ((channels.rows.filter fun c => c.2.tag = some (edit.newTag.getD tag)).map
          Prod.fst).Nodup := channels.nodup.sublist (filter_sublist.map _)
      have hrebuilt := fun group model => get?_rebuildAbilities hnodup s.abilities (group, model, id)
      simp only [find?_filter_rows] at hrebuilt
      cases hrow : s.channels.get? id with
      | none =>
        rw [hrow, map_none] at hget
        refine (h id).congr (hget.trans hrow.symm) fun group model => ?_
        rw [hrebuilt, hget, bind_none]
      | some row =>
        obtain ⟨htagged, hother⟩ : (row.tag = some tag → Unambiguous (editRow edit row)) ∧
            (row.tag = some (edit.newTag.getD tag) → Unambiguous row) := by
          have hrow' := hrows id row hrow
          rwa [hrecreates, if_pos rfl] at hrow'
        rw [hrow, map_some] at hget
        split at hget
        · rename_i htag
          have hnew : (editRow edit row).tag = some (edit.newTag.getD tag) := by
            rw [editRow_tag, htag]
            cases edit.newTag <;> rfl
          refine mirrorsAt_of_rebuilt hget rfl rfl (htagged htag) fun group model => ?_
          rw [hrebuilt, hget, bind_some, if_pos (decide_eq_true hnew)]
        · by_cases hnew : row.tag = some (edit.newTag.getD tag)
          · refine mirrorsAt_of_rebuilt hget rfl rfl (hother hnew) fun group model => ?_
            rw [hrebuilt, hget, bind_some, if_pos (decide_eq_true hnew)]
          · refine (h id).congr (hget.trans hrow.symm) fun group model => ?_
            rw [hrebuilt, hget, bind_some, if_neg (by simpa using hnew)]

theorem mirrors_batchSetChannelTag {ids : List ℤ} {tag : Option String} {fails : Bool} (h : Mirrors s)
    (hin : InStep env s (.batchSetChannelTag ids tag fails)) :
    Mirrors (batchSetChannelTag s ids tag fails).1 := by
  unfold batchSetChannelTag
  cases hfails : fails with
  | true => exact h
  | false =>
    have hrows := hin hfails
    rw [if_neg Bool.false_ne_true]
    intro id
    have hnodup : ((s.channels.rows.filter fun c => c.1 ∈ ids).map Prod.fst).Nodup :=
      s.channels.nodup.sublist (filter_sublist.map _)
    have hrebuilt := fun group model => get?_rebuildAbilities hnodup s.abilities (group, model, id)
    simp only [find?_filter_rows] at hrebuilt
    have hget := get?_updateWhere s.channels (fun id _ => id ∈ ids)
      (fun row => { row with tag := tag }) id
    cases hrow : s.channels.get? id with
    | none =>
      rw [hrow] at hget
      refine (h id).congr (hget.trans hrow.symm) fun group model => ?_
      rw [hrebuilt, hrow, bind_none]
    | some row =>
      rw [hrow, map_some] at hget
      by_cases hid : id ∈ ids
      · obtain ⟨htag, hunamb⟩ := hrows id hid row hrow
        have hrow' : ({ row with tag := tag } : Channel) = row := by
          rw [← htag]
        rw [if_pos (decide_eq_true hid), hrow'] at hget
        refine mirrorsAt_of_rebuilt hget rfl rfl hunamb fun group model => ?_
        rw [hrebuilt, hrow, bind_some, if_pos (decide_eq_true hid)]
      · rw [if_neg (by simpa using hid)] at hget
        refine (h id).congr (hget.trans hrow.symm) fun group model => ?_
        rw [hrebuilt, hrow, bind_some, if_neg (by simpa using hid)]

/-! ## The IQ test and health -/

theorem sameRouting_enabled (row : Channel) (enables : Prop) [Decidable enables] :
    SameRouting (if enables then { row with status := channelStatusEnabled, iqDisabled := false }
      else row) row := by
  split_ifs <;> exact ⟨rfl, rfl, rfl, rfl, rfl⟩

theorem iqUpdates_spec {row : Channel} {d : IQDecision} {after : ℤ}
    (h : iqUpdates row d = some (updated, after)) :
    updated.models = row.models ∧ updated.group = row.group ∧ updated.weight = row.weight ∧
      updated.tag = row.tag ∧ updated.priority.getD 0 = after := by
  unfold iqUpdates at h
  dsimp only at h
  split at h
  · cases h
  split at h
  · split at h
    · cases h
    split at h
    · cases h
      exact ⟨rfl, rfl, rfl, rfl, rfl⟩
    split at h
    · cases h
    · cases h
      exact ⟨rfl, rfl, rfl, rfl, rfl⟩
  split at h
  · split at h
    · split at h
      · cases h
        have hsame := sameRouting_enabled row
          (row.iqDisabled = true ∧ row.status = channelStatusAutoDisabled)
        exact ⟨hsame.models, hsame.group, hsame.weight, hsame.tag, rfl⟩
      split at h
      · cases h
        exact ⟨rfl, rfl, rfl, rfl, rfl⟩
      · cases h
    · split at h
      · cases h
        exact ⟨rfl, rfl, rfl, rfl, rfl⟩
      · cases h
  · cases h

theorem mirrors_enforceIQ {d : IQDecision} (h : Mirrors s) : Mirrors (enforceIQ s id d).1 := by
  unfold enforceIQ
  split
  · exact h
  cases hrow : s.channels.get? id with
  | none => exact h
  | some row =>
    dsimp only
    split
    · exact h
    cases hupdates : iqUpdates row d with
    | none => exact h
    | some r =>
      obtain ⟨updated, after⟩ := r
      obtain ⟨hmodels, hgroup, hweight, htag, hpriority⟩ := iqUpdates_spec hupdates
      intro id'
      by_cases hid : id' = id
      · subst hid
        refine (h id').map (g := fun _ => updated)
          (f := fun ability => { ability with
            priority := some after
            enabled := updated.status = channelStatusEnabled })
          (get?_modify_self _ _ _) (fun group model => ?_) fun channel hchannel => ?_
        · dsimp only
          rw [get?_updateWhere]
          simp
        · rw [hrow] at hchannel
          cases hchannel
          refine ⟨channelPairs_congr hmodels hgroup, ?_⟩
          unfold abilityOf
          rw [hpriority, hweight, htag]
      · refine (h id').congr (get?_modify_of_ne _ _ hid) fun group model => ?_
        rw [get?_updateWhere]
        cases s.abilities.get? (group, model, id') <;> simp [hid]

theorem healthRow_spec {cfg : ChannelHealthConfig} {row : Channel} {a : HealthStep}
    (h : healthRow cfg row a = some updated) :
    HealthWrites cfg row a ∧ updated.models = row.models ∧ updated.group = row.group ∧
      updated.tag = row.tag ∧ updated.status = row.status ∧
      updated.priority = some (healthValues cfg row a).1 ∧
      updated.weight = some (healthValues cfg row a).2 := by
  cases a with
  | demoteTo call targetLevel reason =>
    rw [healthRow] at h
    unfold demoteTo at h
    simp only [ite_none_left_eq_some] at h
    obtain ⟨hcooldown, hlocked, hload, hban, hlevel, hfails, h⟩ := h
    have hwrites : HealthWrites cfg row (.demoteTo call targetLevel reason) :=
      ⟨hcooldown, eq_false_of_ne_true hlocked, eq_false_of_ne_true hload, eq_true_of_ne_false hban,
        not_le.1 hlevel, eq_false_of_ne_true hfails⟩
    refine ⟨hwrites, ?_⟩
    rw [healthValues]
    by_cases hzero : row.degradeLevel.getD 0 = 0
    · simp only [hzero, if_true] at h ⊢
      cases h
      exact ⟨rfl, rfl, rfl, rfl, rfl, rfl⟩
    · simp only [hzero, if_false] at h ⊢
      cases h
      exact ⟨rfl, rfl, rfl, rfl, rfl, rfl⟩
  | upgradeOneLevel call =>
    rw [healthRow] at h
    unfold upgradeOneLevel at h
    simp only [ite_none_left_eq_some] at h
    obtain ⟨hlocked, hload, hlevel, hfails, h⟩ := h
    have hwrites : HealthWrites cfg row (.upgradeOneLevel call) :=
      ⟨eq_false_of_ne_true hlocked, eq_false_of_ne_true hload, not_le.1 hlevel,
        eq_false_of_ne_true hfails⟩
    split at h
    · rename_i hhealthy
      cases h
      refine ⟨hwrites, rfl, rfl, rfl, rfl, ?_⟩
      rw [healthValues, applyDegrade_of_nonpos hhealthy]
      exact ⟨rfl, rfl⟩
    · cases h
      exact ⟨hwrites, rfl, rfl, rfl, rfl, rfl, rfl⟩
  | preChannelEnableHook call =>
    rw [healthRow] at h
    unfold preChannelEnableHook at h
    simp only [ite_none_left_eq_some] at h
    obtain ⟨henabled, hload, hlevel, hfails, h⟩ := h
    cases h
    exact ⟨⟨eq_true_of_ne_false henabled, eq_false_of_ne_true hload, not_le.1 hlevel,
      eq_false_of_ne_true hfails⟩, rfl, rfl, rfl, rfl, rfl, rfl⟩

theorem mirrors_health {cfg : ChannelHealthConfig} {a : HealthStep} (h : Mirrors s)
    (hin : InStep env s (.health cfg id a)) : Mirrors (updateChannelHealth cfg s id a).1 := by
  unfold updateChannelHealth
  cases hrow : s.channels.get? id with
  | none => exact h
  | some row =>
    dsimp only
    cases hupdated : healthRow cfg row a with
    | none => exact h
    | some updated =>
      obtain ⟨hwrites, hmodels, hgroup, htag, hstatus, hpriority, hweight⟩ := healthRow_spec hupdated
      have hvalues := hin row hrow hwrites
      intro id'
      by_cases hid : id' = id
      · subst hid
        refine (h id').map (g := fun _ => invalidateIQ updated) (f := fun ability => ability)
          (get?_modify_self _ _ _) (fun group model => ?_) fun channel hchannel => ?_
        · cases s.abilities.get? (group, model, id') <;> rfl
        · rw [hrow] at hchannel
          cases hchannel
          refine ⟨channelPairs_congr hmodels hgroup, ?_⟩
          unfold abilityOf invalidateIQ
          rw [hpriority, hweight, htag, hstatus, hvalues]
          rfl
      · exact (h id').congr (get?_modify_of_ne _ _ hid) fun group model => rfl

/-! ## Runs -/

theorem mirrors_call {a : AbilityStep} (h : Mirrors s) (hin : InStep env s a) :
    Mirrors (abilityCall env s a).1 := by
  cases a with
  | insert id given faults => exact mirrors_insert h hin
  | update id given touches faults => exact mirrors_update h hin
  | deleteChannelsWithLedger scopes requireOne fails => exact mirrors_delete h
  | updateChannelStatus call abilitiesFail => exact mirrors_updateStatus h hin
  | enableChannelByTag | disableChannelByTag => exact mirrors_setStatusByTag h hin
  | editChannelByTag tag edit faults => exact mirrors_editChannelByTag h hin
  | batchSetChannelTag ids tag fails => exact mirrors_batchSetChannelTag h hin
  | enforceIQ id d => exact mirrors_enforceIQ h
  | health cfg id a => exact mirrors_health h hin

/-- In every run whose calls keep the abilities in step, the abilities mirror the channels after every
call. -/
theorem abilities_mirror_channels {l : List AbilityStep} (h : Mirrors s)
    (hin : Run.Along (abilityNext env) (InStep env) s l) :
    Run.Along (abilityNext env) (fun s a => Mirrors (abilityCall env s a).1) s l := by
  refine Run.along_of_invariant (I := Mirrors) (fun s a s' hs ha hstep => ?_)
    (fun s a hs ha => mirrors_call hs ha) h hin
  cases hstep
  exact mirrors_call hs ha

theorem mirrors_empty : Mirrors {} := fun _ _ _ => rfl

/-- A channel is created, gets another tag and weight, and is disabled by the tag. -/
theorem mirrors_after_edit_by_tag :
    Run.Along (abilityNext {}) (fun s a => Mirrors (abilityCall {} s a).1) {}
      [.insert 1 { models := "m", group := "g", weight := some 2, tag := some "t" } {},
        .editChannelByTag "t" { newTag := some "u", weight := some 3 } {},
        .disableChannelByTag "u" {}] := by
  refine abilities_mirror_channels mirrors_empty ⟨fun _ => ⟨rfl, ?_⟩, fun _ => ⟨rfl, ?_⟩,
    fun _ => rfl, trivial⟩
  · unfold Unambiguous
    decide +kernel
  · intro id row _
    rw [if_neg (by decide +kernel)]
    exact fun _ hweight => absurd hweight (by decide)

/-- `BatchSetChannelTag` writes the abilities of the channels as they were before it. -/
theorem tag_of_abilities_behind :
    ¬ ∀ (env : ChannelEnv) (s : ChannelState) (l : List AbilityStep), Mirrors s →
      Run.Along (abilityNext env)
        (fun s a => (abilityCall env s a).2 = true → Mirrors (abilityCall env s a).1) s l := by
  intro hall
  have halong := hall {} {} [.insert 1 { models := "m", group := "g" } {},
    .batchSetChannelTag [1] (some "t") false] mirrors_empty
  have hmirror := halong.2.1 rfl 1 "g" "m"
  revert hmirror
  decide +kernel

end BeeApi.Relay
