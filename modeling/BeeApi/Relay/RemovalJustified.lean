import BeeApi.Lib.Run
import BeeApi.Relay.ModelRemoval

/-!
# Removals are justified

A removal and a recheck keep the models of a channel apart from the watched ones, and no removal takes
the last model or passes the cap.  A removal for a missing model rests on a list without the name that
the relay sends, provided that each fetch looks for a name that tells the same: the mapping is looked up
once here, and the relay follows it to its end.
-/

namespace BeeApi.ModelRemoval

open List Option

open Relay (Ability channelStatusEnabled updateAbilities)
open Strings

/-! ## Transactions -/

structure Db.Ok (db : Db) : Prop where
  watched : Normal db.settings.modelMissingRemovedModels
  disjoint : (localModels db.channel).Disjoint db.settings.modelMissingRemovedModels
  reasons : ∀ model, (db.settings.modelRemovalReasons.get? model).isSome →
    model ∈ db.settings.modelMissingRemovedModels

variable {db db' : Db} {call : RemovalCall} {models : List String} {s : State} {cfg : Mapping}

theorem Db.Ok.congr (h : db.Ok) (hchannel : db'.channel.models = db.channel.models)
    (hsettings : db'.settings = db.settings) : db'.Ok := by
  refine ⟨?_, ?_, ?_⟩
  · rw [hsettings]
    exact h.watched
  · rw [hsettings, localModels, hchannel]
    exact h.disjoint
  · rw [hsettings]
    exact h.reasons

variable {channelId now : ℤ} {setting : OperationSetting}

theorem removeModel_rebuilt (h : removeModel channelId setting now call db = .rebuilt db') :
    db'.channel = db.channel ∧ db'.settings = db.settings := by
  unfold removeModel at h
  dsimp only at h
  split_ifs at h
  obtain rfl := Outcome.rebuilt.inj h
  exact ⟨rfl, rfl⟩

theorem removeModel_removed (h : removeModel channelId setting now call db = .removed db') :
    call.originModel ∈ localModels db.channel ∧ 1 < (localModels db.channel).length ∧
      (setting.removalCapApplies call.reason = true →
        ((normalizeModelNames db.settings.modelMissingRemovedModels).length : ℤ) < call.capValue) ∧
      db'.channel.models = joinModels (subtractModelNames (localModels db.channel) [call.originModel]) ∧
      db'.settings = watch setting now call db.settings := by
  unfold removeModel at h
  dsimp only at h
  split_ifs at h with hunavailable hlocal hlast hcap
  obtain rfl := Outcome.removed.inj h
  refine ⟨hlocal, not_le.1 hlast, fun happlies => ?_, rfl, rfl⟩
  exact not_le.1 fun hle => hcap ⟨happlies, hle⟩

theorem Normal.singleton (h : Normal models) {m : String} (hm : m ∈ models) :
    Normal [m] where
  nodup := nodup_cons.2 ⟨not_mem_nil, nodup_nil⟩
  name := fun m' hm' => by
    rw [mem_singleton.1 hm']
    exact h.name m hm

theorem localModels_removed (h : removeModel channelId setting now call db = .removed db') :
    localModels db'.channel = (localModels db.channel).filter fun m => m ∉ [call.originModel] := by
  obtain ⟨hlocal, -, -, hmodels, -⟩ := removeModel_removed h
  have hnormal := normal_localModels db.channel
  rw [hnormal.subtractModelNames_eq (hnormal.singleton hlocal)] at hmodels
  exact localModels_joinModels (hnormal.filter _) hmodels

theorem localModels_removed_ne_nil (h : removeModel channelId setting now call db = .removed db') :
    localModels db'.channel ≠ [] := by
  obtain ⟨-, hlength, -⟩ := removeModel_removed h
  rw [localModels_removed h]
  intro hnil
  -- otherwise all models are the one that is removed
  have hsubset : localModels db.channel ⊆ [call.originModel] := by
    intro m hm
    have hnot := filter_eq_nil_iff.1 hnil m hm
    rw [decide_eq_true_eq, not_not] at hnot
    exact hnot
  have hle := ((normal_localModels db.channel).nodup.subperm hsubset).length_le
  exact absurd hlength (not_lt.2 hle)

theorem Db.Ok.removed (hok : db.Ok)
    (h : removeModel channelId setting now call db = .removed db') : db'.Ok := by
  obtain ⟨hlocal, -, -, -, hsettings⟩ := removeModel_removed h
  have hnormal := normal_localModels db.channel
  have hsingle := hnormal.singleton hlocal
  have hmem : ∀ m, m ∈ db'.settings.modelMissingRemovedModels ↔
      m ∈ db.settings.modelMissingRemovedModels ∨ m ∈ [call.originModel] := by
    intro m
    rw [hsettings]
    exact hok.watched.mem_mergeModelNames hsingle
  refine ⟨?_, ?_, fun model hmodel => (hmem model).2 ?_⟩
  · rw [hsettings]
    exact hok.watched.merge hsingle
  · intro m hm hm'
    rw [localModels_removed h, mem_filter, decide_eq_true_eq] at hm
    exact ((hmem m).1 hm').elim (hok.disjoint hm.1) hm.2
  · obtain ⟨hne, htrim, -⟩ := hnormal.name _ hlocal
    rw [hsettings, watch, setModelRemovalReason, htrim, if_neg hne] at hmodel
    rw [Table.get?_put] at hmodel
    split_ifs at hmodel with heq
    · exact .inr (mem_singleton.2 heq)
    · exact .inl (hok.reasons model hmodel)

/-! ## Rechecks -/

variable {channelId now : ℤ} {setting : OperationSetting} {entries : List (String × String)}

theorem pruned_mem {reasons : Table String ModelRemovalReason} {watched : List String} {model : String}
    (h : ((pruneModelRemovalReasons reasons watched).get? model).isSome) : model ∈ watched := by
  rw [pruneModelRemovalReasons, Table.get?_eraseWhere] at h
  obtain ⟨reason, hreason⟩ := isSome_iff_exists.1 h
  have hkept := (filter_eq_some_iff.1 hreason).2
  by_contra hnot
  rw [decide_eq_true hnot] at hkept
  exact (nomatch hkept)

theorem localModels_restored {restored stillMissing : List String} (hrestored : Normal restored) :
    ∀ m, m ∈ localModels (restoreModels channelId setting now (restored, stillMissing) db).channel →
      m ∈ localModels db.channel ∨ m ∈ restored := by
  intro m hm
  have hnormal := normal_localModels db.channel
  unfold restoreModels at hm
  dsimp only at hm
  split_ifs at hm
  · rw [localModels_joinModels (hnormal.merge hrestored) rfl] at hm
    exact (hnormal.mem_mergeModelNames hrestored).1 hm
  · exact .inl hm

theorem subset_localModels_restored {restored stillMissing : List String}
    (hrestored : Normal restored) : localModels db.channel ⊆
      localModels (restoreModels channelId setting now (restored, stillMissing) db).channel := by
  intro m hm
  have hnormal := normal_localModels db.channel
  unfold restoreModels
  dsimp only
  split_ifs
  · rw [localModels_joinModels (hnormal.merge hrestored) rfl]
    exact (hnormal.mem_mergeModelNames hrestored).2 (.inl hm)
  · exact hm

theorem Db.Ok.restored (hok : db.Ok) (upstreamModels : List String) :
    (restoreModels channelId setting now (classifyModelMissingWatchedModels
      db.settings.modelMissingRemovedModels upstreamModels entries) db).Ok := by
  unfold classifyModelMissingWatchedModels
  rw [hok.watched.normalizeModelNames_eq]
  refine ⟨hok.watched.filter _, ?_, fun model hmodel => pruned_mem hmodel⟩
  intro m hm hm'
  have hmissing := mem_filter.1 hm'
  rcases localModels_restored (hok.watched.filter _) m hm with hlocal | hrestored
  · exact hok.disjoint hlocal hmissing.1
  · exact of_decide_eq_true hmissing.2 (of_decide_eq_true (mem_filter.1 hrestored).2)

theorem Db.Ok.recheck {upstreamModels : Option (List String)} (hok : db.Ok)
    (h : recheckModels channelId setting now entries upstreamModels db = some db') :
    db'.Ok ∧ localModels db.channel ⊆ localModels db'.channel := by
  unfold recheckModels at h
  dsimp only at h
  split_ifs at h
  · cases h
    refine ⟨⟨⟨nodup_nil, nofun⟩, nofun, ?_⟩, List.Subset.refl _⟩
    intro model hmodel
    cases hmodel
  · cases upstreamModels with
    | none =>
      cases h
      exact ⟨⟨hok.watched, hok.disjoint, hok.reasons⟩, List.Subset.refl _⟩
    | some models =>
      cases models with
      | nil =>
        cases h
        exact ⟨⟨hok.watched, hok.disjoint, hok.reasons⟩, List.Subset.refl _⟩
      | cons m ms =>
        cases h
        refine ⟨hok.restored (m :: ms), ?_⟩
        unfold classifyModelMissingWatchedModels
        rw [hok.watched.normalizeModelNames_eq]
        exact subset_localModels_restored (hok.watched.filter _)

/-! ## Runs -/

structure Kept (models : List String) (s : State) : Prop where
  disjoint : (localModels s.db.channel).Disjoint s.db.settings.modelMissingRemovedModels
  reasons : ∀ model, (s.db.settings.modelRemovalReasons.get? model).isSome →
    model ∈ s.db.settings.modelMissingRemovedModels
  notEmptied : models ≠ [] → localModels s.db.channel ≠ []
  capped : ∀ r ∈ s.removals, r.setting.removalCapApplies r.call.reason = true →
    (r.watched.length : ℤ) < r.call.capValue

structure State.Ok (models : List String) (s : State) : Prop where
  db : s.db.Ok
  notEmptied : models ≠ [] → localModels s.db.channel ≠ []
  capped : ∀ r ∈ s.removals, r.setting.removalCapApplies r.call.reason = true →
    (r.watched.length : ℤ) < r.call.capValue

theorem State.Ok.kept (h : s.Ok models) : Kept models s :=
  ⟨h.db.disjoint, h.db.reasons, h.notEmptied, h.capped⟩

theorem State.Ok.afterRemoval (h : s.Ok models) (setting : OperationSetting) (call : RemovalCall) :
    (afterRemoval s setting call (removeModel channelId setting now call s.db)).Ok models := by
  cases houtcome : removeModel channelId setting now call s.db with
  | channelUnavailable => exact h
  | lastModel => exact h
  | capped removedCount => exact h
  | rebuilt db =>
    obtain ⟨hchannel, hsettings⟩ := removeModel_rebuilt houtcome
    refine ⟨h.db.congr (congrArg _ hchannel) hsettings, fun hne => ?_, h.capped⟩
    show localModels db.channel ≠ []
    rw [hchannel]
    exact h.notEmptied hne
  | removed db =>
    obtain ⟨-, -, hcap, -⟩ := removeModel_removed houtcome
    rw [h.db.watched.normalizeModelNames_eq] at hcap
    refine ⟨h.db.removed houtcome, fun _ => localModels_removed_ne_nil houtcome, ?_⟩
    intro r hr
    rcases mem_append.1 hr with hr | hr
    · exact h.capped r hr
    · rw [mem_singleton.1 hr]
      exact hcap

theorem State.Ok.step {s' : State} {a : Action} (h : s.Ok models)
    (hstep : step cfg channelId s a = some s') : s'.Ok models := by
  cases a with
  | fetchRemoval originModel reason isResponsesCompact upstreamModels entries setting =>
    rw [ModelRemoval.step] at hstep
    split_ifs at hstep
    cases hstep
    exact ⟨h.db, h.notEmptied, h.capped⟩
  | removal i setting =>
    rw [ModelRemoval.step] at hstep
    split at hstep
    · cases hstep
    · cases hstep
      have hcalls : State.Ok models { s with calls := s.calls.eraseIdx i } :=
        ⟨h.db, h.notEmptied, h.capped⟩
      exact hcalls.afterRemoval setting _
  | fetchRecheck | tick =>
    cases hstep
    exact ⟨h.db, h.notEmptied, h.capped⟩
  | recheck i entries setting =>
    rw [ModelRemoval.step] at hstep
    split at hstep
    · cases hstep
    · rename_i upstreamModels _
      split_ifs at hstep
      cases hstep
      cases hdb : recheckModels channelId setting s.now entries upstreamModels s.db with
      | none => exact ⟨h.db, h.notEmptied, h.capped⟩
      | some db =>
        obtain ⟨hok, hsubset⟩ := h.db.recheck hdb
        refine ⟨hok, fun hne hnil => h.notEmptied hne ?_, h.capped⟩
        exact subset_nil.1 (hnil ▸ hsubset)
  | setStatus status =>
    cases hstep
    exact ⟨h.db.congr rfl rfl, h.notEmptied, h.capped⟩

/-! ## The evidence of a removal -/

/-- The list of the call lacks the name that the relay sends. -/
def RemovalCall.Justified (cfg : Mapping) (call : RemovalCall) : Prop :=
  call.reason = .modelMissing → call.upstreamModels ≠ [] ∧
    ∀ name, cfg.modelMappedHelper call.isResponsesCompact call.originModel = .ok name →
      name ∉ call.upstreamModels

/-- A fetch finds the name of one lookup whenever it finds the name that the relay sends. -/
def FindsTarget (cfg : Mapping) : State → Action → Prop
  | _, .fetchRemoval originModel .modelMissing isResponsesCompact (some upstreamModels) entries _ =>
    ∀ name, cfg.modelMappedHelper isResponsesCompact originModel = .ok name →
      name ∈ upstreamModels → upstreamTarget entries originModel ∈ upstreamModels
  | _, _ => True

/-- Every removal for a missing model has its evidence. -/
def State.Justified (cfg : Mapping) (s : State) : Prop :=
  ∀ r ∈ s.removals, r.call.Justified cfg

theorem justified_of_fetchedCall {originModel : String} {reason : ModelRemovalReason}
    {isResponsesCompact : Bool} {upstreamModels : Option (List String)} (hfinds : FindsTarget cfg s
      (.fetchRemoval originModel reason isResponsesCompact upstreamModels entries setting))
    (h : fetchedCall originModel reason isResponsesCompact upstreamModels entries setting s.db =
      some call) : call.Justified cfg := by
  unfold fetchedCall at h
  split_ifs at h
  cases upstreamModels with
  | none => exact (nomatch h)
  | some models =>
    cases models with
    | nil => exact (nomatch h)
    | cons m ms =>
      dsimp only at h
      split_ifs at h with hskip
      cases h
      intro hreason
      subst hreason
      refine ⟨cons_ne_nil _ _, fun name hname hmem => hskip ?_⟩
      rw [shouldSkipRemoval, decide_eq_true rfl, Bool.true_and]
      exact decide_eq_true (hfinds name hname hmem)

/-- The invariant behind it speaks of the calls on their way as well. -/
structure State.Evident (cfg : Mapping) (s : State) : Prop where
  calls : ∀ call ∈ s.calls, call.Justified cfg
  removals : s.Justified cfg

theorem State.Evident.step {s' : State} {a : Action} (h : s.Evident cfg)
    (hfinds : FindsTarget cfg s a) (hstep : ModelRemoval.step cfg channelId s a = some s') :
    s'.Evident cfg := by
  cases a with
  | fetchRemoval originModel reason isResponsesCompact upstreamModels entries setting =>
    rw [ModelRemoval.step] at hstep
    split_ifs at hstep
    cases hstep
    refine ⟨fun call hcall => ?_, h.removals⟩
    rcases mem_append.1 hcall with hcall | hcall
    · exact h.calls call hcall
    · exact justified_of_fetchedCall hfinds (mem_toList.1 hcall)
  | removal i setting =>
    rw [ModelRemoval.step] at hstep
    split at hstep
    · cases hstep
    · rename_i call hcall
      cases hstep
      have hcalls : ∀ call ∈ s.calls.eraseIdx i, call.Justified cfg :=
        fun call hmem => h.calls call (mem_of_mem_eraseIdx hmem)
      cases removeModel channelId setting s.now call s.db with
      | removed db =>
        refine ⟨hcalls, fun r hr => ?_⟩
        rcases mem_append.1 hr with hr | hr
        · exact h.removals r hr
        · rw [mem_singleton.1 hr]
          exact h.calls call (mem_of_getElem? hcall)
      | _ => exact ⟨hcalls, h.removals⟩
  | fetchRecheck | setStatus | tick =>
    cases hstep
    exact ⟨h.calls, h.removals⟩
  | recheck i entries setting =>
    rw [ModelRemoval.step] at hstep
    split at hstep
    · cases hstep
    · split_ifs at hstep
      cases hstep
      exact ⟨h.calls, h.removals⟩

/-- The lists are kept apart and the cap holds; where each fetch finds its target, every removal of a
missing model is justified. -/
theorem removals_justified {cfg : Mapping} {channelId : ℤ} {channel : Relay.Channel} {disabled : Bool}
    {abilities : Table (String × String × ℤ) Ability} {now : ℤ} {l : List Action} {s : State}
    (h : Run.run (step cfg channelId)
      { db := { channel, settings := { modelMissingRemovalDisabled := disabled }, abilities }, now } l =
        some s) :
    Kept (localModels channel) s ∧ (Run.Along (step cfg channelId) (FindsTarget cfg)
        { db := { channel, settings := { modelMissingRemovalDisabled := disabled }, abilities }, now } l →
          s.Justified cfg) := by
  constructor
  · refine (Run.invariant (fun _ _ _ hs hstep => State.Ok.step hs hstep) ?_ h).kept
    refine ⟨⟨⟨nodup_nil, by simp⟩, by simp, ?_⟩, id, by simp⟩
    intro model hmodel
    cases hmodel
  · intro hfinds
    refine (Run.invariant_along (fun _ _ _ hs hok hstep => State.Evident.step hs hok hstep) ?_ hfinds
      h).removals
    exact ⟨by simp, fun r hr => absurd hr not_mem_nil⟩

def chainMapping : Mapping where
  unmarshal := fun _ => some ((Table.put ∅ "gpt" "gpt-alias").put "gpt-alias" "gpt-4o")
  modelMapping := some "\x7b\"gpt\":\"gpt-alias\",\"gpt-alias\":\"gpt-4o\"\x7d"

def sampleState : State where
  db := { channel := { models := "gpt,o3" } }

def sampleRun (originModel : String) (upstreamModels : List String) : List Action :=
  [.fetchRemoval originModel .modelMissing false (some upstreamModels)
      [("gpt", "gpt-alias"), ("gpt-alias", "gpt-4o")] {}, .removal 0 {}]

def removedModels (s : State) : List RemovalCall × List String :=
  (s.removals.map (·.call), localModels s.db.channel)

def missingCall (originModel : String) : RemovalCall where
  originModel := originModel
  reason := .modelMissing
  isResponsesCompact := false
  upstreamModels := ["gpt-4o"]
  capValue := 5

theorem removals_justified_o3 : ∃ s,
    Run.run (step chainMapping 7) sampleState (sampleRun "o3" ["gpt-4o"]) = some s ∧
      removedModels s = ([missingCall "o3"], ["gpt"]) ∧ Kept (localModels sampleState.db.channel) s ∧
      s.Justified chainMapping := by
  refine exists_some_imp (by decide +kernel) fun s hs hremoved => ⟨hremoved, ?_⟩
  obtain ⟨hkept, hjustified⟩ := removals_justified hs
  refine ⟨hkept, hjustified ⟨?_, trivial, trivial⟩⟩
  intro name hname hmem
  have hhelper : chainMapping.modelMappedHelper false "o3" = .ok "o3" := by decide +kernel
  cases hhelper.symm.trans hname
  revert hmem
  decide +kernel

/-- The relay sends "gpt-4o", which the upstream lists, and "gpt" is removed as missing. -/
theorem removal_unjustified : ∃ s,
    Run.run (step chainMapping 7) sampleState (sampleRun "gpt" ["gpt-4o"]) = some s ∧
      removedModels s = ([missingCall "gpt"], ["o3"]) ∧ ¬ s.Justified chainMapping := by
  have hhelper : chainMapping.modelMappedHelper false "gpt" = .ok "gpt-4o" := by decide +kernel
  refine exists_some_imp (by decide +kernel) fun s _ hremoved =>
    ⟨hremoved, fun hjustified => ?_⟩
  have hmem : missingCall "gpt" ∈ s.removals.map (·.call) := by
    rw [(Prod.mk.inj hremoved).1]
    exact mem_cons_self
  obtain ⟨r, hr, hcall⟩ := mem_map.1 hmem
  have hcalled := hjustified r hr
  rw [hcall] at hcalled
  exact (hcalled rfl).2 "gpt-4o" hhelper mem_cons_self

end BeeApi.ModelRemoval
