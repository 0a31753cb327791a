import BeeApi.Lib.Chains
import BeeApi.Lib.Run
import BeeApi.Relay.ModelMapping

/-!
# The mapped model of every attempt

A request keeps one `RelayInfo` over all its attempts.  An attempt resets the part of the channel and then
follows the mapping of its own channel.  In the compact mode the name that was found is written back into
the part that later attempts read.
-/

namespace BeeApi.MappedAttempts

open Chains ModelRemoval List

/-! ## The mapping of one attempt -/

structure RelayInfo where
  /-- `RelayMode` is `RelayModeResponsesCompact`. -/
  isResponsesCompact : Bool
  originModelName : String
  upstreamModelName : String := ""
  isModelMapped : Bool := false
  /-- The model of `Request`. -/
  requestModel : String := ""
deriving DecidableEq

/-- The channel of an attempt is set up for `OriginModelName`, which is the original model of the context. -/
def RelayInfo.initChannelMeta (info : RelayInfo) : RelayInfo :=
  { info with
    upstreamModelName := info.originModelName
    isModelMapped := false
    requestModel := info.originModelName }

def withCompactModelSuffix (modelName : String) : String :=
  if compactModelSuffix.toList.isSuffixOf modelName.toList then modelName
  else modelName ++ compactModelSuffix

def RelayInfo.mappingModelName (info : RelayInfo) : String :=
  if info.isResponsesCompact then trimCompactSuffix info.originModelName else info.originModelName

/-- What `ModelMappedHelper` does after the loop. -/
def RelayInfo.writeBack (info : RelayInfo) (mappingModelName : String) : RelayInfo :=
  let info :=
    if info.isResponsesCompact then
      let finalUpstreamModelName :=
        if info.isModelMapped ∧ info.upstreamModelName ≠ "" then info.upstreamModelName
        else mappingModelName
      { info with
        upstreamModelName := finalUpstreamModelName
        originModelName := withCompactModelSuffix finalUpstreamModelName }
    else info
  { info with requestModel := info.upstreamModelName }

def modelMappedHelper (cfg : Mapping) (info : RelayInfo) : RelayInfo × Option String :=
  let mappingModelName := info.mappingModelName
  let modelMapping := cfg.modelMapping.getD ""
  if modelMapping = "" ∨ modelMapping = "\x7b\x7d" then (info.writeBack mappingModelName, none)
  else
    match cfg.unmarshal modelMapping with
    | none => (info, some unmarshalFailed)
    | some modelMap =>
      match followChain modelMap info.originModelName (modelMap.rows.length + 1) mappingModelName
          [mappingModelName] info.isModelMapped with
      | .unmapped => ({ info with isModelMapped := false }, none)
      -- the loop comes back to another name only after its first redirection
      | .cycle => ({ info with isModelMapped := true }, some containsCycle)
      | .ending currentModel true =>
        ({ info with isModelMapped := true, upstreamModelName := currentModel }.writeBack
          mappingModelName, none)
      | .ending _ false => ({ info with isModelMapped := false }.writeBack mappingModelName, none)

def attempt (cfg : Mapping) (info : RelayInfo) : RelayInfo × Option String :=
  modelMappedHelper cfg info.initChannelMeta

/-- The model that the attempt sends upstream, or its error. -/
def sent (r : RelayInfo × Option String) : Except String String :=
  match r.2 with
  | some err => .error err
  | none => .ok r.1.upstreamModelName

/-! ## The end of the chain -/

/-- The map that the loop follows. -/
def tableOf (cfg : Mapping) : Option (Table String String) :=
  let modelMapping := cfg.modelMapping.getD ""
  if modelMapping = "" ∨ modelMapping = "\x7b\x7d" then some ∅ else cfg.unmarshal modelMapping

/-- The entry of a model; an empty one does not count. -/
def entry (modelMap : Table String String) (model : String) : Option String :=
  (modelMap.get? model).filter (· ≠ "")

section

variable {modelMap : Table String String} {model currentModel mappedModel originModelName : String}

theorem entry_eq_some_iff :
    entry modelMap model = some mappedModel ↔ modelMap.get? model = some mappedModel ∧ mappedModel ≠ "" := by
  simp [entry, Option.filter_eq_some_iff]

theorem stops_of_entry_eq_none (h : entry modelMap model = none) : Stops (entry modelMap) model := by
  intro b hb
  rw [h] at hb
  cases hb

/-- What the loop has found, for the chain of `model`. -/
def Found (modelMap : Table String String) (originModelName model : String) : Chain → Prop
  | .unmapped => EndsAt (entry modelMap) model originModelName
  | .cycle => EntersCycle (entry modelMap) model
  | .ending e isModelMapped =>
    EndsAt (entry modelMap) model e ∧ (isModelMapped = false → e = model) ∧ (isModelMapped = true → e ≠ "")

/-- Every visited model leads to the current one, so a model that is met again closes a cycle. -/
theorem found_followChain {fuel : ℕ} {visitedModels : List String} {isModelMapped : Bool}
    (hvisited : ∀ m ∈ visitedModels, m ≠ currentModel → m ∈ modelMap.rows.map Prod.fst)
    (hnodup : visitedModels.Nodup) (hcurrent : currentModel ∈ visitedModels)
    (hfuel : modelMap.rows.length + 1 < fuel + visitedModels.length)
    (hback : ∀ m ∈ visitedModels, Reaches (entry modelMap) m currentModel)
    (hreach : Reaches (entry modelMap) model currentModel)
    (hstart : isModelMapped = false → currentModel = model)
    (hne : isModelMapped = true → currentModel ≠ "") :
    Found modelMap originModelName model
      (followChain modelMap originModelName fuel currentModel visitedModels isModelMapped) := by
  induction fuel generalizing currentModel visitedModels isModelMapped with
  | zero =>
    have hlength := visited_length_le hvisited hnodup hcurrent
    omega
  | succ fuel ih =>
    rw [followChain]
    cases hget : modelMap.get? currentModel with
    | none => exact ⟨⟨hreach, stops_of_entry_eq_none (by simp [entry, hget])⟩, hstart, hne⟩
    | some mappedModel =>
      by_cases hempty : mappedModel = ""
      · simp only [hempty, if_true]
        exact ⟨⟨hreach, stops_of_entry_eq_none (by simp [entry, hget, hempty])⟩, hstart, hne⟩
      have hentry : entry modelMap currentModel = some mappedModel := entry_eq_some_iff.2 ⟨hget, hempty⟩
      by_cases hmem : mappedModel ∈ visitedModels
      · by_cases hself : mappedModel = currentModel
        · have hends : EndsAt (entry modelMap) model currentModel := by
            refine ⟨hreach, fun b hb => ?_⟩
            rw [hentry] at hb
            exact (Option.some.inj hb).symm.trans hself
          subst hself
          by_cases horigin : mappedModel = originModelName
          · subst horigin
            simpa [hempty, hmem, Found] using hends
          · simpa [hempty, hmem, horigin, Found] using hends
        · simp only [hempty, hmem, hself, if_true, if_false]
          exact ⟨currentModel, mappedModel, hreach, hentry, hself, hback _ hmem⟩
      · simp only [hempty, hmem, if_false]
        apply ih (mem_keys_of_visited hget hvisited) (nodup_cons.2 ⟨hmem, hnodup⟩)
          mem_cons_self
        · simp only [length_cons]
          omega
        · intro m hm
          rcases mem_cons.1 hm with rfl | hm
          · exact .refl
          · exact (hback m hm).tail hentry
        · exact hreach.tail hentry
        · simp
        · simp [hempty]

theorem found_followChain_start (modelMap : Table String String) (originModelName model : String) :
    Found modelMap originModelName model
      (followChain modelMap originModelName (modelMap.rows.length + 1) model [model] false) := by
  apply found_followChain
  · simp
  · simp
  · simp
  · simp
  · intro m hm
    rw [mem_singleton.1 hm]
    exact .refl
  · exact .refl
  · simp
  · simp

end

/-! ## The name that is sent -/

section

variable {cfg : Mapping} {info : RelayInfo} {modelMap : Table String String} {e : String}

@[simp] theorem mappingModelName_initChannelMeta :
    info.initChannelMeta.mappingModelName = info.mappingModelName := rfl

@[simp] theorem originModelName_initChannelMeta :
    info.initChannelMeta.originModelName = info.originModelName := rfl

@[simp] theorem isModelMapped_initChannelMeta : info.initChannelMeta.isModelMapped = false := rfl

theorem trimCompactSuffix_withCompactModelSuffix (model : String) :
    trimCompactSuffix (withCompactModelSuffix model) = trimCompactSuffix model := by
  by_cases hsuffix : compactModelSuffix.toList.isSuffixOf model.toList
  · rw [withCompactModelSuffix, if_pos hsuffix]
  · rw [withCompactModelSuffix, if_neg hsuffix]
    simp [trimCompactSuffix, hsuffix, String.toList_append, take_left' String.length_toList]

/-- The chain of the requested name decides what is sent and, in the compact mode, what is requested next. -/
def Sends (modelMap : Table String String) (info : RelayInfo) (r : RelayInfo × Option String) : Prop :=
  (EntersCycle (entry modelMap) info.mappingModelName ∧ r.2 = some containsCycle ∧
      r.1.originModelName = info.originModelName) ∨
    ∃ e, EndsAt (entry modelMap) info.mappingModelName e ∧ r.2 = none ∧ r.1.upstreamModelName = e ∧
      r.1.requestModel = e ∧ (info.isResponsesCompact = false → r.1.originModelName = info.originModelName) ∧
      (info.isResponsesCompact = true → trimCompactSuffix r.1.originModelName = trimCompactSuffix e)

theorem sends_of_unmapped (hends : EndsAt (entry modelMap) info.mappingModelName info.mappingModelName) :
    Sends modelMap info
      (({ info.initChannelMeta with isModelMapped := false } : RelayInfo).writeBack
        info.mappingModelName, none) := by
  refine .inr ⟨_, hends, rfl, ?_⟩
  cases hcompact : info.isResponsesCompact <;>
    simp [RelayInfo.writeBack, RelayInfo.initChannelMeta, RelayInfo.mappingModelName, hcompact,
      trimCompactSuffix_withCompactModelSuffix]

theorem sends_of_mapped (hends : EndsAt (entry modelMap) info.mappingModelName e) (hne : e ≠ "") :
    Sends modelMap info
      (({ info.initChannelMeta with isModelMapped := true, upstreamModelName := e } : RelayInfo).writeBack
        info.mappingModelName, none) := by
  refine .inr ⟨_, hends, rfl, ?_⟩
  cases hcompact : info.isResponsesCompact <;>
    simp [RelayInfo.writeBack, RelayInfo.initChannelMeta, hcompact, hne,
      trimCompactSuffix_withCompactModelSuffix]

theorem sends_attempt (info : RelayInfo) (htable : tableOf cfg = some modelMap) :
    Sends modelMap info (attempt cfg info) := by
  rw [tableOf] at htable
  split at htable
  · rename_i htext
    cases htable
    simp only [attempt, modelMappedHelper, if_pos htext]
    exact sends_of_unmapped ⟨.refl, stops_of_entry_eq_none (by simp [entry])⟩
  · rename_i htext
    have hfound := found_followChain_start modelMap info.originModelName info.mappingModelName
    simp only [attempt, modelMappedHelper, if_neg htext, htable, mappingModelName_initChannelMeta,
      originModelName_initChannelMeta, isModelMapped_initChannelMeta]
    cases hchain : followChain modelMap info.originModelName (modelMap.rows.length + 1)
        info.mappingModelName [info.mappingModelName] false with
    | unmapped =>
      rw [hchain] at hfound
      exact .inr ⟨_, hfound, rfl, rfl, rfl, fun _ => rfl, fun _ => rfl⟩
    | cycle =>
      rw [hchain] at hfound
      exact .inl ⟨hfound, rfl, rfl⟩
    | ending currentModel isModelMapped =>
      rw [hchain] at hfound
      obtain ⟨hends, hstart, hne⟩ := hfound
      cases isModelMapped with
      | true => exact sends_of_mapped hends (hne rfl)
      | false =>
        rw [hstart rfl] at hends
        exact sends_of_unmapped hends

theorem attempt_of_unmarshal_failed (htable : tableOf cfg = none) :
    attempt cfg info = (info.initChannelMeta, some unmarshalFailed) := by
  rw [tableOf] at htable
  split_ifs at htable with htext
  simp [attempt, modelMappedHelper, htext, htable]

/-- The name alone is what the upkeep of the model lists reads. -/
theorem sent_attempt : sent (attempt cfg info) =
    cfg.modelMappedHelper info.isResponsesCompact info.originModelName := by
  have hname : (if info.isResponsesCompact then trimCompactSuffix info.originModelName
      else info.originModelName) = info.mappingModelName := rfl
  have hunmapped : sent (({ info.initChannelMeta with isModelMapped := false } : RelayInfo).writeBack
      info.mappingModelName, none) = .ok info.mappingModelName := by
    cases hcompact : info.isResponsesCompact <;>
      simp [sent, RelayInfo.writeBack, RelayInfo.initChannelMeta, RelayInfo.mappingModelName, hcompact]
  simp only [attempt, modelMappedHelper, Mapping.modelMappedHelper, mappingModelName_initChannelMeta,
    originModelName_initChannelMeta, isModelMapped_initChannelMeta, hname]
  by_cases htext : cfg.modelMapping.getD "" = "" ∨ cfg.modelMapping.getD "" = "\x7b\x7d"
  · rw [if_pos htext, if_pos htext]
    exact hunmapped
  · simp only [if_neg htext]
    cases cfg.unmarshal (cfg.modelMapping.getD "") with
    | none => rfl
    | some modelMap =>
      have hfound := found_followChain_start modelMap info.originModelName info.mappingModelName
      simp only
      cases hchain : followChain modelMap info.originModelName (modelMap.rows.length + 1)
          info.mappingModelName [info.mappingModelName] false with
      | unmapped => rfl
      | cycle => rfl
      | ending currentModel isModelMapped =>
        rw [hchain] at hfound
        cases isModelMapped with
        | false => exact hunmapped
        | true =>
          cases info.initChannelMeta.isResponsesCompact <;>
            simp [sent, RelayInfo.writeBack, hfound.2.2 rfl]

theorem sent_eq_of_mappingModelName {info' : RelayInfo}
    (h : info'.mappingModelName = info.mappingModelName) :
    sent (attempt cfg info') = sent (attempt cfg info) := by
  cases htable : tableOf cfg with
  | none => simp [attempt_of_unmarshal_failed htable, sent]
  | some modelMap =>
    have hsends := sends_attempt info htable
    have hsends' := sends_attempt info' htable
    rw [Sends, h] at hsends'
    rcases hsends with ⟨hcycle, herr, -⟩ | ⟨e, he, herr, hup, -⟩ <;>
      rcases hsends' with ⟨hcycle', herr', -⟩ | ⟨e', he', herr', hup', -⟩
    · simp [sent, herr, herr']
    · exact absurd hcycle he'.not_entersCycle
    · exact absurd hcycle' he.not_entersCycle
    · simp [sent, herr, herr', hup, hup', he.unique he']

end

/-! ## The attempts of a request -/

theorem isResponsesCompact_attempt (cfg : Mapping) (info : RelayInfo) :
    (attempt cfg info).1.isResponsesCompact = info.isResponsesCompact := by
  have hwriteBack : ∀ (info : RelayInfo) (model : String),
      (info.writeBack model).isResponsesCompact = info.isResponsesCompact := by
    intro info model
    simp only [RelayInfo.writeBack]
    split_ifs <;> rfl
  simp only [attempt, modelMappedHelper]
  split_ifs
  · exact hwriteBack _ _
  · split
    · rfl
    · split <;> first | rfl | exact hwriteBack _ _

/-- What later attempts read after an attempt over a channel. -/
def afterAttempt (info : RelayInfo) (cfg : Mapping) : Option RelayInfo := some (attempt cfg info).1

/-- The mapping of the channel leads the compact request to no other name. -/
def KeepsName (info : RelayInfo) (cfg : Mapping) : Prop :=
  info.isResponsesCompact = true → ∀ modelMap, tableOf cfg = some modelMap →
    ∀ e, EndsAt (entry modelMap) info.mappingModelName e → trimCompactSuffix e = info.mappingModelName

theorem mappingModelName_attempt {cfg : Mapping} {info : RelayInfo} (hkeeps : KeepsName info cfg) :
    (attempt cfg info).1.mappingModelName = info.mappingModelName := by
  have hmode := isResponsesCompact_attempt cfg info
  cases htable : tableOf cfg with
  | none => rw [attempt_of_unmarshal_failed htable, mappingModelName_initChannelMeta]
  | some modelMap =>
    rcases sends_attempt info htable with ⟨-, -, horigin⟩ | ⟨e, he, -, -, -, hnormal, hcompact⟩
    · simp [RelayInfo.mappingModelName, hmode, horigin]
    · cases hinfo : info.isResponsesCompact with
      | false => simp [RelayInfo.mappingModelName, hmode, hinfo, hnormal hinfo]
      | true =>
        have hname := hkeeps hinfo modelMap htable e he
        rw [RelayInfo.mappingModelName, hmode, hinfo, if_pos rfl, hcompact hinfo, hname]

theorem mappingModelName_attempt_of_led {cfg : Mapping} {info : RelayInfo}
    {modelMap : Table String String} {e : String} (hmode : info.isResponsesCompact = true)
    (htable : tableOf cfg = some modelMap) (he : EndsAt (entry modelMap) info.mappingModelName e) :
    (attempt cfg info).1.mappingModelName = trimCompactSuffix e := by
  rcases sends_attempt info htable with ⟨hcycle, -⟩ | ⟨e', he', -, -, -, -, hcompact⟩
  · exact absurd hcycle he.not_entersCycle
  · rw [RelayInfo.mappingModelName, isResponsesCompact_attempt, hmode, if_pos rfl, hcompact hmode,
      he'.unique he]

theorem mappingModelName_run {info info' : RelayInfo} {l : List Mapping}
    (hkeeps : Run.Along afterAttempt KeepsName info l) (hrun : Run.run afterAttempt info l = some info') :
    info'.mappingModelName = info.mappingModelName := by
  apply @Run.invariant_along RelayInfo Mapping afterAttempt KeepsName
    (fun s => s.mappingModelName = info.mappingModelName) ?_ _ _ _ rfl hkeeps hrun
  intro s cfg s' hname hkeeps hstep
  cases hstep
  rw [mappingModelName_attempt hkeeps, hname]

/-- After attempts that lead the request to no other name, the next one still maps what the client asked
for: the loop ends, it fails exactly in a cycle, and the upstream model is the end of the chain. -/
theorem attempt_sends_the_clients_model {info info' : RelayInfo} {l : List Mapping}
    (hkeeps : Run.Along afterAttempt KeepsName info l) (hrun : Run.run afterAttempt info l = some info')
    (cfg : Mapping) :
    sent (attempt cfg info') = sent (attempt cfg info) ∧ ∀ modelMap, tableOf cfg = some modelMap →
        ((attempt cfg info').2 ≠ none ↔ EntersCycle (entry modelMap) info.mappingModelName) ∧
        ((attempt cfg info').2 = none →
          EndsAt (entry modelMap) info.mappingModelName (attempt cfg info').1.upstreamModelName) ∧
        ∀ k, followChain modelMap info'.originModelName (modelMap.rows.length + 1 + k)
            info'.mappingModelName [info'.mappingModelName] false =
          followChain modelMap info'.originModelName (modelMap.rows.length + 1)
            info'.mappingModelName [info'.mappingModelName] false := by
  have hname := mappingModelName_run hkeeps hrun
  refine ⟨sent_eq_of_mappingModelName hname, fun modelMap htable => ?_⟩
  have hsends := sends_attempt info' htable
  rw [Sends, hname] at hsends
  refine ⟨?_, ?_, followChain_enough modelMap _ _⟩
  · rcases hsends with ⟨hcycle, herr, -⟩ | ⟨e, he, herr, -⟩
    · simp [hcycle, herr]
    · simp [he.not_entersCycle, herr]
  · intro hok
    rcases hsends with ⟨-, herr, -⟩ | ⟨e, he, -, hup, -⟩
    · simp [hok] at herr
    · rwa [hup]

def singleMapping (model mappedModel : String) : Mapping where
  unmarshal := fun _ => some (Table.put ∅ model mappedModel)
  modelMapping := some ("\x7b\"" ++ model ++ "\":\"" ++ mappedModel ++ "\"\x7d")

/-- In the compact mode the first channel maps the name to its compact spelling. -/
theorem attempt_sends_the_clients_model_after_a_retry :
    sent (attempt (singleMapping "a" "c") ⟨false, "a", "b", true, "b"⟩) = .ok "c" ∧
      sent (attempt (singleMapping "a" "c")
        ⟨true, "a-openai-compact", "a-openai-compact", true, "a-openai-compact"⟩) = .ok "c" := by
  have hrun : Run.run afterAttempt ⟨false, "a", "", false, ""⟩ [singleMapping "a" "b"] =
      some ⟨false, "a", "b", true, "b"⟩ := by decide +kernel
  have hkeeps : Run.Along afterAttempt KeepsName ⟨false, "a", "", false, ""⟩ [singleMapping "a" "b"] := by
    simp [Run.Along, KeepsName, afterAttempt]
  have hrunCompact : Run.run afterAttempt ⟨true, "a-openai-compact", "", false, ""⟩
      [singleMapping "a" "a-openai-compact"] =
    some ⟨true, "a-openai-compact", "a-openai-compact", true, "a-openai-compact"⟩ := by decide +kernel
  have hkeepsCompact : Run.Along afterAttempt KeepsName ⟨true, "a-openai-compact", "", false, ""⟩
      [singleMapping "a" "a-openai-compact"] := by
    rw [Run.along_cons rfl]
    refine ⟨fun _ modelMap htable e he => ?_, trivial⟩
    cases htable
    have hends : EndsAt (entry (Table.put ∅ "a" "a-openai-compact")) "a" "a-openai-compact" :=
      ⟨.single (by decide +kernel), fun b h => by cases h⟩
    rw [he.unique hends]
    decide +kernel
  rw [(attempt_sends_the_clients_model hkeeps hrun (singleMapping "a" "c")).1,
    (attempt_sends_the_clients_model hkeepsCompact hrunCompact (singleMapping "a" "c")).1]
  decide +kernel

/-- In the compact mode the second channel, which has no mapping, gets the model of the first one. -/
theorem compact_attempt_sends_another_model :
    ¬ ∀ (info info' : RelayInfo) (l : List Mapping), Run.run afterAttempt info l = some info' →
      ∀ cfg, sent (attempt cfg info') = sent (attempt cfg info) := by
  intro h
  have hsent := h ⟨true, "a-openai-compact", "", false, ""⟩ ⟨true, "b-openai-compact", "b", true, "b"⟩
    [singleMapping "a" "b"] (by decide +kernel) ⟨fun _ => none, none⟩
  revert hsent
  decide +kernel

/-- Every compact attempt that is led to another name shows in the next one over a channel without mapping. -/
theorem next_attempt_sends_another_model {cfg : Mapping} {info : RelayInfo}
    {modelMap : Table String String} {e : String} (hmode : info.isResponsesCompact = true)
    (htable : tableOf cfg = some modelMap) (he : EndsAt (entry modelMap) info.mappingModelName e)
    (hne : trimCompactSuffix e ≠ info.mappingModelName) (unmarshal : String → Option (Table String String)) :
    sent (attempt ⟨unmarshal, none⟩ (attempt cfg info).1) ≠ sent (attempt ⟨unmarshal, none⟩ info) := by
  have hsent : ∀ info' : RelayInfo,
      sent (attempt ⟨unmarshal, none⟩ info') = .ok info'.mappingModelName := by
    intro info'
    cases hcompact : info'.isResponsesCompact <;>
      simp [attempt, modelMappedHelper, RelayInfo.writeBack, RelayInfo.initChannelMeta, sent, hcompact,
        RelayInfo.mappingModelName]
  rw [hsent, hsent, mappingModelName_attempt_of_led hmode htable he]
  simpa using hne

theorem next_compact_attempt_sends_the_first_mapping :
    sent (attempt ⟨fun _ => none, none⟩
        (attempt (singleMapping "a" "b") ⟨true, "a-openai-compact", "", false, ""⟩).1) ≠
      sent (attempt ⟨fun _ => none, none⟩ ⟨true, "a-openai-compact", "", false, ""⟩) :=
  next_attempt_sends_another_model (e := "b") rfl rfl
    ⟨.single (by decide +kernel), fun b h => by cases h⟩ (by decide +kernel) _

end BeeApi.MappedAttempts
