import BeeApi.Model.Channel

/-!
# Lists of model names

The models of a channel are a text with commas.  The upkeep of the model lists trims the names, leaves out
the empty ones and keeps the first of several equal ones.
-/

namespace BeeApi.ModelRemoval

open Strings List

def uniq : List String → List String
  | [] => []
  | model :: models => model :: (uniq models).filter (· ≠ model)

def normalizeModelNames (models : List String) : List String :=
  uniq ((models.map trimSpace).filter (· ≠ ""))

def mergeModelNames (base appended : List String) : List String :=
  let merged := normalizeModelNames base
  merged ++ (normalizeModelNames appended).filter fun model => model ∉ merged

def subtractModelNames (base removed : List String) : List String :=
  (normalizeModelNames base).filter fun model => model ∉ normalizeModelNames removed

def getModels (models : String) : List String :=
  if models = "" then [] else split (trimChar models ',') ','

def localModels (channel : Relay.Channel) : List String := normalizeModelNames (getModels channel.models)

def joinModels (models : List String) : String := ",".intercalate models

/-- A list that `normalizeModelNames` does not change and that a text with commas can hold. -/
structure Normal (models : List String) : Prop where
  nodup : models.Nodup
  name : ∀ m ∈ models, m ≠ "" ∧ trimSpace m = m ∧ ',' ∉ m.toList

variable {models : List String} {m : String}

theorem mem_uniq : m ∈ uniq models ↔ m ∈ models := by
  induction models with
  | nil => exact Iff.rfl
  | cons model models ih =>
    rw [uniq, mem_cons, mem_cons, mem_filter, ih, decide_eq_true_eq]
    by_cases hm : m = model
    · exact iff_of_true (.inl hm) (.inl hm)
    · exact or_congr Iff.rfl (and_iff_left hm)

theorem nodup_uniq (models : List String) : (uniq models).Nodup := by
  induction models with
  | nil => exact nodup_nil
  | cons model models ih =>
    refine nodup_cons.2 ⟨fun hmem => ?_, ih.filter _⟩
    exact of_decide_eq_true (mem_filter.1 hmem).2 rfl

theorem uniq_eq_self (h : models.Nodup) : uniq models = models := by
  induction models with
  | nil => rfl
  | cons model models ih =>
    rw [nodup_cons] at h
    rw [uniq, ih h.2, filter_eq_self.2]
    intro m hm
    rw [decide_eq_true_eq]
    rintro rfl
    exact h.1 hm

theorem mem_normalizeModelNames :
    m ∈ normalizeModelNames models ↔ m ≠ "" ∧ ∃ x ∈ models, trimSpace x = m := by
  rw [normalizeModelNames, mem_uniq, mem_filter, mem_map, decide_eq_true_eq, and_comm]

theorem normal_normalizeModelNames (h : ∀ m ∈ models, ',' ∉ m.toList) :
    Normal (normalizeModelNames models) where
  nodup := nodup_uniq _
  name := by
    intro m hm
    obtain ⟨hne, x, hx, rfl⟩ := mem_normalizeModelNames.1 hm
    exact ⟨hne, trimSpace_trimSpace x, fun hc => h x hx ((toList_trimSpace_sublist x).subset hc)⟩

namespace Normal

variable {models others : List String}

section
variable (h : Normal models)
include h

theorem normalizeModelNames_eq : normalizeModelNames models = models := by
  have htrim : models.map trimSpace = models := by
    refine (map_congr_left fun m hm => ?_).trans (map_id models)
    exact (h.name m hm).2.1
  rw [normalizeModelNames, htrim, filter_eq_self.2, uniq_eq_self h.nodup]
  intro m hm
  exact decide_eq_true (h.name m hm).1

theorem filter (p : String → Bool) : Normal (models.filter p) where
  nodup := h.nodup.filter _
  name := fun m hm => h.name m (mem_of_mem_filter hm)

theorem mergeModelNames_eq (h' : Normal others) :
    mergeModelNames models others = models ++ others.filter fun m => m ∉ models := by
  rw [mergeModelNames, h.normalizeModelNames_eq, h'.normalizeModelNames_eq]

theorem subtractModelNames_eq (h' : Normal others) :
    subtractModelNames models others = models.filter fun m => m ∉ others := by
  rw [subtractModelNames, h.normalizeModelNames_eq, h'.normalizeModelNames_eq]

theorem mem_mergeModelNames (h' : Normal others) {m : String} :
    m ∈ mergeModelNames models others ↔ m ∈ models ∨ m ∈ others := by
  rw [h.mergeModelNames_eq h', mem_append, mem_filter, decide_eq_true_eq]
  by_cases hm : m ∈ models
  · exact iff_of_true (.inl hm) (.inl hm)
  · exact or_congr Iff.rfl (and_iff_left hm)

theorem merge (h' : Normal others) : Normal (mergeModelNames models others) where
  nodup := by
    rw [h.mergeModelNames_eq h']
    refine h.nodup.append (h'.nodup.filter _) ?_
    intro m hm hm'
    exact of_decide_eq_true (mem_filter.1 hm').2 hm
  name := fun m hm => ((h.mem_mergeModelNames h').1 hm).elim (h.name m) (h'.name m)

end

end Normal

theorem notMem_of_mem_splitOn {c : Char} {l piece : List Char} (h : piece ∈ l.splitOn c) :
    c ∉ piece := by
  induction l generalizing piece with
  | nil =>
    rw [splitOn_nil, mem_singleton] at h
    rw [h]
    exact not_mem_nil
  | cons d l ih =>
    rw [splitOn_cons_eq_if_modifyHead] at h
    split_ifs at h with hd
    · rcases mem_cons.1 h with rfl | h
      · exact not_mem_nil
      · exact ih h
    · obtain ⟨head, tail, heq⟩ := exists_cons_of_ne_nil (splitOn_ne_nil c l)
      rw [heq, modifyHead_cons] at h
      rcases mem_cons.1 h with rfl | h
      · rw [mem_cons, not_or]
        refine ⟨fun hc => hd (by rw [hc, beq_self_eq_true]), ih ?_⟩
        rw [heq]
        exact mem_cons_self
      · refine ih ?_
        rw [heq]
        exact mem_cons_of_mem _ h

theorem comma_notMem_getModels {models : String} (h : m ∈ getModels models) : ',' ∉ m.toList := by
  unfold getModels at h
  split_ifs at h
  · exact (nomatch h)
  · obtain ⟨piece, hpiece, rfl⟩ := mem_map.1 h
    rw [String.toList_ofList]
    exact notMem_of_mem_splitOn hpiece

theorem intercalate_ends {c : Char} {ls : List (List Char)} (h : ∀ l ∈ ls, l ≠ [] ∧ c ∉ l)
    (hne : ls ≠ []) : (∃ d rest, [c].intercalate ls = d :: rest ∧ d ≠ c) ∧
      ∃ rest d, [c].intercalate ls = rest ++ [d] ∧ d ≠ c := by
  induction ls with
  | nil => exact absurd rfl hne
  | cons l ls ih =>
    obtain ⟨hl, hc⟩ := h l mem_cons_self
    obtain ⟨d, rest, rfl⟩ := exists_cons_of_ne_nil hl
    have hd : d ≠ c := fun heq => hc (heq ▸ mem_cons_self)
    by_cases hnil : ls = []
    · rw [hnil, intercalate_singleton]
      obtain ⟨init, last, heq⟩ := (eq_nil_or_concat (d :: rest)).resolve_left hl
      rw [concat_eq_append] at heq
      refine ⟨⟨d, rest, rfl, hd⟩, init, last, heq, fun hlast => hc ?_⟩
      rw [heq, hlast]
      exact mem_append_right _ mem_cons_self
    · obtain ⟨-, init, last, heq, hlast⟩ := ih (fun l hl => h l (mem_cons_of_mem _ hl)) hnil
      rw [intercalate_cons_of_ne_nil hnil]
      refine ⟨⟨d, _, rfl, hd⟩, (d :: rest) ++ [c] ++ init, last, ?_, hlast⟩
      rw [heq, ← append_assoc]

theorem getModels_joinModels (h : Normal models) : getModels (joinModels models) = models := by
  by_cases hnil : models = []
  · rw [hnil, joinModels, String.intercalate_nil, getModels, if_pos rfl]
  have hlists : ∀ l ∈ models.map String.toList, l ≠ [] ∧ ',' ∉ l := by
    intro l hl
    obtain ⟨m, hm, rfl⟩ := mem_map.1 hl
    obtain ⟨hne, -, hcomma⟩ := h.name m hm
    exact ⟨fun hempty => hne (String.toList_eq_nil_iff.1 hempty), hcomma⟩
  have hne : models.map String.toList ≠ [] := fun heq => hnil (map_eq_nil_iff.1 heq)
  have htext : (joinModels models).toList = [','].intercalate (models.map String.toList) :=
    String.toList_intercalate
  obtain ⟨⟨d, rest, hfirst, hd⟩, init, d', hlast, hd'⟩ := intercalate_ends hlists hne
  have htrim : trimChar (joinModels models) ',' = joinModels models := by
    rw [trimChar, htext, hfirst, dropWhile_cons_of_neg (by simpa using hd), ← hfirst, hlast,
      reverse_append, reverse_singleton, singleton_append,
      dropWhile_cons_of_neg (by simpa using hd'), reverse_cons, reverse_reverse,
      ← hlast, ← htext, String.ofList_toList]
  have hjoined : joinModels models ≠ "" := by
    intro hempty
    rw [hempty, hfirst] at htext
    exact (nomatch htext)
  rw [getModels, if_neg hjoined, htrim, split, htext,
    splitOn_intercalate ',' (fun l hl => (hlists l hl).2) hne, map_map]
  refine (map_congr_left fun m _ => ?_).trans (map_id models)
  exact String.ofList_toList

theorem localModels_joinModels (h : Normal models) {channel : Relay.Channel}
    (hmodels : channel.models = joinModels models) : localModels channel = models := by
  rw [localModels, hmodels, getModels_joinModels h, h.normalizeModelNames_eq]

theorem normal_localModels (channel : Relay.Channel) : Normal (localModels channel) :=
  normal_normalizeModelNames fun _ hm => comma_notMem_getModels hm

end BeeApi.ModelRemoval
