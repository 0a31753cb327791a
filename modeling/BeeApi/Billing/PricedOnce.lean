import BeeApi.Billing.TextQuota

/-!
# Each input token is priced once

`BuildTieredTokenParams` against the counts of a usage.  A usage of Claude counts the tokens of the
cache beside its prompt, a usage of OpenAI as parts of it.
-/

namespace BeeApi.Billing

structure Usage.Nonneg (u : Usage) : Prop where
  prompt : 0 ≤ u.promptTokens
  completion : 0 ≤ u.completionTokens
  cached : 0 ≤ u.promptTokensDetails.cachedTokens
  cachedCreation : 0 ≤ u.promptTokensDetails.cachedCreationTokens
  cacheWrite : 0 ≤ u.promptTokensDetails.cacheWriteTokens
  image : 0 ≤ u.promptTokensDetails.imageTokens
  audio : 0 ≤ u.promptTokensDetails.audioTokens
  imageOutput : 0 ≤ u.completionTokenDetails.imageTokens
  audioOutput : 0 ≤ u.completionTokenDetails.audioTokens
  creation5m : 0 ≤ u.claudeCacheCreation5mTokens
  creation1h : 0 ≤ u.claudeCacheCreation1hTokens

/-- The categories are parts of the prompt and of the completion that have no token in common. -/
structure Usage.Disjoint (u : Usage) : Prop where
  prompt : u.promptTokensDetails.cachedTokens + u.promptTokensDetails.cacheCreationTokensTotal +
    u.promptTokensDetails.imageTokens + u.promptTokensDetails.audioTokens ≤ u.promptTokens
  completion : u.completionTokenDetails.imageTokens + u.completionTokenDetails.audioTokens ≤
    u.completionTokens

/-- All tokens that were written to the cache; the total and the split may each miss some. -/
def Usage.cacheCreation (u : Usage) : ℤ :=
  max u.promptTokensDetails.cacheCreationTokensTotal
    (u.claudeCacheCreation5mTokens + u.claudeCacheCreation1hTokens)

def Usage.claudeInput (u : Usage) : ℤ :=
  u.promptTokens + u.promptTokensDetails.cachedTokens + u.cacheCreation

def usedTokens (usedVars : List String) (name : String) (tokens : ℚ) : ℚ :=
  if usedVars.contains name then tokens else 0

/-- The parameters of an expression price each token of an OpenAI usage once. -/
structure PricesOpenAI (u : Usage) (usedVars : List String) (params : TokenParams) : Prop where
  prompt : params.p + usedTokens usedVars "cr" params.cr + usedTokens usedVars "cc" params.cc +
    usedTokens usedVars "cc1h" params.cc1h + usedTokens usedVars "img" params.img +
    usedTokens usedVars "ai" params.ai = u.promptTokens
  completion : params.c + usedTokens usedVars "img_o" params.imgO +
    usedTokens usedVars "ao" params.ao = u.completionTokens
  len : params.len = u.promptTokens

/-- They price each token of a Claude usage once, and those of the one hour cache as such. -/
structure PricesClaude (u : Usage) (params : TokenParams) : Prop where
  input : params.p + params.cr + params.cc + params.cc1h = u.claudeInput
  len : params.len = u.claudeInput
  oneHour : params.cc1h = u.claudeCacheCreation1hTokens

/-- The parameters that `PostTextConsumeQuota` hands to the expression. -/
def tieredTokenParams (relayInfo : RelayInfo) (u : Usage) (usedVars : List String) : TokenParams :=
  buildTieredTokenParams u (decide (usageSemanticFromUsage relayInfo (some u) = "anthropic")) usedVars

structure PricedOnce (relayInfo : RelayInfo) (u : Usage) (usedVars : List String) : Prop where
  openAI : usageSemanticFromUsage relayInfo (some u) ≠ "anthropic" → u.Disjoint →
    PricesOpenAI u usedVars (tieredTokenParams relayInfo u usedVars)
  claude : usageSemanticFromUsage relayInfo (some u) = "anthropic" →
    PricesClaude u (tieredTokenParams relayInfo u usedVars)

variable {u : Usage} {relayInfo : RelayInfo}

theorem Usage.Nonneg.cacheCreationTokensTotal (h : u.Nonneg) :
    0 ≤ u.promptTokensDetails.cacheCreationTokensTotal := by
  unfold TokenDetails.cacheCreationTokensTotal
  split_ifs
  · exact h.cacheWrite
  · exact h.cachedCreation

/-- A usage that says nothing of its semantics is of Claude when the request was. -/
theorem usageSemantic_ne_anthropic (h : usageSemanticFromUsage relayInfo (some u) ≠ "anthropic") :
    u.usageSemantic ≠ "anthropic" := by
  intro heq
  unfold usageSemanticFromUsage at h
  dsimp only at h
  rw [heq, if_pos (by decide)] at h
  exact h rfl

theorem usedTokens_eq (usedVars : List String) (name : String) (tokens : ℚ) :
    usedTokens usedVars name tokens = if usedVars.contains name then tokens else 0 := rfl

theorem usedTokens_nonneg (usedVars : List String) (name : String) {tokens : ℚ} (h : 0 ≤ tokens) :
    0 ≤ usedTokens usedVars name tokens ∧ usedTokens usedVars name tokens ≤ tokens := by
  unfold usedTokens
  split_ifs
  · exact ⟨h, le_rfl⟩
  · exact ⟨le_rfl, h⟩

theorem pricesOpenAI (hnonneg : u.Nonneg)
    (h : usageSemanticFromUsage relayInfo (some u) ≠ "anthropic") (hdisjoint : u.Disjoint)
    (usedVars : List String) :
    PricesOpenAI u usedVars (tieredTokenParams relayInfo u usedVars) := by
  have hsemantic := usageSemantic_ne_anthropic h
  have hcached := usedTokens_nonneg usedVars "cr" (Int.cast_nonneg hnonneg.cached)
  have hcreation := usedTokens_nonneg usedVars "cc" (Int.cast_nonneg hnonneg.cacheCreationTokensTotal)
  have himage := usedTokens_nonneg usedVars "img" (Int.cast_nonneg hnonneg.image)
  have haudio := usedTokens_nonneg usedVars "ai" (Int.cast_nonneg hnonneg.audio)
  have himageOutput := usedTokens_nonneg usedVars "img_o" (Int.cast_nonneg hnonneg.imageOutput)
  have haudioOutput := usedTokens_nonneg usedVars "ao" (Int.cast_nonneg hnonneg.audioOutput)
  have hprompt := (Int.cast_le (R := ℚ)).2 hdisjoint.prompt
  have hcompletion := (Int.cast_le (R := ℚ)).2 hdisjoint.completion
  have hzero : usedTokens usedVars "cc1h" 0 = 0 := ite_self 0
  unfold tieredTokenParams buildTieredTokenParams
  rw [decide_eq_false h]
  simp only [Bool.not_false, Bool.true_and, hsemantic, if_false, ← usedTokens_eq]
  push_cast at hprompt hcompletion
  refine ⟨?_, ?_, rfl⟩
  · dsimp only
    rw [hzero, max_eq_left]
    · ring
    · linarith [hcached.2, hcreation.2, himage.2, haudio.2]
  · dsimp only
    rw [max_eq_left]
    · ring
    · linarith [himageOutput.2, haudioOutput.2]

theorem tieredTokenParams_claude (hnonneg : u.Nonneg)
    (h : usageSemanticFromUsage relayInfo (some u) = "anthropic") (usedVars : List String) :
    let params := tieredTokenParams relayInfo u usedVars
    params.p = u.promptTokens ∧ params.cr = u.promptTokensDetails.cachedTokens ∧
      params.len = params.p + params.cr + params.cc + params.cc1h ∧
      (u.usageSemantic = "anthropic" → params.cc = u.claudeCacheCreation5mTokens ∧
        params.cc1h = u.claudeCacheCreation1hTokens) ∧
      (u.usageSemantic ≠ "anthropic" →
        params.cc = u.promptTokensDetails.cacheCreationTokensTotal ∧ params.cc1h = 0) := by
  have hprompt : max (u.promptTokens : ℚ) 0 = u.promptTokens :=
    max_eq_left (Int.cast_nonneg hnonneg.prompt)
  unfold tieredTokenParams buildTieredTokenParams
  rw [decide_eq_true h]
  simp only [Bool.not_true, Bool.false_and, Bool.false_eq_true, if_false, if_true, sub_zero, hprompt]
  refine ⟨trivial, trivial, trivial, fun hsemantic => ?_, fun hsemantic => ?_⟩
  · rw [if_pos hsemantic, if_pos hsemantic]
    exact ⟨rfl, rfl⟩
  · rw [if_neg hsemantic, if_neg hsemantic]
    exact ⟨rfl, rfl⟩

/-- Each token is priced once, but for a Claude usage whose split of the cache writes does not cover
their total, and for one that is only by its request of Claude and has a split at all. -/
theorem pricedOnce_iff {relayInfo : RelayInfo} {u : Usage} (hnonneg : u.Nonneg)
    (usedVars : List String) : PricedOnce relayInfo u usedVars ↔
      (usageSemanticFromUsage relayInfo (some u) = "anthropic" →
        if u.usageSemantic = "anthropic" then
          u.promptTokensDetails.cacheCreationTokensTotal ≤
            u.claudeCacheCreation5mTokens + u.claudeCacheCreation1hTokens
        else u.claudeCacheCreation1hTokens = 0 ∧
          u.claudeCacheCreation5mTokens ≤ u.promptTokensDetails.cacheCreationTokensTotal) := by
  have hclaude : ∀ h : usageSemanticFromUsage relayInfo (some u) = "anthropic",
      PricesClaude u (tieredTokenParams relayInfo u usedVars) ↔
        if u.usageSemantic = "anthropic" then
          u.promptTokensDetails.cacheCreationTokensTotal ≤
            u.claudeCacheCreation5mTokens + u.claudeCacheCreation1hTokens
        else u.claudeCacheCreation1hTokens = 0 ∧
          u.claudeCacheCreation5mTokens ≤ u.promptTokensDetails.cacheCreationTokensTotal := by
    intro h
    obtain ⟨hp, hcr, hlen, hsplit, htotal⟩ := tieredTokenParams_claude hnonneg h usedVars
    have hinput : PricesClaude u (tieredTokenParams relayInfo u usedVars) ↔
        (tieredTokenParams relayInfo u usedVars).cc + (tieredTokenParams relayInfo u usedVars).cc1h =
            u.cacheCreation ∧
          (tieredTokenParams relayInfo u usedVars).cc1h = u.claudeCacheCreation1hTokens := by
      have hcast : (u.claudeInput : ℚ) =
          u.promptTokens + u.promptTokensDetails.cachedTokens + u.cacheCreation := by
        unfold Usage.claudeInput
        push_cast
        ring
      constructor
      · rintro ⟨hinput, -, hone⟩
        rw [hp, hcr, hcast] at hinput
        exact ⟨by linarith, hone⟩
      · rintro ⟨hsum, hone⟩
        have hinput : (tieredTokenParams relayInfo u usedVars).p +
            (tieredTokenParams relayInfo u usedVars).cr + (tieredTokenParams relayInfo u usedVars).cc +
              (tieredTokenParams relayInfo u usedVars).cc1h = u.claudeInput := by
          rw [hp, hcr, hcast]
          linarith
        exact ⟨hinput, hlen.trans hinput, hone⟩
    rw [hinput]
    split_ifs with hsemantic
    · obtain ⟨hcc, hone⟩ := hsplit hsemantic
      rw [hcc, hone, and_iff_left rfl]
      norm_cast
      rw [Usage.cacheCreation, eq_comm, max_eq_right_iff]
    · obtain ⟨hcc, hone⟩ := htotal hsemantic
      rw [hcc, hone, add_zero]
      norm_cast
      rw [Usage.cacheCreation, eq_comm, max_eq_left_iff, and_comm, eq_comm]
      refine and_congr_right fun hzero => ?_
      rw [hzero, add_zero]
  constructor
  · exact fun h hsemantic => (hclaude hsemantic).1 (h.claude hsemantic)
  · exact fun h => ⟨fun hsemantic hdisjoint => pricesOpenAI hnonneg hsemantic hdisjoint usedVars,
      fun hsemantic => (hclaude hsemantic).2 (h hsemantic)⟩

def splitUsage : Usage where
  promptTokens := 5
  promptTokensDetails := { cachedCreationTokens := 10 }
  usageSemantic := "anthropic"
  claudeCacheCreation5mTokens := 4
  claudeCacheCreation1hTokens := 6

theorem nonneg_splitUsage : splitUsage.Nonneg := by
  constructor <;> decide

theorem pricedOnce_splitUsage :
    splitUsage.Nonneg ∧ PricedOnce { originModelName := "claude" } splitUsage ["cr", "cc"] :=
  ⟨nonneg_splitUsage, (pricedOnce_iff nonneg_splitUsage ["cr", "cc"]).2 fun _ => by decide⟩

/-- Only the total is reported here, and no expression ever sees it. -/
def totalUsage : Usage where
  promptTokens := 5
  promptTokensDetails := { cachedCreationTokens := 10 }
  usageSemantic := "anthropic"

theorem totalUsage_lost : totalUsage.Nonneg ∧
    ¬ PricedOnce { originModelName := "claude" } totalUsage ["cr", "cc"] := by
  refine ⟨by constructor <;> decide, fun h => ?_⟩
  have hlen := (h.claude (by decide)).len
  revert hlen
  decide +kernel

end BeeApi.Billing
