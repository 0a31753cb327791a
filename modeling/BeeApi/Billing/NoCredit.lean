import BeeApi.Billing.BillingUsage
import BeeApi.Billing.PricedOnce
import Mathlib

/-!
# A report never becomes a credit

The usage of a report with counts that are not negative, and its quota under prices that are not.
The exceptions: Gemini can report a total below the tokens of the prompt, tokens of the cache alone
are not charged, and the cache writes that OpenRouter does not report are guessed from its price.
-/

namespace BeeApi.Billing

open Payment List

/-! ## What is given -/

def ProviderUsage.Nonneg : ProviderUsage → Prop
  | .reported u => u.Nonneg
  | .openAI _ u => u.toUsage.Nonneg ∧ 0 ≤ u.inputTokens ∧ 0 ≤ u.outputTokens
  | .claude u => 0 ≤ u.inputTokens ∧ 0 ≤ u.outputTokens
  | .gemini m => 0 ≤ m.promptTokenCount ∧ 0 ≤ m.toolUsePromptTokenCount ∧
      0 ≤ m.candidatesTokenCount ∧ 0 ≤ m.totalTokenCount ∧ 0 ≤ m.thoughtsTokenCount ∧
        ∀ d ∈ m.promptTokensDetails ++ m.toolUsePromptTokensDetails, 0 ≤ d.2

/-- The total of a Gemini report that names no output covers its prompt. -/
def ProviderUsage.Covered : ProviderUsage → Prop
  | .gemini m => m.totalTokenCount = 0 ∨ 0 < m.candidatesTokenCount + m.thoughtsTokenCount ∨
      m.promptTokenCount + m.toolUsePromptTokenCount ≤ m.totalTokenCount
  | _ => True

/-- A report has a token of the input or the output besides those of the cache. -/
def ProviderUsage.HasTokens : ProviderUsage → Prop
  | .reported u => 0 < u.promptTokens ∨ 0 < u.completionTokens
  | .openAI _ u => 0 < u.promptTokens ∨ 0 < u.completionTokens ∨ 0 < u.inputTokens ∨
      0 < u.outputTokens
  | .claude u => 0 < u.inputTokens ∨ 0 < u.outputTokens
  | .gemini m => 0 < m.promptTokenCount ∨ 0 < m.toolUsePromptTokenCount ∨
      0 < m.candidatesTokenCount ∨ 0 < m.totalTokenCount ∨ 0 < m.thoughtsTokenCount

/-- The prices and ratios of a request are not negative. -/
structure PricesNonneg (cfg : Settings) (relayInfo : RelayInfo) : Prop where
  quotaPerUnit : 0 ≤ cfg.quotaPerUnit
  toolPrice : ∀ tool model, 0 ≤ cfg.getToolPriceForModel tool model
  imagePrice : ∀ quality size, 0 ≤ cfg.getGPTImage1PriceOnceCall quality size
  modelPrice : 0 ≤ relayInfo.priceData.modelPrice
  modelRatio : 0 ≤ relayInfo.priceData.modelRatio
  completionRatio : 0 ≤ relayInfo.priceData.completionRatio
  groupRatio : 0 ≤ relayInfo.priceData.groupRatio
  otherRatios : ∀ r ∈ relayInfo.priceData.otherRatios, 0 ≤ r

/-- The cache writes of a Claude model are guessed from the price that OpenRouter reports. -/
def GuessesCacheWrites (cfg : Settings) (relayInfo : RelayInfo) (u : Usage) : Prop :=
  relayInfo.channel.map Prod.fst = some channelTypeOpenRouter ∧
    usageSemanticFromUsage relayInfo (some u) = "anthropic" ∧
    u.promptTokensDetails.cacheCreationTokensTotal = 0 ∧
    relayInfo.priceData.cacheCreationRatio ≠ 1 ∧
    (relayInfo.priceData.usePrice ||
      hasCustomModelRatio cfg relayInfo.originModelName relayInfo.priceData.modelRatio) = false

def textQuota (cfg : Settings) (relayInfo : RelayInfo) (u : Usage) : ℤ :=
  (calculateTextQuotaSummary cfg relayInfo (some u)).quota

def modelGroupRatio (relayInfo : RelayInfo) : ℚ :=
  relayInfo.priceData.modelRatio * relayInfo.priceData.groupRatio

structure NoCredit (cfg : Settings) (relayInfo : RelayInfo) (report : ProviderUsage) : Prop where
  prompt : 0 ≤ report.toUsage.promptTokens
  completion : report.Covered → 0 ≤ report.toUsage.completionTokens
  quota : 0 ≤ textQuota cfg relayInfo report.toUsage
  charged : modelGroupRatio relayInfo ≠ 0 → report.HasTokens →
    1 ≤ textQuota cfg relayInfo report.toUsage
  mono : ¬ GuessesCacheWrites cfg relayInfo report.toUsage → ∀ more : ℕ,
    textQuota cfg relayInfo report.toUsage ≤ textQuota cfg relayInfo
        { report.toUsage with completionTokens := report.toUsage.completionTokens + more }

/-! ## Counts -/

theorem modalityTokens_nonneg {modality : String} {details : List (String × ℤ)}
    (h : ∀ d ∈ details, 0 ≤ d.2) : 0 ≤ modalityTokens modality details := by
  refine sum_nonneg fun n hn => ?_
  obtain ⟨d, hd, rfl⟩ := mem_map.1 hn
  exact h d (mem_of_mem_filter hd)

variable {report : ProviderUsage}

theorem promptTokens_nonneg (h : report.Nonneg) : 0 ≤ report.toUsage.promptTokens := by
  cases report with
  | reported u => exact h.prompt
  | openAI source u =>
    unfold ProviderUsage.toUsage usageFromOpenAIBillingUsage
    dsimp only
    split_ifs
    · exact h.2.1
    · exact h.1.prompt
  | claude u => exact h.1
  | gemini m => exact Int.add_nonneg h.1 h.2.1

theorem completionTokens_nonneg (h : report.Nonneg) (hcovered : report.Covered) :
    0 ≤ report.toUsage.completionTokens := by
  cases report with
  | reported u => exact h.completion
  | openAI source u =>
    unfold ProviderUsage.toUsage usageFromOpenAIBillingUsage
    dsimp only
    split_ifs
    · exact h.2.2
    · exact h.1.completion
  | claude u => exact h.2
  | gemini m =>
    obtain ⟨hprompt, htool, hcandidates, htotal, hthoughts, -⟩ := h
    unfold ProviderUsage.toUsage usageFromGeminiBillingUsage
    dsimp only
    split_ifs with hderived
    · rcases hcovered with hzero | houtput | hle
      · exact absurd hzero hderived.1
      · omega
      · omega
    · exact Int.add_nonneg hcandidates hthoughts

theorem totalTokens_nonneg (h : report.Nonneg) :
    0 ≤ report.toUsage.promptTokens + report.toUsage.completionTokens ∧
      (report.HasTokens → 0 < report.toUsage.promptTokens + report.toUsage.completionTokens) := by
  unfold ProviderUsage.HasTokens
  cases report with
  | reported u =>
    have hprompt := h.prompt
    have hcompletion := h.completion
    unfold ProviderUsage.toUsage
    dsimp only
    omega
  | openAI source u =>
    obtain ⟨hu, hinput, houtput⟩ := h
    have hprompt := hu.prompt
    have hcompletion := hu.completion
    unfold ProviderUsage.toUsage usageFromOpenAIBillingUsage
    dsimp only
    split_ifs <;> omega
  | claude u =>
    have hinput := h.1
    have houtput := h.2
    unfold ProviderUsage.toUsage usageFromClaudeBillingUsage
    dsimp only
    omega
  | gemini m =>
    obtain ⟨hprompt, htool, hcandidates, htotal, hthoughts, -⟩ := h
    unfold ProviderUsage.toUsage usageFromGeminiBillingUsage
    dsimp only
    split_ifs <;> omega

theorem audioTokens_nonneg (h : report.Nonneg) :
    0 ≤ report.toUsage.promptTokensDetails.audioTokens := by
  cases report with
  | reported u => exact h.audio
  | openAI source u => exact h.1.audio
  | claude u => exact le_rfl
  | gemini m =>
    obtain ⟨-, -, -, -, -, hdetails⟩ := h
    exact Int.add_nonneg (modalityTokens_nonneg fun d hd => hdetails d (mem_append_left _ hd))
      (modalityTokens_nonneg fun d hd => hdetails d (mem_append_right _ hd))

/-! ## The quota -/

section Quota

variable {cfg : Settings} {relayInfo : RelayInfo}

theorem surcharge_nonneg (h : PricesNonneg cfg relayInfo) :
    0 ≤ calculateTextToolCallSurcharge cfg relayInfo := by
  have hunit : 0 ≤ relayInfo.priceData.groupRatio * cfg.quotaPerUnit :=
    mul_nonneg h.groupRatio h.quotaPerUnit
  have hcalls : ∀ (price : ℚ) (calls : ℤ), 0 ≤ price → 0 ≤ calls →
      0 ≤ price * calls / 1000 * (relayInfo.priceData.groupRatio * cfg.quotaPerUnit) := by
    intro price calls hprice hcalls
    have : (0 : ℚ) ≤ calls := Int.cast_nonneg hcalls
    positivity
  have himage : 0 ≤ imageCallPrice cfg relayInfo := by
    unfold imageCallPrice
    split
    · exact h.imagePrice _ _
    · exact le_rfl
  have hweb : 0 ≤ webSearchCalls relayInfo := by
    unfold webSearchCalls
    split
    · exact le_max_right _ _
    · split_ifs <;> decide
  have hfile : 0 ≤ fileSearchCalls relayInfo := by
    unfold fileSearchCalls
    split
    · exact le_max_right _ _
    · exact le_rfl
  exact add_nonneg (add_nonneg (add_nonneg (hcalls _ _ (h.toolPrice _ _) hweb)
    (hcalls _ _ (h.toolPrice _ _) (le_max_right _ _))) (hcalls _ _ (h.toolPrice _ _) hfile))
      (mul_nonneg himage hunit)

theorem roundDecimal_mono : Monotone roundDecimal := by
  intro x y hxy
  unfold roundDecimal
  split_ifs with hx hy hy
  · exact Int.floor_le_floor (by linarith)
  · exact absurd (hx.trans hxy) hy
  · refine le_trans (?_ : _ ≤ (0 : ℤ)) (Int.floor_nonneg.2 (by linarith))
    exact Int.ceil_le.2 (by push_cast; linarith [not_le.1 hx])
  · exact Int.ceil_le_ceil (by linarith)

theorem quotaRound_mono : Monotone quotaRound := by
  intro x y hxy
  have hround := roundDecimal_mono hxy
  unfold quotaRound saturateQuota maxQuota minQuota
  split_ifs <;> omega

/-- The amount before rounding, from the tokens in units of the model ratio and the audio quota. -/
def amountOf (cfg : Settings) (relayInfo : RelayInfo) (surcharge : ℚ) (tokens : ℚ × ℚ) : ℚ :=
  if relayInfo.priceData.usePrice then
    (relayInfo.priceData.modelPrice * cfg.quotaPerUnit * relayInfo.priceData.groupRatio + surcharge) *
      relayInfo.priceData.otherRatios.prod
  else
    let amount := (tokens.1 * modelGroupRatio relayInfo + surcharge + tokens.2) *
      relayInfo.priceData.otherRatios.prod
    if modelGroupRatio relayInfo ≠ 0 ∧ amount ≤ 0 then 1 else amount

theorem amountOf_nonneg (h : PricesNonneg cfg relayInfo) {surcharge : ℚ} (hsurcharge : 0 ≤ surcharge)
    {tokens : ℚ × ℚ} (haudio : 0 ≤ tokens.2) : 0 ≤ amountOf cfg relayInfo surcharge tokens := by
  have hprod : 0 ≤ relayInfo.priceData.otherRatios.prod := prod_nonneg h.otherRatios
  unfold amountOf
  dsimp only
  split_ifs with hprice hratio
  · have := h.modelPrice
    have := h.quotaPerUnit
    have := h.groupRatio
    positivity
  · exact zero_le_one
  · by_cases hzero : modelGroupRatio relayInfo = 0
    · rw [hzero, mul_zero, zero_add]
      positivity
    · exact (not_le.1 fun hle => hratio ⟨hzero, hle⟩).le

theorem amountOf_mono (h : PricesNonneg cfg relayInfo) (surcharge audio : ℚ) {tokens tokens' : ℚ}
    (htokens : tokens ≤ tokens') : max 1 (quotaRound (amountOf cfg relayInfo surcharge (tokens, audio))) ≤
      max 1 (quotaRound (amountOf cfg relayInfo surcharge (tokens', audio))) ∧
    (modelGroupRatio relayInfo = 0 → amountOf cfg relayInfo surcharge (tokens, audio) =
      amountOf cfg relayInfo surcharge (tokens', audio)) := by
  have hprod : 0 ≤ relayInfo.priceData.otherRatios.prod := prod_nonneg h.otherRatios
  have hratio : 0 ≤ modelGroupRatio relayInfo := mul_nonneg h.modelRatio h.groupRatio
  have hone : quotaRound 1 = 1 := by decide +kernel
  unfold amountOf
  dsimp only
  by_cases hprice : relayInfo.priceData.usePrice = true
  · rw [if_pos hprice, if_pos hprice]
    exact ⟨le_rfl, fun _ => rfl⟩
  rw [if_neg hprice, if_neg hprice]
  have hamount : (tokens * modelGroupRatio relayInfo + surcharge + audio) *
        relayInfo.priceData.otherRatios.prod ≤
      (tokens' * modelGroupRatio relayInfo + surcharge + audio) *
        relayInfo.priceData.otherRatios.prod := by gcongr
  refine ⟨?_, fun hzero => by rw [hzero, mul_zero, mul_zero]⟩
  split_ifs with hlow hlow'
  · exact le_rfl
  · rw [hone, max_self]
    exact le_max_left _ _
  · rename_i hlow'
    exact absurd ⟨hlow'.1, hamount.trans hlow'.2⟩ hlow
  · exact max_le_max_left 1 (quotaRound_mono hamount)

/-- The counts of the summary, and the tokens that they make. -/
def summaryOf (cfg : Settings) (relayInfo : RelayInfo) (u : Usage) : TextQuotaSummary :=
  summaryTokens cfg relayInfo u (decide (usageSemanticFromUsage relayInfo (some u) = "anthropic"))

def textAmount (cfg : Settings) (relayInfo : RelayInfo) (u : Usage) : ℚ :=
  amountOf cfg relayInfo (calculateTextToolCallSurcharge cfg relayInfo)
    (ratioTokens cfg relayInfo (isLegacyClaudeDerivedOpenAIUsage relayInfo u)
      (summaryOf cfg relayInfo u))

theorem textQuota_eq (u : Usage) : textQuota cfg relayInfo u =
    if u.promptTokens + u.completionTokens = 0 then 0
    else if modelGroupRatio relayInfo ≠ 0 ∧ quotaRound (textAmount cfg relayInfo u) = 0 then 1
    else quotaRound (textAmount cfg relayInfo u) := by
  have htotal : (summaryOf cfg relayInfo u).totalTokens = u.promptTokens + u.completionTokens := by
    unfold summaryOf summaryTokens
    split_ifs <;> rfl
  rw [← htotal]
  rfl

theorem summaryOf_audioTokens (u : Usage) :
    (summaryOf cfg relayInfo u).audioTokens = u.promptTokensDetails.audioTokens := by
  unfold summaryOf summaryTokens
  split_ifs <;> rfl

theorem audioQuota_nonneg (h : PricesNonneg cfg relayInfo) (legacy : Bool) {s : TextQuotaSummary}
    (haudio : 0 ≤ s.audioTokens) : 0 ≤ (ratioTokens cfg relayInfo legacy s).2 := by
  have := h.groupRatio
  have := h.quotaPerUnit
  have : (0 : ℚ) ≤ s.audioTokens := Int.cast_nonneg haudio
  unfold ratioTokens
  dsimp only
  split_ifs with hprice
  · positivity
  · exact le_rfl

variable {u : Usage}

section
variable (h : PricesNonneg cfg relayInfo) (haudio : 0 ≤ u.promptTokensDetails.audioTokens)
include h haudio

theorem textAmount_nonneg : 0 ≤ textAmount cfg relayInfo u := by
  refine amountOf_nonneg h (surcharge_nonneg h) (audioQuota_nonneg h _ ?_)
  rw [summaryOf_audioTokens]
  exact haudio

theorem quotaRound_textAmount_nonneg :
    0 ≤ quotaRound (textAmount cfg relayInfo u) :=
  (quotaRound_nonneg_iff _).2 (by linarith [textAmount_nonneg h haudio])

theorem textQuota_nonneg : 0 ≤ textQuota cfg relayInfo u := by
  have hround := quotaRound_textAmount_nonneg h haudio
  rw [textQuota_eq]
  split_ifs
  · exact le_rfl
  · exact zero_le_one
  · exact hround

theorem textQuota_eq_max (hratio : modelGroupRatio relayInfo ≠ 0)
    (htotal : u.promptTokens + u.completionTokens ≠ 0) :
    textQuota cfg relayInfo u = max 1 (quotaRound (textAmount cfg relayInfo u)) := by
  have hround := quotaRound_textAmount_nonneg h haudio
  rw [textQuota_eq, if_neg htotal]
  split_ifs with hzero
  · rw [hzero.2]
    rfl
  · have hne : quotaRound (textAmount cfg relayInfo u) ≠ 0 := fun heq => hzero ⟨hratio, heq⟩
    omega

end

/-- More output changes the count of the output and the total, unless cache writes are guessed. -/
theorem summaryOf_more (h : ¬ GuessesCacheWrites cfg relayInfo u) (more : ℕ) :
    summaryOf cfg relayInfo { u with completionTokens := u.completionTokens + more } =
      { summaryOf cfg relayInfo u with
        completionTokens := u.completionTokens + more
        totalTokens := u.promptTokens + (u.completionTokens + more) } := by
  have hsemantic : usageSemanticFromUsage relayInfo
      (some { u with completionTokens := u.completionTokens + more }) =
        usageSemanticFromUsage relayInfo (some u) := rfl
  unfold summaryOf summaryTokens
  rw [hsemantic]
  dsimp only
  by_cases hrouter : relayInfo.channel.map Prod.fst = some channelTypeOpenRouter ∧
      decide (usageSemanticFromUsage relayInfo (some u) = "anthropic") = true
  · have hguess : ∀ tokens prompt : ℤ, ¬ (u.promptTokensDetails.cacheCreationTokensTotal = 0 ∧
          relayInfo.priceData.cacheCreationRatio ≠ 1 ∧
          (relayInfo.priceData.usePrice || hasCustomModelRatio cfg relayInfo.originModelName
            relayInfo.priceData.modelRatio) = false ∧ 0 ≤ tokens ∧ tokens ≤ prompt) :=
      fun tokens prompt hguess => h ⟨hrouter.1, of_decide_eq_true hrouter.2, hguess.1,
        hguess.2.1, hguess.2.2.1⟩
    rw [if_pos hrouter, if_pos hrouter, if_neg (hguess _ _), if_neg (hguess _ _)]
  · rw [if_neg hrouter, if_neg hrouter]

theorem ratioTokens_completion (legacy : Bool) (s : TextQuotaSummary) (completion total : ℤ) :
    ratioTokens cfg relayInfo legacy { s with completionTokens := completion, totalTokens := total } =
      ((ratioTokens cfg relayInfo legacy s).1 +
          (completion - s.completionTokens) * relayInfo.priceData.completionRatio,
        (ratioTokens cfg relayInfo legacy s).2) := by
  refine Prod.ext ?_ rfl
  unfold ratioTokens
  ring

theorem summaryOf_completionTokens (u : Usage) :
    (summaryOf cfg relayInfo u).completionTokens = u.completionTokens := by
  unfold summaryOf summaryTokens
  split_ifs <;> rfl

/-- More output is no smaller amount, but that amounts below one count as one. -/
theorem textAmount_more (h : PricesNonneg cfg relayInfo)
    (hguess : ¬ GuessesCacheWrites cfg relayInfo u) (more : ℕ) :
    let u' := { u with completionTokens := u.completionTokens + more }
    max 1 (quotaRound (textAmount cfg relayInfo u)) ≤
        max 1 (quotaRound (textAmount cfg relayInfo u')) ∧
      (modelGroupRatio relayInfo = 0 → textAmount cfg relayInfo u = textAmount cfg relayInfo u') := by
  have htokens : (ratioTokens cfg relayInfo (isLegacyClaudeDerivedOpenAIUsage relayInfo u)
      (summaryOf cfg relayInfo u)).1 ≤
        (ratioTokens cfg relayInfo (isLegacyClaudeDerivedOpenAIUsage relayInfo u)
          (summaryOf cfg relayInfo u)).1 + more * relayInfo.priceData.completionRatio :=
    le_add_of_nonneg_right (mul_nonneg (Nat.cast_nonneg more) h.completionRatio)
  have hmore : ratioTokens cfg relayInfo (isLegacyClaudeDerivedOpenAIUsage relayInfo u)
      (summaryOf cfg relayInfo { u with completionTokens := u.completionTokens + more }) =
        ((ratioTokens cfg relayInfo (isLegacyClaudeDerivedOpenAIUsage relayInfo u)
          (summaryOf cfg relayInfo u)).1 + more * relayInfo.priceData.completionRatio,
          (ratioTokens cfg relayInfo (isLegacyClaudeDerivedOpenAIUsage relayInfo u)
            (summaryOf cfg relayInfo u)).2) := by
    rw [summaryOf_more hguess more, ratioTokens_completion, summaryOf_completionTokens]
    refine Prod.ext ?_ rfl
    push_cast
    ring
  have hmono := amountOf_mono h (calculateTextToolCallSurcharge cfg relayInfo)
    (ratioTokens cfg relayInfo (isLegacyClaudeDerivedOpenAIUsage relayInfo u)
      (summaryOf cfg relayInfo u)).2 htokens
  rw [← hmore] at hmono
  exact hmono

theorem textQuota_mono (h : PricesNonneg cfg relayInfo)
    (haudio : 0 ≤ u.promptTokensDetails.audioTokens)
    (htotal : 0 ≤ u.promptTokens + u.completionTokens)
    (hguess : ¬ GuessesCacheWrites cfg relayInfo u) (more : ℕ) : textQuota cfg relayInfo u ≤
      textQuota cfg relayInfo { u with completionTokens := u.completionTokens + more } := by
  by_cases hzero : u.promptTokens + u.completionTokens = 0
  · rw [textQuota_eq u, if_pos hzero]
    exact textQuota_nonneg h haudio
  have hmore : u.promptTokens + (u.completionTokens + more) ≠ 0 := by omega
  obtain ⟨hmax, heq⟩ := textAmount_more h hguess more
  by_cases hratio : modelGroupRatio relayInfo = 0
  · rw [textQuota_eq, textQuota_eq, if_neg hzero, if_neg hmore, heq hratio]
  · have hcharged := textQuota_eq_max
      (u := { u with completionTokens := u.completionTokens + more }) h haudio hratio hmore
    rw [textQuota_eq_max h haudio hratio hzero, hcharged]
    exact hmax

end Quota

/-- A report of counts that are not negative is no credit, whatever it leaves out. -/
theorem noCredit {cfg : Settings} {relayInfo : RelayInfo} (hprices : PricesNonneg cfg relayInfo)
    (usage : Usage) (billing : Option BillingUsage) (h : (effectiveProvider usage billing).Nonneg) :
    NoCredit cfg relayInfo (effectiveProvider usage billing) := by
  obtain ⟨htotal, htokens⟩ := totalTokens_nonneg h
  have haudio := audioTokens_nonneg h
  refine ⟨promptTokens_nonneg h, completionTokens_nonneg h, textQuota_nonneg hprices haudio,
    fun hratio hhas => ?_, fun hguess more => textQuota_mono hprices haudio htotal hguess more⟩
  rw [textQuota_eq_max hprices haudio hratio (htokens hhas).ne']
  exact le_max_left _ _

def routerSettings : Settings := { plainSettings with defaultModelRatio := fun _ => some 10 }

def routerRequest : RelayInfo where
  originModelName := "claude"
  channel := some (channelTypeOpenRouter, false)
  priceData :=
    { modelRatio := 10, completionRatio := 1 / 10, cacheRatio := 1 / 10, cacheCreationRatio := 5 / 4 }

theorem pricesNonneg_routerRequest : PricesNonneg routerSettings routerRequest := by
  constructor
  · decide +kernel
  · exact fun _ _ => le_rfl
  · exact fun _ _ => le_rfl
  all_goals decide +kernel

/-- A Gemini report whose total leaves out the tokens of the tools. -/
def toolUseMetadata : GeminiUsageMetadata where
  promptTokenCount := 3
  toolUsePromptTokenCount := 10
  totalTokenCount := 5

def toolUseBilling : BillingUsage where
  source := "gemini_chat"
  geminiUsageMetadata := some toolUseMetadata

theorem nonneg_toolUseBilling : (effectiveProvider {} (some toolUseBilling)).Nonneg := by
  show (ProviderUsage.gemini toolUseMetadata).Nonneg
  refine ⟨?_, ?_, ?_, ?_, ?_, fun d hd => (not_mem_nil hd).elim⟩ <;> decide

theorem noCredit_toolUseBilling :
    NoCredit routerSettings routerRequest (effectiveProvider {} (some toolUseBilling)) :=
  noCredit pricesNonneg_routerRequest {} (some toolUseBilling) nonneg_toolUseBilling

/-- The usage of OpenRouter has a price, from which the tokens written to the cache are guessed. -/
def routerUsage (completionTokens : ℤ) : Usage where
  promptTokens := 100
  completionTokens
  usageSemantic := "anthropic"
  cost := 8810 / 4000000

/-- Negative output, a read of the cache for nothing, and more output for less. -/
theorem noCredit_needs :
    ((effectiveProvider {} (some toolUseBilling)).Nonneg ∧
      (effectiveBillingUsage {} (some toolUseBilling)).completionTokens = -8) ∧
    textQuota routerSettings { originModelName := "claude", priceData := { modelRatio := 1 } }
      (ProviderUsage.claude { cacheReadInputTokens := 100 }).toUsage = 0 ∧
    textQuota routerSettings routerRequest (routerUsage 1) <
      textQuota routerSettings routerRequest (routerUsage 0) := by
  refine ⟨⟨nonneg_toolUseBilling, ?_⟩, ?_, ?_⟩ <;> decide +kernel

end BeeApi.Billing
