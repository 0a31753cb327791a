import BeeApi.Billing.TieredExpr

/-!
# The quota of a text request

`service/text_quota.go` from the usage that the upstream reports to the quota that
`PostTextConsumeQuota` hands to `SettleBilling`, with the snapshot that `modelPriceHelperTiered`
freezes before the request is sent.
-/

namespace BeeApi.Billing

open Strings

/-! ## Inputs -/

inductive RelayFormat
  | openAI
  | claude
  | gemini
  | openAIResponses
  | openAIResponsesCompaction
  | openAIAudio
  | openAIImage
  | openAIRealtime
  | rerank
  | embedding
  | systemOne
  | task
  | mjProxy
deriving DecidableEq

/-- The end reasons of a stream that the refund looks at. -/
inductive StreamEndReason
  | shutdown
  | clientGone
  | other
deriving DecidableEq

/-- `types.PriceData`, with the values of the map `OtherRatios`. -/
structure PriceData where
  freeModel : Bool := false
  modelPrice : ℚ := 0
  modelRatio : ℚ := 0
  completionRatio : ℚ := 0
  cacheRatio : ℚ := 0
  cacheCreationRatio : ℚ := 0
  cacheCreation5mRatio : ℚ := 0
  cacheCreation1hRatio : ℚ := 0
  imageRatio : ℚ := 0
  otherRatios : List ℚ := []
  usePrice : Bool := false
  quotaToPreConsume : ℤ := 0
  groupRatio : ℚ := 1
deriving DecidableEq

structure Settings where
  quotaPerUnit : ℚ
  getToolPriceForModel : String → String → ℚ
  getGPTImage1PriceOnceCall : String → String → ℚ
  getGeminiInputAudioPrice : String → ℚ
  defaultModelRatio : String → Option ℚ
  enableFreeModelPreConsume : Bool := false
  billingRefundWhenNoOutput : Bool
  refundNoOutputExcludeUpstreamRefusal : Bool
  refundNoOutputClientGoneMinSeconds : ℤ

/-- What the settlement reads of `RelayInfo` and the request context. `responsesUsageInfo` counts the
calls of the built-in tools, `channel` has the type of the channel and whether its refunds are disabled.
-/
structure RelayInfo where
  originModelName : String
  relayFormat : RelayFormat := .openAI
  finalRequestRelayFormat : RelayFormat := .openAI
  estimatePromptTokens : ℤ := 0
  useTimeSeconds : ℤ := 0
  priceData : PriceData := {}
  tieredBillingSnapshot : Option BillingSnapshot := none
  billingRequestInput : Option RequestInput := none
  finalPreConsumedQuota : ℤ := 0
  responsesUsageInfo : Option (List (String × ℤ)) := none
  channel : Option (ℤ × Bool) := none
  streamStatus : Option StreamEndReason := none
  claudeWebSearchRequests : ℤ := 0
  imageGenerationCall : Option (String × String) := none
  adminRejectReason : String := ""

def defaultTieredPreConsumeMaxTokens : ℤ := 8192

/-- `modelPriceHelperTiered`: the snapshot and the price of a request, or nothing when the
expression fails or its result is out of range. -/
def modelPriceHelperTiered (cfg : Settings) (engine : ExprEngine) (now : ℤ) (exprStr : String)
    (promptTokens maxTokens : ℤ) (groupRatio : ℚ) (requestInput : RequestInput) :
    Option (BillingSnapshot × PriceData) :=
  let estimatedCompletionTokens :=
    if maxTokens = 0 ∧ groupRatio ≠ 0 then defaultTieredPreConsumeMaxTokens else maxTokens
  match engine.runExprWithRequest now exprStr
      { p := promptTokens, c := estimatedCompletionTokens, len := promptTokens } requestInput with
  | .error _ => none
  | .ok (rawCost, trace) =>
    let quotaBeforeGroup := rawCost / 1000000 * cfg.quotaPerUnit
    (quotaRoundStrict (quotaBeforeGroup * groupRatio)).map fun preConsumedQuota =>
      let freeModel := !cfg.enableFreeModelPreConsume && decide (groupRatio = 0)
      let preConsumedQuota := if freeModel then 0 else preConsumedQuota
      ({ exprString := exprStr
         groupRatio
         estimatedPromptTokens := promptTokens
         estimatedCompletionTokens
         estimatedQuotaBeforeGroup := quotaBeforeGroup
         estimatedQuotaAfterGroup := preConsumedQuota
         estimatedTier := trace.matchedTier
         quotaPerUnit := cfg.quotaPerUnit },
        { freeModel, groupRatio, quotaToPreConsume := preConsumedQuota })

/-! ## The summary -/

structure TextQuotaSummary where
  promptTokens : ℤ
  completionTokens : ℤ
  totalTokens : ℤ
  cacheTokens : ℤ
  cacheCreationTokens : ℤ
  cacheCreationTokens5m : ℤ
  cacheCreationTokens1h : ℤ
  imageTokens : ℤ
  audioTokens : ℤ
  quota : ℤ := 0
  isClaudeUsageSemantic : Bool
  webSearchCallCount : ℤ := 0
  claudeWebSearchCallCount : ℤ := 0
  fileSearchCallCount : ℤ := 0
  audioInputPrice : ℚ := 0
  imageGenerationCallPrice : ℚ := 0
  toolCallSurchargeQuota : ℚ := 0

def hasSuffix (s suffix : String) : Bool := suffix.toList.isSuffixOf s.toList

/-- The calls of a built-in tool, zero when the response does not list it. -/
def toolCallCount (tools : List (String × ℤ)) (name : String) : ℤ :=
  ((tools.lookup name).getD 0)

/-- The calls of the web search preview, which a search model makes once by itself. -/
def webSearchCalls (relayInfo : RelayInfo) : ℤ :=
  match relayInfo.responsesUsageInfo with
  | some tools => max (toolCallCount tools "web_search_preview") 0
  | none => if hasSuffix relayInfo.originModelName "search-preview" then 1 else 0

def fileSearchCalls (relayInfo : RelayInfo) : ℤ :=
  match relayInfo.responsesUsageInfo with
  | some tools => max (toolCallCount tools "file_search") 0
  | none => 0

def imageCallPrice (cfg : Settings) (relayInfo : RelayInfo) : ℚ :=
  match relayInfo.imageGenerationCall with
  | some (quality, size) => cfg.getGPTImage1PriceOnceCall quality size
  | none => 0

def calculateTextToolCallSurcharge (cfg : Settings) (relayInfo : RelayInfo) : ℚ :=
  let perUnit := relayInfo.priceData.groupRatio * cfg.quotaPerUnit
  let perCall := fun (price : ℚ) (calls : ℤ) => price * calls / 1000 * perUnit
  perCall (cfg.getToolPriceForModel "web_search_preview" relayInfo.originModelName)
      (webSearchCalls relayInfo) +
    perCall (cfg.getToolPriceForModel "web_search" "") (max relayInfo.claudeWebSearchRequests 0) +
    perCall (cfg.getToolPriceForModel "file_search" "") (fileSearchCalls relayInfo) +
    imageCallPrice cfg relayInfo * perUnit

def usageSemanticFromUsage (relayInfo : RelayInfo) (usage : Option Usage) : String :=
  match usage with
  | some u =>
    if u.usageSemantic ≠ "" then u.usageSemantic
    else if relayInfo.finalRequestRelayFormat = .claude then "anthropic" else "openai"
  | none => if relayInfo.finalRequestRelayFormat = .claude then "anthropic" else "openai"

def isLegacyClaudeDerivedOpenAIUsage (relayInfo : RelayInfo) (usage : Usage) : Bool :=
  decide (relayInfo.finalRequestRelayFormat ≠ .claude) && decide (usage.usageSource = "") &&
    decide (usage.usageSemantic = "") &&
    (decide (0 < usage.claudeCacheCreation5mTokens) ||
      decide (0 < usage.claudeCacheCreation1hTokens))

def hasCustomModelRatio (cfg : Settings) (modelName : String) (currentRatio : ℚ) : Bool :=
  match cfg.defaultModelRatio modelName with
  | none => true
  | some defaultRatio => decide (currentRatio ≠ defaultRatio)

def calcOpenRouterCacheCreateTokens (cfg : Settings) (usage : Usage) (priceData : PriceData) : ℤ :=
  if priceData.cacheCreationRatio = 1 then 0
  else
    let quotaPrice := priceData.modelRatio / cfg.quotaPerUnit
    let promptCacheCreatePrice := quotaPrice * priceData.cacheCreationRatio
    let promptCacheReadPrice := quotaPrice * priceData.cacheRatio
    let completionPrice := quotaPrice * priceData.completionRatio
    let tokens := quotaFromFloat (Payment.roundDecimal
      ((usage.cost - usage.promptTokens * quotaPrice +
        usage.promptTokensDetails.cachedTokens * (quotaPrice - promptCacheReadPrice) -
        usage.completionTokens * completionPrice) / (promptCacheCreatePrice - quotaPrice)))
    if tokens < 0 then 0 else tokens

def channelTypeOpenRouter : ℤ := 20

/-- The token counts of the summary; OpenRouter reports the cached tokens of Claude models as part
of the prompt.  The test `usage.Cost != 0` compares an interface with an `int` and holds of every
decoded value. -/
def summaryTokens (cfg : Settings) (relayInfo : RelayInfo) (usage : Usage)
    (isClaudeUsageSemantic : Bool) : TextQuotaSummary :=
  let base : TextQuotaSummary :=
    { promptTokens := usage.promptTokens
      completionTokens := usage.completionTokens
      totalTokens := usage.promptTokens + usage.completionTokens
      cacheTokens := usage.promptTokensDetails.cachedTokens
      cacheCreationTokens := usage.promptTokensDetails.cacheCreationTokensTotal
      cacheCreationTokens5m := usage.claudeCacheCreation5mTokens
      cacheCreationTokens1h := usage.claudeCacheCreation1hTokens
      imageTokens := usage.promptTokensDetails.imageTokens
      audioTokens := usage.promptTokensDetails.audioTokens
      isClaudeUsageSemantic }
  let priceData := relayInfo.priceData
  if relayInfo.channel.map Prod.fst = some channelTypeOpenRouter ∧ isClaudeUsageSemantic then
    let promptTokens := base.promptTokens - base.cacheTokens
    let isUsingCustomSettings := priceData.usePrice ||
      hasCustomModelRatio cfg relayInfo.originModelName priceData.modelRatio
    let maybeCacheCreationTokens := calcOpenRouterCacheCreateTokens cfg usage priceData
    let cacheCreationTokens :=
      if base.cacheCreationTokens = 0 ∧ priceData.cacheCreationRatio ≠ 1 ∧
          isUsingCustomSettings = false ∧ 0 ≤ maybeCacheCreationTokens ∧
          maybeCacheCreationTokens ≤ promptTokens then maybeCacheCreationTokens
      else base.cacheCreationTokens
    { base with
      promptTokens := promptTokens - cacheCreationTokens
      cacheCreationTokens }
  else base

/-- The price of the audio input, looked up when the request has audio tokens and is not priced
per call. -/
def audioInputPrice (cfg : Settings) (relayInfo : RelayInfo) (audioTokens : ℤ) : ℚ :=
  if relayInfo.priceData.usePrice = false ∧ audioTokens ≠ 0 then
    cfg.getGeminiInputAudioPrice relayInfo.originModelName
  else 0

/-- The tokens of a summary in units of the model ratio, and the quota of its audio input. -/
def ratioTokens (cfg : Settings) (relayInfo : RelayInfo) (legacyClaudeDerived : Bool)
    (s : TextQuotaSummary) : ℚ × ℚ :=
  let d := relayInfo.priceData
  let included := !s.isClaudeUsageSemantic && !legacyClaudeDerived
  let hasSplit := decide (0 < s.cacheCreationTokens5m) || decide (0 < s.cacheCreationTokens1h)
  let creation := decide (s.cacheCreationTokens ≠ 0) || hasSplit
  let audioPrice := audioInputPrice cfg relayInfo s.audioTokens
  let baseTokens : ℚ := s.promptTokens - (if included then (s.cacheTokens : ℚ) else 0) -
    (if creation && included then (s.cacheCreationTokens : ℚ) else 0) - s.imageTokens -
    (if 0 < audioPrice then (s.audioTokens : ℚ) else 0)
  let cacheCreation : ℚ :=
    if !creation then 0
    else if included then s.cacheCreationTokens * d.cacheCreationRatio
    else
      (max (s.cacheCreationTokens - s.cacheCreationTokens5m - s.cacheCreationTokens1h) 0 : ℤ) *
          d.cacheCreationRatio +
        s.cacheCreationTokens5m * d.cacheCreation5mRatio +
        s.cacheCreationTokens1h * d.cacheCreation1hRatio
  let promptQuota := max baseTokens 0 + s.cacheTokens * d.cacheRatio +
    s.imageTokens * d.imageRatio + cacheCreation
  let audioInputQuota :=
    if 0 < audioPrice then audioPrice / 1000000 * s.audioTokens * d.groupRatio * cfg.quotaPerUnit
    else 0
  (promptQuota + s.completionTokens * d.completionRatio, audioInputQuota)

/-- The quota that the ratios of the model give, before rounding. -/
def quotaCalculateDecimal (cfg : Settings) (relayInfo : RelayInfo) (legacyClaudeDerived : Bool)
    (s : TextQuotaSummary) : ℚ :=
  let d := relayInfo.priceData
  let ratio := d.modelRatio * d.groupRatio
  if d.usePrice then
    (d.modelPrice * cfg.quotaPerUnit * d.groupRatio + s.toolCallSurchargeQuota) * d.otherRatios.prod
  else
    let (tokens, audioInputQuota) := ratioTokens cfg relayInfo legacyClaudeDerived s
    let amount := (tokens * ratio + s.toolCallSurchargeQuota + audioInputQuota) * d.otherRatios.prod
    if ratio ≠ 0 ∧ amount ≤ 0 then 1 else amount

def calculateTextQuotaSummary (cfg : Settings) (relayInfo : RelayInfo) (usage : Option Usage) :
    TextQuotaSummary :=
  let isClaudeUsageSemantic := decide (usageSemanticFromUsage relayInfo usage = "anthropic")
  let usage := usage.getD { promptTokens := relayInfo.estimatePromptTokens }
  let legacyClaudeDerived := isLegacyClaudeDerivedOpenAIUsage relayInfo usage
  let tokens := summaryTokens cfg relayInfo usage isClaudeUsageSemantic
  let s : TextQuotaSummary :=
    { tokens with
      webSearchCallCount := webSearchCalls relayInfo
      claudeWebSearchCallCount := relayInfo.claudeWebSearchRequests
      fileSearchCallCount := fileSearchCalls relayInfo
      imageGenerationCallPrice := imageCallPrice cfg relayInfo
      audioInputPrice := audioInputPrice cfg relayInfo tokens.audioTokens
      toolCallSurchargeQuota := calculateTextToolCallSurcharge cfg relayInfo }
  let quota := quotaRound (quotaCalculateDecimal cfg relayInfo legacyClaudeDerived s)
  let ratio := relayInfo.priceData.modelRatio * relayInfo.priceData.groupRatio
  { s with
    quota :=
      if s.totalTokens = 0 then 0 else if ratio ≠ 0 ∧ quota = 0 then 1 else quota }

def noOutputRefundEligibleFormats : List RelayFormat :=
  [.openAI, .claude, .gemini, .openAIResponses, .openAIResponsesCompaction]

/-- `strings.ToUpper` as far as its result can be an ASCII text: besides the ASCII letters, the
dotless i and the long s have ASCII capitals. -/
def toUpperChar (c : Char) : Char :=
  if c = 'ı' then 'I' else if c = 'ſ' then 'S' else c.toUpper

def toUpper (s : String) : String := String.ofList (s.toList.map toUpperChar)

def trimPrefix (s pre : String) : String := String.ofList (s.toList.drop pre.toList.length)

def geminiRefusalDenyValues : List String :=
  ["SAFETY", "PROHIBITED_CONTENT", "BLOCKLIST", "SPII", "IMAGE_SAFETY", "IMAGE_PROHIBITED_CONTENT"]

def rejectReasonGeminiBlockPrefix : String := "gemini_block_reason="

def rejectReasonGeminiFinishPrefix : String := "gemini_finish_reason="

def isUpstreamRefusalReject (reason : String) : Bool :=
  if reason = "claude_stop_reason=refusal" then true
  else if reason = "openai_finish_reason=content_filter" then true
  else if hasPrefix reason rejectReasonGeminiBlockPrefix then
    geminiRefusalDenyValues.contains (toUpper (trimPrefix reason rejectReasonGeminiBlockPrefix))
  else if hasPrefix reason rejectReasonGeminiFinishPrefix then
    geminiRefusalDenyValues.contains (toUpper (trimPrefix reason rejectReasonGeminiFinishPrefix))
  else false

def hasNonCompletionBillingComponent (s : TextQuotaSummary) : Bool :=
  decide (0 < s.imageTokens) || decide (0 < s.imageGenerationCallPrice) ||
    (decide (0 < s.audioTokens) && decide (0 < s.audioInputPrice)) ||
    decide (0 < s.webSearchCallCount) || decide (0 < s.claudeWebSearchCallCount) ||
    decide (0 < s.fileSearchCallCount)

/-- `shouldRefundNoOutput`, without the reason of a refusal. -/
def shouldRefundNoOutput (cfg : Settings) (relayInfo : RelayInfo) (s : TextQuotaSummary) : Bool :=
  cfg.billingRefundWhenNoOutput && decide (s.completionTokens = 0) &&
    noOutputRefundEligibleFormats.contains relayInfo.relayFormat &&
    !hasNonCompletionBillingComponent s && !(relayInfo.channel.any Prod.snd) &&
    !(cfg.refundNoOutputExcludeUpstreamRefusal &&
      isUpstreamRefusalReject relayInfo.adminRejectReason) &&
    decide (relayInfo.streamStatus ≠ some .shutdown) &&
    !(decide (relayInfo.streamStatus = some .clientGone) &&
      decide (relayInfo.useTimeSeconds < cfg.refundNoOutputClientGoneMinSeconds))

/-- `TryTieredSettle`: the quota, and the result unless the expression failed. -/
def tryTieredSettle (engine : ExprEngine) (now : ℤ) (relayInfo : RelayInfo)
    (params : TokenParams) : Option (ℤ × Option TieredResult) :=
  match relayInfo.tieredBillingSnapshot with
  | none => none
  | some snap =>
    if snap.billingMode ≠ "tiered_expr" then none
    else
      match computeTieredQuotaWithRequest engine now snap params
          (relayInfo.billingRequestInput.getD {}) with
      | .error _ =>
        some (if relayInfo.finalPreConsumedQuota ≤ 0 then snap.estimatedQuotaAfterGroup
          else relayInfo.finalPreConsumedQuota, none)
      | .ok tr => some (tr.actualQuotaAfterGroup, some tr)

/-- `composeTieredTextQuota`: a tool surcharge is added before the rounding. -/
def composeTieredTextQuota (relayInfo : RelayInfo) (s : TextQuotaSummary) (tieredQuota : ℤ)
    (tieredResult : Option TieredResult) : ℤ :=
  if s.toolCallSurchargeQuota = 0 then tieredQuota
  else
    match tieredResult, relayInfo.tieredBillingSnapshot with
    | some tr, some snap =>
      quotaRound (tr.actualQuotaBeforeGroup * snap.groupRatio + s.toolCallSurchargeQuota)
    | _, _ => quotaRound (tieredQuota + s.toolCallSurchargeQuota)

/-- The quota of the summary after the tiered settlement, which needs a usage. -/
def tieredSummaryQuota (cfg : Settings) (engine : ExprEngine) (now : ℤ) (relayInfo : RelayInfo)
    (usage : Option Usage) : ℤ :=
  let s := calculateTextQuotaSummary cfg relayInfo usage
  match usage with
  | none => s.quota
  | some u =>
    let tieredUsedVars := relayInfo.tieredBillingSnapshot.elim [] fun snap =>
      engine.usedVars snap.exprString
    match tryTieredSettle engine now relayInfo
        (buildTieredTokenParams u s.isClaudeUsageSemantic tieredUsedVars) with
    | some (tieredQuota, tieredRes) => composeTieredTextQuota relayInfo s tieredQuota tieredRes
    | none => s.quota

/-- `PostTextConsumeQuota`: the quota it passes to `SettleBilling`. -/
def postTextConsumeQuota (cfg : Settings) (engine : ExprEngine) (now : ℤ) (relayInfo : RelayInfo)
    (usage : Option Usage) : ℤ :=
  if shouldRefundNoOutput cfg relayInfo (calculateTextQuotaSummary cfg relayInfo usage) then 0
  else tieredSummaryQuota cfg engine now relayInfo usage

end BeeApi.Billing
