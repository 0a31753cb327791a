import BeeApi.Payment.TopUp

/-!
# Billing by an expression

`setting/billing_setting/tiered_billing.go`, `pkg/billingexpr` and `service/tiered_settle.go`.  The
compiler and the machine of the expression language are a parameter, `ExprEngine`; `float64` values
are rationals.
-/

namespace BeeApi.Billing

open Payment

structure TokenParams where
  p : ℚ := 0
  c : ℚ := 0
  len : ℚ := 0
  cr : ℚ := 0
  cc : ℚ := 0
  cc1h : ℚ := 0
  img : ℚ := 0
  imgO : ℚ := 0
  ai : ℚ := 0
  ao : ℚ := 0

structure RequestInput where
  headers : List (String × String) := []
  body : String := ""

structure TraceResult where
  matchedTier : String := ""
  cost : ℚ := 0

/-- `expr.Compile` with `expr.Run` at a moment, and the identifiers of the compiled program. -/
structure ExprEngine where
  runExprWithRequest : ℤ → String → TokenParams → RequestInput → Except String (ℚ × TraceResult)
  usedVars : String → List String

/-- Why `smokeTestExpr` rejects an expression. -/
inductive SmokeError
  | runFailed (p c : ℚ) (err : String)
  | negative (p c result : ℚ)
deriving DecidableEq

/-- The samples of `smokeTestExpr`; the categories other than `p` and `c` stay at zero. -/
def smokeVectors : List TokenParams :=
  [{ p := 0, c := 0, len := 0 }, { p := 1000, c := 1000, len := 1000 },
    { p := 100000, c := 100000, len := 100000 }, { p := 1000000, c := 1000000, len := 1000000 }]

def smokeRequests : List RequestInput :=
  [{},
    { headers := [("anthropic-beta", "fast-mode-2026-02-01")]
      body := "\x7b\"service_tier\":\"fast\",\"stream_options\":\x7b\"include_usage\":true\x7d," ++
        "\"messages\":[1,2,3,4,5,6,7,8,9,10,11,12,13,14,15,16,17,18,19,20,21]\x7d" }]

def smokeTestExpr (engine : ExprEngine) (now : ℤ) (exprStr : String) : Except SmokeError Unit :=
  smokeVectors.forM fun v =>
    smokeRequests.forM fun request =>
      match engine.runExprWithRequest now exprStr v request with
      | .error err => .error (.runFailed v.p v.c err)
      | .ok (result, _) => if result < 0 then .error (.negative v.p v.c result) else .ok ()

def maxQuota : ℤ := 2147483647

def minQuota : ℤ := -2147483648

def saturateQuota (value : ℤ) : ℤ :=
  if maxQuota ≤ value then maxQuota else if value ≤ minQuota then minQuota else value

/-- `common.QuotaRound`, and `common.QuotaFromDecimal`. -/
def quotaRound (value : ℚ) : ℤ := saturateQuota (roundDecimal value)

/-- `common.QuotaFromFloat` cuts the fraction off. -/
def quotaFromFloat (value : ℚ) : ℤ := saturateQuota (intPart value)

def quotaRoundStrict (value : ℚ) : Option ℤ :=
  if roundDecimal value < maxQuota ∧ minQuota < roundDecimal value then some (roundDecimal value)
  else none

structure BillingSnapshot where
  billingMode : String := "tiered_expr"
  exprString : String
  groupRatio : ℚ
  estimatedPromptTokens : ℤ := 0
  estimatedCompletionTokens : ℤ := 0
  estimatedQuotaBeforeGroup : ℚ := 0
  estimatedQuotaAfterGroup : ℤ := 0
  estimatedTier : String := ""
  quotaPerUnit : ℚ
  exprVersion : ℤ := 1
deriving DecidableEq

structure TieredResult where
  actualQuotaBeforeGroup : ℚ
  actualQuotaAfterGroup : ℤ
  matchedTier : String
  crossedTier : Bool

/-- `quotaConversion`: the coefficients are prices of a million tokens, in every version. -/
def quotaConversion (exprOutput : ℚ) (snap : BillingSnapshot) : ℚ :=
  exprOutput / 1000000 * snap.quotaPerUnit

def computeTieredQuotaWithRequest (engine : ExprEngine) (now : ℤ) (snap : BillingSnapshot)
    (params : TokenParams) (request : RequestInput) : Except String TieredResult :=
  match engine.runExprWithRequest now snap.exprString params request with
  | .error err => .error err
  | .ok (cost, trace) =>
    let quotaBeforeGroup := quotaConversion cost snap
    .ok
      { actualQuotaBeforeGroup := quotaBeforeGroup
        actualQuotaAfterGroup := quotaRound (quotaBeforeGroup * snap.groupRatio)
        matchedTier := trace.matchedTier
        crossedTier := decide (trace.matchedTier ≠ snap.estimatedTier) }

/-- `dto.InputTokenDetails` and the fields of `dto.OutputTokenDetails` that are priced. -/
structure TokenDetails where
  cachedTokens : ℤ := 0
  cachedCreationTokens : ℤ := 0
  cacheWriteTokens : ℤ := 0
  imageTokens : ℤ := 0
  audioTokens : ℤ := 0

/-- `CacheCreationTokensTotal`: two fields may describe the same cache write. -/
def TokenDetails.cacheCreationTokensTotal (d : TokenDetails) : ℤ :=
  if d.cachedCreationTokens < d.cacheWriteTokens then d.cacheWriteTokens
  else d.cachedCreationTokens

/-- `dto.Usage`, after `effectiveBillingUsage`. -/
structure Usage where
  promptTokens : ℤ := 0
  completionTokens : ℤ := 0
  promptTokensDetails : TokenDetails := {}
  completionTokenDetails : TokenDetails := {}
  usageSemantic : String := ""
  usageSource : String := ""
  claudeCacheCreation5mTokens : ℤ := 0
  claudeCacheCreation1hTokens : ℤ := 0
  cost : ℚ := 0

/-- `BuildTieredTokenParams`: a category that the expression prices by itself leaves `p` or `c`. -/
def buildTieredTokenParams (usage : Usage) (isClaudeUsageSemantic : Bool)
    (usedVars : List String) : TokenParams :=
  let p : ℚ := usage.promptTokens
  let c : ℚ := usage.completionTokens
  let cr : ℚ := usage.promptTokensDetails.cachedTokens
  let anthropic := usage.usageSemantic = "anthropic"
  let cc5m : ℚ :=
    if anthropic then (usage.claudeCacheCreation5mTokens : ℚ)
    else usage.promptTokensDetails.cacheCreationTokensTotal
  let cc1h : ℚ := if anthropic then (usage.claudeCacheCreation1hTokens : ℚ) else 0
  let img : ℚ := usage.promptTokensDetails.imageTokens
  let ai : ℚ := usage.promptTokensDetails.audioTokens
  let imgO : ℚ := usage.completionTokenDetails.imageTokens
  let ao : ℚ := usage.completionTokenDetails.audioTokens
  let inputLen := if isClaudeUsageSemantic then p + cr + cc5m + cc1h else p
  let priced := fun (name : String) (tokens : ℚ) =>
    if !isClaudeUsageSemantic && usedVars.contains name then tokens else 0
  let p := p - priced "cr" cr - priced "cc" cc5m - priced "cc1h" cc1h - priced "img" img -
    priced "ai" ai
  let c := c - priced "img_o" imgO - priced "ao" ao
  { p := max p 0, c := max c 0, len := inputLen, cr, cc := cc5m, cc1h, img, imgO, ai, ao }

end BeeApi.Billing
