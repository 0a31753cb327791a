import BeeApi.Billing.BillingUsage

/-!
# Claude usages on their way through OpenAI usages

A usage of the Claude API becomes one of the OpenAI kind, whose prompt tokens include those of the
cache, and is read back from it. A stream sends its usage in parts, which
`FormatClaudeResponseInfo` puts together.
-/

namespace BeeApi.RelayConvert

open Billing Option

/-- `dto.Usage`, with its sums and the report it carries. -/
structure RelayUsage extends Billing.Usage where
  totalTokens : ℤ := 0
  inputTokens : ℤ := 0
  billingUsage : Option BillingUsage := none

def getCacheCreation5mTokens (u : ClaudeUsage) : ℤ := u.cacheCreation.elim 0 Prod.fst

def getCacheCreation1hTokens (u : ClaudeUsage) : ℤ := u.cacheCreation.elim 0 Prod.snd

def hasClaudeUsageTokens (u : ClaudeUsage) : Bool :=
  u.inputTokens ≠ 0 || u.outputTokens ≠ 0 || u.cacheCreationInputTokens ≠ 0 ||
    u.cacheReadInputTokens ≠ 0 || u.claudeCacheCreation5mTokens ≠ 0 ||
    u.claudeCacheCreation1hTokens ≠ 0 || u.cacheCreation.any fun c => c.1 ≠ 0 || c.2 ≠ 0

def newClaudeMessagesBillingUsage (u : ClaudeUsage) : Option BillingUsage :=
  if hasClaudeUsageTokens u then
    some { source := "claude_messages", semantic := "anthropic", claudeUsage := some u }
  else none

def normalizeCacheCreationSplit (totalTokens tokens5m tokens1h : ℤ) : ℤ × ℤ :=
  (tokens5m + max (totalTokens - tokens5m - tokens1h) 0, tokens1h)

/-- The `cache_creation` of a split, which is left out if it has no tokens. -/
def cacheCreationOf (split : ℤ × ℤ) : Option (ℤ × ℤ) :=
  if 0 < split.1 ∨ 0 < split.2 then some split else none

/-! ## One usage -/

def cacheCreationTokensForOpenAIUsage (usage : Billing.Usage) : ℤ :=
  let splitCacheCreationTokens :=
    usage.claudeCacheCreation5mTokens + usage.claudeCacheCreation1hTokens
  if splitCacheCreationTokens = 0 then usage.promptTokensDetails.cachedCreationTokens
  else if splitCacheCreationTokens < usage.promptTokensDetails.cachedCreationTokens then
    usage.promptTokensDetails.cachedCreationTokens
  else splitCacheCreationTokens

def buildOpenAIStyleUsageFromClaudeUsage (usage : RelayUsage) : RelayUsage :=
  let split := normalizeCacheCreationSplit usage.promptTokensDetails.cachedCreationTokens
    usage.claudeCacheCreation5mTokens usage.claudeCacheCreation1hTokens
  let cacheCreationTokens := cacheCreationTokensForOpenAIUsage usage.toUsage
  let totalInputTokens :=
    usage.promptTokens + usage.promptTokensDetails.cachedTokens + cacheCreationTokens
  { usage with
    promptTokens := totalInputTokens
    inputTokens := totalInputTokens
    totalTokens := totalInputTokens + usage.completionTokens
    promptTokensDetails := { usage.promptTokensDetails with cacheWriteTokens := cacheCreationTokens }
    claudeCacheCreation5mTokens := split.1
    claudeCacheCreation1hTokens := split.2
    usageSemantic := "openai"
    usageSource := "anthropic" }

/-- The `dto.Usage` of a Claude usage with the report that it may carry. -/
def semanticUsage (usage : ClaudeUsage) (billingUsage : Option BillingUsage) : RelayUsage where
  promptTokens := usage.inputTokens
  completionTokens := usage.outputTokens
  usageSemantic := "anthropic"
  usageSource := "anthropic"
  billingUsage := billingUsage.or (newClaudeMessagesBillingUsage usage)
  promptTokensDetails :=
    { cachedTokens := usage.cacheReadInputTokens
      cachedCreationTokens := usage.cacheCreationInputTokens }
  claudeCacheCreation5mTokens := getCacheCreation5mTokens usage
  claudeCacheCreation1hTokens := getCacheCreation1hTokens usage

def usageFromClaudeAPIUsage (usage : ClaudeUsage) (billingUsage : Option BillingUsage) : RelayUsage :=
  buildOpenAIStyleUsageFromClaudeUsage (semanticUsage usage billingUsage)

/-- The report that the result carries is left out. -/
def buildClaudeUsageFromOpenAIUsage (oaiUsage : RelayUsage) : ClaudeUsage :=
  let carried := do
    let billingUsage ← oaiUsage.billingUsage
    let claudeUsage ← billingUsage.claudeUsage
    if billingUsage.source = "claude_messages" ∨ billingUsage.semantic = "anthropic" then
      some claudeUsage
    else none
  let details := oaiUsage.promptTokensDetails
  let cacheCreationTokens := details.cacheCreationTokensTotal
  carried.getD
    { inputTokens :=
        if 0 < details.cacheWriteTokens then
          max (oaiUsage.promptTokens - (details.cachedTokens + cacheCreationTokens)) 0
        else oaiUsage.promptTokens
      outputTokens := oaiUsage.completionTokens
      cacheCreationInputTokens := cacheCreationTokens
      cacheReadInputTokens := details.cachedTokens
      cacheCreation := cacheCreationOf (normalizeCacheCreationSplit cacheCreationTokens
        oaiUsage.claudeCacheCreation5mTokens oaiUsage.claudeCacheCreation1hTokens) }

/-- What is read back of a usage without the report that it carries. -/
def readBack (usage : ClaudeUsage) (billingUsage : Option BillingUsage) : ClaudeUsage :=
  buildClaudeUsageFromOpenAIUsage
    { usageFromClaudeAPIUsage usage billingUsage with billingUsage := none }

/-! ## The usage of a stream -/

inductive UsageEvent
  | messageStart (usage : Option ClaudeUsage)
  | messageDelta (usage : Option ClaudeUsage)

def claudeBillingUsageFromSemanticUsage (usage : Billing.Usage) : Option BillingUsage :=
  newClaudeMessagesBillingUsage
    { inputTokens := usage.promptTokens
      cacheCreationInputTokens := usage.promptTokensDetails.cachedCreationTokens
      cacheReadInputTokens := usage.promptTokensDetails.cachedTokens
      outputTokens := usage.completionTokens
      cacheCreation := cacheCreationOf (normalizeCacheCreationSplit
        usage.promptTokensDetails.cachedCreationTokens usage.claudeCacheCreation5mTokens
        usage.claudeCacheCreation1hTokens) }

def formatClaudeResponseInfo (info : RelayUsage) : UsageEvent → RelayUsage
  | .messageStart (some usage) =>
    let next : Billing.Usage :=
      { info.toUsage with
        promptTokens := usage.inputTokens
        usageSemantic := "anthropic"
        promptTokensDetails :=
          { info.promptTokensDetails with
            cachedTokens := usage.cacheReadInputTokens
            cachedCreationTokens := usage.cacheCreationInputTokens }
        claudeCacheCreation5mTokens := getCacheCreation5mTokens usage
        claudeCacheCreation1hTokens := getCacheCreation1hTokens usage
        completionTokens := usage.outputTokens }
    { info with toUsage := next, billingUsage := claudeBillingUsageFromSemanticUsage next }
  | .messageDelta (some usage) =>
    let positive := fun (sent old : ℤ) => if 0 < sent then sent else old
    let next : Billing.Usage :=
      { info.toUsage with
        usageSemantic := "anthropic"
        promptTokens := positive usage.inputTokens info.promptTokens
        promptTokensDetails :=
          { info.promptTokensDetails with
            cachedTokens := positive usage.cacheReadInputTokens info.promptTokensDetails.cachedTokens
            cachedCreationTokens := positive usage.cacheCreationInputTokens
              info.promptTokensDetails.cachedCreationTokens }
        claudeCacheCreation5mTokens :=
          positive (getCacheCreation5mTokens usage) info.claudeCacheCreation5mTokens
        claudeCacheCreation1hTokens :=
          positive (getCacheCreation1hTokens usage) info.claudeCacheCreation1hTokens
        completionTokens := positive usage.outputTokens info.completionTokens }
    { info with
      toUsage := next
      totalTokens := next.promptTokens + next.completionTokens
      billingUsage := claudeBillingUsageFromSemanticUsage next }
  | _ => info

def accumulated (events : List UsageEvent) : RelayUsage := events.foldl formatClaudeResponseInfo {}

/-! ## What the usages say -/

structure Nonneg (u : ClaudeUsage) : Prop where
  input : 0 ≤ u.inputTokens
  output : 0 ≤ u.outputTokens
  cacheRead : 0 ≤ u.cacheReadInputTokens
  total : 0 ≤ u.cacheCreationInputTokens
  tokens5m : 0 ≤ getCacheCreation5mTokens u
  tokens1h : 0 ≤ getCacheCreation1hTokens u

/-- The larger one of the total and the split. -/
def created (u : ClaudeUsage) : ℤ :=
  max u.cacheCreationInputTokens (getCacheCreation5mTokens u + getCacheCreation1hTokens u)

/-- A usage survives the way to the OpenAI kind and back. -/
structure Survives (u : ClaudeUsage) (usage : RelayUsage) (back : ClaudeUsage) : Prop where
  prompt : usage.promptTokens = u.inputTokens + u.cacheReadInputTokens + created u
  total : usage.totalTokens = usage.promptTokens + usage.completionTokens
  input : back.inputTokens = u.inputTokens
  output : back.outputTokens = u.outputTokens
  cacheRead : back.cacheReadInputTokens = u.cacheReadInputTokens
  creation : back.cacheCreationInputTokens = created u
  tokens1h : getCacheCreation1hTokens back = getCacheCreation1hTokens u
  tokens5m : getCacheCreation5mTokens back = created u - getCacheCreation1hTokens u

/-- What an event sends of a count: a start every value, a delta a positive one. -/
def sent (field : ClaudeUsage → ℤ) : UsageEvent → Option ℤ
  | .messageStart usage => usage.map field
  | .messageDelta usage => (usage.map field).filter fun n => 0 < n

def lastSent (field : ClaudeUsage → ℤ) (events : List UsageEvent) : ℤ :=
  (events.reverse.findSome? (sent field)).getD 0

/-- A usage has the last values sent, and its report is made of the fields beside it. -/
structure Reports (events : List UsageEvent) (usage : RelayUsage) : Prop where
  prompt : usage.promptTokens = lastSent (·.inputTokens) events
  completion : usage.completionTokens = lastSent (·.outputTokens) events
  cacheRead : usage.promptTokensDetails.cachedTokens = lastSent (·.cacheReadInputTokens) events
  creation : usage.promptTokensDetails.cachedCreationTokens =
    lastSent (·.cacheCreationInputTokens) events
  tokens5m : usage.claudeCacheCreation5mTokens = lastSent getCacheCreation5mTokens events
  tokens1h : usage.claudeCacheCreation1hTokens = lastSent getCacheCreation1hTokens events
  billing : usage.billingUsage = newClaudeMessagesBillingUsage
    { inputTokens := usage.promptTokens
      outputTokens := usage.completionTokens
      cacheReadInputTokens := usage.promptTokensDetails.cachedTokens
      cacheCreationInputTokens := usage.promptTokensDetails.cachedCreationTokens
      cacheCreation := cacheCreationOf (normalizeCacheCreationSplit
        usage.promptTokensDetails.cachedCreationTokens usage.claudeCacheCreation5mTokens
        usage.claudeCacheCreation1hTokens) }

theorem lastSent_concat (field : ClaudeUsage → ℤ) (events : List UsageEvent) (e : UsageEvent) :
    lastSent field (events ++ [e]) = (sent field e).getD (lastSent field events) := by
  unfold lastSent
  rw [List.reverse_concat, List.findSome?_cons]
  cases sent field e <;> rfl

theorem getD_sent_delta (field : ClaudeUsage → ℤ) (u : ClaudeUsage) (old : ℤ) :
    (sent field (.messageDelta (some u))).getD old = if 0 < field u then field u else old := by
  by_cases h : 0 < field u <;> simp [sent, Option.filter, h]

theorem Reports.step {events : List UsageEvent} {usage : RelayUsage} (h : Reports events usage)
    (e : UsageEvent) : Reports (events ++ [e]) (formatClaudeResponseInfo usage e) := by
  match e with
  | .messageStart (some u) =>
    constructor <;> simp only [lastSent_concat, formatClaudeResponseInfo] <;> rfl
  | .messageDelta (some u) =>
    constructor <;> simp only [lastSent_concat, getD_sent_delta, formatClaudeResponseInfo, h.prompt,
      h.completion, h.cacheRead, h.creation, h.tokens5m, h.tokens1h,
      claudeBillingUsageFromSemanticUsage]
  | .messageStart none | .messageDelta none =>
    cases h
    constructor <;> simpa only [lastSent_concat, formatClaudeResponseInfo]

theorem reports_accumulated (events : List UsageEvent) : Reports events (accumulated events) := by
  induction events using List.reverseRecOn with
  | nil => constructor <;> rfl
  | append_singleton events e ih =>
    rw [accumulated, List.foldl_concat]
    exact ih.step e

section

variable {u : ClaudeUsage} (h : Nonneg u) (billingUsage : Option BillingUsage)

include h

theorem cacheCreationTokens_semanticUsage :
    cacheCreationTokensForOpenAIUsage (semanticUsage u billingUsage).toUsage = created u := by
  have htotal := h.total
  simp only [cacheCreationTokensForOpenAIUsage, created, semanticUsage]
  split_ifs <;> omega

theorem readBack_eq :
    readBack u billingUsage =
      { inputTokens := u.inputTokens + if 0 < created u then 0 else u.cacheReadInputTokens
        outputTokens := u.outputTokens
        cacheReadInputTokens := u.cacheReadInputTokens
        cacheCreationInputTokens := created u
        cacheCreation := cacheCreationOf
          (created u - getCacheCreation1hTokens u, getCacheCreation1hTokens u) } := by
  have hcreated := cacheCreationTokens_semanticUsage h billingUsage
  have hinput := h.input
  have hnonneg := h.total
  have htotal : u.cacheCreationInputTokens ≤ created u := le_max_left _ _
  have hsplit : getCacheCreation5mTokens u + getCacheCreation1hTokens u ≤ created u :=
    le_max_right _ _
  have hdetails : TokenDetails.cacheCreationTokensTotal
      (usageFromClaudeAPIUsage u billingUsage).promptTokensDetails = created u := by
    simp only [TokenDetails.cacheCreationTokensTotal, usageFromClaudeAPIUsage,
      buildOpenAIStyleUsageFromClaudeUsage, hcreated]
    simp only [semanticUsage]
    split_ifs <;> omega
  have hread : normalizeCacheCreationSplit (created u)
      (usageFromClaudeAPIUsage u billingUsage).claudeCacheCreation5mTokens
      (usageFromClaudeAPIUsage u billingUsage).claudeCacheCreation1hTokens =
        (created u - getCacheCreation1hTokens u, getCacheCreation1hTokens u) := by
    simp only [normalizeCacheCreationSplit, usageFromClaudeAPIUsage,
      buildOpenAIStyleUsageFromClaudeUsage, semanticUsage, Prod.mk.injEq, and_true, created]
    omega
  simp only [readBack, buildClaudeUsageFromOpenAIUsage, bind_eq_bind, bind_none,
    getD_none, hdetails, hread]
  simp only [usageFromClaudeAPIUsage, buildOpenAIStyleUsageFromClaudeUsage, hcreated]
  simp only [ClaudeUsage.mk.injEq, semanticUsage, and_true]
  split_ifs <;> omega

theorem elim_cacheCreationOf :
    let back := cacheCreationOf
      (created u - getCacheCreation1hTokens u, getCacheCreation1hTokens u)
    back.elim 0 Prod.snd = getCacheCreation1hTokens u ∧
      back.elim 0 Prod.fst = created u - getCacheCreation1hTokens u := by
  have h5m := h.tokens5m
  have h1h := h.tokens1h
  have hsplit : getCacheCreation5mTokens u + getCacheCreation1hTokens u ≤ created u :=
    le_max_right _ _
  rw [cacheCreationOf]
  split_ifs with hpos
  · exact ⟨rfl, rfl⟩
  · simp only [elim_none]
    omega

/-- A usage survives exactly where its cache is written or not read, and a stream reports what was
sent last. -/
theorem claudeUsage_survives_iff (events : List UsageEvent) :
    Survives u (usageFromClaudeAPIUsage u billingUsage) (readBack u billingUsage) ∧
        Reports events (accumulated events) ↔
      0 < created u ∨ u.cacheReadInputTokens = 0 := by
  rw [and_iff_left (reports_accumulated events), readBack_eq h billingUsage]
  constructor
  · intro hsurvives
    have hinput := hsurvives.input
    dsimp only at hinput
    split_ifs at hinput <;> omega
  · intro hcond
    have hcreated := cacheCreationTokens_semanticUsage h billingUsage
    have hback := elim_cacheCreationOf h
    refine ⟨?_, rfl, ?_, rfl, rfl, rfl, hback.1, hback.2⟩
    · simp only [usageFromClaudeAPIUsage, buildOpenAIStyleUsageFromClaudeUsage, hcreated]
      rfl
    · dsimp only
      split_ifs <;> omega

end

def writtenUsage : ClaudeUsage where
  inputTokens := 4
  cacheReadInputTokens := 2
  cacheCreationInputTokens := 3

theorem nonneg_writtenUsage : Nonneg writtenUsage := by
  constructor <;> decide

theorem writtenUsage_survives :
    Survives writtenUsage (usageFromClaudeAPIUsage writtenUsage none) (readBack writtenUsage none) ∧
      Reports [.messageStart (some writtenUsage)] (accumulated [.messageStart (some writtenUsage)]) :=
  (claudeUsage_survives_iff nonneg_writtenUsage none _).2 (.inl (by decide))

theorem readUsage_input :
    (readBack { inputTokens := 10, cacheReadInputTokens := 5 } none).inputTokens = 15 := by
  decide

end BeeApi.RelayConvert
