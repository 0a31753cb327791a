import BeeApi.Billing.NeverPays

/-!
# The usage that is billed

`effectiveBillingUsage` makes one `dto.Usage` of the report of an OpenAI, a Claude or a Gemini
provider, and `calculateTextQuotaSummary` prices it.
-/

namespace BeeApi.Billing

open Strings Payment

/-- A `dto.Usage` of an OpenAI provider, with the names that the Responses API has for its counts. -/
structure OpenAIUsage extends Usage where
  inputTokens : ℤ := 0
  outputTokens : ℤ := 0

/-- `dto.ClaudeUsage`, with the split of `cache_creation`. -/
structure ClaudeUsage where
  inputTokens : ℤ := 0
  cacheCreationInputTokens : ℤ := 0
  cacheReadInputTokens : ℤ := 0
  outputTokens : ℤ := 0
  cacheCreation : Option (ℤ × ℤ) := none
  claudeCacheCreation5mTokens : ℤ := 0
  claudeCacheCreation1hTokens : ℤ := 0

/-- `dto.GeminiUsageMetadata`; the details are a modality and a count. -/
structure GeminiUsageMetadata where
  promptTokenCount : ℤ := 0
  toolUsePromptTokenCount : ℤ := 0
  candidatesTokenCount : ℤ := 0
  totalTokenCount : ℤ := 0
  thoughtsTokenCount : ℤ := 0
  cachedContentTokenCount : ℤ := 0
  promptTokensDetails : List (String × ℤ) := []
  toolUsePromptTokensDetails : List (String × ℤ) := []
  candidatesTokensDetails : List (String × ℤ) := []

structure BillingUsage where
  source : String := ""
  semantic : String := ""
  openAIUsage : Option OpenAIUsage := none
  claudeUsage : Option ClaudeUsage := none
  geminiUsageMetadata : Option GeminiUsageMetadata := none

def usageFromOpenAIBillingUsage (source : String) (u : OpenAIUsage) : Usage :=
  { u.toUsage with
    promptTokens := if u.promptTokens = 0 ∧ 0 < u.inputTokens then u.inputTokens else u.promptTokens
    completionTokens :=
      if u.completionTokens = 0 ∧ 0 < u.outputTokens then u.outputTokens else u.completionTokens
    usageSemantic := "openai"
    usageSource := source }

def usageFromClaudeBillingUsage (u : ClaudeUsage) : Usage where
  promptTokens := u.inputTokens
  completionTokens := u.outputTokens
  promptTokensDetails :=
    { cachedTokens := u.cacheReadInputTokens, cachedCreationTokens := u.cacheCreationInputTokens }
  usageSemantic := "anthropic"
  usageSource := "claude_messages"
  claudeCacheCreation5mTokens :=
    if (u.cacheCreation.elim 0 Prod.fst) = 0 then u.claudeCacheCreation5mTokens
    else u.cacheCreation.elim 0 Prod.fst
  claudeCacheCreation1hTokens :=
    if (u.cacheCreation.elim 0 Prod.snd) = 0 then u.claudeCacheCreation1hTokens
    else u.cacheCreation.elim 0 Prod.snd

def modalityTokens (modality : String) (details : List (String × ℤ)) : ℤ :=
  ((details.filter fun d => d.1 = modality).map Prod.snd).sum

def usageFromGeminiBillingUsage (m : GeminiUsageMetadata) : Usage :=
  let promptTokens := m.promptTokenCount + m.toolUsePromptTokenCount
  let completionTokens := m.candidatesTokenCount + m.thoughtsTokenCount
  { promptTokens
    completionTokens :=
      if m.totalTokenCount ≠ 0 ∧ completionTokens ≤ 0 then m.totalTokenCount - promptTokens
      else completionTokens
    promptTokensDetails :=
      { cachedTokens := m.cachedContentTokenCount
        audioTokens := modalityTokens "AUDIO" m.promptTokensDetails +
          modalityTokens "AUDIO" m.toolUsePromptTokensDetails
        imageTokens := modalityTokens "IMAGE" m.promptTokensDetails +
          modalityTokens "IMAGE" m.toolUsePromptTokensDetails }
    completionTokenDetails :=
      { imageTokens := modalityTokens "IMAGE" m.candidatesTokensDetails
        audioTokens := modalityTokens "AUDIO" m.candidatesTokensDetails }
    usageSemantic := "gemini"
    usageSource := "gemini_chat" }

inductive ProviderUsage
  | reported (u : Usage)
  | openAI (source : String) (u : OpenAIUsage)
  | claude (u : ClaudeUsage)
  | gemini (m : GeminiUsageMetadata)

def ProviderUsage.toUsage : ProviderUsage → Usage
  | .reported u => u
  | .openAI source u => usageFromOpenAIBillingUsage source u
  | .claude u => usageFromClaudeBillingUsage u
  | .gemini m => usageFromGeminiBillingUsage m

/-- `usageFromBillingUsage`: the report that is meant by the source or the semantic. -/
def usageFromBillingUsage (b : BillingUsage) : Option ProviderUsage :=
  let source := trimSpace b.source
  let semantic := trimSpace b.semantic
  let openAI := b.openAIUsage.filter fun _ => equalFold source "oai_chat" ||
    equalFold source "oai_responses" || equalFold semantic "openai"
  let claude := b.claudeUsage.filter fun _ => equalFold source "claude_messages" ||
    equalFold semantic "anthropic"
  let gemini := b.geminiUsageMetadata.filter fun _ => equalFold source "gemini_chat" ||
    equalFold semantic "gemini"
  ((openAI.map (ProviderUsage.openAI b.source)).or (claude.map .claude)).or (gemini.map .gemini)

def effectiveProvider (u : Usage) (b : Option BillingUsage) : ProviderUsage :=
  (b.bind usageFromBillingUsage).getD (.reported u)

def effectiveBillingUsage (u : Usage) (b : Option BillingUsage) : Usage := (effectiveProvider u b).toUsage

end BeeApi.Billing
