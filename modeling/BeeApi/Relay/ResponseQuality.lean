import BeeApi.Relay.Loop

/-!
# The response quality filter

What an attempt has seen of the answer of its upstream, and when the answer is an apology or too short.
The token counter, the lower case of a rune and the settings, as their `Effective` functions give them,
are those of the channel of the attempt.
-/

namespace BeeApi.Quality

open Strings

/-- What the filter reads of the request, the channel and the settings. -/
structure Env where
  /-- `unicode.ToLower`. -/
  lower : Char → Char
  countTextToken : String → ℕ
  /-- The request is a channel test. -/
  isProbe : Bool := false
  /-- The flags of `responseQualityFlagsFor`. -/
  apology : Bool := false
  lowToken : Bool := false
  apologyKeywords : List String := []
  lowTokenThreshold : ℕ := 300
  apologyStatusCode : ℤ := 503
  lowTokenStatusCode : ℤ := 503
  retryAfterBlock : Bool := false
  /-- `DisableNoOutputRefund` of the channel. -/
  disableNoOutputRefund : Bool := false
  requestedMaxTokens : ℤ := 0
  estimatePromptTokens : ℤ := 0

/-- The filter looks at the answer. -/
def responseQualityActive (env : Env) : Bool := !env.isProbe && (env.apology || env.lowToken)

/-- The part of `dto.Usage` that the filter and its charge read. -/
structure Usage where
  promptTokens : ℤ := 0
  completionTokens : ℤ := 0
  totalTokens : ℤ := 0
  inputTokens : ℤ := 0
  audioTokens : ℤ := 0
  imageTokens : ℤ := 0

/-- What was seen of an answer. -/
structure QualityInspect where
  text : String := ""
  reasoning : String := ""
  toolCalls : ℕ := 0
  media : Bool := false

/-- What a chunk brings. -/
structure QualityStreamDelta where
  visible : String := ""
  reasoning : String := ""
  toolCalls : ℕ := 0
  media : Bool := false

/-- A chunk that brings nothing. -/
def QualityStreamDelta.empty (d : QualityStreamDelta) : Bool :=
  d.visible = "" && d.reasoning = "" && d.toolCalls = 0 && !d.media

/-- The answer with one more chunk. -/
def QualityInspect.add (i : QualityInspect) (d : QualityStreamDelta) : QualityInspect where
  text := i.text ++ d.visible
  reasoning := i.reasoning ++ d.reasoning
  toolCalls := i.toolCalls + d.toolCalls
  media := i.media || d.media

/-- White space becomes one blank; `prevSpace` tells whether one was just written. -/
def collapse (prevSpace : Bool) : List Char → List Char
  | [] => []
  | r :: rest =>
    if isSpace r then if prevSpace then collapse true rest else ' ' :: collapse true rest
    else r :: collapse false rest

/-- Lower case, with single blanks. -/
def qualityNormalize (lower : Char → Char) (text : String) : String :=
  trimSpace (String.ofList (collapse false (text.toList.map lower)))

/-- A keyword stands in the text. -/
def apologyMatches (env : Env) (text : String) : Bool :=
  let normalized := qualityNormalize env.lower text
  trimSpace text ≠ "" && normalized ≠ "" &&
    env.apologyKeywords.any fun phrase => phrase ≠ "" && contains normalized phrase

/-- The binary search of `qualityTokenPrefix`; a round narrows the bounds. -/
def searchPrefix (fits : ℕ → Bool) : ℕ → ℕ → ℕ → ℕ → ℕ
  | 0, _, _, best => best
  | fuel + 1, lo, hi, best =>
    if lo ≤ hi then
      let mid := (lo + hi) / 2
      if fits mid then searchPrefix fits fuel (mid + 1) hi mid
      else searchPrefix fits fuel lo (mid - 1) best
    else best

/-- `string(runes[:n])`. -/
def takeRunes (text : String) (n : ℕ) : String := String.ofList (text.toList.take n)

/-- The longest start within the threshold. -/
def qualityTokenPrefix (env : Env) (text : String) : String :=
  if text = "" ∨ env.countTextToken text ≤ env.lowTokenThreshold then text
  else
    let n := text.toList.length
    takeRunes text
      (searchPrefix (fun mid => env.countTextToken (takeRunes text mid) ≤ env.lowTokenThreshold)
        n 1 n 1)

/-- An apology at the start of the text. -/
def containsApologyWithinThreshold (env : Env) (text : String) : Bool :=
  apologyMatches env (qualityTokenPrefix env text)

/-- The tokens reported, or else counted. -/
def qualityCompletionTokens (env : Env) (usage : Option Usage) (inspect : QualityInspect) : ℤ :=
  let count (text : String) : ℤ := if trimSpace text ≠ "" then env.countTextToken text else 0
  let tokens := count inspect.text + count inspect.reasoning
  match usage with
  | some u => if u.completionTokens > 0 then u.completionTokens
    else if tokens > 0 then tokens else u.completionTokens
  | none => tokens

/-- Tool calls and media are let through. -/
def qualitySkipNonText (usage : Option Usage) (inspect : QualityInspect) : Bool :=
  inspect.toolCalls > 0 || inspect.media ||
    usage.any fun u => u.audioTokens > 0 || u.imageTokens > 0

/-- The client has asked for a short answer. -/
def qualityRequestedShortOutput (env : Env) : Bool :=
  env.requestedMaxTokens > 0 && env.requestedMaxTokens < env.lowTokenThreshold

/-- `ErrorCodeResponseQualityApology`. -/
def apologyCode : String := "response_quality_apology"

/-- `ErrorCodeResponseQualityLowToken`. -/
def lowTokenCode : String := "response_quality_low_token"

/-- The error of an answer that is blocked. -/
def qualityFilterError (env : Env) (code : String) (status : ℤ) : Relay.NewAPIError where
  errorCode := code
  skipRetry := !env.retryAfterBlock
  statusCode := status

def qualityApologyError (env : Env) : Relay.NewAPIError :=
  qualityFilterError env apologyCode env.apologyStatusCode

/-- The error when the answer is blocked. -/
def applyResponseQualityFilter (env : Env) (inspect : QualityInspect) (usage : Option Usage) :
    Option Relay.NewAPIError :=
  if env.isProbe then none
  else if !env.apology && !env.lowToken then none
  else if qualitySkipNonText usage inspect then none
  else if env.apology && containsApologyWithinThreshold env inspect.text then
    some (qualityApologyError env)
  else if env.lowToken && qualityCompletionTokens env usage inspect < env.lowTokenThreshold &&
      !qualityRequestedShortOutput env then
    some (qualityFilterError env lowTokenCode env.lowTokenStatusCode)
  else none

def isResponseQualityFilterError (err : Relay.NewAPIError) : Bool :=
  err.errorCode = apologyCode || err.errorCode = lowTokenCode

/-- A usage that can be charged. -/
def qualityUsageHasTokens (u : Usage) : Bool :=
  u.promptTokens > 0 || u.completionTokens > 0 || u.totalTokens > 0 || u.inputTokens > 0

/-- The usage charged for a blocked answer. -/
def qualityChargeUsage (env : Env) (inspect : QualityInspect) (usage : Option Usage) :
    Option Usage :=
  match usage.filter qualityUsageHasTokens with
  | some u => some u
  | none =>
    let completion := qualityCompletionTokens env usage inspect
    if completion ≤ 0 then none
    else
      some
        { promptTokens := env.estimatePromptTokens
          completionTokens := completion
          totalTokens := env.estimatePromptTokens + completion }

/-- Only a channel without refunds charges it. -/
def chargeQualityFilterIfNeeded (env : Env) (inspect : QualityInspect) (usage : Option Usage) :
    Option Usage :=
  if env.disableNoOutputRefund then qualityChargeUsage env inspect usage else none

end BeeApi.Quality
