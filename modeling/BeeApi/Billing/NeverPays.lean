import BeeApi.Billing.TextQuota
import BeeApi.Subscription.Effect
import BeeApi.Wallet.Steps

/-!
# A settlement does not pay the user

The smoke test runs an expression on four samples in which only `p` and `c` vary, and nothing after it
looks at the sign of a result: with a discount for another category the settlement hands `SettleBilling` a
negative quota.  `settlement_never_pays_iff` says exactly when it does not, and what acceptance is worth.
-/

namespace BeeApi.Billing

open Payment Subscription Wallet Option

/-! ## Signs of rounded amounts -/

theorem roundDecimal_nonneg_iff (x : ℚ) : 0 ≤ roundDecimal x ↔ -(1 / 2) < x := by
  unfold roundDecimal
  split_ifs with hx
  · have hfloor : (0 : ℤ) ≤ ⌊x + 1 / 2⌋ := Int.floor_nonneg.2 (by linarith)
    exact iff_of_true hfloor (by linarith)
  · constructor
    · intro h
      have hceil : (-1 : ℤ) < ⌈x - 1 / 2⌉ := by omega
      have := Int.lt_ceil.1 hceil
      push_cast at this
      linarith
    · intro h
      have hceil : (-1 : ℤ) < ⌈x - 1 / 2⌉ := Int.lt_ceil.2 (by push_cast; linarith)
      omega

theorem saturateQuota_nonneg_iff (value : ℤ) : 0 ≤ saturateQuota value ↔ 0 ≤ value := by
  unfold saturateQuota maxQuota minQuota
  split_ifs <;> omega

theorem quotaRound_nonneg_iff (x : ℚ) : 0 ≤ quotaRound x ↔ -(1 / 2) < x :=
  (saturateQuota_nonneg_iff _).trans (roundDecimal_nonneg_iff x)

theorem neg_half_lt_intCast_iff (n : ℤ) : -(1 / 2 : ℚ) < n ↔ 0 ≤ n := by
  constructor
  · intro h
    by_contra hn
    have hle : (n : ℚ) ≤ -1 := by exact_mod_cast (show n ≤ -1 by omega)
    linarith
  · intro h
    have hle : (0 : ℚ) ≤ n := by exact_mod_cast h
    linarith

/-! ## What a request owes -/

variable {cfg : Settings} {engine : ExprEngine} {now : ℤ} {relayInfo : RelayInfo}
  {snap : BillingSnapshot}

/-- A request priced by a frozen snapshot: its price data has no ratios of its own, and
`AddOtherRatio` keeps positive ratios only. -/
structure Frozen (relayInfo : RelayInfo) (snap : BillingSnapshot) : Prop where
  snapshot : relayInfo.tieredBillingSnapshot = some snap
  mode : snap.billingMode = "tiered_expr"
  modelRatio : relayInfo.priceData.modelRatio = 0
  usePrice : relayInfo.priceData.usePrice = false
  otherRatios : ∀ r ∈ relayInfo.priceData.otherRatios, 0 < r

theorem frozen_of_modelPriceHelperTiered {exprStr : String} {promptTokens maxTokens : ℤ}
    {groupRatio : ℚ} {input : RequestInput} {price : PriceData}
    (h : modelPriceHelperTiered cfg engine now exprStr promptTokens maxTokens groupRatio input =
      some (snap, price))
    (hsnap : relayInfo.tieredBillingSnapshot = some snap) (hprice : relayInfo.priceData = price) :
    Frozen relayInfo snap := by
  unfold modelPriceHelperTiered at h
  dsimp only at h
  split at h
  · cases h
  · obtain ⟨preConsumed, -, h⟩ := map_eq_some_iff.1 h
    cases h
    exact ⟨hsnap, rfl, by rw [hprice], by rw [hprice], by simp [hprice]⟩

/-- The tokens that a usage reports for a variable of an expression. -/
def Usage.reported (u : Usage) : String → ℤ
  | "cr" => u.promptTokensDetails.cachedTokens
  | "cc" =>
    if u.usageSemantic = "anthropic" then u.claudeCacheCreation5mTokens
    else u.promptTokensDetails.cacheCreationTokensTotal
  | "cc1h" => if u.usageSemantic = "anthropic" then u.claudeCacheCreation1hTokens else 0
  | "img" => u.promptTokensDetails.imageTokens
  | "ai" => u.promptTokensDetails.audioTokens
  | "img_o" => u.completionTokenDetails.imageTokens
  | "ao" => u.completionTokenDetails.audioTokens
  | _ => 0

/-- What a total leaves for its own variable: it counts in the categories that have variables of their
own, and those that the expression names are taken out; the totals of Claude are without them. -/
def Usage.remaining (u : Usage) (claude : Bool) (usedVars categories : List String) (total : ℤ) : ℤ :=
  max (total - if claude then 0 else
    (categories.map fun name => if usedVars.contains name then u.reported name else 0).sum) 0

/-- The values of the variables of an expression, as the usage reports them. -/
def Usage.reportedTokens (u : Usage) (claude : Bool) (usedVars : List String) : TokenParams where
  p := u.remaining claude usedVars ["cr", "cc", "cc1h", "img", "ai"] u.promptTokens
  c := u.remaining claude usedVars ["img_o", "ao"] u.completionTokens
  len := u.promptTokens +
    if claude then u.reported "cr" + u.reported "cc" + u.reported "cc1h" else 0
  cr := u.reported "cr"
  cc := u.reported "cc"
  cc1h := u.reported "cc1h"
  img := u.reported "img"
  imgO := u.reported "img_o"
  ai := u.reported "ai"
  ao := u.reported "ao"

theorem buildTieredTokenParams_eq (u : Usage) (claude : Bool) (usedVars : List String) :
    buildTieredTokenParams u claude usedVars = u.reportedTokens claude usedVars := by
  unfold buildTieredTokenParams Usage.reportedTokens Usage.remaining
  cases claude with
  | true =>
    simp [Usage.reported, add_assoc]
  | false =>
    simp [Usage.reported, sub_sub, add_assoc]

/-- The price of the calls of built-in tools, each at the price of a thousand, and of an image. -/
def toolCallPrice (cfg : Settings) (relayInfo : RelayInfo) : ℚ :=
  (cfg.getToolPriceForModel "web_search_preview" relayInfo.originModelName *
      webSearchCalls relayInfo +
    cfg.getToolPriceForModel "web_search" "" * max relayInfo.claudeWebSearchRequests 0 +
    cfg.getToolPriceForModel "file_search" "" * fileSearchCalls relayInfo) / 1000 +
    imageCallPrice cfg relayInfo

/-- The quota for the tool calls of a request. -/
def toolCallQuota (cfg : Settings) (relayInfo : RelayInfo) : ℚ :=
  toolCallPrice cfg relayInfo * relayInfo.priceData.groupRatio * cfg.quotaPerUnit

theorem calculateTextToolCallSurcharge_eq :
    calculateTextToolCallSurcharge cfg relayInfo = toolCallQuota cfg relayInfo := by
  unfold calculateTextToolCallSurcharge toolCallQuota toolCallPrice
  push_cast
  ring

/-- What a frozen request owes, as an exact amount: the price that the expression gives what the usage
reports, at a million tokens to the unit, or what was taken or estimated before when it gives none;
and only the tool calls when the upstream reports no usage. -/
def amountOwed (cfg : Settings) (engine : ExprEngine) (now : ℤ) (relayInfo : RelayInfo)
    (snap : BillingSnapshot) : Option Usage → ℚ
  | none =>
    if relayInfo.estimatePromptTokens = 0 then 0
    else toolCallQuota cfg relayInfo * relayInfo.priceData.otherRatios.prod
  | some usage =>
    (match engine.runExprWithRequest now snap.exprString
        (usage.reportedTokens (decide (usageSemanticFromUsage relayInfo (some usage) = "anthropic"))
          (engine.usedVars snap.exprString)) (relayInfo.billingRequestInput.getD {}) with
      | .ok (cost, _) => cost / 1000000 * snap.quotaPerUnit * snap.groupRatio
      | .error _ =>
        if 0 < relayInfo.finalPreConsumedQuota then (relayInfo.finalPreConsumedQuota : ℚ)
        else snap.estimatedQuotaAfterGroup) + toolCallQuota cfg relayInfo

theorem summary_surcharge (usage : Option Usage) :
    (calculateTextQuotaSummary cfg relayInfo usage).toolCallSurchargeQuota =
      toolCallQuota cfg relayInfo :=
  calculateTextToolCallSurcharge_eq

theorem summary_isClaudeUsageSemantic (usage : Option Usage) :
    (calculateTextQuotaSummary cfg relayInfo usage).isClaudeUsageSemantic =
      decide (usageSemanticFromUsage relayInfo usage = "anthropic") := by
  unfold calculateTextQuotaSummary summaryTokens
  dsimp only
  split_ifs <;> rfl

theorem summary_none (hf : Frozen relayInfo snap) :
    (calculateTextQuotaSummary cfg relayInfo none).quota =
      if relayInfo.estimatePromptTokens = 0 then 0
      else quotaRound
        (toolCallQuota cfg relayInfo * relayInfo.priceData.otherRatios.prod) := by
  have htotal : ∀ claude, (summaryTokens cfg relayInfo
      { promptTokens := relayInfo.estimatePromptTokens } claude).totalTokens =
        relayInfo.estimatePromptTokens := by
    intro claude
    unfold summaryTokens
    split_ifs <;> simp
  have haudio : ∀ claude, (summaryTokens cfg relayInfo
      { promptTokens := relayInfo.estimatePromptTokens } claude).audioTokens = 0 := by
    intro claude
    unfold summaryTokens
    split_ifs <;> rfl
  unfold calculateTextQuotaSummary
  simp only [getD_none, htotal, hf.modelRatio, zero_mul, ne_eq, not_true_eq_false,
    false_and, if_false]
  split_ifs with hzero
  · rfl
  · congr 1
    unfold quotaCalculateDecimal ratioTokens audioInputPrice
    simp [hf.modelRatio, hf.usePrice, haudio, calculateTextToolCallSurcharge_eq]

theorem composeTieredTextQuota_none_nonneg_iff (s : TextQuotaSummary) (tieredQuota : ℤ) :
    0 ≤ composeTieredTextQuota relayInfo s tieredQuota none ↔
      -(1 / 2) < (tieredQuota : ℚ) + s.toolCallSurchargeQuota := by
  unfold composeTieredTextQuota
  split_ifs with hs
  · rw [hs, add_zero]
    exact (neg_half_lt_intCast_iff _).symm
  · exact quotaRound_nonneg_iff _

theorem composeTieredTextQuota_some_nonneg_iff (hf : Frozen relayInfo snap)
    (s : TextQuotaSummary) (tr : TieredResult) :
    0 ≤ composeTieredTextQuota relayInfo s
        (quotaRound (tr.actualQuotaBeforeGroup * snap.groupRatio)) (some tr) ↔
      -(1 / 2) < tr.actualQuotaBeforeGroup * snap.groupRatio + s.toolCallSurchargeQuota := by
  unfold composeTieredTextQuota
  split_ifs with hs
  · rw [hs, add_zero]
    exact quotaRound_nonneg_iff _
  · simp only [hf.snapshot]
    exact quotaRound_nonneg_iff _

theorem tieredSummaryQuota_nonneg_iff (hf : Frozen relayInfo snap) (usage : Option Usage) :
    0 ≤ tieredSummaryQuota cfg engine now relayInfo usage ↔
      -(1 / 2) < amountOwed cfg engine now relayInfo snap usage := by
  unfold tieredSummaryQuota amountOwed
  cases usage with
  | none =>
    dsimp only
    rw [summary_none hf]
    split_ifs with hzero
    · norm_num
    · exact quotaRound_nonneg_iff _
  | some u =>
    have hmode : ¬ snap.billingMode ≠ "tiered_expr" := not_not.2 hf.mode
    have hparams : buildTieredTokenParams u
        (calculateTextQuotaSummary cfg relayInfo (some u)).isClaudeUsageSemantic
        (relayInfo.tieredBillingSnapshot.elim [] fun snap => engine.usedVars snap.exprString) =
          u.reportedTokens (decide (usageSemanticFromUsage relayInfo (some u) = "anthropic"))
            (engine.usedVars snap.exprString) := by
      rw [summary_isClaudeUsageSemantic, hf.snapshot]
      exact buildTieredTokenParams_eq u _ _
    dsimp only
    rw [hparams, tryTieredSettle, hf.snapshot]
    dsimp only
    rw [if_neg hmode, computeTieredQuotaWithRequest]
    cases hrun : engine.runExprWithRequest now snap.exprString
        (u.reportedTokens (decide (usageSemanticFromUsage relayInfo (some u) = "anthropic"))
          (engine.usedVars snap.exprString)) (relayInfo.billingRequestInput.getD {}) with
    | error e =>
      rw [composeTieredTextQuota_none_nonneg_iff, summary_surcharge, ← ite_not]
      simp only [not_le, apply_ite (Int.cast : ℤ → ℚ)]
    | ok out =>
      rw [← @summary_surcharge cfg relayInfo (some u)]
      exact composeTieredTextQuota_some_nonneg_iff hf (calculateTextQuotaSummary cfg relayInfo (some u))
        ⟨quotaConversion out.1 snap, _, _, _⟩

/-! ## Sessions -/

/-- The top-ups of a wallet session before its request is sent. -/
def reserveAll (s : BillingSession) (db : Db) : List (ℤ × ℤ × Bool) → BillingSession × Db
  | [] => (s, db)
  | (now, targetQuota, fault) :: rest =>
    let (s', db') := s.reserve db now targetQuota fault
    reserveAll s' db' rest

/-- A wallet session never ends with more quota than its user had before the pre-consume.  A trusted
session takes a positive quota and nothing otherwise. -/
def WalletNeverGains (actualQuota : ℤ) : Prop :=
  ∀ (s s₁ : BillingSession) (db db₁ : Db) (now quota : ℤ) (fault : Bool),
    s.preConsume db now quota fault = .ok (s₁, db₁) →
      ∀ (targets : List (ℤ × ℤ × Bool)) (now' : ℤ) (fault' : Bool),
        quotaOf ((reserveAll s₁ db₁ targets).1.settle (reserveAll s₁ db₁ targets).2 now'
          actualQuota fault').2 s.userId ≤ quotaOf db s.userId

/-- A subscription session that reserved `preConsumed` and settles `actualQuota` never ends with
less usage than its subscription had before the pre-consume. -/
def SubscriptionNeverGains (actualQuota : ℤ) : Prop :=
  ∀ (db db' : Db) (now userID userSubscriptionID tokenID preConsumed : ℤ),
    adjustSubscriptionTokenQuota db now userID userSubscriptionID tokenID
        (actualQuota - preConsumed) = .ok db' →
      ∀ sub, db.userSubscriptions.get? userSubscriptionID = some sub →
        ∃ sub', db'.userSubscriptions.get? userSubscriptionID = some sub' ∧
          sub.amountUsed - preConsumed ≤ sub'.amountUsed

variable {db db' : Db} {requestId : String} {userID tokenID quota start userId actualQuota : ℤ}
  {s : BillingSession}

theorem quotaOf_reserve
    (h : reserveUserTokenQuotaWithRecord db now requestId userID tokenID quota = .ok db') :
    quotaOf db' userID = quotaOf db userID - quota := by
  by_cases hid : Strings.trimSpace requestId = ""
  · obtain ⟨-, -, -, hacc, rfl⟩ := reserve_of_ok_of_blank hid h
    rw [quotaOf_moveQuota hacc, if_pos rfl]
  · obtain ⟨-, -, -, hacc, -, k, records, -, rfl⟩ := reserve_of_ok hid h
    have hmove := @quotaOf_moveQuota db now userID tokenID quota hacc userID
    rwa [if_pos rfl] at hmove

theorem quotaOf_extend
    (h : extendUserTokenReservation db now requestId userID tokenID quota = .ok db') :
    quotaOf db' userID = quotaOf db userID - quota := by
  by_cases hid : Strings.trimSpace requestId = ""
  · obtain ⟨-, hacc, rfl⟩ := extend_of_ok_of_blank hid h
    rw [quotaOf_moveQuota hacc, if_pos rfl]
  · obtain ⟨-, hacc, k, r, -, -, -, -, rfl⟩ := extend_of_ok hid h
    have hmove := @quotaOf_moveQuota db now userID tokenID quota hacc userID
    rwa [if_pos rfl] at hmove

/-- Closing a reservation moves the difference, or nothing when the record is already closed. -/
theorem quotaOf_finalize {delta : ℤ} {status : WalletPreConsumeStatus}
    (h : finalizeUserTokenQuota db now requestId userID tokenID delta status = .ok db') :
    quotaOf db' userID = quotaOf db userID ∨ quotaOf db' userID = quotaOf db userID - delta := by
  obtain ⟨huser, htok⟩ := finalize_pos h
  by_cases habsent : Strings.trimSpace requestId = "" ∨ db.walletRecordOf requestId = none
  · obtain ⟨hacc, rfl⟩ := (finalize_of_absent huser htok habsent).1 h
    right
    rw [quotaOf_closeQuota hacc, if_pos rfl]
  obtain ⟨hid, hsome⟩ := not_or.1 habsent
  obtain ⟨⟨k, r⟩, hf⟩ := ne_none_iff_exists'.1 hsome
  by_cases hr : r.status = .reserved
  · obtain ⟨hacc, rfl⟩ := (finalize_of_reserved hid huser htok hf hr).1 h
    right
    rw [closeQuota_closeRecord]
    have hclose := @quotaOf_closeQuota db now userID tokenID delta hacc userID
    rwa [if_pos rfl] at hclose
  · left
    rw [finalize_of_closed hid huser htok hf hr] at h
    rw [← Except.ok.inj h]

/-- While a session is open, its user has at most what it had less the reservation. -/
structure Holds (start : ℤ) (userId : ℤ) (s : BillingSession) (db : Db) : Prop where
  user : s.userId = userId
  le_start : quotaOf db userId ≤ start
  reserved : quotaOf db userId + s.preConsumedQuota ≤ start

theorem Holds.of_preConsume {s₁ : BillingSession} {db₁ : Db} {fault : Bool}
    (h : s.preConsume db now quota fault = .ok (s₁, db₁)) :
    Holds (quotaOf db s.userId) s.userId s₁ db₁ := by
  unfold BillingSession.preConsume at h
  split_ifs at h with hpos
  · obtain ⟨db', htx, hrest⟩ := Except.bind_eq_ok_iff.1 h
    cases hrest
    have hq := quotaOf_reserve (attempt_eq_ok htx).2
    refine ⟨rfl, ?_, ?_⟩
    · omega
    · dsimp only
      omega
  · cases h
    refine ⟨rfl, le_rfl, ?_⟩
    dsimp only
    omega

theorem Holds.reserve (h : Holds start userId s db) (targetQuota : ℤ) (fault : Bool) :
    Holds start userId (s.reserve db now targetQuota fault).1
      (s.reserve db now targetQuota fault).2 := by
  unfold BillingSession.reserve
  split_ifs with hdone
  · exact h
  · dsimp only
    cases htx : attempt fault (extendUserTokenReservation db now s.requestId s.userId s.tokenId
        (targetQuota - s.preConsumedQuota)) with
    | error e => exact h
    | ok db' =>
      have hq := quotaOf_extend (attempt_eq_ok htx).2
      simp only [Bool.or_eq_true, decide_eq_true_eq, not_or, not_le] at hdone
      rw [h.user] at hq
      have hle := h.le_start
      have hres := h.reserved
      refine ⟨h.user, ?_, ?_⟩
      · dsimp only
        omega
      · dsimp only
        omega

theorem Holds.reserveAll (targets : List (ℤ × ℤ × Bool)) :
    ∀ {s : BillingSession} {db : Db}, Holds start userId s db →
      Holds start userId (reserveAll s db targets).1 (reserveAll s db targets).2 := by
  induction targets with
  | nil => exact fun h => h
  | cons target rest ih => exact fun h => ih (h.reserve target.2.1 target.2.2)

theorem Holds.settle (h : Holds start userId s db) (hactual : 0 ≤ actualQuota) (fault : Bool) :
    quotaOf (s.settle db now actualQuota fault).2 userId ≤ start := by
  obtain hsame | ⟨s', db', heq, -, -, -, -, -, hfin⟩ := settle_cases s db now actualQuota fault
  · rw [hsame]
    exact h.le_start
  · rw [heq]
    have hle := h.le_start
    have hres := h.reserved
    have hq := quotaOf_finalize hfin
    rw [h.user] at hq
    dsimp only
    omega

theorem walletNeverGains (hactual : 0 ≤ actualQuota) : WalletNeverGains actualQuota := by
  intro s s₁ db db₁ now quota fault hpre targets now' fault'
  exact ((Holds.of_preConsume hpre).reserveAll targets).settle hactual fault'

theorem subscriptionNeverGains (hactual : 0 ≤ actualQuota) :
    SubscriptionNeverGains actualQuota := by
  intro db db' now userID userSubscriptionID tokenID preConsumed h sub hsub
  by_cases hdelta : actualQuota - preConsumed = 0
  · rw [hdelta] at h
    rw [eq_of_adjustSubscriptionTokenQuota_zero h]
    exact ⟨sub, hsub, by omega⟩
  · obtain ⟨-, -, rfl⟩ := (adjustSubscriptionTokenQuota_eq_ok_iff hdelta).1 h
    refine ⟨usageUpdates now (actualQuota - preConsumed) sub, ?_, ?_⟩
    · simp only [moved, Table.get?_modify_self, hsub, map_some]
    · simp only [usageUpdates]
      omega

theorem forM_ok {α ε : Type} {f : α → Except ε Unit} {l : List α} (h : l.forM f = .ok ()) :
    ∀ a ∈ l, f a = .ok () := by
  induction l with
  | nil => exact nofun
  | cons b l ih =>
    have h : (f b >>= fun _ => l.forM f) = .ok () := h
    cases hb : f b with
    | error e => rw [hb] at h; cases h
    | ok _ =>
      rw [hb] at h
      exact List.forall_mem_cons.2 ⟨hb, ih h⟩

/-- Acceptance says that every sample has a price and that it is not negative. -/
theorem nonneg_of_smokeTestExpr {exprStr : String} (h : smokeTestExpr engine now exprStr = .ok ())
    {v : TokenParams} (hv : v ∈ smokeVectors) {request : RequestInput}
    (hrequest : request ∈ smokeRequests) :
    ∃ cost trace, engine.runExprWithRequest now exprStr v request = .ok (cost, trace) ∧ 0 ≤ cost := by
  have hsample := forM_ok (forM_ok h v hv) request hrequest
  cases hrun : engine.runExprWithRequest now exprStr v request with
  | error err =>
    rw [hrun] at hsample
    cases hsample
  | ok out =>
    rw [hrun] at hsample
    dsimp only at hsample
    split_ifs at hsample with hnegative
    exact ⟨out.1, out.2, rfl, not_lt.1 hnegative⟩

/-- A usage that reports a sample, on a request that was a sample when the expression was tested. -/
structure Sampled (engine : ExprEngine) (relayInfo : RelayInfo) (exprStr : String) (u : Usage) : Prop
    where
  tokens : u.reportedTokens (decide (usageSemanticFromUsage relayInfo (some u) = "anthropic"))
    (engine.usedVars exprStr) ∈ smokeVectors
  request : relayInfo.billingRequestInput.getD {} ∈ smokeRequests

/-- The quota that the settlement hands to `SettleBilling` is not negative, and no session gains from it,
exactly when the request is refunded or owes more than minus one half; on the samples of an accepted
expression it does, when no ratio or price is negative. -/
theorem settlement_never_pays_iff (cfg : Settings) (engine : ExprEngine) (tested now : ℤ)
    (relayInfo : RelayInfo) (snap : BillingSnapshot)
    (hsmoke : smokeTestExpr engine tested snap.exprString = .ok ()) (hf : Frozen relayInfo snap) :
    (∀ usage, (0 ≤ postTextConsumeQuota cfg engine now relayInfo usage ∧
        WalletNeverGains (postTextConsumeQuota cfg engine now relayInfo usage) ∧
        SubscriptionNeverGains (postTextConsumeQuota cfg engine now relayInfo usage)) ↔
      shouldRefundNoOutput cfg relayInfo (calculateTextQuotaSummary cfg relayInfo usage) = true ∨
        -(1 / 2) < amountOwed cfg engine now relayInfo snap usage) ∧
      ∀ u, Sampled engine relayInfo snap.exprString u → 0 ≤ snap.quotaPerUnit → 0 ≤ snap.groupRatio →
        0 ≤ toolCallQuota cfg relayInfo →
          -(1 / 2) < amountOwed cfg engine tested relayInfo snap (some u) := by
  constructor
  · intro usage
    have hsign : 0 ≤ postTextConsumeQuota cfg engine now relayInfo usage ↔
        shouldRefundNoOutput cfg relayInfo (calculateTextQuotaSummary cfg relayInfo usage) = true ∨
          -(1 / 2) < amountOwed cfg engine now relayInfo snap usage := by
      unfold postTextConsumeQuota
      split_ifs with hrefund
      · simp [hrefund]
      · simp only [hrefund, false_or, Bool.false_eq_true]
        exact tieredSummaryQuota_nonneg_iff hf usage
    rw [← hsign]
    exact ⟨fun h => h.1, fun h => ⟨h, walletNeverGains h, subscriptionNeverGains h⟩⟩
  · intro u hsampled hunit hratio htools
    obtain ⟨cost, trace, hrun, hcost⟩ :=
      nonneg_of_smokeTestExpr hsmoke hsampled.tokens hsampled.request
    have hprice : 0 ≤ cost / 1000000 * snap.quotaPerUnit * snap.groupRatio := by positivity
    have hhalf : -(1 / 2 : ℚ) < 0 := by norm_num
    rw [amountOwed, hrun]
    exact hhalf.trans_le (add_nonneg hprice htools)

/-! ## A discount for cached tokens -/

/-- An engine that knows the expression `p - cr`. -/
def discountEngine : ExprEngine where
  runExprWithRequest := fun _ expr v _ =>
    if expr = "p - cr" then .ok (v.p - v.cr, {}) else .error "expr compile error"
  usedVars := fun expr => if expr = "p - cr" then ["p", "cr"] else []

def plainSettings : Settings where
  quotaPerUnit := 500000
  getToolPriceForModel := fun _ _ => 0
  getGPTImage1PriceOnceCall := fun _ _ => 0
  getGeminiInputAudioPrice := fun _ => 0
  defaultModelRatio := fun _ => none
  billingRefundWhenNoOutput := true
  refundNoOutputExcludeUpstreamRefusal := false
  refundNoOutputClientGoneMinSeconds := 60

/-- The snapshot of a request with a thousand prompt tokens. -/
def discountSnapshot : BillingSnapshot where
  exprString := "p - cr"
  groupRatio := 1
  estimatedPromptTokens := 1000
  estimatedCompletionTokens := 100
  estimatedQuotaBeforeGroup := 500
  estimatedQuotaAfterGroup := 500
  quotaPerUnit := 500000

def discountRequest : RelayInfo where
  originModelName := "m"
  estimatePromptTokens := 1000
  priceData := { quotaToPreConsume := 500 }
  tieredBillingSnapshot := some discountSnapshot
  finalPreConsumedQuota := 500

/-- Nine hundred of the thousand prompt tokens are read from the cache. -/
def cachedUsage : Usage where
  promptTokens := 1000
  completionTokens := 1
  promptTokensDetails := { cachedTokens := 900 }

/-- The prompt of a first request, of which nothing is cached. -/
def uncachedUsage : Usage where
  promptTokens := 1000
  completionTokens := 1

theorem discountRequest_frozen : Frozen discountRequest discountSnapshot :=
  @frozen_of_modelPriceHelperTiered plainSettings discountEngine 0 discountRequest discountSnapshot
    "p - cr" 1000 100 1 {} discountRequest.priceData
    (by decide +kernel) rfl rfl

theorem uncached_request_charged :
    0 ≤ postTextConsumeQuota plainSettings discountEngine 0 discountRequest (some uncachedUsage) ∧
      WalletNeverGains
        (postTextConsumeQuota plainSettings discountEngine 0 discountRequest (some uncachedUsage)) ∧
      SubscriptionNeverGains
        (postTextConsumeQuota plainSettings discountEngine 0 discountRequest (some uncachedUsage)) :=
  ((settlement_never_pays_iff plainSettings discountEngine 0 0 discountRequest discountSnapshot
    (by decide +kernel) discountRequest_frozen).1 (some uncachedUsage)).2 (.inr (by decide +kernel))

/-- The expression passes the smoke test and its estimate is positive, and a request with cached tokens is
paid four hundred units. -/
theorem cached_request_paid :
    smokeTestExpr discountEngine 0 "p - cr" = .ok () ∧
      modelPriceHelperTiered plainSettings discountEngine 0 "p - cr" 1000 100 1 {} =
        some (discountSnapshot, discountRequest.priceData) ∧
      postTextConsumeQuota plainSettings discountEngine 0 discountRequest (some cachedUsage) =
        -400 := by
  refine ⟨by decide +kernel, by decide +kernel, by decide +kernel⟩

end BeeApi.Billing
