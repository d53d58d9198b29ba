import Cixa.Text
import Cixa.Encode

/-! # Money and policy — the checks of a purchase

    Amounts are added and subtracted only in one currency and only in the
    64-bit range.  `Policy.evaluate` decides a request: DENIED with every
    reason that applies, allowed, or allowed only with the owner's approval.
    A denial is never lifted by an approval: with a reason the decision is
    neither allowed nor open to approval. -/

namespace CixaData

open Treasury CixaHost Checks Chars

/-! ## Money -/

namespace Money

/-- Amounts are compared in one currency only. -/
def sameCurrency (a b : Money) : Except TreasuryError Unit :=
  refuseIf (a.currency ≠ b.currency)
    (.money ("currency mismatch: " ++ a.currency ++ " and " ++ b.currency))

/-- Three capital letters. -/
def wellFormedCurrency (currency : String) : Bool :=
  decide (byteLen currency = 3) && currency.toList.all isAsciiUppercase

/-- An amount in a well-formed currency. -/
def new (minor : Int) (currency : String) : Except TreasuryError Money := do
  refuseIf (wellFormedCurrency currency = false)
    (.money "currency must be an uppercase ISO 4217 code")
  pure ⟨minor, currency⟩

/-- An amount above zero. -/
def positive (minor : Int) (currency : String) :
    Except TreasuryError Money := do
  let money ← new minor currency
  refuseIf (money.minor ≤ 0) (.money "amount must be positive")
  pure money

/-- No money, in a currency. -/
def zero (currency : String) : Except TreasuryError Money := new 0 currency

/-- A sum in one currency, if it is in range. -/
def checkedAdd (a b : Money) : Except TreasuryError Money := do
  sameCurrency a b
  let minor ← orRefuse (I64.checkedAdd a.minor b.minor)
    (.money "minor-unit overflow")
  pure ⟨minor, a.currency⟩

/-- A difference in one currency, if it is in range. -/
def checkedSub (a b : Money) : Except TreasuryError Money := do
  sameCurrency a b
  let minor ← orRefuse (I64.checkedSub a.minor b.minor)
    (.money "minor-unit underflow")
  pure ⟨minor, a.currency⟩

/-- A share in basis points, rounded towards zero. -/
def scaledBasisPoints (a : Money) (basisPoints : Nat) :
    Except TreasuryError Money := do
  refuseIf (basisPoints > 10000)
    (.money "basis points must be between 0 and 10000")
  let scaled := Int.tdiv (a.minor * basisPoints) 10000
  refuseIf (¬I64.Fits scaled) (.money "scaled minor-unit overflow")
  pure ⟨scaled, a.currency⟩

/-- What is left of a limit, and nothing when it is passed. -/
def remainingMoney (limit used : Money) : Except TreasuryError Money := do
  sameCurrency limit used
  new (max (I64.saturatingSub limit.minor used.minor) 0) limit.currency

end Money

/-- Nothing used, in a currency. -/
def BudgetUsage.zero (currency : String) : Except TreasuryError BudgetUsage := do
  let zero ← Money.zero currency
  pure ⟨zero, zero, zero, zero, 0⟩

/-! ## Policies -/

namespace Policy

variable (host : Host)

/-- The policy of the demonstration. -/
def conservativeDemo : Policy where
  id := "policy_demo"
  version := 1
  primaryCurrency := "CAD"
  maxPerTransaction := ⟨2500, "CAD"⟩
  maxPerSession := ⟨5000, "CAD"⟩
  maxRolling24h := ⟨10000, "CAD"⟩
  maxLifetime := ⟨25000, "CAD"⟩
  absoluteExposureCeiling := ⟨100000, "CAD"⟩
  maxTreasurySize := ⟨100000, "CAD"⟩
  reinvestmentRatioBps := 0
  allowedCurrencies := StringSet.ofTexts ["CAD"]
  allowedMerchants := StringSet.ofTexts ["merchant.example.test"]
  deniedMerchants := StringSet.ofTexts []
  approvedRedirectDomains := StringSet.ofTexts []
  requireApprovalForNewMerchants := true
  approvedFulfillmentProfiles := StringSet.ofTexts ["digital-email"]
  allowRecurring := false
  allowTrials := false
  allowStoredCard := false
  allowTips := false
  allowPreauthorization := false
  allowInstallments := false
  deniedCategories := StringSet.ofTexts ["gambling", "crypto",
    "financial_transfer", "cash_withdrawal", "gift_card", "cash_equivalent"]
  maxOrderTotalDriftMinor := 0
  maxAttempts := 1
  maxTransactionsPerMinute := 10
  maxRedirects := 2
  intentTtlSecs := 900
  cardSessionTtlSecs := 600

/-- The six money limits of a policy. -/
def moneyLimits (p : Policy) : List Money :=
  [p.maxPerTransaction, p.maxPerSession, p.maxRolling24h, p.maxLifetime,
    p.absoluteExposureCeiling, p.maxTreasurySize]

/-- A domain that is its own canonical form. -/
def checkCanonical (message : String) (merchant : String) :
    Except TreasuryError Unit := do
  let canonical ← canonicalizeDomain host merchant
  refuseIf (canonical ≠ merchant) (.invalid message)

/-- The checks of a policy when it is set. -/
def validate (p : Policy) : Except TreasuryError Unit := do
  refuseIf ((Encode.policy p).size > maxPolicyBytes)
    (.invalid "policy exceeds the 2048-byte limit")
  let _ ← Money.zero p.primaryCurrency
  refuseIf (p.reinvestmentRatioBps > 10000)
    (.invalid "reinvestment ratio must be 0..10000 basis points")
  refuseIf (p.maxTransactionsPerMinute = 0)
    (.invalid "transaction rate limit must be positive")
  refuseIf (p.intentTtlSecs ≤ 0 ∨ p.cardSessionTtlSecs ≤ 0
      ∨ p.maxOrderTotalDriftMinor < 0)
    (.invalid "policy expiry and total-drift values are invalid")
  p.moneyLimits.forM (fun value =>
    refuseIf (value.currency ≠ p.primaryCurrency ∨ value.minor ≤ 0)
      (.invalid ("policy money values must be positive and use the primary "
        ++ "currency")))
  refuseIf (p.absoluteExposureCeiling.minor > p.maxTreasurySize.minor)
    (.invalid "exposure ceiling cannot exceed maximum treasury size")
  (p.allowedMerchants.keys ++ p.deniedMerchants.keys
    ++ p.approvedRedirectDomains.keys).forM
      (checkCanonical host "policy merchant domains must be canonical")

end Policy

/-! ## Requests -/

namespace PurchaseRequest

/-- Add a line item to the running subtotal. -/
def addItem (subtotal : Int) (item : PurchaseItem) :
    Except TreasuryError Int := do
  bounded item.label "item_label" 160
  boundedBytes item.label "item_label" 640
  refuseIf (item.quantity = 0 ∨ item.quantity > 10000
      ∨ item.unitPriceMinor < 0)
    (.invalid "purchase line item is invalid")
  let line ← orRefuse (I64.checkedMul item.unitPriceMinor item.quantity)
    (.money "line-item total overflow")
  orRefuse (I64.checkedAdd subtotal line) (.money "line-item total overflow")

/-- The checks of a request before it is decided. -/
def validate (r : PurchaseRequest) (policy : Policy) :
    Except TreasuryError Unit := do
  refuseIf ((Encode.request r).size > maxPurchaseRequestBytes)
    (.invalid "purchase request exceeds the 4096-byte limit")
  bounded r.idempotencyKey "idempotency_key" 128
  bounded r.merchantDomain "merchant_domain" 253
  bounded r.category "category" 64
  bounded r.fulfillmentProfile "fulfillment_profile" 64
  bounded r.sessionId "session_id" 128
  refuseIf (r.amount.minor ≤ 0 ∨ r.finalTotal.minor ≤ 0)
    (.invalid "purchase amount must be positive")
  refuseIf (r.items = [] ∨ r.items.length > 50)
    (.invalid "purchase must contain 1..50 line items")
  let itemTotal ← r.items.foldlM addItem 0
  refuseIf (itemTotal > r.amount.minor)
    (.invalid "line-item subtotal exceeds the approved amount")
  refuseIf (r.tipMinor < 0) (.invalid "tip amount cannot be negative")
  refuseIf (r.amount.currency ≠ r.finalTotal.currency)
    (.invalid "final total currency must match intent currency")
  let allowedTotal ← orRefuse
    (I64.checkedAdd r.amount.minor policy.maxOrderTotalDriftMinor)
    (.money "order-total overflow")
  refuseIf (r.finalTotal.minor > allowedTotal)
    (.invalid "final total exceeds the configured drift allowance")
  refuseIf (r.attempts = 0 ∨ r.attempts > policy.maxAttempts)
    (.invalid "attempt count exceeds policy")
  refuseIf (r.redirectChain.length > policy.maxRedirects)
    (.invalid "redirect chain is too long")
  r.redirectChain.forM (fun redirect =>
    boundedBytes redirect "redirect_url" 2048)
  refuseIf (byteLen r.idempotencyKey > 128)
    (.invalid "idempotency key is too long")

end PurchaseRequest

/-! ## The decision -/

namespace Policy

variable (host : Host)

/-- A reason, when its condition holds. -/
def reasonIf (c : Prop) [Decidable c] (reason : String) : List String :=
  if c then [reason] else []

/-- The limits, compared only in the primary currency. -/
def limitReasons (p : Policy) (total : Money) (usage : BudgetUsage) :
    Except TreasuryError (List String) :=
  if total.currency = p.primaryCurrency then do
    let session ← usage.sessionAmount.checkedAdd total
    let rolling ← usage.rolling24hAmount.checkedAdd total
    let lifetime ← usage.lifetimeAmount.checkedAdd total
    pure (reasonIf (total.minor > p.maxPerTransaction.minor)
        "per-transaction limit exceeded"
      ++ reasonIf (session.minor > p.maxPerSession.minor)
        "per-session limit exceeded"
      ++ reasonIf (rolling.minor > p.maxRolling24h.minor)
        "rolling 24-hour limit exceeded"
      ++ reasonIf (lifetime.minor > p.maxLifetime.minor)
        "lifetime limit exceeded"
      ++ reasonIf (usage.recentTransactionCount ≥ p.maxTransactionsPerMinute)
        "transaction rate limit exceeded")
  else pure []

/-- The redirect hosts that the owner has not approved. -/
def redirectReasons (p : Policy) (merchant : String) (chain : List String) :
    Except TreasuryError (List String) :=
  chain.foldlM (fun reasons redirect => do
    let redirectHost ← validateHttpsUrl host redirect
    pure (reasons ++ reasonIf (redirectHost ≠ merchant
        ∧ p.approvedRedirectDomains.contains redirectHost = false)
      ("redirect domain " ++ redirectHost ++ " is not owner-approved"))) []

/-- The simulated scenarios that ask for the owner. -/
def scenarioAsksOwner : SimulatedScenario → Bool
  | .promptInjection => true
  | .amountChanged => true
  | .currencyChanged => true
  | .hiddenRecurring => true
  | .cardSaving => true
  | .tip => true
  | .preauthorization => true
  | .redirectToLocalhost => true
  | .dnsRebindingLike => true
  | _ => false

/-- Whether a request that is not denied needs the owner. -/
def asksOwner (p : Policy) (r : PurchaseRequest) (mode : AutonomyMode)
    (knownMerchant : Bool) (merchant : String) : Bool :=
  (decide (p.allowedMerchants.size ≠ 0)
      && !p.allowedMerchants.contains merchant
      && p.requireApprovalForNewMerchants)
    || (!knownMerchant && !p.allowedMerchants.contains merchant
      && p.requireApprovalForNewMerchants)
    || decide (r.paymentForm = .merchantControlled)
    || scenarioAsksOwner r.scenario
    || decide (mode = .approvalRequired)

/-- The denials that depend on the merchant and the request's own claims. -/
def requestReasons (p : Policy) (r : PurchaseRequest) (merchant : String) :
    List String :=
  reasonIf (p.deniedMerchants.contains merchant = true)
      "merchant is explicitly denied"
    ++ reasonIf (p.allowedMerchants.size ≠ 0
        ∧ p.allowedMerchants.contains merchant = false
        ∧ p.requireApprovalForNewMerchants = false)
      "merchant is not allowlisted"
    ++ reasonIf (p.approvedFulfillmentProfiles.contains r.fulfillmentProfile
        = false) "fulfillment profile is not approved"
    ++ reasonIf ((r.recurring = true ∨ r.trialAutoRenew = true)
        ∧ (p.allowRecurring = false
          ∨ (r.trialAutoRenew = true ∧ p.allowTrials = false)))
      "recurring or auto-renewing purchase is denied"
    ++ reasonIf (r.storedCard = true ∧ p.allowStoredCard = false)
      "stored-card consent is denied"
    ++ reasonIf (r.tipMinor > 0 ∧ p.allowTips = false)
      "tips and open-ended totals are denied"
    ++ reasonIf (r.preauthorization = true ∧ p.allowPreauthorization = false)
      "preauthorizations are denied"
    ++ reasonIf (r.installments = true ∧ p.allowInstallments = false)
      "installments and buy-now-pay-later are denied"
    ++ reasonIf (p.deniedCategories.contains r.category = true)
      ("category " ++ r.category ++ " is denied")
    ++ reasonIf (r.redirectChain.length > p.maxRedirects)
      "redirect limit exceeded"

/-- The denials that depend on the state of the agent and the treasury. -/
def stateReasons (p : Policy) (r : PurchaseRequest) (mode : AutonomyMode)
    (emergencyStop : Bool) : List String :=
  reasonIf (emergencyStop = true) "emergency stop is active"
    ++ reasonIf (mode = .observe ∨ mode = .disabled)
      "agent is not armed for spending"
    ++ reasonIf (p.allowedCurrencies.contains r.finalTotal.currency = false)
      "currency is not allowed"
    ++ reasonIf (r.finalTotal.currency ≠ p.primaryCurrency)
      "foreign exchange is denied by default"

/-- The decision that a list of denial reasons leads to. -/
def decisionOf (version : Nat) (reasons : List String) (approval : Bool) :
    PolicyDecision :=
  if reasons ≠ [] then ⟨false, false, reasons, version⟩
  else ⟨!approval, approval,
    if approval then ["owner approval is required"] else [], version⟩

/-- **THE DECISION** of a policy on a request: `Policy::evaluate`. -/
def evaluate (p : Policy) (r : PurchaseRequest) (usage : BudgetUsage)
    (mode : AutonomyMode) (knownMerchant emergencyStop : Bool) :
    Except TreasuryError PolicyDecision := do
  p.validate host
  r.validate p
  let limits ← p.limitReasons r.finalTotal usage
  let merchant ← canonicalizeDomain host r.merchantDomain
  let redirects ← p.redirectReasons host merchant r.redirectChain
  pure (decisionOf p.version
    (p.stateReasons r mode emergencyStop ++ limits
      ++ p.requestReasons r merchant ++ redirects)
    (p.asksOwner r mode knownMerchant merchant))

end Policy

end CixaData
