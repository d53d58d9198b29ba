import Cixa.Data

/-! # Encoding — the JSON form of the broker's records

    Structs are encoded with their fields in the order of their declaration,
    enumerations by their snake-case names, ordered sets as arrays in
    order. -/

namespace Treasury

open CixaData

namespace Encode

/-- An amount. -/
def money (m : Money) : Json :=
  .obj [("minor", .num m.minor), ("currency", .str m.currency)]

/-- A set of texts, in order. -/
def texts (s : StringSet) : Json := .arr (s.keys.map Json.str)

/-- The name of a mode. -/
def mode : AutonomyMode → Json
  | .observe => .str "observe"
  | .approvalRequired => .str "approval_required"
  | .boundedAutonomous => .str "bounded_autonomous"
  | .disabled => .str "disabled"

/-- The name of a form's control. -/
def paymentForm : PaymentFormTrust → Json
  | .hostedFields => .str "hosted_fields"
  | .ownerApprovedMerchant => .str "owner_approved_merchant"
  | .merchantControlled => .str "merchant_controlled"

/-- The name of a scenario. -/
def scenario : SimulatedScenario → Json
  | .normal => .str "normal"
  | .decline => .str "decline"
  | .delayedSettlement => .str "delayed_settlement"
  | .timeoutBeforeSubmit => .str "timeout_before_submit"
  | .timeoutAfterSubmit => .str "timeout_after_submit"
  | .duplicateFormSubmission => .str "duplicate_form_submission"
  | .misleadingSuccessPage => .str "misleading_success_page"
  | .promptInjection => .str "prompt_injection"
  | .amountChanged => .str "amount_changed"
  | .currencyChanged => .str "currency_changed"
  | .hiddenRecurring => .str "hidden_recurring"
  | .cardSaving => .str "card_saving"
  | .tip => .str "tip"
  | .preauthorization => .str "preauthorization"
  | .merchantControlledForm => .str "merchant_controlled_form"
  | .redirectToOtherDomain => .str "redirect_to_other_domain"
  | .redirectToLocalhost => .str "redirect_to_localhost"
  | .dnsRebindingLike => .str "dns_rebinding_like"
  | .browserCrash => .str "browser_crash"

/-- The name of a state. -/
def state : TransactionState → Json
  | .draft => .str "draft"
  | .proposed => .str "proposed"
  | .policyValidated => .str "policy_validated"
  | .approvalRequired => .str "approval_required"
  | .approved => .str "approved"
  | .fundsReserved => .str "funds_reserved"
  | .executing => .str "executing"
  | .providerPending => .str "provider_pending"
  | .settled => .str "settled"
  | .declined => .str "declined"
  | .failed => .str "failed"
  | .unknown => .str "unknown"
  | .cancelled => .str "cancelled"
  | .refunded => .str "refunded"
  | .reconciliationRequired => .str "reconciliation_required"

/-- The name of a provider's mode. -/
def providerMode : ProviderMode → Json
  | .simulated => .str "simulated"
  | .manualPrepaidCard => .str "manual_prepaid_card"

/-- The name of a balance's status. -/
def balanceStatus : BalanceStatus → Json
  | .estimated => .str "estimated"
  | .ownerConfirmed => .str "owner_confirmed"
  | .providerVerified => .str "provider_verified"

/-- The name of an outcome. -/
def reconciliationOutcome : ReconciliationOutcome → Json
  | .settled => .str "settled"
  | .declined => .str "declined"
  | .refunded => .str "refunded"

/-- A policy, field by field as it is declared. -/
def policy (p : Policy) : Json :=
  .obj [("id", .str p.id), ("version", .num p.version),
    ("primary_currency", .str p.primaryCurrency),
    ("max_per_transaction", money p.maxPerTransaction),
    ("max_per_session", money p.maxPerSession),
    ("max_rolling_24h", money p.maxRolling24h),
    ("max_lifetime", money p.maxLifetime),
    ("absolute_exposure_ceiling", money p.absoluteExposureCeiling),
    ("max_treasury_size", money p.maxTreasurySize),
    ("reinvestment_ratio_bps", .num p.reinvestmentRatioBps),
    ("allowed_currencies", texts p.allowedCurrencies),
    ("allowed_merchants", texts p.allowedMerchants),
    ("denied_merchants", texts p.deniedMerchants),
    ("approved_redirect_domains", texts p.approvedRedirectDomains),
    ("require_approval_for_new_merchants",
      .bool p.requireApprovalForNewMerchants),
    ("approved_fulfillment_profiles", texts p.approvedFulfillmentProfiles),
    ("allow_recurring", .bool p.allowRecurring),
    ("allow_trials", .bool p.allowTrials),
    ("allow_stored_card", .bool p.allowStoredCard),
    ("allow_tips", .bool p.allowTips),
    ("allow_preauthorization", .bool p.allowPreauthorization),
    ("allow_installments", .bool p.allowInstallments),
    ("denied_categories", texts p.deniedCategories),
    ("max_order_total_drift_minor", .num p.maxOrderTotalDriftMinor),
    ("max_attempts", .num p.maxAttempts),
    ("max_transactions_per_minute", .num p.maxTransactionsPerMinute),
    ("max_redirects", .num p.maxRedirects),
    ("intent_ttl_secs", .num p.intentTtlSecs),
    ("card_session_ttl_secs", .num p.cardSessionTtlSecs)]

/-- A line of a purchase. -/
def item (i : PurchaseItem) : Json :=
  .obj [("label", .str i.label), ("quantity", .num i.quantity),
    ("unit_price_minor", .num i.unitPriceMinor)]

/-- A purchase request. -/
def request (r : PurchaseRequest) : Json :=
  .obj [("idempotency_key", .str r.idempotencyKey), ("amount", money r.amount),
    ("final_total", money r.finalTotal),
    ("merchant_domain", .str r.merchantDomain), ("category", .str r.category),
    ("items", .arr (r.items.map item)), ("recurring", .bool r.recurring),
    ("trial_auto_renew", .bool r.trialAutoRenew),
    ("stored_card", .bool r.storedCard), ("tip_minor", .num r.tipMinor),
    ("preauthorization", .bool r.preauthorization),
    ("installments", .bool r.installments),
    ("fulfillment_profile", .str r.fulfillmentProfile),
    ("payment_form", paymentForm r.paymentForm),
    ("redirect_chain", .arr (r.redirectChain.map Json.str)),
    ("attempts", .num r.attempts), ("session_id", .str r.sessionId),
    ("scenario", scenario r.scenario)]

/-- A decision. -/
def decision (d : PolicyDecision) : Json :=
  .obj [("allowed", .bool d.allowed),
    ("requires_approval", .bool d.requiresApproval),
    ("reasons", .arr (d.reasons.map Json.str)),
    ("policy_version", .num d.policyVersion)]

/-- What counts against the limits. -/
def usage (u : BudgetUsage) : Json :=
  .obj [("session_amount", money u.sessionAmount),
    ("rolling_24h_amount", money u.rolling24hAmount),
    ("lifetime_amount", money u.lifetimeAmount),
    ("reserved_amount", money u.reservedAmount),
    ("recent_transaction_count", .num u.recentTransactionCount)]

/-- A receipt. -/
def receipt (r : Receipt) : Json :=
  .obj [("intent_id", .str r.intentId),
    ("merchant_domain", .str r.merchantDomain), ("amount", money r.amount),
    ("status", state r.status),
    ("provider_reference", Json.optStr r.providerReference),
    ("issued_at", .num r.issuedAt),
    ("personal_information_redacted", .bool r.personalInformationRedacted)]

/-- The sums of the ledger. -/
def ledgerSnapshot (l : LedgerSnapshot) : Json :=
  .obj [("currency", .str l.currency), ("owner_capital", money l.ownerCapital),
    ("verified_income", money l.verifiedIncome),
    ("unverified_income", money l.unverifiedIncome),
    ("operator_topups", money l.operatorTopups),
    ("settled_spending", money l.settledSpending),
    ("refunds", money l.refunds), ("reserved_amount", money l.reservedAmount),
    ("available_authority", money l.availableAuthority)]

/-- Instructions for income. -/
def receiveInstructions (r : ReceiveInstructions) : Json :=
  .obj [("method", .str r.method), ("address", .str r.address),
    ("memo_template", .str r.memoTemplate), ("public", .bool r.isPublic),
    ("configured_at", .num r.configuredAt)]

/-- An entry of the audit log. -/
def auditEntry (e : AuditEntry) : Json :=
  .obj [("sequence", .num e.sequence), ("at", .num e.at),
    ("actor", .str e.actor), ("action", .str e.action),
    ("intent_id", Json.optStr e.intentId),
    ("policy_version", Json.optNum (e.policyVersion.map Int.ofNat)),
    ("decision", Json.optStr e.decision), ("details", e.details),
    ("previous_hash", .str e.previousHash), ("hash", .str e.hash)]

end Encode

end Treasury
