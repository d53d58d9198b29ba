import Cixa.Provider

/-! # Queries — usage, the ledger and the validity of a state

    What the broker computes from its state: the records behind an id, the
    budget an agent has used, the snapshot of the ledger in a currency, the
    slots reserved in the audit log, and the checks a state must pass before
    it is written or after it is read. -/

namespace Treasury

open CixaData CixaHost Checks Chars

variable (host : Host)

/-! ## Records -/

/-- The record of an agent that is there. -/
def agent (s : TreasuryState) (agentId : String) :
    Except TreasuryError AgentRecord :=
  orRefuse (s.agents.get? agentId) (.notFound ("agent " ++ agentId))

/-- A policy that is there. -/
def policy (s : TreasuryState) (policyId : String) :
    Except TreasuryError Policy :=
  orRefuse (s.policies.get? policyId) (.notFound ("policy " ++ policyId))

/-- An intent of the agent. -/
def intentForAgent (s : TreasuryState) (agentId intentId : String) :
    Except TreasuryError PurchaseIntent := do
  let intent ← orRefuse (s.intents.get? intentId) (.notFound intentId)
  refuseIf (intent.agentId ≠ agentId)
    (.forbidden "intent belongs to another agent")
  pure intent

/-! ## Usage -/

/-- Whether a ledger event counts for an agent: its intent is the agent's, or
    it has no intent. -/
def eventBelongs (s : TreasuryState) (agentId : String) (event : LedgerEvent) :
    Bool :=
  match event.intentId.bind s.intents.get? with
  | some intent => decide (intent.agentId = agentId)
  | none => decide (event.intentId = none)

/-- Whether a ledger event is about an intent of a session. -/
def eventInSession (s : TreasuryState) (sessionId : String)
    (event : LedgerEvent) : Bool :=
  match event.intentId.bind s.intents.get? with
  | some intent => decide (intent.brokerSessionId = sessionId)
  | none => false

/-- Add an amount when a condition holds. -/
def addIf (c : Prop) [Decidable c] (total amount : Money) :
    Except TreasuryError Money :=
  if c then total.checkedAdd amount else pure total

/-- What a settled purchase counts against the limits. -/
def addEventUsage (s : TreasuryState) (agentId sessionId currency : String)
    (at_ : Int) (usage : BudgetUsage) (event : LedgerEvent) :
    Except TreasuryError BudgetUsage :=
  if event.amount.currency = currency ∧ eventBelongs s agentId event = true
      ∧ event.kind = .spendingSettled then do
    let lifetime ← usage.lifetimeAmount.checkedAdd event.amount
    let rolling ← addIf (event.at ≥ at_ - 24 * 60 * 60)
      usage.rolling24hAmount event.amount
    let session ← addIf (eventInSession s sessionId event = true)
      usage.sessionAmount event.amount
    pure { usage with
      lifetimeAmount := lifetime
      rolling24hAmount := rolling
      sessionAmount := session }
  else pure usage

/-- What an intent's hold counts against the limits. -/
def addIntentUsage (agentId sessionId : String) (usage : BudgetUsage)
    (intent : PurchaseIntent) : Except TreasuryError BudgetUsage :=
  if intent.agentId = agentId ∧ intent.state.isReserved = true then do
    let total := intent.request.finalTotal
    let reserved ← usage.reservedAmount.checkedAdd total
    let lifetime ← usage.lifetimeAmount.checkedAdd total
    let rolling ← usage.rolling24hAmount.checkedAdd total
    let session ← addIf (intent.brokerSessionId = sessionId)
      usage.sessionAmount total
    pure { usage with
      reservedAmount := reserved
      lifetimeAmount := lifetime
      rolling24hAmount := rolling
      sessionAmount := session }
  else pure usage

/-- The intents an agent created in the last minute. -/
def recentCount (s : TreasuryState) (agentId : String) (at_ : Int) : Nat :=
  min (s.intents.values.filter (fun intent =>
    decide (intent.agentId = agentId ∧ intent.createdAt ≥ at_ - 60))).length
    4294967295

/-- The budget an agent has used at a time. -/
def usageAt (s : TreasuryState) (agentId currency : String) (at_ : Int)
    (zero : BudgetUsage) : Except TreasuryError BudgetUsage := do
  let record ← agent s agentId
  let usage ← s.ledger.foldlM
    (addEventUsage s agentId record.brokerSessionId currency at_)
    { zero with recentTransactionCount := recentCount s agentId at_ }
  s.intents.values.foldlM (addIntentUsage agentId record.brokerSessionId) usage

/-- What counts against the limits of an agent now. -/
def usage (s : TreasuryState) (agentId currency : String) : Op BudgetUsage := do
  let zero ← Outcome.lift (BudgetUsage.zero currency)
  let at_ ← now host
  Outcome.lift (usageAt s agentId currency at_ zero)

/-! ## The ledger -/

/-- The sums of an empty ledger. -/
def LedgerSnapshot.zero (currency : String) :
    Except TreasuryError LedgerSnapshot := do
  let zero ← Money.zero currency
  pure ⟨currency, zero, zero, zero, zero, zero, zero, zero, zero⟩

/-- What a booking adds to the sums. -/
def addEventSnapshot (snapshot : LedgerSnapshot) (event : LedgerEvent) :
    Except TreasuryError LedgerSnapshot :=
  if event.amount.currency = snapshot.currency then
    match event.kind with
    | .ownerCapital => do
        let total ← snapshot.ownerCapital.checkedAdd event.amount
        pure { snapshot with ownerCapital := total }
    | .incomeVerified => do
        let total ← snapshot.verifiedIncome.checkedAdd event.amount
        pure { snapshot with verifiedIncome := total }
    | .incomeUnverified => do
        let total ← snapshot.unverifiedIncome.checkedAdd event.amount
        pure { snapshot with unverifiedIncome := total }
    | .operatorTopUp => do
        let total ← snapshot.operatorTopups.checkedAdd event.amount
        pure { snapshot with operatorTopups := total }
    | .spendingSettled => do
        let total ← snapshot.settledSpending.checkedAdd event.amount
        pure { snapshot with settledSpending := total }
    | .refund => do
        let total ← snapshot.refunds.checkedAdd event.amount
        pure { snapshot with refunds := total }
    | _ => pure snapshot
  else pure snapshot

/-- What an intent's hold adds to the sums. -/
def addIntentSnapshot (snapshot : LedgerSnapshot) (intent : PurchaseIntent) :
    Except TreasuryError LedgerSnapshot :=
  if intent.request.finalTotal.currency = snapshot.currency
      ∧ intent.state.isReserved = true then do
    let total ← snapshot.reservedAmount.checkedAdd intent.request.finalTotal
    pure { snapshot with reservedAmount := total }
  else pure snapshot

/-- The authority that is left: credits less debits, never negative. -/
def closeSnapshot (snapshot : LedgerSnapshot) :
    Except TreasuryError LedgerSnapshot := do
  let credits ← snapshot.ownerCapital.checkedAdd snapshot.operatorTopups
  let credits ← credits.checkedAdd snapshot.refunds
  let debits ← snapshot.settledSpending.checkedAdd snapshot.reservedAmount
  let available ← credits.checkedSub debits
  refuseIf (available.minor < 0)
    (.conflict "ledger authority invariant would become negative")
  pure { snapshot with availableAuthority := available }

/-- The sums of the ledger and the holds, if no authority is negative. -/
def ledgerSnapshot (s : TreasuryState) (currency : String) :
    Except TreasuryError LedgerSnapshot := do
  let zero ← LedgerSnapshot.zero currency
  let events ← s.ledger.foldlM addEventSnapshot zero
  let intents ← s.intents.values.foldlM addIntentSnapshot events
  closeSnapshot intents

/-- A policy's ceiling is not below the authority there is. -/
def validatePolicyExposure (s : TreasuryState) (p : Policy) :
    Except TreasuryError Unit := do
  let snapshot ← ledgerSnapshot s p.primaryCurrency
  refuseIf (snapshot.availableAuthority.minor > p.absoluteExposureCeiling.minor)
    (.forbidden ("policy exposure ceiling is below currently available "
      ++ "authority"))

/-! ## The provider in force -/

/-- The name of the provider. -/
def providerId (s : TreasuryState) : String :=
  match s.providerMode with
  | .simulated => s.provider.providerId
  | .manualPrepaidCard =>
      (s.manualProvider.map ManualPrepaidCardProvider.providerId).getD
        "manual-provider-unconfigured"

/-- The manual balance the owner entered last. -/
def manualSnapshot (s : TreasuryState) : Option ManualBalanceSnapshot :=
  s.manualProvider.bind ManualPrepaidCardProvider.balanceSnapshot

/-- The error of a card that was not configured. -/
def manualNotConfigured : TreasuryError :=
  .conflict "manual provider is not configured"

/-- The error of a card whose balance is not known. -/
def manualUnavailable : TreasuryError :=
  .conflict "manual balance snapshot is unavailable"

/-- The balance of the provider that can be spent now, net of what is held. -/
def providerAvailableBalance (s : TreasuryState) : Op Money :=
  match s.providerMode with
  | .simulated => Outcome.lift s.provider.availableBalance
  | .manualPrepaidCard => do
      let provider ← Outcome.orReject s.manualProvider manualNotConfigured
      let reported ← provider.availableBalance host
      let snapshot ← Outcome.lift (ledgerSnapshot s reported.currency)
      let available ← Outcome.lift (reported.checkedSub snapshot.reservedAmount)
      Outcome.rejectIf (available.minor < 0)
        (.conflict "manual provider reservations exceed its reported balance")
      pure available

/-- The balance that the provider reports, whether it is fresh or not. -/
def providerReportedBalance (s : TreasuryState) : Except TreasuryError Money :=
  match s.providerMode with
  | .simulated => s.provider.availableBalance
  | .manualPrepaidCard => do
      let snapshot ← orRefuse (manualSnapshot s) manualUnavailable
      pure snapshot.amount

/-- The balance that is compared with the treasury size. -/
def configuredBalance (s : TreasuryState) : Except TreasuryError Money :=
  match s.providerMode with
  | .simulated => pure s.provider.balance
  | .manualPrepaidCard => do
      let snapshot ← orRefuse (manualSnapshot s) manualUnavailable
      pure snapshot.amount

/-- Whether agents may pay by the card through the controlled browser. -/
def controlledCheckoutEnabled (s : TreasuryState) : Bool :=
  decide (s.providerMode = .manualPrepaidCard)
    && s.manualProvider.any ManualPrepaidCardProvider.outgoingSupported

/-! ## Authority -/

/-- Deny a decision for a reason. -/
def deny (decision : PolicyDecision) (reason : String) : PolicyDecision :=
  { decision with
    allowed := false
    requiresApproval := false
    reasons := decision.reasons ++ [reason] }

/-- Deny a decision when a condition holds. -/
def denyIf (c : Prop) [Decidable c] (reason : String)
    (decision : PolicyDecision) : PolicyDecision :=
  if c then deny decision reason else decision

/-- What the treasury's own limits add to the decision of a policy. -/
def enforceAuthority (s : TreasuryState) (decision : PolicyDecision)
    (request : PurchaseRequest) (used : BudgetUsage) (p : Policy) :
    Op PolicyDecision :=
  if request.finalTotal.currency ≠ p.primaryCurrency then pure decision
  else do
    let total := request.finalTotal
    let ledger ← Outcome.lift (ledgerSnapshot s p.primaryCurrency)
    let balance ← providerAvailableBalance host s
    let configured ← Outcome.lift (configuredBalance s)
    let lifetime ← Outcome.lift (used.lifetimeAmount.checkedAdd total)
    pure (denyIf (lifetime.minor > p.absoluteExposureCeiling.minor)
        "absolute exposure ceiling exceeded"
      (denyIf (configured.minor > p.maxTreasurySize.minor)
        "provider balance exceeds maximum treasury size"
      (denyIf (balance.minor < total.minor) "provider balance is insufficient"
      (denyIf (ledger.availableAuthority.minor < total.minor)
        "available policy authority is insufficient" decision))))

/-! ## The audit log -/

/-- Whether an entry is about the emergency stop. -/
def isEmergencyAudit (action : String) : Bool :=
  decide (action = "emergency_stop_on" ∨ action = "emergency_stop_off")

/-- Whether an entry is about money on its way. -/
def isMoneySafetyAudit (action : String) : Bool :=
  decide (action ∈ ["reserve_funds", "provider_outcome",
    "quarantine_provider_error", "recover_interrupted_execution",
    "begin_manual_handoff", "complete_manual_handoff",
    "controlled_checkout_handoff", "reconcile_intent"])

/-- The number of entries an audit action may find before it. -/
def auditLimit (action : String) : Nat :=
  if isMoneySafetyAudit action = true then maxAuditEntries
  else maxAuditEntries - auditSafetyReserve

/-- Whether the log has room for an entry of this kind. -/
def auditCapacityAllows (nonEmergency emergency : Nat) (action : String) :
    Bool :=
  if action = "emergency_stop_on" then true
  else if action = "emergency_stop_off" then
    decide (emergency < emergencyAuditReserve)
  else decide (nonEmergency < auditLimit action)

/-- Whether the log has room for the new entries beside those that are
    promised. -/
def moneyWorkflowCapacityAllows (used reserved newSlots : Nat) : Bool :=
  decide (used + reserved + newSlots ≤ maxAuditEntries)

/-- The entries about the emergency stop. -/
def emergencyCount (audit : List AuditEntry) : Nat :=
  audit.countP (fun entry => isEmergencyAudit entry.action)

/-- The other entries. -/
def nonEmergencyCount (audit : List AuditEntry) : Nat :=
  audit.length - emergencyCount audit

/-- The audit slots an intent in a state still needs. -/
def reservedSlots : TransactionState → Nat
  | .executing => 2
  | .providerPending => 1
  | .unknown => 1
  | .reconciliationRequired => 1
  | _ => 0

/-- The audit slots all intents still need. -/
def outstandingSlots (s : TreasuryState) : Nat :=
  s.intents.sum (fun intent => reservedSlots intent.state)

/-- A purchase starts only with room for its entries. -/
def requireMoneyWorkflowAuditCapacity (s : TreasuryState) (newSlots : Nat) :
    Except TreasuryError Unit :=
  refuseIf (moneyWorkflowCapacityAllows (nonEmergencyCount s.audit)
      (outstandingSlots s) newSlots = false)
    (.conflict ("audit safety reserve is full; resolve existing payment "
      ++ "outcomes first"))

/-- The document an audit entry's hash authenticates. -/
def unsignedEntry (e : AuditEntry) : Json :=
  Json.mkObj [("sequence", .num e.sequence), ("at", .num e.at),
    ("actor", .str e.actor), ("action", .str e.action),
    ("intent_id", Json.optStr e.intentId),
    ("policy_version", Json.optNum (e.policyVersion.map Int.ofNat)),
    ("decision", Json.optStr e.decision), ("details", e.details),
    ("previous_hash", .str e.previousHash)]

/-- An entry follows the one before it and has the right hash. -/
def verifyAuditEntry (key : List UInt8) (expected : Nat × String)
    (entry : AuditEntry) : Except TreasuryError (Nat × String) := do
  refuseIf (entry.sequence ≠ expected.1)
    (.conflict ("audit sequence " ++ toString entry.sequence
      ++ " is not contiguous"))
  refuseIf (entry.previousHash ≠ expected.2)
    (.conflict ("audit sequence " ++ toString entry.sequence
      ++ " has a broken predecessor"))
  refuseIf (hmacHash host key (unsignedEntry entry) ≠ entry.hash)
    (.conflict ("audit sequence " ++ toString entry.sequence
      ++ " has an invalid hash"))
  pure (expected.1 + 1, entry.hash)

/-- Every entry of the log does, from the first on. -/
def verifyAuditChain (key : List UInt8) (s : TreasuryState) :
    Except TreasuryError Unit := do
  let _ ← s.audit.foldlM (verifyAuditEntry host key) (1, "")

/-! ## Validity -/

/-- The hash of a receipt. -/
def receiptHash (receipt : Receipt) : String :=
  hexEncode (host.sha256 (Encode.receipt receipt).render)

/-- A loaded state is within its quotas. -/
def validateQuotas (s : TreasuryState) : Except TreasuryError Unit :=
  refuseIf (s.intents.size > maxIntents ∨ s.agents.size > maxAgents
      ∨ nonEmergencyCount s.audit > maxAuditEntries
      ∨ emergencyCount s.audit > emergencyAuditReserve + 1)
    (.invalid "persisted treasury exceeds its durable record quota")

/-- A loaded policy is stored under its id and is valid. -/
def validatePolicyEntry (e : String × Policy) : Except TreasuryError Unit := do
  refuseIf (e.1 ≠ e.2.id) (.invalid "policy map key does not match policy id")
  e.2.validate host

/-- A loaded agent is stored under its id and refers to what is there. -/
def validateAgentEntry (s : TreasuryState) (e : String × AgentRecord) :
    Except TreasuryError Unit := do
  refuseIf (e.1 ≠ e.2.id ∨ byteLen e.2.capabilityTokenHash ≠ 64
      ∨ s.policies.contains e.2.policyId = false
      ∨ e.2.brokerSessionId = ""
      ∨ e.2.brokerSessionExpiresAt > e.2.expiresAt)
    (.invalid "persisted agent invariant failed")
  refuseIf (e.2.approvedMerchants.size > maxAgentApprovedMerchants)
    (.invalid "agent merchant approvals exceed the durable limit")
  e.2.approvedMerchants.keys.forM
    (Policy.checkCanonical host "persisted approved merchant is not canonical")

/-- A receipt and its hash come together, and a settled or refunded intent
    has them. -/
def validateReceipt (intent : PurchaseIntent) : Except TreasuryError Unit :=
  match intent.receipt, intent.receiptHash with
  | some receipt, some hash =>
      refuseIf (receipt.intentId ≠ intent.id ∨ receiptHash host receipt ≠ hash)
        (.invalid "persisted receipt integrity check failed")
  | none, none =>
      refuseIf (intent.state = .settled ∨ intent.state = .refunded)
        (.invalid "settled intent is missing its immutable receipt")
  | _, _ =>
      .error (.invalid "persisted receipt and hash must be present together")

/-- A loaded intent is stored under its id and refers to what is there. -/
def validateIntentEntry (s : TreasuryState) (e : String × PurchaseIntent) :
    Except TreasuryError Unit := do
  refuseIf (e.1 ≠ e.2.id ∨ s.agents.contains e.2.agentId = false
      ∨ e.2.brokerSessionId = "")
    (.invalid "persisted intent invariant failed")
  let _ ← Money.positive e.2.request.amount.minor e.2.request.amount.currency
  let _ ← Money.positive e.2.request.finalTotal.minor
    e.2.request.finalTotal.currency
  validateReceipt host e.2

/-- A loaded booking has a well-formed amount and refers to an intent that is
    there. -/
def validateLedgerEvent (s : TreasuryState) (event : LedgerEvent) :
    Except TreasuryError Unit := do
  let _ ← Money.new event.amount.minor event.amount.currency
  refuseIf (event.intentId.any (fun id => !s.intents.contains id) = true)
    (.invalid "ledger event refers to an unknown intent")

/-- The provider of a loaded state holds no debt, or keeps only a reference to
    its secret. -/
def validateProvider (s : TreasuryState) : Except TreasuryError Unit :=
  match s.providerMode with
  | .simulated =>
      refuseIf (s.provider.balance.minor < 0)
        (.invalid "simulated provider balance cannot be negative")
  | .manualPrepaidCard => do
      let provider ← orRefuse s.manualProvider
        (.invalid "manual provider mode requires manual provider configuration")
      refuseIf (provider.card.persistedSecret = true
          ∨ provider.card.reference = "")
        (.invalid ("manual provider must persist only a non-secret credential "
          ++ "reference"))
      validateSecretReference host provider.card.reference
        provider.card.providerKind

/-- **LOADING** accepts a state that passes these checks. -/
def validateState (s : TreasuryState) : Except TreasuryError Unit := do
  refuseIf (s.schemaVersion ≠ 2)
    (.invalid "unsupported persisted state schema")
  validateQuotas s
  refuseIf (byteLen s.owner.capabilityTokenHash ≠ 64)
    (.invalid "owner token hash is invalid")
  s.policies.entries.forM (validatePolicyEntry host)
  s.agents.entries.forM (validateAgentEntry host s)
  s.intents.entries.forM (validateIntentEntry host s)
  s.ledger.forM (validateLedgerEvent s)
  validateProvider host s
  s.processedDeposits.keys.forM (fun reference =>
    bounded reference "external_reference" 160)

end Treasury
