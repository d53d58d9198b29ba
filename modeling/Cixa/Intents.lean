import Cixa.Queries

/-! # Intents — creation, execution and cancellation of purchases

    A purchase intent is created with a decision, executed by reserving its
    final total, submitting once and recording the outcome, and cancelled
    before it is executed.  Every step writes the audit log; a full log makes
    the step fail, and what was written before the failing step STAYS unless
    a caller puts a snapshot back. -/

namespace Treasury

open CixaData CixaHost Outcome Checks

variable (host : Host)

/-! ## Writing the ledger and the audit log -/

/-- Append a booking with a new id. -/
def appendLedger (kind : LedgerEventKind) (amount : Money)
    (intentId : Option String) (source : String) (verified : Bool) :
    Op Unit := do
  let id ← newId host "ledger"
  let at_ ← now host
  modifyState (fun s => { s with
    ledger := s.ledger ++ [⟨id, at_, kind, amount, intentId, source, verified⟩] })

/-- The entry that `audit` appends, before it is hashed. -/
def draftEntry (s : TreasuryState) (at_ : Int) (actor action : String)
    (intentId : Option String) (policyVersion : Option Nat)
    (decision : Option String) (details : Json) : AuditEntry where
  sequence := s.audit.length + 1
  «at» := at_
  actor := actor
  action := action
  intentId := intentId
  policyVersion := policyVersion
  decision := decision
  details := redactJsonValue host details
  previousHash := (s.audit.getLast?.map AuditEntry.hash).getD ""
  hash := ""

/-- An entry with its hash. -/
def signEntry (key : List UInt8) (e : AuditEntry) : AuditEntry :=
  { e with hash := hmacHash host key (unsignedEntry e) }

/-- The greatest unsigned 64-bit integer. -/
def u64Max : Nat := 18446744073709551615

/-- The error of an audit log that is full. -/
def auditQuota : TreasuryError :=
  .conflict "durable audit quota reached; archive this treasury before continuing"

/-- Append an entry to the audit log, if there is room, under the next
    generation. -/
def audit (actor action : String) (intentId : Option String)
    (policyVersion : Option Nat) (decision : Option String) (details : Json) :
    Op Unit := do
  let w ← get
  let s := w.state
  rejectIf (auditCapacityAllows (nonEmergencyCount s.audit)
    (emergencyCount s.audit) action = false) auditQuota
  rejectIf (s.generation + 1 > u64Max) (.conflict "state generation overflow")
  modifyState (fun s => { s with generation := s.generation + 1 })
  let at_ ← now host
  let entry := signEntry host w.auditKey
    (draftEntry host s at_ actor action intentId policyVersion decision details)
  modifyState (fun s => { s with audit := s.audit ++ [entry] })

/-! ## Authority of the caller -/

/-- Only the owner goes on. -/
def requireOwner (actor : Actor) : Except TreasuryError Unit :=
  refuseIf (actor ≠ .owner)
    (.forbidden "this operation is owner-only and is never exposed to agents")

/-- Only an agent goes on. -/
def requireAgent : Actor → Except TreasuryError String
  | .agent id => .ok id
  | .owner => .error (.forbidden "this operation requires an agent capability")

/-- Only an agent whose record has the scope goes on. -/
def requireAgentScope (s : TreasuryState) (actor : Actor) (scope : String) :
    Except TreasuryError String := do
  let agentId ← requireAgent actor
  let record ← agent s agentId
  refuseIf (record.scopes.contains scope = false)
    (.forbidden ("agent scope " ++ scope ++ " is missing"))
  pure agentId

/-! ## Views of an intent -/

/-- The fields of an intent that are shown. -/
def sanitizedFields (i : PurchaseIntent) : List (String × Json) :=
  [("id", .str i.id), ("agent_id", .str i.agentId),
    ("state", Encode.state i.state),
    ("requested_amount", Encode.money i.request.amount),
    ("final_total", Encode.money i.request.finalTotal),
    ("amount", Encode.money i.request.finalTotal),
    ("merchant_domain", .str i.request.merchantDomain),
    ("category", .str i.request.category),
    ("items", .arr (i.request.items.map Encode.item)),
    ("fulfillment_profile", .str i.request.fulfillmentProfile),
    ("decision", Encode.decision i.decision),
    ("policy_version", .num i.policyVersion), ("created_at", .num i.createdAt),
    ("updated_at", .num i.updatedAt),
    ("provider_reference", Json.optStr i.providerReference),
    ("receipt_hash", Json.optStr i.receiptHash),
    ("last_error", Json.optStr i.lastError)]

/-- An intent as its agent is shown it. -/
def sanitizedIntent (i : PurchaseIntent) : Json := Json.mkObj (sanitizedFields i)

/-- An intent as the owner is shown it, with the facts of the checkout. -/
def ownerIntent (i : PurchaseIntent) : Json :=
  Json.mkObj (sanitizedFields i ++ [("checkout_facts", Json.mkObj
    [("payment_form", Encode.paymentForm i.request.paymentForm),
      ("redirect_chain", .arr (i.request.redirectChain.map Json.str)),
      ("recurring", .bool i.request.recurring),
      ("trial_auto_renew", .bool i.request.trialAutoRenew),
      ("stored_card", .bool i.request.storedCard),
      ("tip_minor", .num i.request.tipMinor),
      ("preauthorization", .bool i.request.preauthorization),
      ("installments", .bool i.request.installments),
      ("scenario", Encode.scenario i.request.scenario)])])

/-! ## Transitions and receipts -/

/-- Take an intent to its next state, if the state machine has the step. -/
def transition (intent : PurchaseIntent) (next : TransactionState) :
    Op PurchaseIntent := do
  rejectIf (intent.state.canTransition next = false)
    (.conflict ("invalid transaction transition " ++ intent.state.debugName
      ++ " -> " ++ next.debugName))
  let at_ ← now host
  pure { intent with state := next, updatedAt := at_ }

/-- The receipt of an intent issued at a time. -/
def receiptOf (intent : PurchaseIntent) (at_ : Int) : Receipt where
  intentId := intent.id
  merchantDomain := intent.request.merchantDomain
  amount := intent.request.finalTotal
  status := intent.state
  providerReference := intent.providerReference
  issuedAt := at_
  personalInformationRedacted := true

/-- Give an intent its receipt, once, with the hash of it. -/
def issueReceipt (intent : PurchaseIntent) : Op PurchaseIntent := do
  rejectIf (intent.receipt.isSome = true ∨ intent.receiptHash.isSome = true)
    (.conflict "receipt was already issued for this intent")
  let at_ ← now host
  let receipt := receiptOf intent at_
  pure { intent with
    receiptHash := some (receiptHash host receipt)
    receipt := some receipt }

/-- Whether the ledger has an event of a kind for an intent. -/
def hasEvent (s : TreasuryState) (intentId : String) (kind : LedgerEventKind) :
    Bool :=
  s.ledger.any (fun event =>
    decide (event.intentId = some intentId ∧ event.kind = kind))

/-- Append an event for an intent unless the ledger has one of its kind. -/
def appendIfMissing (kind : LedgerEventKind) (intent : PurchaseIntent)
    (source : TreasuryState → String) : Op Unit := do
  let s ← readState
  if hasEvent s intent.id kind = true then pure ()
  else
    appendLedger host kind intent.request.finalTotal (some intent.id)
      (source s) true

/-- Book that an intent's hold was released and its total spent. -/
def recordSettled (intent : PurchaseIntent) : Op Unit := do
  appendIfMissing host .holdReleased intent (fun _ => "settlement")
  appendIfMissing host .spendingSettled intent providerId

/-- Mark an intent settled with a receipt and its ledger events. -/
def settleIntent (intent : PurchaseIntent) (reference : String) :
    Op PurchaseIntent := do
  let intent ← transition host
    { intent with providerReference := some reference } .settled
  let intent ← issueReceipt host intent
  recordSettled host intent
  pure intent

/-! ## Creation -/

/-- The request with its domain and redirects in canonical form. -/
def normalizeRequest (request : PurchaseRequest) :
    Except TreasuryError PurchaseRequest := do
  let merchant ← canonicalizeDomain host request.merchantDomain
  let chain ← request.redirectChain.mapM (normalizeHttpsUrl host)
  pure { request with merchantDomain := merchant, redirectChain := chain }

/-- Whether two requests agree on what the checkout fixes. -/
def sameCheckoutFacts (left right : PurchaseRequest) : Bool :=
  decide (left.finalTotal = right.finalTotal
    ∧ left.merchantDomain = right.merchantDomain)

/-- The decision on a request under the state in force. -/
def decideRequest (s : TreasuryState) (record : AgentRecord) (p : Policy)
    (request : PurchaseRequest) (used : BudgetUsage) : Op PolicyDecision := do
  let merchant ← lift (canonicalizeDomain host request.merchantDomain)
  let known := p.allowedMerchants.contains merchant
    || record.approvedMerchants.contains merchant
  -- the reading is passed to the policy, which makes no use of it
  let _ ← now host
  let decision ← lift
    (p.evaluate host request used record.mode known s.emergencyStop)
  enforceAuthority host s decision request used p

/-- Whether an intent makes a request a potential duplicate. -/
def isDuplicateOf (agentId : String) (windowStart : Int)
    (request : PurchaseRequest) (intent : PurchaseIntent) : Bool :=
  decide (intent.agentId = agentId ∧ intent.updatedAt ≥ windowStart
    ∧ intent.state ∉ [.failed, .declined, .cancelled, .refunded])
    && sameCheckoutFacts intent.request request

/-- Ask for the owner with a reason. -/
def askOwner (decision : PolicyDecision) (reason : String) : PolicyDecision :=
  { decision with allowed := false, requiresApproval := true, reasons := [reason] }

/-- An allowed decision on a potential duplicate asks for the owner. -/
def guardDuplicate (duplicate : Bool) (decision : PolicyDecision) :
    PolicyDecision :=
  if duplicate = true ∧ decision.allowed = true then
    askOwner decision ("potential duplicate checkout within 15 minutes "
      ++ "requires owner approval")
  else decision

/-- Manual checkout without the controlled executor asks for the owner. -/
def guardManual (s : TreasuryState) (decision : PolicyDecision) :
    PolicyDecision :=
  if (s.providerMode = .manualPrepaidCard
        ∧ controlledCheckoutEnabled s = false)
      ∧ (decision.allowed = true ∨ decision.requiresApproval = true) then
    askOwner decision ("manual prepaid-card checkout requires an "
      ++ "authenticated owner handoff")
  else decision

/-- The state a new intent gets from its decision. -/
def stateOfDecision (decision : PolicyDecision) : TransactionState :=
  if decision.reasons ≠ [] ∧ decision.requiresApproval = false then .failed
  else if decision.requiresApproval = true then .approvalRequired
  else .policyValidated

/-- The reason a new intent is stored with. -/
def errorOfDecision (decision : PolicyDecision) : Option String :=
  if decision.reasons ≠ [] ∧ decision.requiresApproval = false then
    some (Chars.join "; " decision.reasons)
  else none

/-- The outcome of a creation, as the audit log names it. -/
def outcomeOfState : TransactionState → String
  | .policyValidated => "allowed"
  | .approvalRequired => "approval_required"
  | _ => "denied"

/-- The draft of a new intent. -/
def draftIntent (id agentId : String) (record : AgentRecord) (p : Policy)
    (request : PurchaseRequest) (decision : PolicyDecision) (at_ : Int) :
    PurchaseIntent where
  id := id
  agentId := agentId
  brokerSessionId := record.brokerSessionId
  request := request
  state := .draft
  decision := decision
  policyVersion := p.version
  createdAt := at_
  updatedAt := at_
  providerReference := none
  receiptHash := none
  receipt := none
  lastError := none

/-- Store a new intent with its decision. -/
def insertNewIntent (agentId : String) (record : AgentRecord) (p : Policy)
    (request : PurchaseRequest) (decision : PolicyDecision) : Op Json := do
  let id ← newId host "intent"
  let at_ ← now host
  let proposed ← transition host
    (draftIntent id agentId record p request decision at_) .proposed
  let intent ← transition host
    { proposed with lastError := errorOfDecision decision }
    (stateOfDecision decision)
  -- the entry comes first: without room for it nothing is stored
  audit host agentId "create_purchase_intent" (some id) (some p.version)
    (some (outcomeOfState intent.state))
    (Json.mkObj [("merchant_domain", .str intent.request.merchantDomain),
      ("amount", Encode.money intent.request.finalTotal),
      ("reasons", .arr (decision.reasons.map Json.str))])
  storeIntent id intent
  pure (sanitizedIntent intent)

/-- The spending session must be armed, unless the stop will deny anyway. -/
def requireArmedSession (s : TreasuryState) (record : AgentRecord) :
    Op Unit :=
  if s.emergencyStop = true then pure ()
  else do
    let at_ ← now host
    rejectIf (record.brokerSessionExpiresAt ≤ at_)
      (.forbidden ("agent spending session has expired and must be re-armed "
        ++ "by the owner"))

/-- The error of a request above the rate. -/
def rateLimitExceeded : TreasuryError :=
  .forbidden "transaction rate limit exceeded"

/-- Refuse for the rate limit, with one audit entry a minute. -/
def refuseForRate (s : TreasuryState) (agentId : String) (p : Policy) :
    Op Json := do
  let at_ ← now host
  let alreadyRecorded := s.audit.any (fun entry =>
    decide (entry.at ≥ at_ - 60 ∧ entry.actor = agentId
      ∧ entry.action = "transaction_rate_limited"))
  -- the refusal is told each time, but logged once a minute
  if alreadyRecorded = true then throw rateLimitExceeded
  else do
    audit host agentId "transaction_rate_limited" none (some p.version)
      (some "denied") (Json.mkObj [("window_seconds", .num 60)])
    throw rateLimitExceeded

/-- Create an intent for a request with a new idempotency key. -/
def createNewIntent (s : TreasuryState) (agentId : String)
    (record : AgentRecord) (request : PurchaseRequest) : Op Json := do
  rejectIf (s.intents.size ≥ maxIntents)
    (.conflict ("durable transaction quota reached; archive this treasury "
      ++ "before continuing"))
  rejectIf ((s.intents.values.filter (fun intent =>
      decide (intent.agentId = agentId))).length ≥ maxIntentsPerAgent)
    (.conflict ("agent durable transaction quota reached; owner rotation is "
      ++ "required"))
  let p ← lift (policy s record.policyId)
  requireArmedSession host s record
  -- the rate counts every intent of the last minute, whatever became of it
  let used ← usage host s agentId p.primaryCurrency
  if used.recentTransactionCount ≥ p.maxTransactionsPerMinute then
    refuseForRate host s agentId p
  else do
    let decision ← decideRequest host s record p request used
    let at_ ← now host
    let duplicate := s.intents.values.any
      (isDuplicateOf agentId (at_ - 15 * 60) request)
    insertNewIntent host agentId record p request
      (guardManual s (guardDuplicate duplicate decision))

/-- Create an intent: `create_purchase_intent`. -/
def createIntent (actor : Actor) (request : PurchaseRequest) : Op Json := do
  let s ← readState
  let agentId ← lift (requireAgentScope s actor "purchase_intents:create")
  let record ← lift (agent s agentId)
  let request ← lift (normalizeRequest host request)
  match s.intents.values.find? (fun intent =>
      decide (intent.agentId = agentId
        ∧ intent.request.idempotencyKey = request.idempotencyKey)) with
  | some existing =>
      -- a bound key gives the stored intent again, whatever became of it
      if existing.request = request then pure (sanitizedIntent existing)
      else throw (.conflict
        "idempotency key is already bound to another request")
  | none => createNewIntent host s agentId record request

/-! ## Execution -/

/-- The refusals of an intent that is in no executable state. -/
def requireExecutable (intent : PurchaseIntent) : Except TreasuryError Unit := do
  refuseIf (intent.state = .unknown ∨ intent.state = .providerPending)
    (.conflict ("ambiguous or pending payment requires owner reconciliation; "
      ++ "retry is disabled"))
  refuseIf (intent.state = .approvalRequired)
    (.forbidden "owner approval is required before execution")
  refuseIf (intent.state ≠ .policyValidated ∧ intent.state ≠ .approved)
    (.conflict ("intent is not executable in state "
      ++ intent.state.debugName))

/-- The intent's session must be current and armed. -/
def requireCurrentSession (record : AgentRecord) (intent : PurchaseIntent) :
    Op Unit := do
  let at_ ← now host
  rejectIf (record.brokerSessionExpiresAt ≤ at_
      ∨ intent.brokerSessionId ≠ record.brokerSessionId)
    (.forbidden "owner-armed spending session is expired or no longer current")

/-- The error of an intent that has expired. -/
def intentExpired : TreasuryError :=
  .conflict "purchase intent or card session has expired; create a new intent"

/-- An intent is executed only within its policy's two lifetimes. -/
def requireUnexpired (intent : PurchaseIntent) (p : Policy) : Op Unit := do
  let at_ ← now host
  -- both sums wrap where they leave the range
  if at_ > I64.wrappingAdd intent.createdAt p.intentTtlSecs then
    throw intentExpired
  else do
    let at_ ← now host
    rejectIf (at_ > I64.wrappingAdd intent.createdAt p.cardSessionTtlSecs)
      intentExpired

/-- Whether a decision lets an intent be submitted: it allows it, or it asks
    for the owner who approved this intent. -/
def submittable (intent : PurchaseIntent) (decision : PolicyDecision) : Bool :=
  decision.allowed
    || (decide (intent.state = .approved) && decision.requiresApproval)

/-- The decision on an intent at the time of its execution. -/
def decideExecution (s : TreasuryState) (agentId : String)
    (record : AgentRecord) (p : Policy) (intent : PurchaseIntent) :
    Op PolicyDecision := do
  let used ← usage host s agentId p.primaryCurrency
  decideRequest host s record p intent.request used

/-- Reserve the funds of an intent and mark it executing. -/
def reserveFunds (agentId intentId : String) (p : Policy)
    (existing : PurchaseIntent) : Op Unit := do
  let intent ← transition host existing .fundsReserved
  appendLedger host .holdReserved intent.request.finalTotal (some intent.id)
    "policy-reservation" true
  audit host agentId "reserve_funds" (some intentId) (some p.version)
    (some "allowed")
    (Json.mkObj [("amount", Encode.money intent.request.finalTotal)])
  let intent ← transition host intent .executing
  storeIntent intent.id intent

/-- Check an intent again, reserve its funds and let it enter execution. -/
def prepareIntentExecution (actor : Actor) (intentId : String) : Op Unit := do
  let s ← readState
  -- room for the reservation, a handoff, the outcome and its reconciliation
  lift (requireMoneyWorkflowAuditCapacity s 4)
  let agentId ← lift (requireAgentScope s actor "purchase_intents:execute")
  let existing ← orReject (s.intents.get? intentId)
    (.notFound ("purchase intent " ++ intentId))
  rejectIf (existing.agentId ≠ agentId)
    (.forbidden "intent belongs to another agent")
  lift (requireExecutable existing)
  let record ← lift (agent s agentId)
  let p ← lift (policy s record.policyId)
  requireCurrentSession host record existing
  requireUnexpired host existing p
  -- the policy of now decides again, on the request as it was stored
  let decision ← decideExecution host s agentId record p existing
  rejectIf (submittable existing decision = false)
    (.forbidden ("pre-submit policy validation failed: "
      ++ Chars.join "; " decision.reasons))
  reserveFunds host agentId intentId p existing

/-- Ask the provider in force to submit an intent. -/
def providerAuthorize (intent : PurchaseIntent) : Op ProviderOutcome := do
  record (.submitted intent.id)
  let s ← readState
  match s.providerMode with
  | .simulated => SimulatedProvider.authorize host intent
  | .manualPrepaidCard => do
      let _ ← orReject s.manualProvider manualNotConfigured
      ManualPrepaidCardProvider.authorize

/-- The intent and the response after an outcome. -/
def concludeIntent (intent : PurchaseIntent) :
    ProviderOutcome → Op (PurchaseIntent × Json)
  | .approved reference => do
      let intent ← settleIntent host intent
        (sanitizeProviderReference host reference)
      pure (intent, Json.mkObj [("status", .str "settled"),
        ("intent", sanitizedIntent intent),
        ("receipt", (intent.receipt.map Encode.receipt).getD .null)])
  | .declined _ => do
      let intent ← transition host
        -- only here the hold is given back; pending and unknown keep it
        { intent with lastError := some "provider_declined" } .declined
      appendLedger host .holdReleased intent.request.finalTotal
        (some intent.id) "provider-decline" true
      pure (intent, Json.mkObj [("status", .str "declined"),
        ("intent", sanitizedIntent intent)])
  | .pending reference => do
      let intent ← transition host { intent with
        providerReference := some (sanitizeProviderReference host reference) }
        .providerPending
      pure (intent, Json.mkObj [("status", .str "provider_pending"),
        ("intent", sanitizedIntent intent),
        ("action", .str "owner_reconcile")])
  | .unknown _ => do
      let intent ← transition host
        { intent with lastError := some "provider_outcome_unknown" } .unknown
      pure (intent, Json.mkObj [("status", .str "unknown"),
        ("intent", sanitizedIntent intent),
        ("action", .str "owner_reconcile"), ("retry", .bool false)])

/-- The name of an outcome in the audit log. -/
def outcomeName : TransactionState → String
  | .settled => "settled"
  | .declined => "declined"
  | .providerPending => "provider_pending"
  | .unknown => "unknown"
  | _ => "unexpected"

/-- Record what the provider said of an executing intent. -/
def applyProviderOutcome (agentId intentId : String)
    (outcome : ProviderOutcome) : Op Json := do
  let s ← readState
  let existing ← lift (intentForAgent s agentId intentId)
  rejectIf (existing.state ≠ .executing)
    (.conflict "provider outcome requires an executing intent")
  let (intent, response) ← concludeIntent host existing outcome
  audit host agentId "provider_outcome" (some intentId)
    (some existing.policyVersion) (some (outcomeName intent.state))
    (Json.mkObj [("state", Encode.state intent.state),
      ("provider_reference", Json.optStr intent.providerReference)])
  storeIntent intent.id intent
  pure response

/-- Ask the provider for an executing intent. -/
def completeIntentExecution (actor : Actor) (intentId : String) : Op Json := do
  let s ← readState
  let agentId ← lift (requireAgentScope s actor "purchase_intents:execute")
  let intent ← lift (intentForAgent s agentId intentId)
  rejectIf (intent.state ≠ .executing)
    (.conflict "provider completion requires an executing intent")
  let outcome ← providerAuthorize host intent
  applyProviderOutcome host agentId intentId outcome

/-- Mark an executing intent as unknown. -/
def enterUnknown (intent : PurchaseIntent) : Op PurchaseIntent :=
  -- an intent that is unknown already stays as it is
  if intent.state = .executing then transition host intent .unknown
  else pure intent

/-- Leave an intent whose execution failed unknown, with a redacted reason. -/
def quarantineExecution (intentId reason : String) : Op Unit := do
  let s ← readState
  let existing ← orReject (s.intents.get? intentId) (.notFound intentId)
  if existing.state = .executing ∨ existing.state = .unknown then do
    let intent ← enterUnknown host existing
    let intent := { intent with lastError := some "provider_execution_error" }
    storeIntent intent.id intent
    audit host "broker" "quarantine_provider_error" (some intentId)
      (some intent.policyVersion) (some "unknown")
      (Json.mkObj [("reason", .str (redactSensitive host reason)),
        ("retry", .bool false)])
  else pure ()

/-- Run a program, and put the state back if it fails. -/
def orRestore {α : Type} (snapshot : TreasuryState) (x : Op α) : Op α :=
  tryCatch x (fun e => do
    setState snapshot
    throw e)

/-- Run a submission, and quarantine the intent if it fails. -/
def orQuarantine {α : Type} (intentId : String) (x : Op α) : Op α :=
  tryCatch x (fun e => do
    quarantineExecution host intentId e.toText
    throw e)

/-- Execute an intent in memory; a refusal before the provider is asked leaves
    the state as it was. -/
def executeIntent (actor : Actor) (intentId : String) : Op Json := do
  let s ← readState
  rejectIf (s.providerMode = .manualPrepaidCard)
    (.forbidden ("manual prepaid-card execution requires the owner "
      ++ "begin-handoff workflow"))
  orRestore s (prepareIntentExecution host actor intentId)
  orQuarantine host intentId (completeIntentExecution host actor intentId)

/-! ## Cancellation -/

/-- Cancel an intent that was not executed: `cancel_purchase_intent`. -/
def cancelIntent (actor : Actor) (intentId : String) : Op Json := do
  let s ← readState
  let agentId ← lift (requireAgentScope s actor "purchase_intents:cancel")
  let existing ← lift (intentForAgent s agentId intentId)
  rejectIf (existing.state ∉ [.proposed, .approvalRequired, .policyValidated])
    (.conflict "only unexecuted intents can be cancelled")
  let intent ← transition host existing .cancelled
  storeIntent intent.id intent
  audit host agentId "cancel_purchase_intent" (some intentId) none
    (some "allowed") (Json.mkObj [])
  pure (sanitizedIntent intent)

end Treasury
