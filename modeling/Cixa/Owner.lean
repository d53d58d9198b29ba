import Cixa.Intents

/-! # Owner operations — agents, policies, approvals and reconciliation

    The operations only the owner may call.  Each checks the caller first,
    changes the state and then writes the audit log.  Reconciliation alone
    puts the state back when it fails; any other operation that fails at the
    audit log has ALREADY changed the state. -/

namespace Treasury

open CixaData CixaHost Outcome Checks Chars

variable (host : Host)

/-- The decision of an audit entry for what was allowed. -/
def allowedBy : Option String := some "allowed"

/-! ## Agents -/

/-- The scopes of every new agent. -/
def agentScopes : StringSet := StringSet.ofTexts
  ["status:read", "capabilities:read", "budget:read", "receive:read",
    "purchase_intents:create", "purchase_intents:read",
    "purchase_intents:execute", "purchase_intents:cancel",
    "transactions:read", "receipts:read"]

/-- Store an agent's record. -/
def putAgent (id : String) (record : AgentRecord) : Op Unit :=
  modifyState (fun s => { s with agents := s.agents.insert id record })

/-- Store a policy. -/
def putPolicy (id : String) (p : Policy) : Op Unit :=
  modifyState (fun s => { s with policies := s.policies.insert id p })

/-- The lifetime of a capability: at most a day. -/
def requireAgentTtl (ttlSecs : Int) : Except TreasuryError Unit :=
  refuseIf (ttlSecs ≤ 0 ∨ ttlSecs > 24 * 60 * 60)
    (.invalid "agent TTL must be between 1 second and 24 hours")

/-- When a new session expires: at once while the stop is active. -/
def sessionExpiry (s : TreasuryState) (ttl : Int) : Op Int :=
  if s.emergencyStop = true then pure 0
  else do
    let at_ ← now host
    pure (I64.wrappingAdd at_ ttl)

/-- The token an agent is created with: the prepared one or a new one. -/
def tokenFor : Option String → Op String
  | some token => pure token
  | none => newToken host

/-- The answer to the creation of an agent, with its token if it was drawn
    here. -/
def agentResponse (record : AgentRecord) (token : Option String) : Json :=
  Json.mkObj ([("agent_id", .str record.id), ("expires_at", .num record.expiresAt),
    ("broker_session_expires_at", .num record.brokerSessionExpiresAt),
    ("warning", .str ("Store this token once in a protected file. It is never "
      ++ "shown again and is not an owner credential."))]
    ++ (token.map (fun t => ("capability_token", Json.str t))).toList)

/-- Create an agent with its policy, under a new or a prepared token. -/
def ownerCreateAgent (actor : Actor) (name : String) (p : Policy)
    (mode : AutonomyMode) (ttlSecs : Int) (capabilityToken : Option String) :
    Op Json := do
  let s ← readState
  lift (requireOwner actor)
  rejectIf (s.agents.size ≥ maxAgents)
    (.conflict "agent quota reached; revoke and rotate an existing agent")
  lift (bounded name "agent_name" 128)
  lift (p.validate host)
  lift (validatePolicyExposure s p)
  lift (requireAgentTtl ttlSecs)
  let token ← tokenFor host capabilityToken
  lift (validateCapabilityToken token)
  let agentId ← newId host "agent"
  -- the policy is checked as it came and as it is stored
  let p := { p with id := "policy_" ++ agentId, version := 1 }
  lift (p.validate host)
  -- a session under the stop takes no reading of the clock
  let sessionExpiresAt ← sessionExpiry host s (min ttlSecs p.cardSessionTtlSecs)
  let sessionId ← newId host "session"
  let createdAt ← now host
  let at_ ← now host
  let record : AgentRecord := {
    id := agentId
    name := name
    capabilityTokenHash := tokenHash host token
    scopes := agentScopes
    policyId := p.id
    approvedMerchants := SortedMap.empty
    brokerSessionId := sessionId
    brokerSessionExpiresAt := sessionExpiresAt
    mode := mode
    createdAt := createdAt
    expiresAt := I64.wrappingAdd at_ ttlSecs
    revoked := false }
  putPolicy p.id p
  putAgent agentId record
  audit host "owner" "create_agent" none (some 1) allowedBy
    (Json.mkObj [("agent_id", .str agentId),
      ("broker_session_expires_at", .num record.brokerSessionExpiresAt)])
  pure (agentResponse record (if capabilityToken = none then some token else none))

/-- Give an agent a new spending session, which ends with the agent at the
    latest. -/
def ownerArmAgentSession (actor : Actor) (agentId : String) (ttlSecs : Int) :
    Op Json := do
  let s ← readState
  lift (requireOwner actor)
  rejectIf (s.emergencyStop = true)
    (.forbidden ("agent spending sessions cannot be armed while emergency "
      ++ "stop is active"))
  let record ← lift (agent s agentId)
  let p ← lift (policy s record.policyId)
  rejectIf (ttlSecs ≤ 0 ∨ ttlSecs > p.cardSessionTtlSecs)
    (.invalid ("session TTL must be positive and no longer than the policy "
      ++ "card-session TTL"))
  let at_ ← now host
  let expiresAt := min (I64.wrappingAdd at_ ttlSecs) record.expiresAt
  let sessionId ← newId host "session"
  putAgent agentId { record with
    brokerSessionId := sessionId
    brokerSessionExpiresAt := expiresAt }
  let details := Json.mkObj [("agent_id", .str agentId),
    ("session_id", .str sessionId), ("expires_at", .num expiresAt)]
  audit host "owner" "arm_agent_session" none (some p.version) allowedBy details
  pure details

/-- Replace an agent's policy by its next version. -/
def ownerUpdatePolicy (actor : Actor) (agentId : String) (p : Policy) :
    Op Json := do
  let s ← readState
  lift (requireOwner actor)
  lift (p.validate host)
  lift (validatePolicyExposure s p)
  let record ← lift (agent s agentId)
  let current ← lift (policy s record.policyId)
  let p := { p with
    id := record.policyId
    version := (current.version + 1) % 18446744073709551616 }
  lift (p.validate host)
  putPolicy p.id p
  audit host "owner" "update_policy" none (some p.version) allowedBy
    (Json.mkObj [("agent_id", .str agentId), ("policy_version", .num p.version)])
  pure (Json.mkObj [("agent_id", .str agentId), ("policy", Encode.policy p),
    ("note", .str ("Existing rejected intents remain rejected until a new "
      ++ "intent is created."))])

/-- Give an agent a session that nobody can use. -/
def stopAgent (e : String × AgentRecord) : Op Unit := do
  let sessionId ← newId host "stopped-session"
  putAgent e.1 { e.2 with
    brokerSessionId := sessionId
    brokerSessionExpiresAt := 0 }

/-- Replace the sessions of agents one after another. -/
def stopAgents : List (String × AgentRecord) → Op Unit
  | [] => pure ()
  | e :: rest => do
      stopAgent host e
      stopAgents rest

/-- Stop everything and take the agents' sessions, or lift the stop. -/
def ownerEmergencyStop (actor : Actor) (stopped : Bool) : Op Json := do
  let s ← readState
  lift (requireOwner actor)
  if s.emergencyStop = stopped then
    pure (Json.mkObj [("emergency_stop", .bool stopped),
      ("invalidated_sessions", .num 0), ("unchanged", .bool true)])
  else do
    -- lifting the stop gives no session back
    stopAgents host (if stopped = true then s.agents.entries else [])
    let invalidated := if stopped = true then s.agents.size else 0
    modifyState (fun s => { s with emergencyStop := stopped })
    audit host "owner"
      (if stopped = true then "emergency_stop_on" else "emergency_stop_off")
      none none allowedBy
      (Json.mkObj [("stopped", .bool stopped),
        ("invalidated_sessions", .num invalidated)])
    pure (Json.mkObj [("emergency_stop", .bool stopped),
      ("invalidated_sessions", .num invalidated),
      ("pending_operations_resume_automatically", .bool false)])

/-- The error of an agent that is not there. -/
def agentNotFound (agentId : String) : TreasuryError :=
  .notFound ("agent " ++ agentId)

/-- Set what an agent may do on its own. -/
def ownerSetAgentMode (actor : Actor) (agentId : String) (mode : AutonomyMode) :
    Op Json := do
  let s ← readState
  lift (requireOwner actor)
  let record ← orReject (s.agents.get? agentId) (agentNotFound agentId)
  putAgent agentId { record with mode := mode }
  let details := Json.mkObj [("agent_id", .str agentId),
    ("mode", Encode.mode mode)]
  audit host "owner" "set_agent_mode" none none allowedBy details
  pure details

/-- Revoke an agent and disable it. -/
def ownerRevokeAgent (actor : Actor) (agentId : String) : Op Json := do
  let s ← readState
  lift (requireOwner actor)
  let record ← orReject (s.agents.get? agentId) (agentNotFound agentId)
  putAgent agentId { record with revoked := true, mode := .disabled }
  audit host "owner" "revoke_agent" none none allowedBy
    (Json.mkObj [("agent_id", .str agentId)])
  pure (Json.mkObj [("agent_id", .str agentId), ("revoked", .bool true),
    ("mode", .str "disabled")])

/-- Give an agent a new token and session, and put it back under approvals. -/
def ownerRotateAgentCapability (actor : Actor) (agentId : String)
    (ttlSecs : Int) (capabilityToken : String) : Op Json := do
  let s ← readState
  lift (requireOwner actor)
  lift (requireAgentTtl ttlSecs)
  let record ← lift (agent s agentId)
  let p ← lift (policy s record.policyId)
  lift (validateCapabilityToken capabilityToken)
  let at_ ← now host
  let expiresAt := I64.wrappingAdd at_ ttlSecs
  let sessionExpiresAt ← sessionExpiry host s (min ttlSecs p.cardSessionTtlSecs)
  let sessionId ← newId host "session"
  putAgent agentId { record with
    capabilityTokenHash := tokenHash host capabilityToken
    expiresAt := expiresAt
    brokerSessionId := sessionId
    brokerSessionExpiresAt := sessionExpiresAt
    -- a revoked agent comes back, under approvals
    revoked := false
    mode := .approvalRequired }
  audit host "owner" "rotate_agent_capability" none (some p.version) allowedBy
    (Json.mkObj [("agent_id", .str agentId), ("expires_at", .num expiresAt),
      ("mode", .str "approval_required")])
  pure (Json.mkObj [("agent_id", .str agentId), ("expires_at", .num expiresAt),
    ("broker_session_expires_at", .num sessionExpiresAt),
    ("mode", .str "approval_required"),
    ("warning", .str ("The previous capability is invalid. Store this "
      ++ "replacement once in a protected file."))])

/-- Let an agent buy from a merchant: `owner_approve_merchant`. -/
def ownerApproveMerchant (actor : Actor) (agentId merchantDomain : String) :
    Op Json := do
  let s ← readState
  lift (requireOwner actor)
  let merchant ← lift (canonicalizeDomain host merchantDomain)
  let record ← orReject (s.agents.get? agentId) (agentNotFound agentId)
  let approved : List (String × Json) := [("agent_id", .str agentId),
    ("merchant_domain", .str merchant), ("approved", .bool true)]
  -- an approval that was given is neither counted nor logged again
  if record.approvedMerchants.contains merchant = true then
    pure (Json.mkObj (approved ++ [("unchanged", .bool true)]))
  else do
    rejectIf (record.approvedMerchants.size ≥ maxAgentApprovedMerchants)
      (.conflict ("agent merchant-approval quota reached; update the policy "
        ++ "instead"))
    putAgent agentId { record with
      approvedMerchants := record.approvedMerchants.insert merchant () }
    audit host "owner" "approve_merchant" none none allowedBy
      (Json.mkObj [("agent_id", .str agentId),
        ("merchant_domain", .str merchant)])
    pure (Json.mkObj approved)

/-! ## Approvals and handoffs -/

/-- Decide an intent that awaits approval. -/
def decideApproval (actor : Actor) (intentId : String)
    (next : TransactionState) (lastError : Option String → Option String)
    (action decision : String) (details : Json) : Op Json := do
  let s ← readState
  lift (requireOwner actor)
  let existing ← orReject (s.intents.get? intentId) (.notFound intentId)
  rejectIf (existing.state ≠ .approvalRequired)
    (.conflict "intent is not awaiting approval")
  let intent ← transition host existing next
  let intent := { intent with lastError := lastError intent.lastError }
  storeIntent intent.id intent
  audit host "owner" action (some intentId) (some intent.policyVersion)
    (some decision) details
  pure (sanitizedIntent intent)

/-- Approve an intent that waits for it. -/
def ownerApprove (actor : Actor) (intentId : String) : Op Json :=
  decideApproval host actor intentId .approved id "approve_intent" "allowed"
    (Json.mkObj [("owner_action", .bool true),
      ("approval_scope", .str "intent_only")])

/-- Deny an intent that waits for approval. -/
def ownerDeny (actor : Actor) (intentId : String) : Op Json :=
  decideApproval host actor intentId .cancelled (fun _ => some "owner_denied")
    "deny_intent" "denied"
    (Json.mkObj [("owner_action", .bool true), ("retry", .bool false)])

/-- Let an approved intent enter execution by the owner's hand. -/
def ownerBeginManualHandoff (actor : Actor) (intentId : String) : Op Json := do
  let s ← readState
  lift (requireOwner actor)
  rejectIf (s.providerMode ≠ .manualPrepaidCard)
    (.conflict "manual handoff requires the manual prepaid-card provider")
  let intent ← orReject (s.intents.get? intentId) (.notFound intentId)
  rejectIf (intent.state ≠ .approved)
    (.conflict "manual handoff requires an explicitly approved intent")
  -- the owner acts as the agent, so its checks hold here too
  prepareIntentExecution host (.agent intent.agentId) intentId
  audit host "owner" "begin_manual_handoff" (some intentId)
    (some intent.policyVersion) (some "ready")
    (Json.mkObj [("manual_owner_control", .bool true)])
  let s ← readState
  let executing ← orReject (s.intents.get? intentId) (.notFound intentId)
  pure (Json.mkObj [("status", .str "owner_handoff_ready"),
    ("intent", ownerIntent executing),
    ("instructions", .str ("Keep the agent suspended, verify these facts in an "
      ++ "owner-only browser, submit at most once, then run complete-handoff "
      ++ "before reconciliation.")),
    ("secret_material_required_by_broker", .bool false)])

/-- Leave a handed-over intent unknown, until it is reconciled. -/
def ownerCompleteManualHandoff (actor : Actor) (intentId : String) :
    Op Json := do
  let s ← readState
  lift (requireOwner actor)
  let existing ← orReject (s.intents.get? intentId) (.notFound intentId)
  rejectIf (s.providerMode ≠ .manualPrepaidCard ∨ existing.state ≠ .executing)
    (.conflict "manual handoff is not awaiting owner completion")
  let intent ← transition host existing .unknown
  let intent := { intent with
    lastError := some "manual_provider_outcome_requires_reconciliation" }
  storeIntent intent.id intent
  audit host "owner" "complete_manual_handoff" (some intentId)
    (some intent.policyVersion) (some "unknown")
    (Json.mkObj [("retry", .bool false), ("action", .str "owner_reconcile")])
  pure (Json.mkObj [("status", .str "unknown"), ("intent", ownerIntent intent),
    ("action", .str "owner_reconcile"), ("retry", .bool false)])

/-! ## Reconciliation -/

/-- The manual provider and its balance, to be changed. -/
def manualBalance : Op (ManualPrepaidCardProvider × ManualBalanceSnapshot) := do
  let s ← readState
  let provider ← orReject s.manualProvider manualNotConfigured
  let snapshot ← orReject provider.balanceSnapshot manualUnavailable
  pure (provider, snapshot)

/-- Store a new balance of the card. -/
def putManualBalance (provider : ManualPrepaidCardProvider)
    (snapshot : ManualBalanceSnapshot) : Op Unit :=
  modifyState (fun s => { s with
    manualProvider := some { provider with balanceSnapshot := some snapshot } })

/-- The reference used when the owner and the provider gave none. -/
def reconciledReference (given stored : Option String) : Op String :=
  match given, stored with
  | some reference, _ => pure reference
  | none, some reference => pure reference
  | none, none => newId host "reconciled"

/-- Charge the provider in force for an intent found settled. -/
def chargeReconciled (intent : PurchaseIntent)
    (providerReference : Option String) : Op String := do
  let s ← readState
  match s.providerMode with
  | .simulated => do
      let reference ← reconciledReference host providerReference
        intent.providerReference
      SimulatedProvider.reconcileSettled host intent reference
  | .manualPrepaidCard => do
      let reference ← orReject providerReference
        (.invalid ("manual settlement requires an owner-verified provider "
          ++ "reference"))
      -- the card was charged elsewhere: only its balance follows
      let (provider, snapshot) ← manualBalance
      rejectIf (snapshot.amount.minor < intent.request.finalTotal.minor)
        (.conflict "manual settlement exceeds the reported provider balance")
      let amount ← lift (snapshot.amount.checkedSub intent.request.finalTotal)
      let at_ ← now host
      putManualBalance provider
        { snapshot with amount := amount, observedAt := at_ }
      pure reference

/-- The owner found out that an intent was paid. -/
def reconcileAsSettled (intent : PurchaseIntent)
    (providerReference : Option String) : Op PurchaseIntent := do
  let reference ← chargeReconciled host intent providerReference
  settleIntent host intent reference

/-- Release the simulated hold, when the simulated provider is in force. -/
def releaseReconciled (intentId : String) : Op Unit := do
  let s ← readState
  if s.providerMode = .simulated then SimulatedProvider.releaseHold intentId
  else pure ()

/-- The owner found out that an intent was not paid. -/
def reconcileAsDeclined (intent : PurchaseIntent) : Op PurchaseIntent := do
  let s ← readState
  -- the simulated provider knows what it charged
  rejectIf (s.providerMode = .simulated
      ∧ s.provider.charges.contains intent.id = true)
    (.conflict "a known provider charge cannot be reconciled as declined")
  releaseReconciled intent.id
  let intent ← transition host intent .declined
  appendLedger host .holdReleased intent.request.finalTotal (some intent.id)
    "owner-reconciliation" true
  pure intent

/-- Settle an intent that is to be refunded, unless it is settled. -/
def settleForRefund (intent : PurchaseIntent)
    (providerReference : Option String) : Op PurchaseIntent :=
  if intent.state = .settled then pure intent
  else do
    let reference ← orReject providerReference
      (.invalid "refund reconciliation requires a provider reference")
    settleIntent host intent reference

/-- Take the refund from the provider in force. -/
def refundProvider (intent : PurchaseIntent) (wasSettled : Bool) : Op Money := do
  let s ← readState
  match s.providerMode with
  | .simulated => SimulatedProvider.refund intent.id
  | .manualPrepaidCard => do
      let (provider, snapshot) ← manualBalance
      -- an intent settled on the way here never lowered the balance
      let amount ← lift (if wasSettled = true then
          snapshot.amount.checkedAdd intent.request.finalTotal
        else pure snapshot.amount)
      let at_ ← now host
      putManualBalance provider
        { snapshot with amount := amount, observedAt := at_ }
      pure intent.request.finalTotal

/-- The owner found out that an intent was refunded. -/
def reconcileAsRefunded (intent : PurchaseIntent)
    (providerReference : Option String) : Op PurchaseIntent := do
  let wasSettled := decide (intent.state = .settled)
  let intent ← settleForRefund host intent providerReference
  let refund ← refundProvider host intent wasSettled
  let intent ← transition host intent .refunded
  appendLedger host .refund refund (some intent.id) "owner_reconciliation" true
  pure intent

/-- Whether the provider may still have charged an intent. -/
def isUncertain (state : TransactionState) : Bool :=
  decide (state ∈ [.unknown, .providerPending, .reconciliationRequired])

/-- Mark an uncertain intent for reconciliation. -/
def enterReconciliation (intent : PurchaseIntent) : Op PurchaseIntent :=
  if intent.state = .unknown ∨ intent.state = .providerPending then
    transition host intent .reconciliationRequired
  else pure intent

/-- What the owner found out about an intent. -/
def reconcileAs (intent : PurchaseIntent) (providerReference : Option String) :
    ReconciliationOutcome → Op PurchaseIntent
  | .settled => reconcileAsSettled host intent providerReference
  | .declined => reconcileAsDeclined host intent
  | .refunded => reconcileAsRefunded host intent providerReference

/-- Reconcile an intent, store it and audit it. -/
def ownerReconcileInner (intentId : String) (outcome : ReconciliationOutcome)
    (providerReference : Option String) : Op Json := do
  let s ← readState
  let providerReference ←
    lift (providerReference.mapM (validateProviderReference host))
  let existing ← orReject (s.intents.get? intentId) (.notFound intentId)
  -- a settled intent can still be refunded
  rejectIf (¬(isUncertain existing.state = true
      ∨ (outcome = .refunded ∧ existing.state = .settled)))
    (.conflict "intent is not eligible for the requested reconciliation")
  let intent ← enterReconciliation host existing
  let intent ← reconcileAs host intent providerReference outcome
  storeIntent intent.id intent
  audit host "owner" "reconcile_intent" (some intentId)
    (some intent.policyVersion) allowedBy
    (Json.mkObj [("outcome", Encode.reconciliationOutcome outcome),
      ("provider_reference", Json.optStr intent.providerReference)])
  pure (sanitizedIntent intent)

/-- Reconcile an intent, with all of the state or none of it. -/
def ownerReconcile (actor : Actor) (intentId : String)
    (outcome : ReconciliationOutcome) (providerReference : Option String) :
    Op Json := do
  let s ← readState
  lift (requireOwner actor)
  orRestore s (ownerReconcileInner host intentId outcome providerReference)

/-! ## Deposits -/

/-- The digest of a deposit's details. -/
def depositFingerprint (amount : Money) (source : String) (verified : Bool)
    (agentId : Option String) : String :=
  hexEncode (host.sha256 (Json.mkObj
    [("amount", Encode.money amount), ("source", .str source),
      ("verified", .bool verified),
      ("agent_id", Json.optStr agentId)]).render)

/-- The part of a verified deposit that becomes authority. -/
def reinvestedShare (s : TreasuryState) (amount : Money) (p : Policy) :
    Except TreasuryError Money := do
  refuseIf (amount.currency ≠ p.primaryCurrency)
    (.money "deposit currency does not match policy currency")
  -- of the simulated provider this is what its holds leave, of a card all of it
  let balance ← providerReportedBalance s
  let projected ← balance.checkedAdd amount
  refuseIf (projected.minor > p.maxTreasurySize.minor)
    (.forbidden "maximum treasury size would be exceeded")
  let reinvested ← amount.scaledBasisPoints p.reinvestmentRatioBps
  let snapshot ← ledgerSnapshot s p.primaryCurrency
  let authority ← snapshot.availableAuthority.checkedAdd reinvested
  refuseIf (authority.minor > p.absoluteExposureCeiling.minor)
    (.forbidden "absolute exposure ceiling would be exceeded")
  pure reinvested

/-- The authority a deposit adds: none unless it is verified. -/
def depositShare (s : TreasuryState) (amount : Money) (verified : Bool)
    (agentId : Option String) : Except TreasuryError Money :=
  if verified = true then do
    let agentId ← orRefuse agentId
      (.invalid "verified deposits require an explicit target agent policy")
    let record ← agent s agentId
    let p ← policy s record.policyId
    reinvestedShare s amount p
  else Money.zero amount.currency

/-- Add a verified deposit to the balance of the provider in force. -/
def creditProvider (amount : Money) : Op Unit := do
  let s ← readState
  match s.providerMode with
  | .simulated => do
      let balance ← lift (s.provider.balance.checkedAdd amount)
      SimulatedProvider.put { s.provider with
        balance := balance
        incomingDeposits := s.provider.incomingDeposits ++ [amount] }
  | .manualPrepaidCard => do
      let (provider, snapshot) ← manualBalance
      let total ← lift (snapshot.amount.checkedAdd amount)
      let at_ ← now host
      putManualBalance provider { snapshot with
        amount := total
        status := .ownerConfirmed
        observedAt := at_ }

/-- Credit the provider for a verified deposit only. -/
def creditDeposit (amount : Money) (verified : Bool) : Op Unit :=
  if verified = true then creditProvider host amount else pure ()

/-- The ledger event of the authority a deposit adds, if it adds any. -/
def appendReinvestment (reinvested : Money) : Op Unit :=
  if reinvested.minor > 0 then
    appendLedger host .operatorTopUp reinvested none
      "verified-income-reinvestment" true
  else pure ()

/-- Income, verified or not. -/
def incomeKind (verified : Bool) : LedgerEventKind :=
  if verified = true then .incomeVerified else .incomeUnverified

/-- Record a deposit under a reference that is new. -/
def recordNewDeposit (s : TreasuryState) (amount : Money) (source : String)
    (verified : Bool) (agentId : Option String)
    (reference fingerprint : String) : Op Json := do
  let reinvested ← lift (depositShare s amount verified agentId)
  creditDeposit host amount verified
  appendLedger host (incomeKind verified) amount none source verified
  appendReinvestment host reinvested
  -- the reference is bound once everything before it was accepted
  modifyState (fun s => { s with
    processedDeposits := s.processedDeposits.insert reference fingerprint })
  audit host "owner" "record_deposit" none none
    (some (if verified = true then "verified" else "unverified"))
    (Json.mkObj [("amount", Encode.money amount), ("source", .str source),
      ("agent_id", Json.optStr agentId), ("reinvested", Encode.money reinvested),
      ("external_reference", .str reference)])
  pure (Json.mkObj [("recorded", .bool true), ("duplicate", .bool false),
    ("verified", .bool verified),
    ("spendable", .bool (decide (reinvested.minor > 0))),
    ("reinvested", Encode.money reinvested),
    ("external_reference", .str reference)])

/-- Record a deposit, once under its reference: `owner_record_deposit`. -/
def ownerRecordDeposit (actor : Actor) (amount : Money) (source : String)
    (verified : Bool) (agentId : Option String) (externalReference : String) :
    Op Json := do
  let s ← readState
  lift (requireOwner actor)
  lift (bounded source "deposit_source" 128)
  lift (bounded externalReference "external_reference" 160)
  let reference := opaqueReference host "deposit" externalReference
  let source := redactSensitive host source
  rejectIf (amount.minor ≤ 0) (.invalid "deposit must be positive")
  let fingerprint := depositFingerprint host amount source verified agentId
  match s.processedDeposits.get? reference with
  | some existing =>
      -- the same deposit again is no second one
      if existing = fingerprint then
        pure (Json.mkObj [("recorded", .bool true), ("duplicate", .bool true),
          ("external_reference", .str reference)])
      else throw (.conflict ("external deposit reference is already bound to "
        ++ "different details"))
  | none =>
      recordNewDeposit host s amount source verified agentId reference
        fingerprint

/-! ## Configuration -/

/-- Whether two texts are equal but for the case of ASCII letters. -/
def eqIgnoreAsciiCase (a b : String) : Bool :=
  decide (a.toList.map toAsciiLowercase = b.toList.map toAsciiLowercase)

/-- Set where income is sent. -/
def ownerConfigureReceive (actor : Actor) (method address memoTemplate : String) :
    Op Json := do
  lift (requireOwner actor)
  lift (bounded method "receive_method" 64)
  lift (bounded address "receive_address" 320)
  lift (bounded memoTemplate "memo_template" 160)
  rejectIf (eqIgnoreAsciiCase method "interac_e_transfer" = false
      ∧ eqIgnoreAsciiCase method "manual" = false)
    (.invalid ("initial release supports only manual or Interac e-Transfer "
      ++ "receiving instructions"))
  let at_ ← now host
  modifyState (fun s => { s with
    receiveInstructions := some ⟨method, address, memoTemplate, true, at_⟩ })
  audit host "owner" "configure_receive_instructions" none none allowedBy
    (Json.mkObj [("public", .bool true)])
  pure (Json.mkObj [("configured", .bool true),
    ("outgoing_transfers_supported", .bool false)])

/-- The states in which an intent can no longer be charged. -/
def isTerminal (state : TransactionState) : Bool :=
  decide (state ∈ [.declined, .failed, .cancelled, .settled, .refunded])

/-- Whether a text is four digits. -/
def isFourDigits (text : String) : Bool :=
  decide (byteLen text = 4) && text.toList.all isAsciiDigit

/-- The checks of a manual provider configuration against the state. -/
def checkManualConfiguration (s : TreasuryState)
    (c : ManualProviderConfiguration) : Except TreasuryError Unit := do
  validateSecretReference host c.credentialReference c.providerKind
  refuseIf (s.intents.values.any (fun i => !isTerminal i.state) = true)
    (.conflict ("provider cannot change while non-terminal purchase history "
      ++ "exists"))
  refuseIf (c.balance.minor < 0 ∨ c.balanceTtlSecs ≤ 0
      ∨ c.balanceTtlSecs > 24 * 60 * 60)
    (.invalid "manual balance and freshness TTL are invalid")
  refuseIf (c.balanceStatus = .providerVerified)
    (.invalid ("manual owner configuration cannot claim provider-verified "
      ++ "status"))
  refuseIf (c.balance.currency ≠ s.provider.balance.currency)
    (.invalid "manual provider currency must match the treasury currency")
  refuseIf (c.lastFour.any (fun digits => !isFourDigits digits) = true)
    (.invalid "last_four must contain exactly four digits")
  s.policies.values.forM (fun p =>
    refuseIf (c.balance.currency ≠ p.primaryCurrency
        ∨ c.balance.minor > p.maxTreasurySize.minor)
      (.forbidden ("manual balance is outside an active policy treasury "
        ++ "envelope")))

/-- The manual provider of a configuration made at a time. -/
def configuredProvider (c : ManualProviderConfiguration) (at_ : Int) :
    ManualPrepaidCardProvider :=
  { ManualPrepaidCardProvider.new
      ⟨c.credentialReference, c.providerKind, c.lastFour, false⟩ with
    outgoingSupported := c.autonomousCheckout
    balanceSnapshot := some ⟨c.balance, c.balanceStatus, at_,
      "owner-provider-configuration", I64.wrappingAdd at_ c.balanceTtlSecs⟩ }

/-- Configure a card and make it the provider. -/
def ownerConfigureManualProvider (actor : Actor)
    (c : ManualProviderConfiguration) : Op Json := do
  let s ← readState
  lift (requireOwner actor)
  lift (checkManualConfiguration host s c)
  let at_ ← now host
  modifyState (fun s => { s with
    providerMode := .manualPrepaidCard
    manualProvider := some (configuredProvider c at_) })
  let details := Json.mkObj [("provider", .str "manual-prepaid-card"),
    ("balance_status", Encode.balanceStatus c.balanceStatus),
    ("balance", Encode.money c.balance),
    ("expires_at", .num (I64.wrappingAdd at_ c.balanceTtlSecs)),
    ("credential_material_persisted", .bool false),
    ("autonomous_checkout", .bool c.autonomousCheckout)]
  audit host "owner" "configure_manual_provider" none none allowedBy details
  pure details

end Treasury
