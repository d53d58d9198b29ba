import Cixa.Owner
import Mathlib.Data.List.Sort

/-! # Views — the responses of read-only requests

    What agents and the owner are shown.  A view reads the clock and nothing
    else of the world changes.  Lists come in pages: a page starts after a
    cursor, and its last element is the cursor of the next one. -/

namespace Treasury

open CixaData CixaHost Outcome Checks

variable (host : Host)

/-! ## Status, capabilities and budget -/

/-- Whether the treasury runs, and who asks. -/
def getStatus (actor : Actor) : Op Json := do
  let s ← readState
  match actor with
  | .owner => pure (Json.mkObj [("principal", .str "owner"),
      ("emergency_stop", .bool s.emergencyStop),
      ("agent_count", .num s.agents.size),
      ("audit_entries", .num s.audit.length),
      ("provider", .str (providerId s))])
  | .agent agentId => do
      let _ ← lift (requireAgentScope s actor "status:read")
      let record ← lift (agent s agentId)
      pure (Json.mkObj [("principal", .str "agent"),
        ("agent_id", .str record.id), ("mode", Encode.mode record.mode),
        ("revoked", .bool record.revoked),
        ("emergency_stop", .bool s.emergencyStop),
        ("policy_id", .str record.policyId),
        ("broker_session_expires_at", .num record.brokerSessionExpiresAt)])

/-- What an agent may do. -/
def getCapabilities (actor : Actor) : Op Json := do
  let s ← readState
  let agentId ← lift (requireAgentScope s actor "capabilities:read")
  let record ← lift (agent s agentId)
  pure (Json.mkObj [("agent_id", .str record.id),
    ("scopes", Encode.texts record.scopes),
    ("cannot", .arr (["view_credentials", "change_policies", "change_limits",
      "add_cards", "approve_exceptions", "record_deposits",
      "reconcile_transactions", "export_sensitive_data",
      "change_server_configuration", "disable_safeguards"].map Json.str))])

/-- The name of a balance's status. -/
def balanceStatusName : BalanceStatus → String
  | .estimated => "estimated"
  | .ownerConfirmed => "owner_confirmed"
  | .providerVerified => "provider_verified"

/-- How well the provider's balance is known. -/
def providerBalanceStatus (s : TreasuryState) : String :=
  match s.providerMode with
  | .simulated => "simulated_provider_verified"
  | .manualPrepaidCard =>
      match manualSnapshot s with
      | some snapshot => balanceStatusName snapshot.status
      | none => "unavailable"

/-- What is known of the provider's balance, and since when. -/
def balanceEvidence (s : TreasuryState) (observedAt expiresAt : Json)
    (stale : Bool) : Json :=
  Json.mkObj [("status", .str (providerBalanceStatus s)),
    ("observed_at", observedAt), ("expires_at", expiresAt),
    ("stale", .bool stale)]

/-- What is known of it now. -/
def providerBalanceEvidence (s : TreasuryState) : Op Json :=
  match s.providerMode with
  | .simulated => pure (balanceEvidence s .null .null false)
  | .manualPrepaidCard =>
      match manualSnapshot s with
      | none => pure (balanceEvidence s .null .null true)
      | some snapshot => do
          let at_ ← now host
          pure (balanceEvidence s (.num snapshot.observedAt)
            (.num snapshot.expiresAt) (decide (snapshot.expiresAt ≤ at_)))

/-- The limits of an agent and what is left of them. -/
def getBudget (actor : Actor) : Op Json := do
  let s ← readState
  let agentId ← lift (requireAgentScope s actor "budget:read")
  let record ← lift (agent s agentId)
  let p ← lift (policy s record.policyId)
  let used ← usage host s agentId p.primaryCurrency
  let balance ← lift (providerReportedBalance s)
  let ledger ← lift (ledgerSnapshot s p.primaryCurrency)
  let session ← lift (p.maxPerSession.remainingMoney used.sessionAmount)
  let rolling ← lift (p.maxRolling24h.remainingMoney used.rolling24hAmount)
  let lifetime ← lift (p.maxLifetime.remainingMoney used.lifetimeAmount)
  let evidence ← providerBalanceEvidence host s
  pure (Json.mkObj [("currency", .str p.primaryCurrency),
    ("policy_version", .num p.version), ("mode", Encode.mode record.mode),
    ("policy_budget", Json.mkObj
      [("max_per_transaction", Encode.money p.maxPerTransaction),
        ("max_per_session", Encode.money p.maxPerSession),
        ("max_rolling_24h", Encode.money p.maxRolling24h),
        ("max_lifetime", Encode.money p.maxLifetime)]),
    ("used", Encode.usage used),
    ("remaining", Json.mkObj
      [("per_transaction", Encode.money p.maxPerTransaction),
        ("session", Encode.money session),
        ("rolling_24h", Encode.money rolling),
        ("lifetime", Encode.money lifetime)]),
    ("provider_balance", Json.mkObj [("amount", Encode.money balance),
      ("status", .str (providerBalanceStatus s)), ("evidence", evidence)]),
    ("ledger", Encode.ledgerSnapshot ledger),
    ("estimated_balance_is_not_provider_verified", .bool true)])

/-- Where income is sent, if the owner made it public. -/
def getReceiveInstructions (actor : Actor) : Op Json := do
  let s ← readState
  let _ ← lift (requireAgentScope s actor "receive:read")
  let instructions ← orReject
    (s.receiveInstructions.filter ReceiveInstructions.isPublic)
    (.notFound "public receiving instructions")
  pure (Json.mkObj [("method", .str instructions.method),
    ("address", .str instructions.address),
    ("memo_template", .str instructions.memoTemplate),
    ("verified", .bool false),
    ("warning", .str ("A notification or screenshot is not evidence of "
      ++ "received funds.")),
    ("outgoing_transfers_supported", .bool false)])

/-! ## The dashboard -/

/-- What the owner is shown of an agent. -/
def dashboardAgent (s : TreasuryState) (record : AgentRecord) : Op Json := do
  let p ← lift (policy s record.policyId)
  let used ← usage host s record.id p.primaryCurrency
  let rolling ← lift (p.maxRolling24h.remainingMoney used.rolling24hAmount)
  let session ← lift (p.maxPerSession.remainingMoney used.sessionAmount)
  let lifetime ← lift (p.maxLifetime.remainingMoney used.lifetimeAmount)
  let count := (s.intents.values.filter (fun i =>
    decide (i.agentId = record.id))).length
  pure (Json.mkObj [("id", .str record.id), ("name", .str record.name),
    ("policy_id", .str record.policyId), ("mode", Encode.mode record.mode),
    ("created_at", .num record.createdAt),
    ("expires_at", .num record.expiresAt), ("revoked", .bool record.revoked),
    ("broker_session_expires_at", .num record.brokerSessionExpiresAt),
    ("approved_merchants", Encode.texts record.approvedMerchants),
    ("transaction_count", .num count),
    ("budget", Json.mkObj [("usage", Encode.usage used),
      ("remaining_rolling_24h", Encode.money rolling),
      ("remaining_session", Encode.money session),
      ("remaining_lifetime", Encode.money lifetime)])])

/-- Apply a view to every element, in order. -/
def viewAll {α : Type} (view : α → Op Json) : List α → Op (List Json)
  | [] => pure []
  | a :: rest => do
      let j ← view a
      let js ← viewAll view rest
      pure (j :: js)

/-- Newest update first, then newest creation. -/
def updatedLater (a b : PurchaseIntent) : Prop :=
  b.updatedAt < a.updatedAt
    ∨ (b.updatedAt = a.updatedAt ∧ b.createdAt ≤ a.createdAt)

instance : DecidableRel updatedLater := fun a b =>
  inferInstanceAs (Decidable (b.updatedAt < a.updatedAt
    ∨ (b.updatedAt = a.updatedAt ∧ b.createdAt ≤ a.createdAt)))

/-- A truncated list of intents with its full length. -/
def intentSection (name : String) (intents : List PurchaseIntent) :
    List (String × Json) :=
  [(name, .arr ((intents.take dashboardHistoryLimit).map ownerIntent)),
    (name ++ "_total", .num intents.length),
    (name ++ "_truncated",
      .bool (decide (intents.length > dashboardHistoryLimit)))]

/-- The card as the owner is shown it. -/
def manualCardView (provider : ManualPrepaidCardProvider) : Json :=
  Json.mkObj [("provider_kind", .str provider.card.providerKind),
    ("last_four", Json.optStr provider.card.lastFour),
    ("credential_reference_configured",
      .bool (decide (provider.card.reference ≠ ""))),
    ("autonomous_checkout", .bool provider.outgoingSupported)]

/-- What the owner is warned of. -/
def unsafeModes (s : TreasuryState) : List Json :=
  if s.providerMode = .manualPrepaidCard then
    if s.manualProvider.any ManualPrepaidCardProvider.outgoingSupported = true
    then [.str ("controlled card checkout is enabled; every submitted payment "
      ++ "requires independent owner reconciliation")]
    else [.str ("manual prepaid-card checkout requires owner handoff and "
      ++ "reconciliation")]
  else []

/-- A result that is shown only if it succeeded. -/
def okOrNone {α : Type} : Except TreasuryError α → Option α
  | .ok a => some a
  | .error _ => none

/-- The currency the owner's authority is shown in. -/
def authorityCurrency (s : TreasuryState) : String :=
  match okOrNone (providerReportedBalance s) with
  | some balance => balance.currency
  | none => s.provider.balance.currency

/-- All that the owner sees at once. -/
def ownerGetDashboard (actor : Actor) : Op Json := do
  let s ← readState
  lift (requireOwner actor)
  let agents ← viewAll (dashboardAgent host s) s.agents.values
  let intents := s.intents.values.insertionSort updatedLater
  let ledger ← lift (ledgerSnapshot s (authorityCurrency s))
  let evidence ← providerBalanceEvidence host s
  pure (Json.mkObj ([("emergency_stop", .bool s.emergencyStop),
    ("provider", Json.mkObj [("id", .str (providerId s)),
      ("mode", Encode.providerMode s.providerMode),
      ("balance", ((okOrNone (providerReportedBalance s)).map
        Encode.money).getD .null),
      ("balance_status", .str (providerBalanceStatus s)),
      ("balance_evidence", evidence),
      ("manual_card", (s.manualProvider.map manualCardView).getD .null)]),
    ("available_authority", Encode.money ledger.availableAuthority),
    ("ledger", Encode.ledgerSnapshot ledger), ("agents", .arr agents),
    ("policies", .obj (s.policies.entries.map (fun e =>
      (e.1, Encode.policy e.2))))]
    ++ intentSection "transactions" intents
    ++ intentSection "pending_approvals"
      (intents.filter (fun i => decide (i.state = .approvalRequired)))
    ++ intentSection "reconciliation_required"
      (intents.filter (fun i => isUncertain i.state))
    ++ [("receive_instructions", (s.receiveInstructions.map
        Encode.receiveInstructions).getD .null),
      ("audit_entry_count", .num s.audit.length),
      ("unsafe_modes", .arr (unsafeModes s)), ("sanitized", .bool true)]))

/-! ## Intents and receipts -/

/-- The intent's view for a caller. -/
def intentView (actor : Actor) (intent : PurchaseIntent) : Json :=
  match actor with
  | .owner => ownerIntent intent
  | .agent _ => sanitizedIntent intent

/-- An agent needs a scope; the owner does not. -/
def requireScopeOfAgent (s : TreasuryState) (actor : Actor) (scope : String) :
    Except TreasuryError Unit :=
  match actor with
  | .owner => .ok ⟨⟩
  | .agent _ => do
      let _ ← requireAgentScope s actor scope

/-- An agent sees its own intents only. -/
def isVisible (actor : Actor) (intent : PurchaseIntent) : Bool :=
  match actor with
  | .owner => true
  | .agent agentId => decide (intent.agentId = agentId)

/-- An intent the caller may see. -/
def visibleIntent (s : TreasuryState) (actor : Actor) (scope intentId : String) :
    Except TreasuryError PurchaseIntent := do
  requireScopeOfAgent s actor scope
  let intent ← orRefuse (s.intents.get? intentId) (.notFound intentId)
  refuseIf (isVisible actor intent = false)
    (.forbidden "intent belongs to another agent")
  pure intent

/-- An intent of the agent. -/
def getIntent (actor : Actor) (intentId : String) : Op Json := do
  let s ← readState
  let intent ← lift (visibleIntent s actor "purchase_intents:read" intentId)
  pure (intentView actor intent)

/-- The receipt of an intent of the agent, if it still has its hash. -/
def getReceipt (actor : Actor) (intentId : String) : Op Json := do
  let s ← readState
  let intent ← lift (visibleIntent s actor "receipts:read" intentId)
  let receipt ← orReject intent.receipt
    (.conflict "receipt is unavailable until settlement")
  rejectIf (intent.receiptHash ≠ some (receiptHash host receipt))
    (.invalid "persisted receipt integrity check failed")
  pure (Encode.receipt receipt)

/-! ## Pages -/

/-- Newest creation first, then the greater id. -/
def createdLater (a b : PurchaseIntent) : Prop :=
  b.createdAt < a.createdAt ∨ (b.createdAt = a.createdAt ∧ b.id ≤ a.id)

instance : DecidableRel createdLater := fun a b =>
  inferInstanceAs (Decidable (b.createdAt < a.createdAt
    ∨ (b.createdAt = a.createdAt ∧ b.id ≤ a.id)))

/-- A page has from one to fifty entries. -/
def requirePageLimit (limit : Nat) : Except TreasuryError Unit :=
  refuseIf (limit = 0 ∨ limit > ownerPageLimit)
    (.invalid ("page limit must be between 1 and " ++ toString ownerPageLimit))

/-- Where a page starts: after its cursor. -/
def pageStart (intents : List PurchaseIntent) :
    Option String → Except TreasuryError Nat
  | none => .ok 0
  | some cursor => do
      let position ← orRefuse
        (intents.findIdx? (fun i => decide (i.id = cursor)))
        (.invalid "transaction cursor is invalid")
      pure (position + 1)

/-- A page of the intents that are visible, newest first. -/
def transactionPage (s : TreasuryState) (visible : PurchaseIntent → Bool)
    (view : PurchaseIntent → Json) (cursor : Option String) (limit : Nat) :
    Except TreasuryError Json := do
  requirePageLimit limit
  let intents := (s.intents.values.filter visible).insertionSort createdLater
  let start ← pageStart intents cursor
  let page := ((intents.drop start).take limit).map view
  let hasMore := decide (start + page.length < intents.length)
  let nextCursor := if hasMore = true then
      (page.getLast?.bind (Json.getField? "id")).bind Json.asStr?
    else none
  pure (Json.mkObj [("transactions", .arr page),
    ("transactions_total", .num intents.length),
    ("next_cursor", Json.optStr nextCursor), ("has_more", .bool hasMore)])

/-- A page of the agent's intents. -/
def listTransactionsPage (actor : Actor) (cursor : Option String)
    (limit : Nat) : Op Json := do
  let s ← readState
  lift (requireScopeOfAgent s actor "transactions:read")
  lift (transactionPage s (isVisible actor) (intentView actor) cursor limit)

/-- The first page of them. -/
def listTransactions (actor : Actor) : Op Json :=
  listTransactionsPage actor none 25

/-- A page of all intents. -/
def ownerListTransactionsPage (actor : Actor) (cursor : Option String)
    (limit : Nat) : Op Json := do
  let s ← readState
  lift (requireOwner actor)
  lift (transactionPage s (fun _ => true) ownerIntent cursor limit)

/-! ## The audit log -/

/-- Whether the chain of a world's audit log verifies. -/
def chainValid (w : World) : Bool :=
  (okOrNone (verifyAuditChain host w.auditKey w.state)).isSome

/-- The whole audit log, and whether its chain holds. -/
def ownerListAudit (actor : Actor) : Op Json := do
  let w ← get
  lift (requireOwner actor)
  pure (Json.mkObj [("entries", .arr (w.state.audit.map Encode.auditEntry)),
    ("entries_total", .num w.state.audit.length), ("truncated", .bool false),
    ("chain_valid", .bool (chainValid host w))])

/-- The last entries of it. -/
def ownerListAuditRecent (actor : Actor) : Op Json := do
  let w ← get
  lift (requireOwner actor)
  let start := w.state.audit.length - dashboardAuditLimit
  pure (Json.mkObj
    [("entries", .arr ((w.state.audit.drop start).map Encode.auditEntry)),
      ("entries_total", .num w.state.audit.length),
      ("truncated", .bool (decide (start > 0))),
      ("chain_valid", .bool (chainValid host w))])

/-- A page of it. -/
def ownerListAuditPage (actor : Actor) (cursor : Option Nat) (limit : Nat) :
    Op Json := do
  let w ← get
  lift (requireOwner actor)
  lift (requirePageLimit limit)
  let entries := (w.state.audit.reverse.filter (fun e =>
    cursor.all (fun sequence => decide (e.sequence < sequence)))).take limit
  let hasMore := entries.getLast?.any (fun e => decide (e.sequence > 1))
  let nextCursor := if hasMore = true then
      entries.getLast?.map (fun e => (e.sequence : Int))
    else none
  pure (Json.mkObj [("entries", .arr (entries.map Encode.auditEntry)),
    ("entries_total", .num w.state.audit.length),
    ("next_cursor", Json.optNum nextCursor), ("has_more", .bool hasMore),
    ("chain_valid", .bool (chainValid host w))])

end Treasury
