import Cixa.Steps
import Cixa.Transition

/-! # Changes — everything a broker operation can do to the world

    One labelled relation says what an operation can do in a step: append an
    audit entry, store an agent or a policy, store a new intent, RESERVE
    funds, move or conclude an intent, change a provider, reconcile, record a
    deposit, write the disk, or submit.  Each label carries the guards that
    the code checked before it, so an invariant of the broker is proved by
    one case for each label and never by unfolding an operation.

    A `Path` is a sequence of changes in which an operation may also give up
    and put an earlier state back; the counters and the log stay. -/

namespace Treasury

open CixaData CixaHost

variable (host : Host)

/-! ## Counters, readings and draws -/

/-- The counters only grow, and the key stays. -/
structure Advance (w w' : World) : Prop where
  key : w'.auditKey = w.auditKey
  tick : w.tick ≤ w'.tick
  drawn : w.drawn ≤ w'.drawn
  saves : w.saves ≤ w'.saves

/-- Nothing but counters changed. -/
structure Quiet (w w' : World) : Prop extends Advance w w' where
  state : w'.state = w.state
  log : w'.log = w.log

/-- A reading of the clock between two worlds. -/
def ReadIn (w w' : World) (t : Int) : Prop :=
  ∃ k, w.tick ≤ k ∧ k < w'.tick ∧ t = host.clock k

/-- An identifier drawn between two worlds. -/
def DrawnIn (w w' : World) (kind id : String) : Prop :=
  ∃ i, w.drawn ≤ i ∧ i < w'.drawn ∧ id = idOfDraw host kind i

/-- A ledger event made between two worlds. -/
structure EventIn (w w' : World) (kind : LedgerEventKind) (amount : Money)
    (intentId : Option String) (e : LedgerEvent) : Prop where
  id : DrawnIn host w w' "ledger" e.id
  time : ReadIn host w w' e.at
  kind : e.kind = kind
  amount : e.amount = amount
  intentId : e.intentId = intentId

/-- An audit entry for an action made between two worlds from a state. -/
structure Entered (w w' : World) (s : TreasuryState) (action : String)
    (e : AuditEntry) : Prop where
  room : hasRoom s action
  made : ∃ w1 : World, w1.auditKey = w.auditKey ∧ w1.state = s
    ∧ w.tick ≤ w1.tick ∧ w1.tick < w'.tick
    ∧ ∃ actor intentId policyVersion decision details,
      e = entryOf host w1 actor action intentId policyVersion decision details

/-! ## Providers -/

/-- The kinds of what the simulated provider does for an intent. -/
inductive ProviderMove where
  | hold
  | charge
  | settleHold
  | confirm
  | release
  | refund

open SimulatedProvider in
/-- What the simulated provider does for an intent. -/
inductive ProviderStep (i : PurchaseIntent) :
    ProviderMove → SimulatedProvider → SimulatedProvider → Prop where
  | hold {p : SimulatedProvider} {available : Money}
      (hnew : p.charges.get? i.id = none)
      (ha : p.availableBalance = .ok available)
      (hle : i.request.finalTotal.minor ≤ available.minor) :
      ProviderStep i .hold p
        { p with holds := p.holds.insert i.id i.request.finalTotal }
  | charge {p : SimulatedProvider} {available balance : Money}
      {reference : String} {settled : Bool}
      (hnew : p.charges.get? i.id = none)
      (ha : p.availableBalance = .ok available)
      (hle : i.request.finalTotal.minor ≤ available.minor)
      (hb : p.balance.checkedSub i.request.finalTotal = .ok balance) :
      ProviderStep i .charge p { p with
        balance := balance
        charges := p.charges.insert i.id
          (chargeFor i i.request.finalTotal reference settled) }
  | settleHold {p : SimulatedProvider} {amount balance : Money}
      {reference : String} (hh : p.holds.get? i.id = some amount)
      (hb : p.balance.checkedSub amount = .ok balance) :
      ProviderStep i .settleHold p { p with
        balance := balance
        holds := p.holds.erase i.id
        charges := p.charges.insert i.id (chargeFor i amount reference true) }
  | confirm {p : SimulatedProvider} {c : ProviderCharge}
      (hh : p.holds.get? i.id = none) (hc : p.charges.get? i.id = some c) :
      ProviderStep i .confirm p
        { p with charges := p.charges.insert i.id { c with settled := true } }
  | release {p : SimulatedProvider} (hnew : p.charges.get? i.id = none) :
      ProviderStep i .release p { p with holds := p.holds.erase i.id }
  | refund {p : SimulatedProvider} {c : ProviderCharge} {balance : Money}
      (hc : p.charges.get? i.id = some c) (hr : c.refunded = false)
      (hb : p.balance.checkedAdd c.amount = .ok balance) :
      ProviderStep i .refund p { p with
        balance := balance
        charges := p.charges.insert i.id { c with refunded := true } }

/-- A manual provider with another balance. -/
def withBalance (m : ManualPrepaidCardProvider) (snap : ManualBalanceSnapshot) :
    ManualPrepaidCardProvider :=
  { m with balanceSnapshot := some snap }

/-- What a reconciliation asks of the provider: to charge, to let go, or to
    pay back an intent that was settled or was not. -/
inductive Arm where
  | charge
  | release
  | repay (wasSettled : Bool)

/-- The arm an outcome takes for an intent in a state. -/
def armOf (state : TransactionState) : ReconciliationOutcome → Arm
  | .settled => .charge
  | .declined => .release
  | .refunded => .repay (decide (state = .settled))

/-- Which moves of the simulated provider an arm can take. -/
def Arm.takes : Arm → ProviderMove → Bool
  | .charge, .charge | .charge, .settleHold | .charge, .confirm => true
  | .release, .release => true
  | .repay _, .refund => true
  | _, _ => false

/-- What happens to the manual balance between two worlds. -/
inductive ManualStep (w w' : World) (total : Money) :
    Arm → ManualPrepaidCardProvider → ManualPrepaidCardProvider → Prop where
  | debit {m : ManualPrepaidCardProvider} {snap : ManualBalanceSnapshot}
      {amount : Money} {t : Int} (hs : m.balanceSnapshot = some snap)
      (hle : total.minor ≤ snap.amount.minor)
      (hb : snap.amount.checkedSub total = .ok amount)
      (ht : ReadIn host w w' t) :
      ManualStep w w' total .charge m
        (withBalance m { snap with amount := amount, observedAt := t })
  | credit {m : ManualPrepaidCardProvider} {snap : ManualBalanceSnapshot}
      {amount : Money} {t : Int} (hs : m.balanceSnapshot = some snap)
      (hb : snap.amount.checkedAdd total = .ok amount)
      (ht : ReadIn host w w' t) :
      ManualStep w w' total (.repay true) m
        (withBalance m { snap with amount := amount, observedAt := t })
  | touch {m : ManualPrepaidCardProvider} {snap : ManualBalanceSnapshot}
      {t : Int} (hs : m.balanceSnapshot = some snap)
      (ht : ReadIn host w w' t) :
      ManualStep w w' total (.repay false) m
        (withBalance m { snap with observedAt := t })

/-- What a reconciliation does to the provider in force. -/
inductive Effect (w w' : World) (i : PurchaseIntent) :
    Arm → TreasuryState → TreasuryState → Prop where
  | none {s : TreasuryState} (hm : s.providerMode = .manualPrepaidCard) :
      Effect w w' i .release s s
  | simulated {s : TreasuryState} {p' : SimulatedProvider} {arm : Arm}
      {move : ProviderMove} (hm : s.providerMode = .simulated)
      (h : ProviderStep i move s.provider p')
      (ht : arm.takes move = true) :
      Effect w w' i arm s { s with provider := p' }
  | manual {s : TreasuryState} {m m' : ManualPrepaidCardProvider} {arm : Arm}
      (hm : s.providerMode = .manualPrepaidCard)
      (hp : s.manualProvider = some m)
      (h : ManualStep host w w' i.request.finalTotal arm m m') :
      Effect w w' i arm s { s with manualProvider := some m' }

/-! ## Settling -/

/-- The events that settling an intent appends: a release and a settlement,
    each unless the ledger has it. -/
inductive Settling (w w' : World) (s : TreasuryState) (i : PurchaseIntent) :
    List LedgerEvent → Prop where
  | mk {released settled : List LedgerEvent}
      (hr : (hasEvent s i.id .holdReleased = true ∧ released = [])
        ∨ (hasEvent s i.id .holdReleased = false ∧ ∃ e, released = [e]
          ∧ EventIn host w w' .holdReleased i.request.finalTotal (some i.id) e))
      (hs : (hasEvent s i.id .spendingSettled = true ∧ settled = [])
        ∨ (hasEvent s i.id .spendingSettled = false ∧ ∃ e, settled = [e]
          ∧ EventIn host w w' .spendingSettled i.request.finalTotal
            (some i.id) e)) :
      Settling w w' s i (released ++ settled)

/-- An intent settled with a reference and a receipt between two worlds. -/
structure SettledIn (w w' : World) (i i' : PurchaseIntent) : Prop where
  receipt : i.receipt = none
  receiptHash : i.receiptHash = none
  shape : ∃ reference t t', ReadIn host w w' t ∧ ReadIn host w w' t'
    ∧ i' = withReceipt host { i with
        providerReference := some reference
        state := .settled
        updatedAt := t } t'

/-- The intent and the events of a provider outcome, by the state it leads
    to. -/
inductive Concluded (w w' : World) (s : TreasuryState) (i : PurchaseIntent) :
    TransactionState → PurchaseIntent → List LedgerEvent → Prop where
  | settled {i' : PurchaseIntent} {events : List LedgerEvent}
      (hi : SettledIn host w w' i i') (he : Settling host w w' s i events) :
      Concluded w w' s i .settled i' events
  | declined {t : Int} {e : LedgerEvent} (ht : ReadIn host w w' t)
      (he : EventIn host w w' .holdReleased i.request.finalTotal
        (some i.id) e) :
      Concluded w w' s i .declined { i with
        lastError := some "provider_declined"
        state := .declined
        updatedAt := t } [e]
  | pending {reference : String} {t : Int} (ht : ReadIn host w w' t) :
      Concluded w w' s i .providerPending { i with
        providerReference := some reference
        state := .providerPending
        updatedAt := t } []
  | unknown {t : Int} (ht : ReadIn host w w' t) :
      Concluded w w' s i .unknown { i with
        lastError := some "provider_outcome_unknown"
        state := .unknown
        updatedAt := t } []

/-- The amount a refund is recorded with. -/
inductive RefundAmount (s : TreasuryState) (i : PurchaseIntent) :
    Money → Prop where
  | simulated {c : ProviderCharge} (hm : s.providerMode = .simulated)
      (hc : s.provider.charges.get? i.id = some c) : RefundAmount s i c.amount
  | manual (hm : s.providerMode = .manualPrepaidCard) :
      RefundAmount s i i.request.finalTotal

/-- The intent and the events of a reconciliation, by its outcome. -/
inductive Reconciled (w w' : World) (s : TreasuryState) (i : PurchaseIntent) :
    ReconciliationOutcome → PurchaseIntent → List LedgerEvent → Prop where
  | settled {i' : PurchaseIntent} {events : List LedgerEvent}
      (hu : isUncertain i.state = true) (hi : SettledIn host w w' i i')
      (he : Settling host w w' s i events) :
      Reconciled w w' s i .settled i' events
  | declined {t : Int} {e : LedgerEvent} (hu : isUncertain i.state = true)
      (ht : ReadIn host w w' t)
      (he : EventIn host w w' .holdReleased i.request.finalTotal
        (some i.id) e) :
      Reconciled w w' s i .declined
        { i with state := .declined, updatedAt := t } [e]
  | refunded {i' : PurchaseIntent} {events : List LedgerEvent} {t : Int}
      {amount : Money} {e : LedgerEvent} (hu : isUncertain i.state = true)
      (hi : SettledIn host w w' i i') (he : Settling host w w' s i events)
      (ht : ReadIn host w w' t) (ha : RefundAmount s i amount)
      (hr : EventIn host w w' .refund amount (some i.id) e) :
      Reconciled w w' s i .refunded
        { i' with state := .refunded, updatedAt := t } (events ++ [e])
  | refundedLater {t : Int} {amount : Money} {e : LedgerEvent}
      (hu : i.state = .settled) (ht : ReadIn host w w' t)
      (ha : RefundAmount s i amount)
      (hr : EventIn host w w' .refund amount (some i.id) e) :
      Reconciled w w' s i .refunded
        { i with state := .refunded, updatedAt := t } [e]

/-! ## Agents -/

/-- The changes of an agent's record. -/
inductive AgentEdit where
  | arm
  | rotate (token : String)
  | revoke
  | mode (mode : AutonomyMode)
  | approveMerchant (merchant : String)
  | stop

/-- When a session given between two worlds expires. -/
def SessionEnd (w w' : World) (ttl expiry : Int) : Prop :=
  (w.state.emergencyStop = true ∧ expiry = 0)
    ∨ (w.state.emergencyStop = false
      ∧ ∃ t, ReadIn host w w' t ∧ expiry = I64.wrappingAdd t ttl)

/-- How an edit changes an agent between two worlds. -/
inductive Edited (w w' : World) (r : AgentRecord) :
    AgentEdit → AgentRecord → Prop where
  | arm {p : Policy} {session : String} {t ttl : Int}
      (hstop : w.state.emergencyStop = false)
      (hp : w.state.policies.get? r.policyId = some p)
      (hlo : 0 < ttl) (hhi : ttl ≤ p.cardSessionTtlSecs)
      (ht : ReadIn host w w' t) (hid : DrawnIn host w w' "session" session) :
      Edited w w' r .arm { r with
        brokerSessionId := session
        brokerSessionExpiresAt := min (I64.wrappingAdd t ttl) r.expiresAt }
  | rotate {p : Policy} {token session : String} {t ttl expiry : Int}
      (hp : w.state.policies.get? r.policyId = some p)
      (htoken : validateCapabilityToken token = .ok ⟨⟩)
      (hlo : 0 < ttl) (hhi : ttl ≤ 24 * 60 * 60) (ht : ReadIn host w w' t)
      (he : SessionEnd host w w' (min ttl p.cardSessionTtlSecs) expiry)
      (hid : DrawnIn host w w' "session" session) :
      Edited w w' r (.rotate token) { r with
        capabilityTokenHash := tokenHash host token
        expiresAt := I64.wrappingAdd t ttl
        brokerSessionId := session
        brokerSessionExpiresAt := expiry
        revoked := false
        mode := .approvalRequired }
  | revoke : Edited w w' r .revoke { r with revoked := true, mode := .disabled }
  | mode {m : AutonomyMode} : Edited w w' r (.mode m) { r with mode := m }
  | approveMerchant {input merchant : String}
      (hm : canonicalizeDomain host input = .ok merchant)
      (hnew : r.approvedMerchants.contains merchant = false)
      (hsize : r.approvedMerchants.size < maxAgentApprovedMerchants) :
      Edited w w' r (.approveMerchant merchant)
        { r with approvedMerchants := r.approvedMerchants.insert merchant () }
  | stop {session : String}
      (hid : DrawnIn host w w' "stopped-session" session) :
      Edited w w' r .stop
        { r with brokerSessionId := session, brokerSessionExpiresAt := 0 }

/-- A new agent with its policy, made between two worlds. -/
structure NewAgent (w w' : World) (token : String) (p : Policy)
    (r : AgentRecord) : Prop where
  quota : w.state.agents.size < maxAgents
  exposure : validatePolicyExposure w.state p = .ok ⟨⟩
  policyValid : p.validate host = .ok ⟨⟩
  policyId : p.id = "policy_" ++ r.id
  policyVersion : p.version = 1
  id : DrawnIn host w w' "agent" r.id
  session : DrawnIn host w w' "session" r.brokerSessionId
  tokenValid : validateCapabilityToken token = .ok ⟨⟩
  tokenHash : r.capabilityTokenHash = tokenHash host token
  policyOf : r.policyId = p.id
  scopes : r.scopes = agentScopes
  merchants : r.approvedMerchants = SortedMap.empty
  notRevoked : r.revoked = false
  expiry : ∃ ttl k k', 0 < ttl ∧ ttl ≤ 24 * 60 * 60 ∧ w.tick ≤ k ∧ k ≤ k'
    ∧ k' < w'.tick ∧ r.expiresAt = I64.wrappingAdd (host.clock k') ttl
    ∧ ((w.state.emergencyStop = true ∧ r.brokerSessionExpiresAt = 0)
      ∨ (w.state.emergencyStop = false ∧ r.brokerSessionExpiresAt
        = I64.wrappingAdd (host.clock k) (min ttl p.cardSessionTtlSecs)))

/-! ## New intents and reservations -/

/-- A new intent decided and made between two worlds: it is for a request in
    normal form with a new idempotency key, and its decision knows whether
    the request was a duplicate at a reading before it was made. -/
structure NewIntent (w w' : World) (i : PurchaseIntent) : Prop where
  id : DrawnIn host w w' "intent" i.id
  normal : ∃ request, normalizeRequest host request = .ok i.request
  unbound : ∀ id j, w.state.intents.get? id = some j → j.agentId = i.agentId →
    j.request.idempotencyKey ≠ i.request.idempotencyKey
  quota : w.state.intents.size < maxIntents
  agentQuota : (w.state.intents.values.filter (fun j =>
    decide (j.agentId = i.agentId))).length < maxIntentsPerAgent
  agent : ∃ r p, w.state.agents.get? i.agentId = some r
    ∧ w.state.policies.get? r.policyId = some p
    ∧ i.brokerSessionId = r.brokerSessionId ∧ i.policyVersion = p.version
    ∧ ∃ used decision k w1 w2, Quiet w w1 ∧ w2.tick ≤ k
      ∧ (∃ m n, k ≤ m ∧ m ≤ n ∧ n < w'.tick ∧ i.createdAt = host.clock m
        ∧ i.updatedAt = host.clock n)
      ∧ decideRequest host w.state r p i.request used w1 = .ok decision w2
      ∧ i.decision = guardManual w.state (guardDuplicate
        (w.state.intents.values.any
          (isDuplicateOf i.agentId (host.clock k - 15 * 60) i.request))
        decision)
  state : i.state = stateOfDecision i.decision
  created : ReadIn host w w' i.createdAt
  updated : ReadIn host w w' i.updatedAt
  receipt : i.receipt = none
  receiptHash : i.receiptHash = none
  providerReference : i.providerReference = none

/-- The funds of an intent reserved between two worlds: what was checked of
    the intent, its agent and its policy, and the decision taken. -/
structure Reservable (w w' : World) (i : PurchaseIntent) (r : AgentRecord)
    (p : Policy) : Prop where
  capacity : moneyWorkflowCapacityAllows (nonEmergencyCount w.state.audit)
    (outstandingSlots w.state) 4 = true
  executable : i.state = .policyValidated ∨ i.state = .approved
  agent : w.state.agents.get? i.agentId = some r
  scope : r.scopes.contains "purchase_intents:execute" = true
  policy : w.state.policies.get? r.policyId = some p
  armed : ∃ t, ReadIn host w w' t ∧ t < r.brokerSessionExpiresAt
  session : i.brokerSessionId = r.brokerSessionId
  unexpired : ∃ t t', ReadIn host w w' t ∧ ReadIn host w w' t'
    ∧ t ≤ I64.wrappingAdd i.createdAt p.intentTtlSecs
    ∧ t' ≤ I64.wrappingAdd i.createdAt p.cardSessionTtlSecs
  decided : ∃ decision w1 w2, Quiet w w1 ∧ w2.tick ≤ w'.tick
    ∧ decideExecution host w.state i.agentId r p i w1 = .ok decision w2
    ∧ submittable i decision = true

/-- An intent that moves without a ledger event: it is approved, cancelled, or
    its outcome is unknown. -/
def movesTo (i : PurchaseIntent) (next : TransactionState) : Prop :=
  (i.state.canTransition next = true
      ∧ (next = .approved ∨ next = .cancelled ∨ next = .unknown))
    ∨ (i.state = .unknown ∧ next = .unknown)

/-! ## Deposits -/

/-- What a deposit does to the provider in force. -/
inductive Credited (w w' : World) (amount : Money) :
    Bool → TreasuryState → TreasuryState → Prop where
  | unverified {s : TreasuryState} : Credited w w' amount false s s
  | simulated {s : TreasuryState} {balance : Money}
      (hm : s.providerMode = .simulated)
      (hb : s.provider.balance.checkedAdd amount = .ok balance) :
      Credited w w' amount true s { s with provider := { s.provider with
        balance := balance
        incomingDeposits := s.provider.incomingDeposits ++ [amount] } }
  | manual {s : TreasuryState} {m : ManualPrepaidCardProvider}
      {snap : ManualBalanceSnapshot} {balance : Money} {t : Int}
      (hm : s.providerMode = .manualPrepaidCard)
      (hp : s.manualProvider = some m) (hs : m.balanceSnapshot = some snap)
      (hb : snap.amount.checkedAdd amount = .ok balance)
      (ht : ReadIn host w w' t) :
      Credited w w' amount true s { s with
        manualProvider := some (withBalance m { snap with
          amount := balance
          status := .ownerConfirmed
          observedAt := t }) }

/-- The events of a deposit: the income, and the authority it adds. -/
inductive DepositEvents (w w' : World) (amount reinvested : Money)
    (verified : Bool) : List LedgerEvent → Prop where
  | plain {e : LedgerEvent} (hz : reinvested.minor ≤ 0)
      (he : EventIn host w w' (incomeKind verified) amount none e) :
      DepositEvents w w' amount reinvested verified [e]
  | topUp {e e' : LedgerEvent} (hz : 0 < reinvested.minor)
      (he : EventIn host w w' (incomeKind verified) amount none e)
      (he' : EventIn host w w' .operatorTopUp reinvested none e') :
      DepositEvents w w' amount reinvested verified [e, e']

/-! ## The relation -/

/-- The kinds of changes of a world. -/
inductive Label where
  | quiet
  | audit (action : String)
  | addAgent (id token : String)
  | editAgent (id : String) (edit : AgentEdit)
  | setPolicy (agentId : String)
  | setStop (stopped : Bool)
  | addIntent (id : String)
  | reserve (id : String)
  | move (id : String) (next : TransactionState)
  | conclude (id : String) (next : TransactionState)
  | authorize (id : String)
  | reconcile (id : String) (outcome : ReconciliationOutcome)
  | deposit
  | configureReceive
  | configureManual
  | write
  | submit (id : String)

/-- **WHAT A STEP CAN DO**: one constructor for each kind of change, with the
    guards the code checked. -/
inductive Change : Label → World → World → Prop where
  | quiet {w w' : World} (h : Quiet w w') : Change .quiet w w'
  | audit {w w' : World} {action : String} {e : AuditEntry}
      (ha : Advance w w') (he : Entered host w w' w.state action e)
      (hs : w'.state = w.state.withEntry e) (hl : w'.log = w.log) :
      Change (.audit action) w w'
  | addAgent {w w' : World} {id token : String} {p : Policy} {r : AgentRecord}
      (ha : Advance w w') (hid : r.id = id) (hn : NewAgent host w w' token p r)
      (hs : w'.state = (w.state.withPolicy p.id p).withAgent id r)
      (hl : w'.log = w.log) : Change (.addAgent id token) w w'
  | editAgent {w w' : World} {id : String} {edit : AgentEdit}
      {r r' : AgentRecord} (ha : Advance w w')
      (hr : w.state.agents.get? id = some r) (he : Edited host w w' r edit r')
      (hs : w'.state = w.state.withAgent id r') (hl : w'.log = w.log) :
      Change (.editAgent id edit) w w'
  | setPolicy {w w' : World} {agentId : String} {r : AgentRecord}
      {current p : Policy} (ha : Advance w w')
      (hr : w.state.agents.get? agentId = some r)
      (hc : w.state.policies.get? r.policyId = some current)
      (hv : p.validate host = .ok ()) (hid : p.id = r.policyId)
      (hx : ∃ q : Policy, validatePolicyExposure w.state q = .ok ()
        ∧ p = { q with
            id := r.policyId
            version := (current.version + 1) % 18446744073709551616 })
      (hs : w'.state = w.state.withPolicy p.id p) (hl : w'.log = w.log) :
      Change (.setPolicy agentId) w w'
  | setStop {w w' : World} {stopped : Bool} (ha : Advance w w')
      (hs : w'.state = { w.state with emergencyStop := stopped })
      (hl : w'.log = w.log) : Change (.setStop stopped) w w'
  | addIntent {w w' : World} {i : PurchaseIntent} {e : AuditEntry}
      (ha : Advance w w') (hn : NewIntent host w w' i)
      (he : Entered host w w' w.state "create_purchase_intent" e)
      (hs : w'.state = (w.state.withEntry e).withIntent i.id i)
      (hl : w'.log = w.log ++ [.stored i]) : Change (.addIntent i.id) w w'
  | reserve {w w' : World} {i : PurchaseIntent} {r : AgentRecord} {p : Policy}
      {hold : LedgerEvent} {e : AuditEntry} {t : Int} (ha : Advance w w')
      (hi : w.state.intents.get? i.id = some i)
      (hr : Reservable host w w' i r p)
      (hh : EventIn host w w' .holdReserved i.request.finalTotal (some i.id)
        hold)
      (he : Entered host w w' (w.state.withEvents [hold]) "reserve_funds" e)
      (ht : ReadIn host w w' t)
      (hs : w'.state = ((w.state.withEvents [hold]).withEntry e).withIntent i.id
        { i with state := .executing, updatedAt := t })
      (hl : w'.log = w.log
        ++ [.stored { i with state := .executing, updatedAt := t }]) :
      Change (.reserve i.id) w w'
  | move {w w' : World} {i : PurchaseIntent} {next : TransactionState}
      {t : Int} {lastError : Option String} (ha : Advance w w')
      (hi : w.state.intents.get? i.id = some i) (hm : movesTo i next)
      (ht : t = i.updatedAt ∨ ReadIn host w w' t)
      (hs : w'.state = w.state.withIntent i.id
        { i with state := next, updatedAt := t, lastError := lastError })
      (hl : w'.log = w.log ++ [.stored
        { i with state := next, updatedAt := t, lastError := lastError }]) :
      Change (.move i.id next) w w'
  | conclude {w w' : World} {i i' : PurchaseIntent} {next : TransactionState}
      {events : List LedgerEvent} {e : AuditEntry} (ha : Advance w w')
      (hi : w.state.intents.get? i.id = some i) (hx : i.state = .executing)
      (hc : Concluded host w w' w.state i next i' events)
      (he : Entered host w w' (w.state.withEvents events) "provider_outcome" e)
      (hs : w'.state
        = ((w.state.withEvents events).withEntry e).withIntent i.id i')
      (hl : w'.log = w.log ++ [.stored i']) : Change (.conclude i.id next) w w'
  | authorize {w w' : World} {i : PurchaseIntent} {p' : SimulatedProvider}
      {move : ProviderMove} (ha : Advance w w') (hi : w.state.intents.get? i.id = some i)
      (hx : i.state = .executing) (hm : w.state.providerMode = .simulated)
      (hp : ProviderStep i move w.state.provider p')
      (hs : w'.state = { w.state with provider := p' }) (hl : w'.log = w.log)
      (ht : move = .hold ∨ move = .charge) :
      Change (.authorize i.id) w w'
  | reconcile {w w' : World} {i i' : PurchaseIntent}
      {outcome : ReconciliationOutcome} {s : TreasuryState}
      {events : List LedgerEvent} (ha : Advance w w')
      (hi : w.state.intents.get? i.id = some i)
      (hr : Reconciled host w w' w.state i outcome i' events)
      (hp : Effect host w w' i (armOf i.state outcome) w.state s)
      (hs : w'.state = (s.withEvents events).withIntent i.id i')
      (hl : w'.log = w.log ++ [.stored i']) :
      Change (.reconcile i.id outcome) w w'
  | deposit {w w' : World} {amount reinvested : Money} {verified : Bool}
      {agentId : Option String} {s : TreasuryState}
      {events : List LedgerEvent} {input fingerprint : String}
      (ha : Advance w w') (hpos : 0 < amount.minor)
      (hsh : depositShare w.state amount verified agentId = .ok reinvested)
      (hc : Credited host w w' amount verified w.state s)
      (he : DepositEvents host w w' amount reinvested verified events)
      (hnew : w.state.processedDeposits.get?
        (opaqueReference host "deposit" input) = none)
      (hs : w'.state = { s.withEvents events with
        processedDeposits := s.processedDeposits.insert
          (opaqueReference host "deposit" input) fingerprint })
      (hl : w'.log = w.log) : Change .deposit w w'
  | configureReceive {w w' : World} {instructions : ReceiveInstructions}
      (ha : Advance w w')
      (hs : w'.state
        = { w.state with receiveInstructions := some instructions })
      (hl : w'.log = w.log) : Change .configureReceive w w'
  | configureManual {w w' : World} {c : ManualProviderConfiguration} {t : Int}
      (ha : Advance w w') (hc : checkManualConfiguration host w.state c = .ok ())
      (ht : ReadIn host w w' t)
      (hs : w'.state = { w.state with
        providerMode := .manualPrepaidCard
        manualProvider := some (configuredProvider c t) })
      (hl : w'.log = w.log) : Change .configureManual w w'
  | writeKey {w w' : World} (ha : Advance w w') (hs : w'.state = w.state)
      (hk : (diskOf w.log).key = none)
      (hl : w'.log = w.log ++ [.keyWritten w.auditKey]) : Change .write w w'
  | writeState {w w' : World} (ha : Advance w w') (hs : w'.state = w.state)
      (hv : validateState host w.state = .ok ())
      (hc : verifyAuditChain host w.auditKey w.state = .ok ())
      (hl : w'.log = w.log
        ++ [.stateWritten (envelopeOf host w.auditKey w.state)]) :
      Change .write w w'
  | submit {w w' : World} {i : PurchaseIntent} (ha : Advance w w')
      (hs : w'.state = w.state) (hi : w.state.intents.get? i.id = some i)
      (hx : i.state = .executing) (hl : w'.log = w.log ++ [.submitted i.id]) :
      Change (.submit i.id) w w'

/-- A sequence of allowed changes and of giving up. -/
abbrev Path (allowed : Label → Prop) : World → World → Prop :=
  Transition.Reaches (Change host) World.restoreState allowed

end Treasury
