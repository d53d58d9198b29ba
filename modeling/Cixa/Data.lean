import Cixa.Json
import Cixa.SortedMap
import Cixa.CheckedInt

/-! # The treasury's data — records, requests and errors

    The records of the broker under the source's names.  Machine integers are
    integers with explicit range checks where the code has them, the ordered
    maps and sets are sorted maps, and a set of texts is a sorted map to the
    unit type. -/

namespace CixaData

/-- An ordered set of texts. -/
abbrev StringSet := SortedMap String Unit

namespace StringSet

/-- The set of some texts. -/
def ofTexts (l : List String) : StringSet :=
  SortedMap.ofList (l.map (fun s => (s, ())))

end StringSet

/-! ## Quotas -/

/-- The most bytes of a purchase request as it is stored. -/
def maxPurchaseRequestBytes : Nat := 4096

/-- The most intents of a treasury. -/
def maxIntents : Nat := 10000

/-- The most intents of one agent. -/
def maxIntentsPerAgent : Nat := 2000

/-- The most audit entries, those about the emergency stop apart. -/
def maxAuditEntries : Nat := 100000

/-- The audit entries kept back for what concerns money on its way. -/
def auditSafetyReserve : Nat := 1024

/-- How many entries about the emergency stop there may be when it is lifted. -/
def emergencyAuditReserve : Nat := 256

/-- The most agents. -/
def maxAgents : Nat := 16

/-- The most bytes of a policy. -/
def maxPolicyBytes : Nat := 2048

/-- The most merchants approved for one agent. -/
def maxAgentApprovedMerchants : Nat := 8

/-- How many intents the dashboard shows. -/
def dashboardHistoryLimit : Nat := 10

/-- How many audit entries the dashboard shows. -/
def dashboardAuditLimit : Nat := 25

/-- The longest page. -/
def ownerPageLimit : Nat := 50

/-- The version of the broker's protocol. -/
def apiVersion : String := "v1"

/-! ## Errors -/

/-- Why an operation was refused. -/
inductive TreasuryError where
  | invalid (message : String)
  | unauthorized
  | forbidden (message : String)
  | notFound (message : String)
  | conflict (message : String)
  | money (message : String)
  | serialization (message : String)
  | io (message : String)
  deriving DecidableEq

/-- The displayed text of an error. -/
def TreasuryError.toText : TreasuryError → String
  | .invalid m => "invalid input: " ++ m
  | .unauthorized => "unauthorized"
  | .forbidden m => "forbidden: " ++ m
  | .notFound m => "not found: " ++ m
  | .conflict m => "conflict: " ++ m
  | .money m => "money error: " ++ m
  | .serialization m => "serialization error: " ++ m
  | .io m => "I/O error: " ++ m

/-! ## Money and policy -/

/-- An amount in minor units of a currency. -/
structure Money where
  minor : Int
  currency : String
  deriving DecidableEq

/-- What an agent may do on its own. -/
inductive AutonomyMode where
  | observe
  | approvalRequired
  | boundedAutonomous
  | disabled
  deriving DecidableEq

/-- Who controls the form that takes the payment. -/
inductive PaymentFormTrust where
  | hostedFields
  | ownerApprovedMerchant
  | merchantControlled
  deriving DecidableEq

/-- What the simulated merchant does. -/
inductive SimulatedScenario where
  | normal
  | decline
  | delayedSettlement
  | timeoutBeforeSubmit
  | timeoutAfterSubmit
  | duplicateFormSubmission
  | misleadingSuccessPage
  | promptInjection
  | amountChanged
  | currencyChanged
  | hiddenRecurring
  | cardSaving
  | tip
  | preauthorization
  | merchantControlledForm
  | redirectToOtherDomain
  | redirectToLocalhost
  | dnsRebindingLike
  | browserCrash
  deriving DecidableEq

/-- The limits that the owner sets an agent. -/
structure Policy where
  id : String
  version : Nat
  primaryCurrency : String
  maxPerTransaction : Money
  maxPerSession : Money
  maxRolling24h : Money
  maxLifetime : Money
  absoluteExposureCeiling : Money
  maxTreasurySize : Money
  reinvestmentRatioBps : Nat
  allowedCurrencies : StringSet
  allowedMerchants : StringSet
  deniedMerchants : StringSet
  approvedRedirectDomains : StringSet
  requireApprovalForNewMerchants : Bool
  approvedFulfillmentProfiles : StringSet
  allowRecurring : Bool
  allowTrials : Bool
  allowStoredCard : Bool
  allowTips : Bool
  allowPreauthorization : Bool
  allowInstallments : Bool
  deniedCategories : StringSet
  maxOrderTotalDriftMinor : Int
  maxAttempts : Nat
  maxTransactionsPerMinute : Nat
  maxRedirects : Nat
  intentTtlSecs : Int
  cardSessionTtlSecs : Int
  deriving DecidableEq

/-- A line of a purchase. -/
structure PurchaseItem where
  label : String
  quantity : Nat
  unitPriceMinor : Int
  deriving DecidableEq

/-- A purchase as an agent asks for it. -/
structure PurchaseRequest where
  idempotencyKey : String
  amount : Money
  finalTotal : Money
  merchantDomain : String
  category : String
  items : List PurchaseItem
  recurring : Bool
  trialAutoRenew : Bool
  storedCard : Bool
  tipMinor : Int
  preauthorization : Bool
  installments : Bool
  fulfillmentProfile : String
  paymentForm : PaymentFormTrust
  redirectChain : List String
  attempts : Nat
  sessionId : String
  scenario : SimulatedScenario
  deriving DecidableEq

/-- What a policy says of a purchase. -/
structure PolicyDecision where
  allowed : Bool
  requiresApproval : Bool
  reasons : List String
  policyVersion : Nat
  deriving DecidableEq

/-- What counts against the limits of an agent. -/
structure BudgetUsage where
  sessionAmount : Money
  rolling24hAmount : Money
  lifetimeAmount : Money
  reservedAmount : Money
  recentTransactionCount : Nat
  deriving DecidableEq

/-! ## Intents -/

/-- How far a purchase has come. -/
inductive TransactionState where
  | draft
  | proposed
  | policyValidated
  | approvalRequired
  | approved
  | fundsReserved
  | executing
  | providerPending
  | settled
  | declined
  | failed
  | unknown
  | cancelled
  | refunded
  | reconciliationRequired
  deriving DecidableEq

namespace TransactionState

/-- The transitions the state machine has. -/
def canTransition : TransactionState → TransactionState → Bool
  | draft, proposed => true
  | proposed, policyValidated => true
  | proposed, approvalRequired => true
  | proposed, failed => true
  | proposed, cancelled => true
  | policyValidated, fundsReserved => true
  | approvalRequired, approved => true
  | approvalRequired, cancelled => true
  | approved, fundsReserved => true
  | fundsReserved, executing => true
  | executing, providerPending => true
  | executing, settled => true
  | executing, declined => true
  | executing, failed => true
  | executing, unknown => true
  | providerPending, settled => true
  | providerPending, declined => true
  | providerPending, unknown => true
  | providerPending, reconciliationRequired => true
  | unknown, reconciliationRequired => true
  | reconciliationRequired, settled => true
  | reconciliationRequired, declined => true
  | unknown, settled => true
  | unknown, declined => true
  | settled, refunded => true
  | _, _ => false

/-- The name a state is debug-printed with. -/
def debugName : TransactionState → String
  | draft => "Draft"
  | proposed => "Proposed"
  | policyValidated => "PolicyValidated"
  | approvalRequired => "ApprovalRequired"
  | approved => "Approved"
  | fundsReserved => "FundsReserved"
  | executing => "Executing"
  | providerPending => "ProviderPending"
  | settled => "Settled"
  | declined => "Declined"
  | failed => "Failed"
  | unknown => "Unknown"
  | cancelled => "Cancelled"
  | refunded => "Refunded"
  | reconciliationRequired => "ReconciliationRequired"

/-- The states whose final total is held against the budget. -/
def isReserved : TransactionState → Bool
  | fundsReserved => true
  | executing => true
  | providerPending => true
  | unknown => true
  | reconciliationRequired => true
  | _ => false

end TransactionState

/-- What a settled purchase came to. -/
structure Receipt where
  intentId : String
  merchantDomain : String
  amount : Money
  status : TransactionState
  providerReference : Option String
  issuedAt : Int
  personalInformationRedacted : Bool
  deriving DecidableEq

/-- A purchase that was asked for, and what became of it. -/
structure PurchaseIntent where
  id : String
  agentId : String
  brokerSessionId : String
  request : PurchaseRequest
  state : TransactionState
  decision : PolicyDecision
  policyVersion : Nat
  createdAt : Int
  updatedAt : Int
  providerReference : Option String
  receiptHash : Option String
  receipt : Option Receipt
  lastError : Option String
  deriving DecidableEq

/-! ## The ledger -/

/-- What a booking is about. -/
inductive LedgerEventKind where
  | ownerCapital
  | incomeVerified
  | incomeUnverified
  | operatorTopUp
  | holdReserved
  | holdReleased
  | spendingSettled
  | reversal
  | refund
  | unknownCharge
  | reconciliation
  deriving DecidableEq

/-- A booking. -/
structure LedgerEvent where
  id : String
  «at» : Int
  kind : LedgerEventKind
  amount : Money
  intentId : Option String
  source : String
  verified : Bool
  deriving DecidableEq

/-- The sums of the ledger in one currency, and the authority that is left. -/
structure LedgerSnapshot where
  currency : String
  ownerCapital : Money
  verifiedIncome : Money
  unverifiedIncome : Money
  operatorTopups : Money
  settledSpending : Money
  refunds : Money
  reservedAmount : Money
  availableAuthority : Money
  deriving DecidableEq

/-- Where income is sent. -/
structure ReceiveInstructions where
  method : String
  address : String
  memoTemplate : String
  isPublic : Bool
  configuredAt : Int
  deriving DecidableEq

/-! ## Providers -/

/-- A charge of the simulated provider. -/
structure ProviderCharge where
  intentId : String
  amount : Money
  providerReference : String
  settled : Bool
  refunded : Bool
  deriving DecidableEq

/-- A provider that lives in the treasury's state. -/
structure SimulatedProvider where
  providerId : String
  balance : Money
  holds : SortedMap String Money
  charges : SortedMap String ProviderCharge
  incomingDeposits : List Money
  deriving DecidableEq

/-- What a provider says of a charge. -/
inductive ProviderOutcome where
  | approved (reference : String)
  | declined (reason : String)
  | pending (reference : String)
  | unknown (reason : String)
  deriving DecidableEq

/-- How well a balance is known. -/
inductive BalanceStatus where
  | estimated
  | ownerConfirmed
  | providerVerified
  deriving DecidableEq

/-- The balance of a card as the owner entered it. -/
structure ManualBalanceSnapshot where
  amount : Money
  status : BalanceStatus
  observedAt : Int
  source : String
  expiresAt : Int
  deriving DecidableEq

/-- Where the secret of a card is kept. -/
structure SecretReference where
  reference : String
  providerKind : String
  lastFour : Option String
  persistedSecret : Bool
  deriving DecidableEq

/-- A prepaid card that the owner keeps. -/
structure ManualPrepaidCardProvider where
  providerId : String
  card : SecretReference
  balanceSnapshot : Option ManualBalanceSnapshot
  outgoingSupported : Bool
  deriving DecidableEq

/-- A card as the owner configures it. -/
structure ManualProviderConfiguration where
  credentialReference : String
  providerKind : String
  lastFour : Option String
  balance : Money
  balanceStatus : BalanceStatus
  balanceTtlSecs : Int
  autonomousCheckout : Bool
  deriving DecidableEq

/-- Which of the two providers is in use. -/
inductive ProviderMode where
  | simulated
  | manualPrepaidCard
  deriving DecidableEq

/-! ## Principals, audit and the treasury state -/

/-- What the treasury knows of an agent. -/
structure AgentRecord where
  id : String
  name : String
  capabilityTokenHash : String
  scopes : StringSet
  policyId : String
  approvedMerchants : StringSet
  brokerSessionId : String
  brokerSessionExpiresAt : Int
  mode : AutonomyMode
  createdAt : Int
  expiresAt : Int
  revoked : Bool
  deriving DecidableEq

/-- What the treasury knows of its owner. -/
structure OwnerRecord where
  id : String
  name : String
  capabilityTokenHash : String
  createdAt : Int
  deriving DecidableEq

/-- An entry of the audit log. -/
structure AuditEntry where
  sequence : Nat
  «at» : Int
  actor : String
  action : String
  intentId : Option String
  policyVersion : Option Nat
  decision : Option String
  details : Json
  previousHash : String
  hash : String

/-- **THE STATE** of a treasury, all of which is saved. -/
structure TreasuryState where
  schemaVersion : Nat
  generation : Nat
  owner : OwnerRecord
  agents : SortedMap String AgentRecord
  policies : SortedMap String Policy
  intents : SortedMap String PurchaseIntent
  ledger : List LedgerEvent
  audit : List AuditEntry
  receiveInstructions : Option ReceiveInstructions
  emergencyStop : Bool
  provider : SimulatedProvider
  providerMode : ProviderMode
  manualProvider : Option ManualPrepaidCardProvider
  processedDeposits : SortedMap String String

/-- The state file: a state and its authentication code. -/
structure PersistedEnvelope where
  state : TreasuryState
  stateMac : String

/-- The principal a token authenticates as. -/
inductive Actor where
  | owner
  | agent (id : String)
  deriving DecidableEq

/-! ## Requests -/

/-- What the owner found out about a purchase. -/
inductive ReconciliationOutcome where
  | settled
  | declined
  | refunded
  deriving DecidableEq

/-- **THE REQUESTS** of the protocol. -/
inductive Request where
  | getStatus
  | getCapabilities
  | getBudget
  | getReceiveInstructions
  | ownerGetDashboard
  | createPurchaseIntent (request : PurchaseRequest)
  | getPurchaseIntent (intentId : String)
  | executePurchaseIntent (intentId : String)
  | cancelPurchaseIntent (intentId : String)
  | listTransactions
  | listTransactionsPage (cursor : Option String) (limit : Nat)
  | ownerListTransactionsPage (cursor : Option String) (limit : Nat)
  | getReceipt (intentId : String)
  | ownerCreateAgent (name : String) (policy : Policy) (mode : AutonomyMode)
      (ttlSecs : Int)
  | ownerCreateAgentPrepared (name : String) (policy : Policy)
      (mode : AutonomyMode) (ttlSecs : Int) (capabilityToken : String)
  | ownerUpdatePolicy (agentId : String) (policy : Policy)
  | ownerSetAgentMode (agentId : String) (mode : AutonomyMode)
  | ownerRevokeAgent (agentId : String)
  | ownerRotateAgentCapability (agentId : String) (ttlSecs : Int)
      (capabilityToken : String)
  | ownerSetEmergencyStop (stopped : Bool)
  | ownerApproveIntent (intentId : String)
  | ownerDenyIntent (intentId : String)
  | ownerBeginManualHandoff (intentId : String)
  | ownerCompleteManualHandoff (intentId : String)
  | ownerApproveMerchant (agentId : String) (merchantDomain : String)
  | ownerReconcile (intentId : String) (outcome : ReconciliationOutcome)
      (providerReference : Option String)
  | ownerRecordDeposit (amount : Money) (source : String) (verified : Bool)
      (agentId : Option String) (externalReference : String)
  | ownerArmAgentSession (agentId : String) (ttlSecs : Int)
  | ownerConfigureManualProvider (configuration : ManualProviderConfiguration)
  | ownerConfigureReceiveInstructions (method : String) (address : String)
      (memoTemplate : String)
  | ownerListAudit
  | ownerListAuditRecent
  | ownerListAuditPage (cursor : Option Nat) (limit : Nat)
  deriving DecidableEq

namespace Request

/-- Whether a request is the owner's alone. -/
def requiresOwner : Request → Bool
  | ownerCreateAgent .. => true
  | ownerUpdatePolicy .. => true
  | ownerCreateAgentPrepared .. => true
  | ownerSetAgentMode .. => true
  | ownerRevokeAgent .. => true
  | ownerRotateAgentCapability .. => true
  | ownerSetEmergencyStop .. => true
  | ownerApproveIntent .. => true
  | ownerDenyIntent .. => true
  | ownerBeginManualHandoff .. => true
  | ownerCompleteManualHandoff .. => true
  | ownerApproveMerchant .. => true
  | ownerReconcile .. => true
  | ownerRecordDeposit .. => true
  | ownerArmAgentSession .. => true
  | ownerConfigureManualProvider .. => true
  | ownerConfigureReceiveInstructions .. => true
  | ownerListAudit => true
  | ownerListAuditRecent => true
  | ownerListAuditPage .. => true
  | ownerListTransactionsPage .. => true
  | ownerGetDashboard => true
  | _ => false

/-- Whether a request only reads, so that nothing is saved after it. -/
def isReadOnly : Request → Bool
  | getStatus => true
  | getCapabilities => true
  | getBudget => true
  | getReceiveInstructions => true
  | ownerGetDashboard => true
  | getPurchaseIntent .. => true
  | listTransactions => true
  | listTransactionsPage .. => true
  | ownerListTransactionsPage .. => true
  | getReceipt .. => true
  | ownerListAudit => true
  | ownerListAuditRecent => true
  | ownerListAuditPage .. => true
  | _ => false

end Request

end CixaData
