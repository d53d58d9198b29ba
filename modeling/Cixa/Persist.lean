import Cixa.Dispatch

/-! # Persistence — the state file, saved requests and executors

    A save validates the state, authenticates it with the audit key and
    replaces the state file by a rename; it may fail before anything is
    written, after the key is written, or after the rename.  A persisted
    request saves before it returns and puts the state back if the save
    fails; a payment is saved as executing BEFORE it is submitted, and what
    fails after the submission is quarantined, never put back. -/

namespace Treasury

open CixaData CixaHost Outcome Checks

variable (host : Host)

/-! ## The disk -/

/-- The files of the data directory. -/
structure Disk where
  key : Option (List UInt8)
  envelope : Option PersistedEnvelope

namespace Disk

/-- A disk with nothing on it. -/
def empty : Disk := ⟨none, none⟩

/-- The disk after an event. -/
def after (d : Disk) : Event → Disk
  | .keyWritten key => { d with key := some key }
  | .stateWritten envelope => { d with envelope := some envelope }
  | .stored _ => d
  | .submitted _ => d

end Disk

/-- The disk a log leaves behind. -/
def diskOf (log : List Event) : Disk := log.foldl Disk.after Disk.empty

/-- The error of a save that failed. -/
def ioError (fault : Option SaveFault) : TreasuryError :=
  .io ((fault.map SaveFault.message).getD "")

/-- Whether a save fails at a stage. -/
def failsAt (fault : Option SaveFault) (stage : SaveStage) : Prop :=
  fault.map SaveFault.stage = some stage

instance (fault : Option SaveFault) (stage : SaveStage) :
    Decidable (failsAt fault stage) :=
  inferInstanceAs (Decidable (_ = _))

/-- The key file must hold the key in memory; a missing one is written. -/
def ensureKey : Op Unit := do
  let w ← get
  match (diskOf w.log).key with
  | some key =>
      rejectIf (constantTimeEq key w.auditKey = false)
        (.conflict "audit key does not match the in-memory treasury")
  | none => record (.keyWritten w.auditKey)

/-- The file that is written for a state. -/
def envelopeOf (key : List UInt8) (s : TreasuryState) : PersistedEnvelope where
  state := s
  stateMac := hmacBytes host key (host.encodeState s)

/-- Save the state and the key, or fail where the host's faults say. -/
def saveTo : Op Unit := do
  let w ← get
  let fault := host.saveFault w.saves
  -- each attempt has a number, by which the host names its fault
  modify (fun w => { w with saves := w.saves + 1 })
  rejectIf (failsAt fault .beforeKey) (ioError fault)
  ensureKey
  rejectIf (failsAt fault .afterKey) (ioError fault)
  -- what would not load again is not written
  lift (validateState host w.state)
  lift (verifyAuditChain host w.auditKey w.state)
  let _ ← randomHex host 12
  rejectIf (failsAt fault .beforeRename) (ioError fault)
  -- the rename: from here on the disk holds the new state
  record (.stateWritten (envelopeOf host w.auditKey w.state))
  rejectIf (failsAt fault .afterRename) (ioError fault)

/-- The state and the key that a disk holds. -/
def loadFrom (d : Disk) : Except TreasuryError (TreasuryState × List UInt8) := do
  let key ← orRefuse d.key (.io "audit key file is missing")
  refuseIf (key.length < 32) (.invalid "audit key is too short")
  let envelope ← orRefuse d.envelope (.io "state file is missing")
  refuseIf (constantTimeEq
      (Chars.utf8Bytes (hmacBytes host key (host.encodeState envelope.state)))
      (Chars.utf8Bytes envelope.stateMac) = false)
    (.conflict "persisted treasury state failed integrity verification")
  validateState host envelope.state
  verifyAuditChain host key envelope.state
  pure (envelope.state, key)

/-! ## Recovery -/

/-- The error of an intent that a restart interrupted. -/
def interrupted : String :=
  "broker restarted during provider submission; automatic retry is forbidden"

/-- Mark one interrupted intent as unknown. -/
def recoverIntent (id : String) : Op Unit := do
  let s ← readState
  let existing ← orReject (s.intents.get? id) (.notFound id)
  let intent ← transition host existing .unknown
  let intent := { intent with lastError := some interrupted }
  storeIntent id intent
  audit host "broker" "recover_interrupted_execution" (some id)
    (some intent.policyVersion) (some "unknown")
    (Json.mkObj [("retry", .bool false)])

/-- Leave interrupted intents unknown, one after another. -/
def recoverIntents : List String → Op Unit
  | [] => pure ()
  | id :: rest => do
      recoverIntent host id
      recoverIntents rest

/-- The ids of the intents that are executing. -/
def executingIds (s : TreasuryState) : List String :=
  (s.intents.values.filter (fun intent =>
    decide (intent.state = .executing))).map PurchaseIntent.id

/-- Leave every intent unknown that was executing when the broker went down. -/
def recoverInterruptedExecutions : Op Nat := do
  let s ← readState
  recoverIntents host (executingIds s)
  pure (executingIds s).length

/-! ## Persisted requests -/

/-- Save after a submission; quarantine first what failed. -/
def submitAndSave (intentId : String) (submission : Op Json) : Op Json := do
  let result ← attempt submission
  match result with
  | .ok value => do
      saveTo host
      pure value
  | .error error => do
      -- the payment may have been made, so it is not rolled back
      quarantineExecution host intentId error.toText
      saveTo host
      throw error

/-- Execute an intent with a save before the provider is asked and one after. -/
def executePersisted (token intentId : String) : Op Json := do
  let s ← readState
  rejectIf (s.providerMode = .manualPrepaidCard)
    (.forbidden ("manual prepaid-card execution requires the owner "
      ++ "begin-handoff workflow"))
  let actor ← authenticate host token
  -- the reservation is on disk before the provider is asked
  orRestore s (do
    prepareIntentExecution host actor intentId
    saveTo host)
  submitAndSave host intentId (completeIntentExecution host actor intentId)

/-- Whether a failed request left an audit entry worth saving. -/
def keepsRefusal (before after : TreasuryState) (error : TreasuryError) : Prop :=
  error = rateLimitExceeded ∧ after.generation > before.generation

instance (before after : TreasuryState) (error : TreasuryError) :
    Decidable (keepsRefusal before after error) :=
  inferInstanceAs (Decidable (_ ∧ _))

/-- Run a request and save the state if it may have changed. -/
def handleSaved (token : String) (request : Request) : Op Json := do
  let before ← readState
  let result ← attempt (handle host token request)
  match result with
  | .ok value =>
      if request.isReadOnly = true then pure value
      else do
        orRestore before (saveTo host)
        pure value
  | .error error => do
      let after ← readState
      -- a refusal for the rate has written its entry
      if keepsRefusal before after error then do
        orRestore before (saveTo host)
        throw error
      else do
        setState before
        throw error

/-- Serve a request and save: `handle_rpc_persisted`. -/
def handlePersisted (token : String) : Request → Op Json
  | .ownerCreateAgent .. => throw (.forbidden
      "persisted agent creation requires a caller-prepared capability")
  | .executePurchaseIntent intentId => executePersisted host token intentId
  | request => handleSaved host token request

/-! ## Executors -/

/-- Submit a prepared intent through an executor and record the outcome. -/
def submitThrough (executor : CheckoutExecutor) (agentId intentId : String)
    (executing : PurchaseIntent) : Op Json := do
  record (.submitted executing.id)
  let outcome ← lift (executor.submitOnce executing)
  applyProviderOutcome host agentId intentId outcome

/-- Prepare an intent, log who hands it over, save, and submit once. -/
def handOver (executor : CheckoutExecutor) (auditor action : String)
    (agentId intentId : String) : Op Json := do
  let s ← readState
  orRestore s (prepareIntentExecution host (.agent agentId) intentId)
  let prepared ← readState
  let executing ← orReject (prepared.intents.get? intentId)
    (.notFound ("purchase intent " ++ intentId))
  audit host auditor action (some intentId) (some executing.policyVersion)
    (some "submitted") (Json.mkObj
      [("executor_id", .str (redactSensitive host executor.executorId))])
  -- if this save fails the reservation stays in memory
  saveTo host
  submitAndSave host intentId
    (submitThrough host executor agentId intentId executing)

/-- Execute an intent through the controlled browser, for its agent. -/
def executeControlledCheckoutPersisted (agentToken intentId : String)
    (executor : CheckoutExecutor) : Op Json := do
  let s ← readState
  let actor ← authenticate host agentToken
  let agentId ← lift (requireAgentScope s actor "purchase_intents:execute")
  let _ ← orReject s.manualProvider manualNotConfigured
  rejectIf (controlledCheckoutEnabled s = false)
    (.forbidden "controlled card checkout is not enabled by the owner")
  let existing ← orReject (s.intents.get? intentId)
    (.notFound ("purchase intent " ++ intentId))
  rejectIf (existing.agentId ≠ agentId)
    (.forbidden "intent belongs to another agent")
  rejectIf (existing.state ∉ [.policyValidated, .approved])
    (.conflict "controlled checkout requires a policy-authorized intent")
  -- the executor was made for one origin and one total
  lift (executor.validateOriginAndTotal existing.request)
  handOver host executor agentId "controlled_checkout_handoff" agentId intentId

/-- Execute an approved intent through an executor, for the owner. -/
def ownerExecuteApprovedHandoffPersisted (ownerToken intentId : String)
    (executor : CheckoutExecutor) : Op Json := do
  let s ← readState
  let actor ← authenticate host ownerToken
  lift (requireOwner actor)
  rejectIf (s.providerMode ≠ .manualPrepaidCard)
    (.conflict ("owner handoff is available only for the manual prepaid-card "
      ++ "provider"))
  let existing ← orReject (s.intents.get? intentId)
    (.notFound ("purchase intent " ++ intentId))
  rejectIf (existing.state ≠ .approved)
    (.conflict "owner handoff requires an explicitly approved intent")
  lift (executor.validateOriginAndTotal existing.request)
  handOver host executor "owner" "owner_checkout_handoff" existing.agentId
    intentId

/-! ## The beginning -/

/-- The state of a treasury before its first ledger event. -/
def initialState (owner : OwnerRecord) (balance : Money) : TreasuryState where
  schemaVersion := 2
  generation := 0
  owner := owner
  agents := SortedMap.empty
  policies := SortedMap.ofList
    [(Policy.conservativeDemo.id, Policy.conservativeDemo)]
  intents := SortedMap.empty
  ledger := []
  audit := []
  receiveInstructions := none
  emergencyStop := false
  provider := SimulatedProvider.new balance
  providerMode := .simulated
  manualProvider := none
  processedDeposits := SortedMap.empty

/-- The owner's token: the first draw. -/
def bootstrapToken : String := Chars.hexEncode (host.random 0 32)

/-- The broker before its first ledger event: three draws and one clock
    reading made the owner and the audit key. -/
def initialWorld (ownerName : String) (balance : Money) : World where
  state := initialState
    ⟨idOfDraw host "owner" 1, ownerName, tokenHash host (bootstrapToken host),
      host.clock 0⟩ balance
  auditKey := host.random 2 32
  tick := 1
  drawn := 3
  saves := 0
  log := []

/-- The booking and the audit entry of a new treasury. -/
def bootstrapEvents (balance : Money) : Op Unit := do
  appendLedger host .ownerCapital balance none "bootstrap" true
  audit host "owner" "bootstrap" none none allowedBy
    (Json.mkObj [("provider", .str "simulated-local")])

/-- A new treasury and its owner's token. -/
def bootstrap (ownerName : String) (balance : Money) :
    Except TreasuryError (World × String) := do
  bounded ownerName "owner_name" 128
  refuseIf (balance.currency ≠ Policy.conservativeDemo.primaryCurrency
      ∨ balance.minor ≤ 0
      ∨ balance.minor > Policy.conservativeDemo.maxTreasurySize.minor)
    (.invalid "initial balance exceeds the conservative treasury policy")
  let _ ← result (bootstrapEvents host balance)
    (initialWorld host ownerName balance)
  pure (final (bootstrapEvents host balance)
    (initialWorld host ownerName balance), bootstrapToken host)

end Treasury
