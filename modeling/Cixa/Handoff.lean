import Cixa.Grants
import Cixa.Provider
import Cixa.Outcome

/-! # Handoffs — an executor that holds a card secret for one checkout

    A provider holds the secret of one approved operation and gives it away
    ONCE: from memory, or by asking the owner's helper.  The executor binds
    such a provider to the request that the owner approved.  It fetches the
    secret, hands it to the transport for one submission, and cleans up.

    What the transport, the helper and the file system answer is up to them:
    every call is given its own answers. -/

namespace Treasury

open CixaData CixaHost Outcome Checks

variable (host : Host)

/-! ## Secrets and their providers -/

/-- A secret in memory. -/
structure VolatileSecret where
  bytes : List UInt8
  deriving DecidableEq

/-- An operation gets the secret only for the grant and the card that it was
    made for. -/
def requireSecretBinding (expected actual : ApprovedSecretOperation)
    (reference : String) : Except TreasuryError Unit :=
  refuseIf (expected ≠ actual ∨ actual.cardReference ≠ reference)
    (.forbidden ("secret retrieval is not bound to this approved intent and "
      ++ "card reference"))

/-- A secret that is held in memory until it is taken. -/
structure HeldSecret where
  reference : String
  operation : ApprovedSecretOperation
  secret : Option VolatileSecret
  deriving DecidableEq

/-- Take a held secret for an operation. -/
def HeldSecret.fetch (consumed : String) (p : HeldSecret)
    (operation : ApprovedSecretOperation) :
    Except TreasuryError VolatileSecret × HeldSecret :=
  match requireSecretBinding p.operation operation p.reference with
  | .error e => (.error e, p)
  | .ok _ =>
      (orRefuse p.secret (.conflict consumed), { p with secret := none })

namespace InteractiveOwnerEntryProvider

/-- `reader n` is what reading at most `n` bytes gives. -/
def fromOwnerReader (reference : String) (operation : ApprovedSecretOperation)
    (reader : Nat → Except TreasuryError (List UInt8)) :
    Except TreasuryError HeldSecret := do
  refuseIf (operation.cardReference ≠ reference)
    (.forbidden ("interactive secret reference does not match the approved "
      ++ "operation"))
  let bytes ← reader 4097
  refuseIf (bytes = [] ∨ bytes.length > 4096)
    (.invalid "interactive owner secret must contain 1..4096 bytes")
  pure ⟨reference, operation, some ⟨bytes⟩⟩

/-- Take the secret out, once, for the operation it is held for. -/
def fetchForOwnerOperation (p : HeldSecret)
    (operation : ApprovedSecretOperation) :
    Except TreasuryError VolatileSecret × HeldSecret :=
  p.fetch "interactive owner secret was already consumed" operation

end InteractiveOwnerEntryProvider

namespace VolatileSessionSecretProvider

/-- Hold a secret for one operation. -/
def new (reference : String) (operation : ApprovedSecretOperation)
    (secret : VolatileSecret) : Except TreasuryError HeldSecret := do
  refuseIf (operation.cardReference ≠ reference ∨ secret.bytes = [])
    (.invalid ("volatile secret must be non-empty and bound to its card "
      ++ "reference"))
  pure ⟨reference, operation, some secret⟩

/-- The same of a secret that was entered by the owner. -/
def fetchForOwnerOperation (p : HeldSecret)
    (operation : ApprovedSecretOperation) :
    Except TreasuryError VolatileSecret × HeldSecret :=
  p.fetch "volatile session secret was already consumed" operation

end VolatileSessionSecretProvider

/-- A secret that the owner's helper holds. -/
structure OwnerControlledSecretHelperProvider where
  socketPath : String
  reference : String
  operation : ApprovedSecretOperation
  consumed : Bool
  deriving DecidableEq

/-- What the helper answers: nothing, or a length and then the bytes. -/
abbrev HelperAnswer :=
  Except TreasuryError (UInt32 × Except TreasuryError (List UInt8))

/-- The secret in an answer of the helper. -/
def readSecret (answer : HelperAnswer) :
    Except TreasuryError VolatileSecret := do
  let (length, rest) ← answer
  refuseIf (¬(1 ≤ length.toNat ∧ length.toNat ≤ 4096))
    (.invalid "owner secret-helper response length is invalid")
  let bytes ← rest
  pure ⟨bytes⟩

namespace OwnerControlledSecretHelperProvider

/-- `socket` says whether the socket is the owner's and private. -/
def new (socketPath reference : String) (operation : ApprovedSecretOperation)
    (socket : Except TreasuryError Unit) :
    Except TreasuryError OwnerControlledSecretHelperProvider := do
  refuseIf (operation.cardReference ≠ reference
      ∨ operation.helperMac.isNone = true)
    (.forbidden ("helper requires an authenticated grant bound to the approved "
      ++ "operation"))
  socket
  pure ⟨socketPath, reference, operation, false⟩

/-- Ask the helper for the secret of an operation. -/
def fetchForOwnerOperation (p : OwnerControlledSecretHelperProvider)
    (ask : ApprovedSecretOperation → HelperAnswer)
    (operation : ApprovedSecretOperation) :
    Except TreasuryError VolatileSecret
      × OwnerControlledSecretHelperProvider :=
  match requireSecretBinding p.operation operation p.reference with
  | .error e => (.error e, p)
  | .ok _ =>
      if p.consumed = true then
        (.error (.conflict "owner secret-helper operation was already consumed"),
          p)
      else (readSecret (ask operation), { p with consumed := true })

end OwnerControlledSecretHelperProvider

/-- Where the secret of a handoff comes from. -/
inductive SecretProvider where
  | interactiveOwnerEntry (p : HeldSecret)
  | volatileSession (p : HeldSecret)
  | ownerControlledLocalHelper (p : OwnerControlledSecretHelperProvider)
  deriving DecidableEq

namespace SecretProvider

/-- The card that a provider has the secret of. -/
def reference : SecretProvider → String
  | interactiveOwnerEntry p => p.reference
  | volatileSession p => p.reference
  | ownerControlledLocalHelper p => p.reference

/-- The operation a provider holds its secret for. -/
def operation : SecretProvider → ApprovedSecretOperation
  | interactiveOwnerEntry p => p.operation
  | volatileSession p => p.operation
  | ownerControlledLocalHelper p => p.operation

/-- Get the secret of an operation from whichever provider. -/
def fetchForOwnerOperation (ask : ApprovedSecretOperation → HelperAnswer)
    (operation : ApprovedSecretOperation) :
    SecretProvider → Except TreasuryError VolatileSecret × SecretProvider
  | interactiveOwnerEntry p =>
      (InteractiveOwnerEntryProvider.fetchForOwnerOperation p operation).map id
        .interactiveOwnerEntry
  | volatileSession p =>
      (VolatileSessionSecretProvider.fetchForOwnerOperation p operation).map id
        .volatileSession
  | ownerControlledLocalHelper p =>
      (p.fetchForOwnerOperation ask operation).map id
        .ownerControlledLocalHelper

end SecretProvider

/-! ## The executor -/

/-- The executor of one approved handoff. -/
structure SecureOwnerHandoffExecutor where
  operation : ApprovedSecretOperation
  expectedRequest : PurchaseRequest
  provider : SecretProvider
  transportId : String
  submitted : Bool

namespace SecureOwnerHandoffExecutor

/-- An executor for a grant, a purchase and a provider of the secret. -/
def new (operation : ApprovedSecretOperation)
    (expectedRequest : PurchaseRequest) (provider : SecretProvider)
    (transportId : String) :
    Except TreasuryError SecureOwnerHandoffExecutor := do
  refuseIf (operation.intentId.toList = []
      ∨ provider.reference ≠ operation.cardReference)
    (.forbidden "handoff provider is not bound to the approved operation")
  pure ⟨operation, expectedRequest, provider, transportId, false⟩

/-- The purchase must be the one that the executor was made for. -/
def validateOriginAndTotal (executor : SecureOwnerHandoffExecutor)
    (request : PurchaseRequest) : Except TreasuryError Unit :=
  refuseIf (request ≠ executor.expectedRequest)
    (.forbidden ("checkout origin or total differs from the owner-approved "
      ++ "request"))

end SecureOwnerHandoffExecutor

/-- What an executor does that others can see. -/
inductive HandoffEvent where
  | fetched (operation : ApprovedSecretOperation)
  | yielded (operation : ApprovedSecretOperation) (secret : VolatileSecret)
  | submitted (request : PurchaseRequest) (secret : VolatileSecret)
  | cleaned

/-- An executor and what it did so far. -/
structure Handoff where
  executor : SecureOwnerHandoffExecutor
  log : List HandoffEvent

/-- What the helper and the transport answer during one call. -/
structure HandoffAnswers where
  ask : ApprovedSecretOperation → HelperAnswer
  submit : PurchaseRequest → VolatileSecret →
    Except TreasuryError ProviderOutcome
  cleanup : Except TreasuryError Unit

/-- An operation on a handoff. -/
abbrev HandoffOp := EStateM TreasuryError Handoff

/-- Record what a handoff did. -/
def note (e : HandoffEvent) : HandoffOp Unit :=
  modify (fun h => { h with log := h.log ++ [e] })

/-- Fetch the secret from the provider of the executor. -/
def fetchSecret (ask : ApprovedSecretOperation → HelperAnswer) :
    HandoffOp VolatileSecret := do
  let h ← get
  let operation := h.executor.operation
  note (.fetched operation)
  let (secret, provider) :=
    h.executor.provider.fetchForOwnerOperation ask operation
  modify (fun h => { h with executor := { h.executor with
    provider := provider } })
  let secret ← lift secret
  note (.yielded operation secret)
  pure secret

/-- Hand the secret to the transport. -/
def submitSecret (answers : HandoffAnswers) (request : PurchaseRequest) :
    HandoffOp ProviderOutcome := do
  let secret ← fetchSecret answers.ask
  note (.submitted request secret)
  lift (answers.submit request secret)

/-- Submit a purchase once, with the secret. -/
def submitOnce (answers : HandoffAnswers) (intent : PurchaseIntent) :
    HandoffOp ProviderOutcome := do
  let h ← get
  rejectIf (h.executor.submitted = true
      ∨ intent.id ≠ h.executor.operation.intentId)
    (.conflict "checkout handoff is consumed or bound to another intent")
  lift (h.executor.validateOriginAndTotal intent.request)
  modify (fun h => { h with executor := { h.executor with submitted := true } })
  let outcome ← attempt (submitSecret answers intent.request)
  note .cleaned
  match outcome, answers.cleanup with
  | .ok outcome, .ok _ => pure outcome
  | .error error, _ => throw error
  | .ok _, .error error => throw (.conflict
      ("owner handoff cleanup failed; payment outcome is unknown: "
        ++ redactSensitive host error.toText))

/-- The executor as a broker uses it for one call. -/
def Handoff.asExecutor (h : Handoff) (answers : HandoffAnswers) :
    CheckoutExecutor where
  executorId := h.executor.transportId
  validateOriginAndTotal := h.executor.validateOriginAndTotal
  submitOnce := fun intent => result (submitOnce host answers intent) h

end Treasury
