import Cixa.Policy

/-! # Providers — the simulated issuer and the manual card

    The simulated provider keeps a balance, the holds of pending charges and
    the charges it accepted.  The manual provider never submits anything: it
    only carries a balance the owner entered, which is usable until it
    expires.  Whenever a provider is asked to submit, the log says so. -/

namespace CixaData

open Treasury CixaHost Outcome Checks

/-! ## The simulated provider -/

namespace SimulatedProvider

variable (host : Host)

/-- A provider with a balance and no charges. -/
def new (balance : Money) : SimulatedProvider where
  providerId := "simulated-local"
  balance := balance
  holds := SortedMap.empty
  charges := SortedMap.empty
  incomingDeposits := []

/-- The balance less every hold. -/
def availableBalance (p : SimulatedProvider) : Except TreasuryError Money := do
  let zero ← Money.zero p.balance.currency
  let reserved ← p.holds.values.foldlM Money.checkedAdd zero
  p.balance.checkedSub reserved

/-- Store the provider. -/
def put (p : SimulatedProvider) : Op Unit :=
  modifyState (fun s => { s with provider := p })

/-- The charge made for an intent. -/
def chargeFor (intent : PurchaseIntent) (amount : Money) (reference : String)
    (settled : Bool) : ProviderCharge where
  intentId := intent.id
  amount := amount
  providerReference := reference
  settled := settled
  refunded := false

/-- Charge an intent, as its scenario says. -/
def authorize (intent : PurchaseIntent) : Op ProviderOutcome := do
  let p := (← readState).provider
  match p.charges.get? intent.id with
  | some charge => pure (.approved charge.providerReference)
  | none =>
  if intent.request.scenario = .decline then
    pure (.declined "simulated issuer decline")
  else if intent.request.scenario = .timeoutBeforeSubmit then
    pure (.unknown "network failed before the broker observed submission")
  else do
    let available ← lift p.availableBalance
    if available.minor < intent.request.finalTotal.minor then
      pure (.declined "simulated provider balance is insufficient")
    else do
      let reference ← newId host "sim_charge"
      if intent.request.scenario = .delayedSettlement then do
        put { p with
          holds := p.holds.insert intent.id intent.request.finalTotal }
        pure (.pending reference)
      else do
        let balance ← lift (p.balance.checkedSub intent.request.finalTotal)
        put { p with
          balance := balance
          charges := p.charges.insert intent.id
            (chargeFor intent intent.request.finalTotal reference
              (decide (intent.request.scenario ≠ .timeoutAfterSubmit))) }
        if intent.request.scenario = .timeoutAfterSubmit
            ∨ intent.request.scenario = .browserCrash then
          pure (.unknown ("provider may have accepted the charge but the "
            ++ "result was lost"))
        else pure (.approved reference)

/-- Settle a charge that was pending. -/
def settlePending (intent : PurchaseIntent) : Op String := do
  let p := (← readState).provider
  let amount ← orReject (p.holds.get? intent.id) (.notFound "provider hold")
  put { p with holds := p.holds.erase intent.id }
  let balance ← lift (p.balance.checkedSub amount)
  let reference ← newId host "sim_charge"
  put { p with
    balance := balance
    holds := p.holds.erase intent.id
    charges := p.charges.insert intent.id
      (chargeFor intent amount reference true) }
  pure reference

/-- Take a settled charge back. -/
def refund (intentId : String) : Op Money := do
  let p := (← readState).provider
  let charge ← orReject (p.charges.get? intentId) (.notFound "provider charge")
  rejectIf (charge.refunded = true)
    (.conflict "provider charge was already refunded")
  let charges := p.charges.insert intentId { charge with refunded := true }
  put { p with charges := charges }
  let balance ← lift (p.balance.checkedAdd charge.amount)
  put { p with balance := balance, charges := charges }
  pure charge.amount

/-- Release what is held for an intent. -/
def releaseHold (intentId : String) : Op Unit := do
  let p := (← readState).provider
  put { p with holds := p.holds.erase intentId }

/-- Settle an intent that the owner found paid. -/
def reconcileSettled (intent : PurchaseIntent) (reference : String) :
    Op String := do
  let p := (← readState).provider
  if p.holds.contains intent.id = true then settlePending host intent
  else
    match p.charges.get? intent.id with
    | some charge => do
        put { p with
          charges := p.charges.insert intent.id { charge with settled := true } }
        pure charge.providerReference
    | none => do
        let available ← lift p.availableBalance
        rejectIf (available.minor < intent.request.finalTotal.minor)
          (.money ("provider balance is insufficient for reconciled "
            ++ "settlement"))
        let balance ← lift (p.balance.checkedSub intent.request.finalTotal)
        put { p with
          balance := balance
          charges := p.charges.insert intent.id
            (chargeFor intent intent.request.finalTotal reference true) }
        pure reference

end SimulatedProvider

/-! ## The manual card -/

namespace ManualPrepaidCardProvider

variable (host : Host)

/-- A card with no balance yet. -/
def new (card : SecretReference) : ManualPrepaidCardProvider where
  providerId := "manual-prepaid-card"
  card := card
  balanceSnapshot := none
  outgoingSupported := false

/-- The balance that can be spent, if it is fresh and not just estimated. -/
def availableBalance (p : ManualPrepaidCardProvider) : Op Money := do
  let snapshot ← orReject p.balanceSnapshot
    (.conflict "manual balance requires owner reconciliation")
  let at_ ← now host
  rejectIf (snapshot.expiresAt ≤ at_)
    (.conflict "manual balance snapshot has expired; owner refresh is required")
  rejectIf (snapshot.status = .estimated)
    (.conflict "estimated manual balances cannot authorize spending")
  pure snapshot.amount

/-- A card cannot be charged here. -/
def authorize : Op ProviderOutcome :=
  pure (.unknown ("manual card provider requires owner-controlled checkout "
    ++ "and reconciliation"))

end ManualPrepaidCardProvider

/-! ## Executors -/

/-- A checkout executor: a check of the stored request, and one submission
    with whatever outcome. -/
structure CheckoutExecutor where
  executorId : String
  validateOriginAndTotal : PurchaseRequest → Except TreasuryError Unit
  submitOnce : PurchaseIntent → Except TreasuryError ProviderOutcome

end CixaData
