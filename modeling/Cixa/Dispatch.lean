import Cixa.Views

/-! # Dispatch — authentication and the request handler

    A token authenticates as the owner if its hash is the owner's, else as
    the first agent with that hash that is neither revoked nor expired.
    `handle` runs one request for whoever the token is. -/

namespace Treasury

open CixaData CixaHost Outcome

variable (host : Host)

/-- Whether an agent's capability is the one hashed, at a time. -/
def isActiveCapability (hash : String) (at_ : Int) (record : AgentRecord) :
    Bool :=
  decide (record.capabilityTokenHash = hash ∧ record.revoked = false
    ∧ record.expiresAt > at_)

/-- The first agent whose capability is the one hashed. -/
def activeAgent (s : TreasuryState) (hash : String) (at_ : Int) :
    Option AgentRecord :=
  s.agents.values.find? (isActiveCapability hash at_)

/-- Who has a token: the owner, or an active agent. -/
def authenticate (token : String) : Op Actor := do
  let s ← readState
  rejectIf (token.toList = [] ∨ Chars.byteLen token > 128) .unauthorized
  if tokenHash host token = s.owner.capabilityTokenHash then pure .owner
  else do
    let at_ ← now host
    let record ← orReject (activeAgent s (tokenHash host token) at_)
      .unauthorized
    pure (.agent record.id)

/-- Run a request for an authenticated caller. -/
def dispatch (actor : Actor) : Request → Op Json
  | .getStatus => getStatus actor
  | .getCapabilities => getCapabilities actor
  | .getBudget => getBudget host actor
  | .getReceiveInstructions => getReceiveInstructions actor
  | .ownerGetDashboard => ownerGetDashboard host actor
  | .createPurchaseIntent request => createIntent host actor request
  | .getPurchaseIntent intentId => getIntent actor intentId
  | .executePurchaseIntent intentId => executeIntent host actor intentId
  | .cancelPurchaseIntent intentId => cancelIntent host actor intentId
  | .listTransactions => listTransactions actor
  | .listTransactionsPage cursor limit =>
      listTransactionsPage actor cursor limit
  | .ownerListTransactionsPage cursor limit =>
      ownerListTransactionsPage actor cursor limit
  | .getReceipt intentId => getReceipt host actor intentId
  | .ownerCreateAgent name p mode ttlSecs =>
      ownerCreateAgent host actor name p mode ttlSecs none
  | .ownerCreateAgentPrepared name p mode ttlSecs capabilityToken =>
      ownerCreateAgent host actor name p mode ttlSecs (some capabilityToken)
  | .ownerUpdatePolicy agentId p => ownerUpdatePolicy host actor agentId p
  | .ownerSetAgentMode agentId mode => ownerSetAgentMode host actor agentId mode
  | .ownerRevokeAgent agentId => ownerRevokeAgent host actor agentId
  | .ownerRotateAgentCapability agentId ttlSecs capabilityToken =>
      ownerRotateAgentCapability host actor agentId ttlSecs capabilityToken
  | .ownerSetEmergencyStop stopped => ownerEmergencyStop host actor stopped
  | .ownerApproveIntent intentId => ownerApprove host actor intentId
  | .ownerDenyIntent intentId => ownerDeny host actor intentId
  | .ownerBeginManualHandoff intentId =>
      ownerBeginManualHandoff host actor intentId
  | .ownerCompleteManualHandoff intentId =>
      ownerCompleteManualHandoff host actor intentId
  | .ownerApproveMerchant agentId merchantDomain =>
      ownerApproveMerchant host actor agentId merchantDomain
  | .ownerReconcile intentId outcome providerReference =>
      ownerReconcile host actor intentId outcome providerReference
  | .ownerRecordDeposit amount source verified agentId externalReference =>
      ownerRecordDeposit host actor amount source verified agentId
        externalReference
  | .ownerArmAgentSession agentId ttlSecs =>
      ownerArmAgentSession host actor agentId ttlSecs
  | .ownerConfigureManualProvider configuration =>
      ownerConfigureManualProvider host actor configuration
  | .ownerConfigureReceiveInstructions method address memoTemplate =>
      ownerConfigureReceive host actor method address memoTemplate
  | .ownerListAudit => ownerListAudit host actor
  | .ownerListAuditRecent => ownerListAuditRecent host actor
  | .ownerListAuditPage cursor limit =>
      ownerListAuditPage host actor cursor limit

/-- Serve a request in memory: `handle_rpc`. -/
def handle (token : String) (request : Request) : Op Json := do
  let actor ← authenticate host token
  dispatch host actor request

end Treasury
