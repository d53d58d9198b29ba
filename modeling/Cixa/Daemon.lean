import Cixa.Admission
import Cixa.Handoff
import Cixa.Persist
import Cixa.Profiles

/-! # The daemon — two sockets, one treasury

    The broker listens on the owner's socket and on the agents'.  A connection
    carries ONE frame and is answered with one frame, and every connection is
    served by a thread of its own.  The threads share the treasury and the
    admission of capabilities, each behind a lock.

    A daemon is its treasury, its admission and its threads; a step is what
    one thread does under one lock.  The clocks a thread reads, the draws it
    makes, and what the file system, the helper and the checkout process answer
    it, are given with the step. -/

namespace Treasury

open CixaData CixaHost Checks Codec Admission

variable (host : Host) (serde : SerdeJson)

/-! ## The controlled checkout -/

/-- A browser that is told what to pay. -/
structure PlaywrightCheckoutTransport where
  adapterConfig : Doc

namespace PlaywrightCheckoutTransport

/-- The name of the browser's transport. -/
def transportId : String := "owner-controlled-playwright"

/-- Whether a field of the secret is missing or too long. -/
def outsideLimits (secret : CheckoutSecret) : Prop :=
  secret.pan.toList = [] ∨ Chars.byteLen secret.pan > 32
    ∨ secret.expiry.toList = [] ∨ Chars.byteLen secret.expiry > 16
    ∨ secret.cvv.toList = [] ∨ Chars.byteLen secret.cvv > 8
    ∨ secret.cardholder.any (fun value =>
      decide (value.toList = [] ∨ Chars.byteLen value > 128)) = true

instance (secret : CheckoutSecret) : Decidable (outsideLimits secret) := by
  unfold outsideLimits
  infer_instance

/-- What the checkout process is told. -/
def adapterInput (transport : PlaywrightCheckoutTransport)
    (request : PurchaseRequest) (secret : CheckoutSecret) : Doc :=
  .obj [("config", transport.adapterConfig),
    ("request", reread (Encode.request request)),
    ("secret", .obj [("pan", .str secret.pan), ("expiry", .str secret.expiry),
      ("cvv", .str secret.cvv),
      ("cardholder", secret.cardholder.elim .null .str)])]

/-- `process` is what running the checkout process on an input comes to:
    whether it succeeded, and its output. -/
def submit (transport : PlaywrightCheckoutTransport)
    (process : List UInt8 → Except TreasuryError (Bool × List UInt8))
    (request : PurchaseRequest) (secret : VolatileSecret) :
    Except TreasuryError ProviderOutcome := do
  let secret ← orRefuse (serde.checkoutSecret secret.bytes)
    (.invalid ("owner secret must be one strict JSON object for the controlled "
      ++ "checkout adapter"))
  refuseIf (outsideLimits secret)
    (.invalid "owner secret fields are missing or outside their size limits")
  let encoded := serde.write (transport.adapterInput request secret) ++ [10]
  refuseIf (encoded.length > 16384)
    (.invalid "checkout adapter request is too large")
  let (success, output) ← process encoded
  refuseIf (success = false)
    (.conflict ("controlled checkout adapter failed; payment outcome is "
      ++ "unknown"))
  refuseIf (serde.isProviderOutcome output = false)
    (.conflict ("controlled checkout adapter returned an invalid sanitized "
      ++ "outcome"))
  -- what the browser says is not evidence, whatever it says
  pure (.unknown ("browser output is not authenticated provider evidence; "
    ++ "owner reconciliation required"))

end PlaywrightCheckoutTransport

/-- Who a token is at a time. -/
def authenticateAt (s : TreasuryState) (at_ : Int) (token : String) :
    Except TreasuryError Actor := do
  refuseIf (token.toList = [] ∨ Chars.byteLen token > 128) .unauthorized
  if tokenHash host token = s.owner.capabilityTokenHash then pure .owner
  else do
    let record ← orRefuse (activeAgent s (tokenHash host token) at_)
      .unauthorized
    pure (.agent record.id)

/-- A grant for one operation, good for five minutes. -/
def ApprovedSecretOperation.new (at_ : Int)
    (operationId nonce intentId cardReference : String) :
    Except TreasuryError ApprovedSecretOperation := do
  bounded operationId "secret_operation_id" 128
  bounded intentId "intent_id" 128
  bounded cardReference "card_reference" 256
  pure ⟨operationId, intentId, cardReference, I64.wrappingAdd at_ 300, nonce,
    none, none, none⟩

/-- What a thread reads and what it is answered while it takes a step. -/
structure Readings where
  /-- The time in seconds. -/
  at_ : Int
  /-- The time in nanoseconds, of the clock that is never set. -/
  instant : Nat
  operationId : String
  nonce : String
  /-- The profiles directory, as it is listed. -/
  profiles : Except String (List (Except String ProfileEntry))
  /-- Whether a path is the owner's executable. -/
  executable : String → Except String Unit
  helperKey : Except String String
  helperId : Except String String
  brokerUid : UInt32
  /-- Whether the helper's socket is the owner's and private. -/
  helperSocket : Except TreasuryError Unit
  ask : ApprovedSecretOperation → HelperAnswer
  process : List UInt8 → Except TreasuryError (Bool × List UInt8)

/-- The grant of a controlled checkout. -/
def bindControlledSecretHelperOperation (s : TreasuryState) (r : Readings)
    (agentToken intentId : String) (helperKey : List UInt8)
    (helperId : String) : Except TreasuryError ApprovedSecretOperation := do
  let actor ← authenticateAt host s r.at_ agentToken
  let agentId ← requireAgentScope s actor "purchase_intents:execute"
  let provider ← orRefuse s.manualProvider
    (.conflict "manual provider is not configured")
  refuseIf (s.providerMode ≠ .manualPrepaidCard
      ∨ provider.outgoingSupported = false)
    (.forbidden "controlled card checkout is not enabled by the owner")
  let intent ← orRefuse (s.intents.get? intentId)
    (.notFound ("purchase intent " ++ intentId))
  refuseIf (intent.agentId ≠ agentId)
    (.forbidden "intent belongs to another agent")
  refuseIf (intent.state ∉ [.policyValidated, .approved])
    (.conflict "controlled checkout requires a policy-authorized intent")
  refuseIf (intent.request.paymentForm ≠ .hostedFields
      ∨ intent.request.redirectChain = [])
    (.forbidden ("controlled checkout requires a bound HTTPS checkout and "
      ++ "hosted payment fields"))
  let operation ← ApprovedSecretOperation.new r.at_ r.operationId r.nonce
    intentId provider.card.reference
  signForHelper host operation helperKey helperId r.brokerUid

/-- Where the runtime finds its helper. -/
structure ControlledCheckoutRuntime where
  helperSocket : String

namespace ControlledCheckoutRuntime

/-- An error as the runtime passes it on. -/
def worded {α : Type} : Except TreasuryError α → Except String α
  | .ok a => .ok a
  | .error e => .error e.toText

/-- The executor of a checkout, before the treasury is asked. -/
def prepare (runtime : ControlledCheckoutRuntime) (s : TreasuryState)
    (r : Readings) (agentToken intentId : String) :
    Except String (Handoff × HandoffAnswers) := do
  let intent ← orRefuse (s.intents.get? intentId)
    "purchase intent was not found"
  let expectedRequest := intent.request
  let config ← loadProfile serde r.profiles r.executable expectedRequest
  let timeoutMs ← orRefuse (profileNumber config "timeoutMs")
    "checkout profile requires an integer timeoutMs"
  refuseIf (¬(1000 ≤ timeoutMs ∧ timeoutMs ≤ 120000))
    "checkout profile timeoutMs must be within 1000..120000"
  let helperKey ← r.helperKey
  let helperId ← r.helperId
  let operation ← worded (bindControlledSecretHelperOperation host s r
    agentToken intentId (Chars.utf8Bytes helperKey) helperId)
  let manual ← orRefuse s.manualProvider "manual provider is not configured"
  let provider ← worded (OwnerControlledSecretHelperProvider.new
    runtime.helperSocket manual.card.reference operation r.helperSocket)
  let executor ← worded (SecureOwnerHandoffExecutor.new operation
    expectedRequest (.ownerControlledLocalHelper provider)
    PlaywrightCheckoutTransport.transportId)
  pure (⟨executor, []⟩, ⟨r.ask,
    PlaywrightCheckoutTransport.submit serde ⟨config⟩ r.process, .ok ⟨⟩⟩)

/-- Pay an intent of an agent: the answer, and the treasury after it. -/
def execute (runtime : ControlledCheckoutRuntime) (r : Readings)
    (agentToken intentId : String) (w : World) : Except String Json × World :=
  match runtime.prepare host serde w.state r agentToken intentId with
  | .error e => (.error e, w)
  | .ok (handoff, answers) =>
      match executeControlledCheckoutPersisted host agentToken intentId
        (handoff.asExecutor host answers) w with
      | .ok data w' => (.ok data, w')
      | .error e w' => (.error e.toText, w')

end ControlledCheckoutRuntime

/-! ## Frames -/

/-- The most bytes of a frame. -/
def maxFrameBytes : Nat := 262144

/-- The most connections of the agents' socket. -/
def maxConnections : Nat := 32

/-- The most connections of the owner's socket. -/
def maxOwnerConnections : Nat := 8

/-- A response to a request. -/
structure RpcResponse where
  apiVersion : String
  requestId : String
  ok : Bool
  data : Option Json
  error : Option String

/-- A response as it is written. -/
def Encode.rpcResponse (r : RpcResponse) : Json :=
  .obj [("api_version", .str r.apiVersion), ("request_id", .str r.requestId),
    ("ok", .bool r.ok), ("data", r.data.getD .null),
    ("error", Json.optStr r.error)]

namespace RpcResponse

/-- A response with data. -/
def success (requestId : String) (data : Json) : RpcResponse :=
  ⟨CixaData.apiVersion, requestId, true, some data, none⟩

/-- A response with an error. -/
def failure (requestId error : String) : RpcResponse :=
  ⟨CixaData.apiVersion, requestId, false, none, some error⟩

end RpcResponse

/-- The response to a request that is turned away. -/
def rejectedRpc (request : RpcRequest) (error : String) : RpcResponse :=
  .failure request.requestId error

/-- A frame's request, of the version the broker speaks. -/
def handleRpcPersisted (request : RpcRequest) (w : World) :
    RpcResponse × World :=
  if request.apiVersion ≠ apiVersion then
    (.failure request.requestId "unsupported api version", w)
  else match handlePersisted host request.token request.operation w with
    | .ok data w' => (.success request.requestId data, w')
    | .error e w' =>
        (.failure request.requestId (redactSensitive host e.toText), w')

/-- The bytes up to the first delimiter, which is one of them. -/
def readUntil (delimiter : UInt8) : List UInt8 → List UInt8
  | [] => []
  | b :: rest => if b = delimiter then [b] else b :: readUntil delimiter rest

/-- What is read of a stream as one frame. -/
def readFrame (bytes : List UInt8) : List UInt8 :=
  readUntil 10 (bytes.take (maxFrameBytes + 1))

/-- Whether a frame is one line within the limit. -/
def isFrame (frame : List UInt8) : Prop :=
  frame.length ≤ maxFrameBytes ∧ frame.getLast? = some 10

instance (frame : List UInt8) : Decidable (isFrame frame) := by
  unfold isFrame
  infer_instance

/-- The request of a frame. -/
def decodeFrame (frame : List UInt8) : Except String RpcRequest :=
  match serde.parse frame with
  | .error e => .error e
  | .ok d =>
      match readRpcRequest d with
      | .ok request => .ok request
      | .error e => .error (serde.explain frame e)

/-- The bytes of a response. -/
def writeResponse (r : RpcResponse) : List UInt8 :=
  let encoded := Json.render (Encode.rpcResponse r)
  let encoded := if encoded.length + 1 > maxFrameBytes
    then Json.render (Encode.rpcResponse
      (.failure "oversize" "response exceeds the broker frame limit"))
    else encoded
  encoded ++ [10]

/-! ## Threads -/

/-- How far a connection has come. -/
inductive Stage where
  /-- Its frame is to be read. -/
  | reading
  /-- Its request waits for the treasury: to be served, if it came on the
      owner's socket, and to be let through otherwise. -/
  | gating (request : RpcRequest)
  /-- The owner's request is served; the treasury is still locked. -/
  | updating (response : RpcResponse) (capabilities : List (String × Int))
  | asking (request : RpcRequest)
  | unknown (request : RpcRequest)
  | known (request : RpcRequest)
  /-- The channel is guarded. -/
  | halfway (request : RpcRequest)
  /-- The channel is guarded, and the capability was refused. -/
  | leaving (request : RpcRequest)
  /-- The channel and the capability are guarded. -/
  | admitted (request : RpcRequest)
  /-- The same, and the request is served. -/
  | served (request : RpcRequest) (response : RpcResponse)
  /-- The channel is still guarded. -/
  | parting (response : RpcResponse)
  | writing (response : RpcResponse)
  /-- The connection is over, with the line it was sent; with none where it
      could not be read, or the line not be written as a whole. -/
  | closed (sent : Option (List UInt8))

/-- A connection and the thread that serves it. -/
structure Thread where
  ownerChannel : Bool
  /-- Whether the peer is known to be another user than the broker. -/
  separate : Bool
  /-- What reading the connection gives. -/
  arrival : Except String (List UInt8)
  /-- What writing to the connection gives: it fails where the peer is gone, or
      does not read in time. -/
  departure : Except String Unit
  stage : Stage

/-- What the daemon is started with. -/
structure ServeContext where
  host : Host
  serde : SerdeJson
  admissionFingerprint : String → Fingerprint
  /-- Whether the agents' socket turns the broker's own user away. -/
  rejectBrokerUid : Bool
  checkoutRuntime : Option ControlledCheckoutRuntime

/-- The broker's process: its treasury, its locks and its threads. -/
structure Daemon where
  world : World
  admission : AgentAdmissionState
  /-- The thread that holds the treasury's lock from one step to the next. -/
  holder : Option Nat
  agentConnections : Nat
  ownerConnections : Nat
  threads : List Thread

/-! ## The steps of a thread -/

/-- The capabilities of the agents at a time. -/
def activeAgentCapabilities (s : TreasuryState) (at_ : Int) :
    List (String × Int) :=
  (s.agents.values.filter fun r => !r.revoked && decide (r.expiresAt > at_)).map
    fun r => (r.capabilityTokenHash, r.expiresAt)

/-- Whether a token is one of the known capabilities. -/
def isKnownCapability (a : AgentAdmissionState) (at_ : Int) (token : String) :
    Bool :=
  decide (Chars.byteLen token = 64)
    && token.toList.all Chars.isAsciiHexdigit
    && (a.knownCapabilities.get? (tokenHash host token)).any
      (fun expiresAt => decide (expiresAt > at_))

namespace Daemon

variable (ctx : ServeContext)

/-- A daemon whose thread has come to a stage. -/
def put (d : Daemon) (i : Nat) (stage : Stage) : Daemon :=
  { d with threads := d.threads.modify i fun t => { t with stage := stage } }

/-- The end of a connection. -/
def close (d : Daemon) (i : Nat) (t : Thread) (sent : Option (List UInt8)) :
    Daemon :=
  if t.ownerChannel = true then
    { d.put i (.closed sent) with ownerConnections := d.ownerConnections - 1 }
  else { d.put i (.closed sent) with agentConnections := d.agentConnections - 1 }

/-- What is sent of a line: all of it, unless writing it fails. -/
def delivered (departure : Except String Unit) (line : List UInt8) :
    Option (List UInt8) :=
  match departure with
  | .ok _ => some line
  | .error _ => none

/-- The fingerprint under which a token is admitted. -/
def fingerprint (token : String) : Fingerprint :=
  ctx.admissionFingerprint (tokenHash ctx.host token)

/-- The stage after a frame was read. -/
def readStage (bytes : List UInt8) : Stage :=
  let frame := readFrame bytes
  if ¬isFrame frame then .writing (.failure "oversize"
    "request is too large or missing its frame terminator")
  else match decodeFrame ctx.serde frame with
    | .error e => .writing (.failure "invalid"
        (redactSensitive ctx.host ("invalid request: " ++ e)))
    | .ok request => .gating request

/-- Serve the owner: the treasury stays locked until the capabilities are
    replaced. -/
def serveOwner (d : Daemon) (i : Nat) (r : Readings) (request : RpcRequest) :
    Daemon :=
  if tokenHash ctx.host request.token ≠ d.world.state.owner.capabilityTokenHash
  then d.put i (.writing (rejectedRpc request
    "owner control authentication failed"))
  else
    let answer := handleRpcPersisted ctx.host request d.world
    { d.put i (.updating answer.1
        (activeAgentCapabilities answer.2.state r.at_)) with
      world := answer.2
      holder := some i }

/-- The answer to an agent. -/
def serveAgent (w : World) (r : Readings) (request : RpcRequest) :
    RpcResponse × World :=
  match request.operation, controlledCheckoutEnabled w.state with
  | .executePurchaseIntent intentId, true =>
      match ctx.checkoutRuntime with
      | none => (.failure request.requestId (redactSensitive ctx.host
          "controlled checkout runtime is not configured"), w)
      | some runtime =>
          match runtime.execute ctx.host ctx.serde r request.token intentId
            w with
          | (.ok data, w') => (.success request.requestId data, w')
          | (.error e, w') =>
              (.failure request.requestId (redactSensitive ctx.host e), w')
  | _, _ => handleRpcPersisted ctx.host request w

/-- What follows the look at the known capabilities. -/
def askStage (d : Daemon) (r : Readings) (request : RpcRequest) : Stage :=
  if isKnownCapability ctx.host d.admission r.at_ request.token = true
  then .known request else .unknown request

/-- A request with an unknown capability is counted and turned away. -/
def admitUnauthenticated (d : Daemon) (i : Nat) (r : Readings)
    (request : RpcRequest) : Daemon :=
  let answer := d.admission.admitUnauthenticated r.instant
  { d.put i (.writing (rejectedRpc request (if answer.2 = true
      then "agent capability authentication failed"
      else "unauthenticated agent request limit exceeded"))) with
    admission := answer.1 }

/-- A request with a known capability asks for the socket. -/
def admitChannel (d : Daemon) (i : Nat) (r : Readings) (request : RpcRequest) :
    Daemon :=
  let answer := d.admission.admitChannel r.instant
  { d.put i (if answer.2 = true then .halfway request
      else .writing (rejectedRpc request "agent request limit exceeded")) with
    admission := answer.1 }

/-- A request that has the socket asks for its capability. -/
def admitCapability (d : Daemon) (i : Nat) (r : Readings)
    (request : RpcRequest) : Daemon :=
  let answer := d.admission.admitCapability r.instant
    (fingerprint ctx request.token)
  { d.put i (if answer.2 = true then .admitted request
      else .leaving request) with
    admission := answer.1 }

/-- One step of a thread; none while it waits for the treasury's lock, or once
    it is over. -/
def advance (d : Daemon) (i : Nat) (r : Readings) (t : Thread) :
    Option Daemon :=
  match t.stage with
  | .reading =>
      match t.arrival with
      | .error _ => some (d.close i t none)
      | .ok bytes => some (d.put i (readStage ctx bytes))
  | .gating request =>
      if d.holder.isSome = true then none
      else if t.ownerChannel = true then some (d.serveOwner ctx i r request)
      else if d.world.state.providerMode = .manualPrepaidCard
          ∧ t.separate = false then
        some (d.put i (.writing (rejectedRpc request
          "manual provider requires a separate agent OS identity")))
      else some (d.put i (.asking request))
  | .updating response capabilities =>
      let admission := d.admission.replaceKnownCapabilities
        ctx.admissionFingerprint capabilities
      some { d.put i (.writing response) with
        admission := admission
        holder := none }
  | .asking request => some (d.put i (d.askStage ctx r request))
  | .unknown request => some (d.admitUnauthenticated i r request)
  | .known request => some (d.admitChannel i r request)
  | .halfway request => some (d.admitCapability ctx i r request)
  | .leaving request =>
      some { d.put i (.writing (rejectedRpc request
          "agent request limit exceeded")) with
        admission := d.admission.dropChannel }
  | .admitted request =>
      if request.operation.requiresOwner = true then
        some (d.put i (.served request (rejectedRpc request
          "owner operations require the owner control socket")))
      else if d.holder.isSome = true then none
      else
        let answer := serveAgent ctx d.world r request
        some { d.put i (.served request answer.1) with world := answer.2 }
  | .served request response =>
      let admission := d.admission.dropCapability
        (fingerprint ctx request.token)
      some { d.put i (.parting response) with admission := admission }
  | .parting response =>
      some { d.put i (.writing response) with
        admission := d.admission.dropChannel }
  | .writing response =>
      some (d.close i t (delivered t.departure (writeResponse response)))
  | .closed _ => none

/-! ## The listeners -/

/-- The line that turns a connection away because of its user. -/
def identityLine : List UInt8 := Chars.utf8Bytes
  ("\x7b\"api_version\":\"v1\",\"request_id\":\"identity\",\"ok\":false,"
    ++ "\"data\":null,\"error\":\"manual provider requires a separate agent "
    ++ "OS identity\"\x7d\n")

/-- The line that turns a connection away because there are too many. -/
def busyLine : List UInt8 := Chars.utf8Bytes
  ("\x7b\"api_version\":\"v1\",\"request_id\":\"busy\",\"ok\":false,"
    ++ "\"data\":null,\"error\":\"broker is busy\"\x7d\n")

/-- A connection that is accepted, or turned away. -/
def accept (d : Daemon) (ownerChannel separate : Bool)
    (arrival : Except String (List UInt8)) (departure : Except String Unit) :
    Daemon :=
  let thread := Thread.mk ownerChannel separate arrival departure
  -- whether the line could be written is not asked
  let turnedAway := fun line => { d with
    threads := d.threads ++ [thread (.closed (delivered departure line))] }
  if ownerChannel = true then
    if d.ownerConnections ≥ maxOwnerConnections then turnedAway busyLine
    else { d with
      ownerConnections := d.ownerConnections + 1
      threads := d.threads ++ [thread .reading] }
  else if ctx.rejectBrokerUid = true ∧ separate = false then
    turnedAway identityLine
  else if d.agentConnections ≥ maxConnections then turnedAway busyLine
  else { d with
    agentConnections := d.agentConnections + 1
    threads := d.threads ++ [thread .reading] }

/-- What can happen next. -/
inductive Action where
  | accept (ownerChannel separate : Bool)
      (arrival : Except String (List UInt8)) (departure : Except String Unit)
  | advance (i : Nat) (r : Readings)

/-- One step of the daemon, if it can take it. -/
def step (d : Daemon) : Action → Option Daemon
  | .accept ownerChannel separate arrival departure =>
      some (d.accept ctx ownerChannel separate arrival departure)
  | .advance i r => d.threads[i]?.bind (d.advance ctx i r)

/-- The daemon that serves a treasury, once it is loaded. -/
def serve (w : World) (at_ : Int) (instant : Nat) : Daemon where
  world := w
  admission := .new (activeAgentCapabilities w.state at_) instant
  holder := none
  agentConnections := 0
  ownerConnections := 0
  threads := []

end Daemon

end Treasury
