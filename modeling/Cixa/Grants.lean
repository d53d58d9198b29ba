import Cixa.Text
import Cixa.SortedMap

/-! # Secret-helper grants — signing, the checks, and the redemption directory

    The owner's secret helper hands out a card secret for a signed GRANT.
    A grant names the intent, the card and a nonce; its code covers every
    field.  A redemption checks the grant and then creates a file that is
    named by the nonce, in a directory that all helpers share.

    Redemptions run concurrently: the checks, the creation of the file and
    its synchronisation are separate steps, and a process may die, or the
    machine lose what was not yet synchronised, between any two of them. -/

namespace Treasury

open CixaData CixaHost Chars Checks

/-! ## Grants -/

/-- An operation that the owner approved, with its signature. -/
structure ApprovedSecretOperation where
  operationId : String
  intentId : String
  cardReference : String
  expiresAt : Int
  nonce : String
  helperId : Option String
  brokerUid : Option UInt32
  helperMac : Option String
  deriving DecidableEq

variable (host : Host)

/-- What the signature covers. -/
def ApprovedSecretOperation.helperPayload (o : ApprovedSecretOperation) :
    Json :=
  Json.mkObj [("operation_id", .str o.operationId),
    ("intent_id", .str o.intentId),
    ("card_reference", .str o.cardReference),
    ("expires_at", .num o.expiresAt),
    ("nonce", .str o.nonce),
    ("helper_id", Json.optStr o.helperId),
    ("broker_uid", Json.optNum (o.brokerUid.map fun uid => (uid.toNat : Int)))]

/-- A grant that is addressed to a helper and a broker. -/
def ApprovedSecretOperation.addressed (o : ApprovedSecretOperation)
    (helperId : String) (brokerUid : UInt32) : ApprovedSecretOperation :=
  { o with helperId := some helperId, brokerUid := some brokerUid }

/-- Address a grant to a helper and a broker and sign it. -/
def signForHelper (o : ApprovedSecretOperation) (helperKey : List UInt8)
    (helperId : String) (brokerUid : UInt32) :
    Except TreasuryError ApprovedSecretOperation := do
  refuseIf (helperKey.length < 32)
    (.invalid "secret-helper signing key must contain at least 32 bytes")
  bounded helperId "secret_helper_id" 128
  let o := o.addressed helperId brokerUid
  pure { o with helperMac := some (hmacHash host helperKey o.helperPayload) }

/-! ## A redemption, step by step -/

/-- The arguments of `redeem_owner_helper_operation`. -/
structure Redemption where
  operation : ApprovedSecretOperation
  helperKey : List UInt8
  helperId : String
  peerUid : UInt32
  deriving DecidableEq

/-- The checks that come before the mark. -/
def authorizeRedemption (r : Redemption) (at_ : Int) :
    Except TreasuryError Unit := do
  refuseIf (r.helperKey.length < 32 ∨ r.operation.expiresAt ≤ at_
      ∨ r.operation.helperId ≠ some r.helperId
      ∨ r.operation.brokerUid ≠ some r.peerUid)
    (.forbidden "secret-helper grant is invalid or expired")
  let expected := hmacHash host r.helperKey r.operation.helperPayload
  let provided := r.operation.helperMac.getD ""
  refuseIf (constantTimeEq (utf8Bytes expected) (utf8Bytes provided) = false)
    (.forbidden "secret-helper grant authentication failed")

/-- The name of the file that marks a redemption. -/
def Redemption.markName (r : Redemption) : String :=
  opaqueReference host "helper_nonce" r.operation.nonce

/-- How far a redemption that passed its checks has come. -/
inductive RedemptionPhase where
  | checked
  | marked
  deriving DecidableEq

/-- The redemption directory with the calls that are on their way, whose
    stores all are the one directory. -/
structure HelperWorld where
  /-- The marks that the file system shows. -/
  files : List String
  /-- The marks that a loss of power leaves. -/
  durable : List String
  /-- The call of each process. -/
  calls : SortedMap Nat (Redemption × RedemptionPhase)
  /-- The codes that were ever issued, with their keys. -/
  issued : List (List UInt8 × String)
  /-- The calls that returned `Ok`, the latest first. -/
  accepted : List Redemption
  /-- The calls that returned an error, the latest first. -/
  rejected : List (Redemption × TreasuryError)

/-- What can happen next. -/
inductive HelperEvent where
  /-- Somebody signs a grant. -/
  | sign (operation : ApprovedSecretOperation) (helperKey : List UInt8)
      (helperId : String) (brokerUid : UInt32)
  /-- A process starts a call, which reads the clock and checks the grant. -/
  | start (process : Nat) (call : Redemption) (at_ : Int)
  /-- A process creates the mark, unless the file system fails. -/
  | mark (process : Nat) (fault : Option String)
  /-- A process writes and synchronises the mark, or fails to. -/
  | finish (process : Nat) (fault : Option String)
  /-- A process dies. -/
  | crash (process : Nat)
  /-- The machine loses power, and some marks that were not synchronised. -/
  | powerLoss (lost : List String)
  deriving DecidableEq

namespace HelperWorld

/-- An empty directory, before anything is signed. -/
def initial : HelperWorld := ⟨[], [], .empty, [], [], []⟩

/-- A call ends with an error. -/
def reject (w : HelperWorld) (process : Nat) (r : Redemption)
    (e : TreasuryError) : HelperWorld :=
  { w with
    calls := w.calls.erase process
    rejected := (r, e) :: w.rejected }

/-- A call ends well. -/
def accept (w : HelperWorld) (process : Nat) (r : Redemption)
    (name : String) : HelperWorld :=
  { w with
    calls := w.calls.erase process
    durable := name :: w.durable
    accepted := r :: w.accepted }

end HelperWorld

/-- The error of a second redemption. -/
def alreadyRedeemed : TreasuryError :=
  .conflict "secret-helper grant was already redeemed"

/-- A call that passes the checks goes on; one that does not is over. -/
def startCall (w : HelperWorld) (process : Nat) (r : Redemption) (at_ : Int) :
    HelperWorld :=
  match authorizeRedemption host r at_ with
  | .error e => w.reject process r e
  | .ok () => { w with calls := w.calls.insert process (r, .checked) }

/-- The creation of the mark, which fails when it is there. -/
def markCall (w : HelperWorld) (process : Nat) (r : Redemption) :
    Option String → HelperWorld
  | some message => w.reject process r (.io message)
  | none =>
      if r.markName host ∈ w.files then w.reject process r alreadyRedeemed
      else
        { w with
          files := r.markName host :: w.files
          calls := w.calls.insert process (r, .marked) }

/-- The synchronisation of a mark that was created. -/
def finishCall (w : HelperWorld) (process : Nat) (r : Redemption) :
    Option String → HelperWorld
  | some message => w.reject process r (.io message)
  | none => w.accept process r (r.markName host)

/-- What an event does.  An event of a process that is elsewhere does
    nothing. -/
def helperStep (w : HelperWorld) : HelperEvent → HelperWorld
  | .sign o key id uid =>
      match signForHelper host o key id uid with
      | .error _ => w
      | .ok signed =>
          { w with issued := (key, signed.helperMac.getD "") :: w.issued }
  | .start process r at_ =>
      match w.calls.get? process with
      | none => startCall host w process r at_
      | some _ => w
  | .mark process fault =>
      match w.calls.get? process with
      | some (r, .checked) => markCall host w process r fault
      | _ => w
  | .finish process fault =>
      match w.calls.get? process with
      | some (r, .marked) => finishCall host w process r fault
      | _ => w
  | .crash process => { w with calls := w.calls.erase process }
  | .powerLoss lost =>
      { w with
        calls := .empty
        files := w.files.filter fun name =>
          decide (name ∉ lost ∨ name ∈ w.durable) }

/-- **NO FORGERY**: who presents a code that is right under the helper's key,
    for whatever payload, has it from a signature with that key.  This is
    what an HMAC promises to a helper whose key is secret. -/
def Unforged (w : HelperWorld) (r : Redemption) : Prop :=
  ∀ mac, r.operation.helperMac = some mac →
    (∃ payload, hmacHash host r.helperKey payload = mac) →
    (r.helperKey, mac) ∈ w.issued

/-- The events that can happen in a world. -/
def Possible (w : HelperWorld) : HelperEvent → Prop
  | .start _ r _ => Unforged host w r
  | _ => True

/-- Any interleaving of signatures, redemptions and crashes. -/
inductive HelperRun : List HelperEvent → HelperWorld → Prop where
  | nil : HelperRun [] .initial
  | snoc {es : List HelperEvent} {w : HelperWorld} (e : HelperEvent) :
      HelperRun es w → Possible host w e → HelperRun (es ++ [e]) (helperStep host w e)

end Treasury
