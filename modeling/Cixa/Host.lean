import Cixa.Data
import Cixa.Outcome

/-! # The host — clock, randomness, libraries, and the broker's world

    Everything the broker takes from outside is a field of `Host`: the
    readings of the clock, the random bytes drawn, the hash functions, the
    URL and domain libraries, the bytes a state is serialized to and the
    faults of the file system.  A theorem that quantifies over every host
    quantifies over every behaviour of these.

    The `World` is what a running broker has: its state and key in memory,
    how often it read the clock, drew random bytes and saved, and the LOG of
    what it stored, wrote to disk and submitted.  The disk is a function of
    the log, so a crash is a log cut short. -/

namespace CixaHost

open CixaData

/-- A parsed URL. -/
structure Url where
  scheme : String
  username : String
  password : Option String
  host : Option String
  port : Option Nat
  path : String
  query : Option String
  fragment : Option String
  text : String
  deriving DecidableEq

/-- Where a save fails. -/
inductive SaveStage where
  | beforeKey
  | afterKey
  | beforeRename
  | afterRename
  deriving DecidableEq

/-- Where a save fails, and with which message. -/
structure SaveFault where
  stage : SaveStage
  message : String
  deriving DecidableEq

/-- What the broker takes from its environment. -/
structure Host where
  /-- The successive readings of the clock, in seconds. -/
  clock : Nat → Int
  clock_nonneg : ∀ n, 0 ≤ clock n
  clock_le : ∀ n, clock n ≤ 8210266876799
  /-- The successive draws of so many random bytes. -/
  random : Nat → Nat → List UInt8
  random_length : ∀ i n, (random i n).length = n
  sha256 : List UInt8 → List UInt8
  sha256_length : ∀ bytes, (sha256 bytes).length = 32
  hmacSha256 : List UInt8 → List UInt8 → List UInt8
  hmacSha256_length : ∀ key bytes, (hmacSha256 key bytes).length = 32
  domainToAscii : String → Option String
  parseUrl : String → Option Url
  setHost : Url → String → Option Url
  /-- The word characters of regular expressions. -/
  isWord : Char → Bool
  encodeState : TreasuryState → List UInt8
  saveFault : Nat → Option SaveFault

/-- What the broker does that can be seen afterwards. -/
inductive Event where
  | stored (intent : PurchaseIntent)
  | keyWritten (key : List UInt8)
  | stateWritten (envelope : PersistedEnvelope)
  | submitted (intentId : String)

/-- A running broker. -/
structure World where
  state : TreasuryState
  auditKey : List UInt8
  tick : Nat
  drawn : Nat
  saves : Nat
  log : List Event

/-- A broker operation: it may fail, and what it wrote before stays. -/
abbrev Op (α : Type) := EStateM TreasuryError World α

namespace World

/-- Give up what happened to the state, and keep the counters and the log. -/
def restoreState (base w : World) : World := { w with state := base.state }

end World

end CixaHost

/-! ## Clock, draws and writes -/

namespace Treasury

open CixaData CixaHost

variable (host : Host)

/-- The broker's clock. -/
def now : Op Int := do
  let w ← get
  set { w with tick := w.tick + 1 }
  pure (host.clock w.tick)

/-- Draw random bytes, as hexadecimal text. -/
def randomHex (bytes : Nat) : Op String := do
  let w ← get
  set { w with drawn := w.drawn + 1 }
  pure (Chars.hexEncode (host.random w.drawn bytes))

/-- The identifier made of the draw with index `i`. -/
def idOfDraw (kind : String) (i : Nat) : String :=
  kind ++ "_" ++ Chars.hexEncode (host.random i 12)

/-- Draw an identifier of a kind. -/
def newId (kind : String) : Op String := do
  let hex ← randomHex host 12
  pure (kind ++ "_" ++ hex)

/-- Draw a capability token. -/
def newToken : Op String := randomHex host 32

/-- Record what happened. -/
def record (e : Event) : Op Unit :=
  modify (fun w => { w with log := w.log ++ [e] })

/-- Change the state. -/
def modifyState (f : TreasuryState → TreasuryState) : Op Unit :=
  modify (fun w => { w with state := f w.state })

/-- Read the state. -/
def readState : Op TreasuryState := do
  let w ← get
  pure w.state

/-- Put the state back to a snapshot. -/
def setState (snapshot : TreasuryState) : Op Unit :=
  modifyState (fun _ => snapshot)

/-- Insert an intent under its id. -/
def storeIntent (id : String) (intent : PurchaseIntent) : Op Unit := do
  modifyState (fun s => { s with intents := s.intents.insert id intent })
  record (.stored intent)

end Treasury
