import Cixa.Rpc

/-! # Checkout profiles — what the console saves and the broker finds

    The owner's console saves a checkout profile for a merchant as a file of
    its own.  The broker looks for the profile of a purchase by reading EVERY
    file of the directory, in whatever order the directory lists them; a file
    that it cannot read, or a second profile for the merchant, ends the
    search. -/

namespace Treasury

open CixaData Checks Codec

/-! ## The broker's search -/

/-- The fields of an owner's secret. -/
structure CheckoutSecret where
  pan : String
  expiry : String
  cvv : String
  cardholder : Option String
  deriving DecidableEq

/-- The JSON library, with the readers it derives. -/
structure SerdeJson where
  /-- The document of a text, or why it has none. -/
  parse : List UInt8 → Except String Doc
  /-- The text of a value. -/
  write : Doc → List UInt8
  /-- What is said of a text whose document is refused. -/
  explain : List UInt8 → FrameError → String
  checkoutSecret : List UInt8 → Option CheckoutSecret
  /-- Whether a text is a provider's outcome. -/
  isProviderOutcome : List UInt8 → Bool

/-- An entry of the directory. -/
structure ProfileEntry where
  path : String
  /-- Whether its extension is that of a profile. -/
  isJson : Bool
  /-- Whether it is a regular file at an absolute path. -/
  regular : Except String Unit
  contents : Except String (List UInt8)

/-- A profile as the broker reads it. -/
structure ControlledCheckoutProfile where
  profileVersion : Nat
  merchantDomain : String
  config : Doc

/-- The fields of a profile's file. -/
def profileNames : List String := ["profileVersion", "merchantDomain", "config"]

variable (serde : SerdeJson)

/-- A profile read from the text of a file. -/
def readProfile (bytes : List UInt8) :
    Except String ControlledCheckoutProfile := do
  let d ← serde.parse bytes
  let derived := serde.explain bytes .derived
  let fields ← orRefuse (recordFields profileNames d) derived
  let profileVersion ← orRefuse ((SortedMap.lookupEntry "profileVersion"
    fields).bind Read.u32.read) derived
  let merchantDomain ← orRefuse ((SortedMap.lookupEntry "merchantDomain"
    fields).bind Reader.text.read) derived
  let config ← orRefuse (SortedMap.lookupEntry "config" fields) derived
  pure ⟨profileVersion, merchantDomain, valueOf config⟩

/-- A profile of the directory. -/
def openProfile (e : ProfileEntry) :
    Except String ControlledCheckoutProfile := do
  e.regular
  let bytes ← e.contents
  refuseIf (bytes.length > 65536) "checkout profile exceeds 64 KiB"
  let profile ← readProfile serde bytes
  refuseIf (profile.profileVersion ≠ 1)
    "checkout profile version is unsupported"
  pure profile

/-- Go through the entries: `entries` profiles were read so far, and `matched`
    is the one of the merchant. -/
def searchProfiles (request : PurchaseRequest) :
    List (Except String ProfileEntry) → Nat → Option (String × Doc) →
      Except String (Option (String × Doc))
  | [], _, matched => .ok matched
  | .error e :: _, _, _ => .error e
  | .ok e :: rest, entries, matched =>
      if e.isJson = false then searchProfiles request rest entries matched
      else if entries + 1 > 64 then .error "checkout profile limit exceeded"
      else do
        let profile ← openProfile serde e
        if profile.merchantDomain = request.merchantDomain then
          refuseIf (matched.isSome = true)
            "multiple checkout profiles match the merchant"
          searchProfiles request rest (entries + 1)
            (some (e.path, profile.config))
        else
          searchProfiles request rest (entries + 1) matched

/-- The profile of a purchase: `directory` is what listing the directory
    gives, `browser` whether a path is the owner's executable. -/
def loadProfile (directory : Except String (List (Except String ProfileEntry)))
    (browser : String → Except String Unit) (request : PurchaseRequest) :
    Except String Doc := do
  let entries ← directory
  let matched ← searchProfiles serde request entries 0 none
  let (path, config) ← orRefuse matched
    ("no owner-approved checkout profile exists for " ++ request.merchantDomain)
  let checkoutUrl ← orRefuse request.redirectChain.head?
    "controlled checkout request has no checkout URL"
  match config with
  | .obj fields =>
      let object :=
        (SortedMap.ofList fields).insert "checkoutUrl" (.str checkoutUrl)
      match object.get? "browserExecutable" with
      | some (.str browserPath) => do
          browser browserPath
          pure (.obj object.entries)
      | _ => .error "checkout profile requires browserExecutable"
  | _ => .error ("checkout profile " ++ path ++ " config must be an object")

/-- The whole number under a name of a profile. -/
def profileNumber (config : Doc) (name : String) : Option Int :=
  match config with
  | .obj fields =>
      match SortedMap.lookupEntry name fields with
      | some (.whole n) => if 0 ≤ n ∧ n ≤ u64Max then some n else none
      | _ => none
  | _ => none

end Treasury

/-! ## The owner's console -/

namespace OwnerConsole

open Checks Codec Treasury

/-! ### Texts

    A text of the console's language is a row of code points, and one that
    was read from JSON can hold HALF OF A SURROGATE PAIR.  It writes such a
    half as it read it; the broker's library refuses it. -/

/-- A code point of a text. -/
inductive CodePoint where
  | scalar (c : Char)
  /-- One of the halves from U+D800 to U+DFFF. -/
  | surrogate (n : Fin 2048)
  deriving DecidableEq

/-- A text of the console's language. -/
abbrev Str := List CodePoint

/-- The number of a code point. -/
def ord : CodePoint → Nat
  | .scalar c => c.toNat
  | .surrogate n => 55296 + n.val

/-- The text of a literal. -/
def lit (s : String) : Str := s.toList.map CodePoint.scalar

/-- The scalar that two halves in their order stand for. -/
def combine (high low : Fin 2048) : Option Char :=
  if high.val < 1024 ∧ 1024 ≤ low.val then
    some (Char.ofNat (65536 + high.val * 1024 + (low.val - 1024)))
  else none

/-- What another JSON library reads where a text was written. -/
def charsOf : Str → Option (List Char)
  | [] => some []
  | .scalar c :: rest => (charsOf rest).map (c :: ·)
  | .surrogate high :: .surrogate low :: rest =>
      match combine high low with
      | some c => (charsOf rest).map (c :: ·)
      | none => none
  | .surrogate _ :: _ => none

/-- The text as a string of scalars, if it is one to another library. -/
def textOf (s : Str) : Option String := (charsOf s).map String.ofList

example : (textOf [.surrogate 61, .surrogate 1536]).map String.toList
    = some [Char.ofNat 128512] := by decide

example : textOf [.surrogate 1536, .surrogate 61] = none := by decide

/-- An ASCII character. -/
def asciiChar : CodePoint → Option Char
  | .scalar c => if c.toNat < 128 then some c else none
  | .surrogate _ => none

/-- A text that is all ASCII, as the console's patterns want it. -/
def asciiOf (s : Str) : Option String := (s.mapM asciiChar).map String.ofList

/-- A value of the console's language, as it reads it from JSON. -/
inductive Value where
  | null
  | bool (b : Bool)
  | int (n : Int)
  | float (text : Str)
  | str (s : Str)
  | list (items : List Value)
  /-- The items in the order in which they were added. -/
  | dict (items : List (Str × Value))

/-- The parts of an address. -/
structure SplitResult where
  scheme : Str
  hostname : Option Str
  username : Option Str
  password : Option Str
  port : Except String (Option Nat)
  path : Str
  query : Str
  fragment : Str

/-- The console's libraries. -/
structure Python where
  lower : Str → Str
  urlsplit : Str → Except String SplitResult
  /-- The compact text of a value, in ASCII. -/
  dumps : Value → List UInt8

variable (py : Python)

/-- A text that counts as true. -/
def truthy (s : Option Str) : Bool := s.any (fun s => !s.isEmpty)

/-- The origin of an address, if it is one without credentials. -/
def canonicalOrigin : Value → Except String Str
  | .str value => do
      refuseIf (¬(1 ≤ value.length ∧ value.length ≤ 2048))
        "checkout origin is invalid"
      let parsed ← py.urlsplit value
      let credentials := "checkout origins must be credential-free HTTPS URLs"
      refuseIf (parsed.scheme ≠ lit "https" ∨ truthy parsed.hostname = false
        ∨ truthy parsed.username = true ∨ truthy parsed.password = true)
        credentials
      let port ← parsed.port
      refuseIf (port ≠ none ∧ port ≠ some 443) credentials
      refuseIf (parsed.path ∉ [lit "", lit "/"] ∨ parsed.query ≠ lit ""
          ∨ parsed.fragment ≠ lit "")
        "checkout origin must not contain a path, query, or fragment"
      pure (lit "https://" ++ py.lower (parsed.hostname.getD (lit "")))
  | _ => .error "checkout origin is invalid"

/-- A lowercase letter or a digit. -/
def isLowerDigit (c : Char) : Bool := ('a' ≤ c && c ≤ 'z') || c.isDigit

/-- A letter or a digit, then at most 63 of these, underscores and hyphens. -/
def isProfileId (s : String) : Bool :=
  match s.toList with
  | [] => false
  | c :: rest => isLowerDigit c && decide (rest.length ≤ 63)
      && rest.all (fun c => isLowerDigit c || c == '_' || c == '-')

/-- A label of a domain: up to 63 letters, digits and hyphens, with none of
    these at the ends. -/
def isLabel (label : List Char) : Bool :=
  decide (1 ≤ label.length ∧ label.length ≤ 63)
    && label.all (fun c => isLowerDigit c || c == '-')
    && label.head?.any isLowerDigit && label.getLast?.any isLowerDigit

/-- A name of at most 253 characters whose labels end in one of letters. -/
def isDomain (s : String) : Bool :=
  let labels := s.toList.splitOn '.'
  let top := labels.getLast?.getD []
  decide (s.length ≤ 253 ∧ 2 ≤ labels.length ∧ 2 ≤ top.length
      ∧ top.length ≤ 63)
    && labels.dropLast.all isLabel && top.all (fun c => 'a' ≤ c && c ≤ 'z')

/-- The text as a profile's identifier, if it matches `PROFILE_ID`. -/
def profileIdOf (s : Str) : Option String := (asciiOf s).filter isProfileId

/-- The text as a domain, if it matches `DOMAIN`. -/
def domainOf (s : Str) : Option String := (asciiOf s).filter isDomain

/-- The fields of a request to save a profile. -/
def bodyNames : List String :=
  ["profile_id", "merchant_domain", "browser_executable",
    "allowed_navigation_origins", "allowed_processor_origins", "selectors",
    "timeout_ms"]

/-- The selectors that every profile has. -/
def requiredSelectors : List String :=
  ["finalTotal", "currency", "fulfillment", "items", "recurring",
    "trialAutoRenew", "storedCard", "tipMinor", "preauthorization",
    "installments", "paymentFrame", "pan", "expiry", "cvv", "submit"]

/-- Whether the keys of a dictionary are exactly these names. -/
def keysAre (names : List String) (items : List (Str × Value)) : Prop :=
  (∀ f ∈ items, f.1 ∈ names.map lit)
    ∧ ∀ name ∈ names, lit name ∈ items.map Prod.fst

instance (names : List String) (items : List (Str × Value)) :
    Decidable (keysAre names items) := by
  unfold keysAre
  infer_instance

/-- The value under a name. -/
def valueAt (body : List (Str × Value)) (name : String) : Option Value :=
  (body.find? fun f => decide (f.1 = lit name)).map Prod.snd

/-- The text under a name. -/
def textAt (body : List (Str × Value)) (name : String) : Option Str :=
  match valueAt body name with
  | some (.str s) => some s
  | _ => none

/-- The list under a name, of between one and sixteen items. -/
def listAt (body : List (Str × Value)) (name error : String) :
    Except String (List Value) :=
  match valueAt body name with
  | some (.list items) => do
      refuseIf (¬(1 ≤ items.length ∧ items.length ≤ 16)) error
      pure items
  | _ => .error error

/-- A selector and its text. -/
def readSelector : Str × Value → Except String (Str × Str)
  | (name, .str value) => do
      refuseIf (¬(1 ≤ value.length ∧ value.length ≤ 512)
          ∨ value.any (fun c => decide (ord c < 32)) = true)
        "checkout selector is invalid"
      pure (name, value)
  | _ => .error "checkout selector is invalid"

/-- The selectors of a request, all of them and no others. -/
def readSelectors (body : List (Str × Value)) :
    Except String (List (Str × Str)) :=
  match valueAt body "selectors" with
  | some (.dict selectors) => do
      refuseIf (¬keysAre requiredSelectors selectors
          ∧ ¬keysAre (requiredSelectors ++ ["cardholder"]) selectors)
        "checkout selectors are incomplete"
      selectors.mapM readSelector
  | _ => .error "checkout selectors are incomplete"

/-- The time limit of a request, between a second and two minutes. -/
def timeoutAt (body : List (Str × Value)) : Except String Int :=
  match valueAt body "timeout_ms" with
  | some (.int n) => do
      refuseIf (¬(1000 ≤ n ∧ n ≤ 120000)) "checkout timeout is invalid"
      pure n
  | _ => .error "checkout timeout is invalid"

/-- What a profile's file says. -/
structure SavedProfile where
  profileId : String
  merchantDomain : String
  browserExecutable : Str
  navigation : List Str
  processors : List Str
  selectors : List (Str × Str)
  timeoutMs : Int
  deriving DecidableEq

/-- The configuration in a profile's file. -/
def SavedProfile.config (p : SavedProfile) : Value :=
  .dict [(lit "browserExecutable", .str p.browserExecutable),
    (lit "checkoutUrl", .str (lit ("https://" ++ p.merchantDomain ++ "/"))),
    (lit "allowedNavigationOrigins", .list (p.navigation.map .str)),
    (lit "allowedProcessorOrigins", .list (p.processors.map .str)),
    (lit "selectors", .dict (p.selectors.map fun s => (s.1, .str s.2))),
    (lit "timeoutMs", .int p.timeoutMs)]

/-- The value that is written to a profile's file. -/
def SavedProfile.profile (p : SavedProfile) : Value :=
  .dict [(lit "profileVersion", .int 1),
    (lit "merchantDomain", .str (lit p.merchantDomain)),
    (lit "config", p.config)]

/-- The bytes of a profile's file. -/
def SavedProfile.payload (p : SavedProfile) : List UInt8 :=
  py.dumps p.profile ++ [10]

/-- The profile that a request to save describes: `executable` says whether a
    path is the owner's executable. -/
def checkProfile (executable : Str → Except String Unit)
    (body : List (Str × Value)) : Except String SavedProfile := do
  refuseIf (¬keysAre bodyNames body) "checkout profile fields are invalid"
  let profileId ← orRefuse ((textAt body "profile_id").bind profileIdOf)
    "profile identifier is invalid"
  let merchantDomain ← orRefuse ((textAt body "merchant_domain").bind
    fun given => domainOf (py.lower given)) "merchant domain is invalid"
  let browserExecutable ← orRefuse (textAt body "browser_executable")
    "browser executable must be an absolute path"
  refuseIf (browserExecutable.head? ≠ some (.scalar '/'))
    "browser executable must be an absolute path"
  executable browserExecutable
  let timeoutMs ← timeoutAt body
  let navigation ← listAt body "allowed_navigation_origins"
    "navigation origins are invalid"
  let processors ← listAt body "allowed_processor_origins"
    "processor origins are invalid"
  let navigation ← navigation.mapM (canonicalOrigin py)
  let processors ← processors.mapM (canonicalOrigin py)
  refuseIf (lit ("https://" ++ merchantDomain) ∉ navigation)
    "navigation origins must include the merchant origin"
  refuseIf (navigation.any (fun origin => processors.contains origin) = true)
    "processor and navigation origins must be disjoint"
  let selectors ← readSelectors body
  pure ⟨profileId, merchantDomain, browserExecutable, navigation, processors,
    selectors, timeoutMs⟩

/-- The profiles directory: what the file of each identifier says. -/
abbrev Directory := SortedMap String SavedProfile

/-- Where a write to the directory fails. -/
inductive DirectoryFault where
  | before (error : String)
  | after (error : String)
  deriving DecidableEq

/-- A request to the console, with what the file system does to it. -/
inductive Request where
  | save (body : List (Str × Value))
      (executable : Str → Except String Unit) (fault : Option DirectoryFault)
  | delete (body : List (Str × Value)) (fault : Option DirectoryFault)

/-- Save a profile: the file is replaced as a whole, or not at all. -/
def saveCheckoutProfile (body : List (Str × Value))
    (executable : Str → Except String Unit)
    (fault : Option DirectoryFault) (files : Directory) :
    Except String String × Directory :=
  match checkProfile py executable body with
  | .error e => (.error e, files)
  | .ok p =>
      match fault with
      | some (.before error) => (.error error, files)
      | some (.after error) => (.error error, files.insert p.profileId p)
      | none => (.ok p.profileId, files.insert p.profileId p)

/-- Delete a profile's file, if there is one. -/
def deleteCheckoutProfile (body : List (Str × Value))
    (fault : Option DirectoryFault) (files : Directory) :
    Except String String × Directory :=
  if ¬keysAre ["profile_id"] body then
    (.error "checkout profile delete fields are invalid", files)
  else match (textAt body "profile_id").bind profileIdOf with
    | none => (.error "profile identifier is invalid", files)
    | some profileId =>
        if files.contains profileId = false then
          (.error "No such file or directory", files)
        else match fault with
          | some (.before error) => (.error error, files)
          | some (.after error) => (.error error, files.erase profileId)
          | none => (.ok profileId, files.erase profileId)

/-- The directory after a request. -/
def Request.perform (files : Directory) : Request → Directory
  | .save body executable fault =>
      (saveCheckoutProfile py body executable fault files).2
  | .delete body fault => (deleteCheckoutProfile body fault files).2

end OwnerConsole
