import Cixa.Host
import Cixa.Checks
import Cixa.IpAddr
import Cixa.Regex

/-! # Text rules — tokens, domains, URLs, references and redaction

    The pure text functions of the broker: the bounds on texts, the hash of a
    capability token, the canonical form of a merchant domain with its guard
    against local and non-public hosts, the checks of provider and credential
    references, and the redaction of card data. -/

namespace Treasury

open CixaData CixaHost Chars Checks

variable (host : Host)

/-! ## Bounds and tokens -/

/-- A text is not empty, has no control characters and is within a limit. -/
def bounded (value field : String) (max : Nat) : Except TreasuryError Unit := do
  refuseIf (value.toList = [] ∨ value.toList.length > max)
    (.invalid (field ++ " must contain 1.." ++ toString max ++ " characters"))
  refuseIf (value.toList.any isControl = true)
    (.invalid (field ++ " contains a control character"))

/-- A text is within a limit of bytes. -/
def boundedBytes (value field : String) (max : Nat) :
    Except TreasuryError Unit :=
  refuseIf (value.toList = [] ∨ byteLen value > max)
    (.invalid (field ++ " must contain 1.." ++ toString max ++ " bytes"))

/-- A token is sixty-four hexadecimal digits. -/
def validateCapabilityToken (token : String) : Except TreasuryError Unit :=
  refuseIf (byteLen token ≠ 64 ∨ token.toList.all isAsciiHexdigit = false)
    (.invalid ("prepared capability token must contain exactly 64 hexadecimal "
      ++ "characters"))

/-- The bytes that are hashed for a token. -/
def tokenBytes (token : String) : List UInt8 :=
  utf8Bytes "cixa capability token v1" ++ [0] ++ utf8Bytes token

/-- The hash that is stored of a token. -/
def tokenHash (token : String) : String :=
  hexEncode (host.sha256 (tokenBytes token))

/-- The keyed code of a document. -/
def hmacHash (key : List UInt8) (value : Json) : String :=
  hexEncode (host.hmacSha256 key value.render)

/-- The keyed code of some bytes. -/
def hmacBytes (key value : List UInt8) : String :=
  hexEncode (host.hmacSha256 key value)

/-- Whether bytes are equal, compared to the end. -/
def constantTimeEq (left right : List UInt8) : Bool :=
  if left.length ≠ right.length then false
  else (left.zip right).foldl (fun d p => d ||| (p.1 ^^^ p.2)) 0 == 0

theorem differences_zero {pairs : List (UInt8 × UInt8)} {d : UInt8} :
    pairs.foldl (fun d p => d ||| (p.1 ^^^ p.2)) d = 0
      ↔ d = 0 ∧ ∀ p ∈ pairs, p.1 = p.2 := by
  induction pairs generalizing d with
  | nil => simp
  | cons p rest ih =>
      rw [List.foldl_cons, ih, UInt8.or_eq_zero_iff, UInt8.xor_eq_zero_iff]
      simp [and_assoc]

/-- The comparison without branches is equality. -/
theorem constantTimeEq_iff {left right : List UInt8} :
    constantTimeEq left right = true ↔ left = right := by
  unfold constantTimeEq
  split
  · rename_i hlength
    exact ⟨nofun, fun h => absurd (congrArg List.length h) hlength⟩
  · rename_i hlength
    rw [beq_iff_eq, differences_zero]
    refine ⟨fun ⟨_, h⟩ => ?_, fun h => ⟨rfl, fun p hp => ?_⟩⟩
    · refine List.ext_getElem (not_not.mp hlength) fun n hn hn' => ?_
      have hzip : n < (left.zip right).length := by
        rw [List.length_zip]
        omega
      have hpair := h _ (List.getElem_mem hzip)
      rwa [List.getElem_zip] at hpair
    · subst h
      obtain ⟨n, hn, rfl⟩ := List.getElem_of_mem hp
      rw [List.getElem_zip]

/-! ## Hosts -/

/-- The address ranges that are not public. -/
def isNonPublicV4 (a b c : Nat) : Bool :=
  decide (a = 0) || decide (a = 10)
    || (decide (a = 100) && decide (64 ≤ b ∧ b ≤ 127))
    || decide (a = 127)
    || (decide (a = 169) && decide (b = 254))
    || (decide (a = 172) && decide (16 ≤ b ∧ b ≤ 31))
    || (decide (a = 192) && decide (b = 0) && decide (c = 0))
    || (decide (a = 192) && decide (b = 0) && decide (c = 2))
    || (decide (a = 192) && decide (b = 168))
    || (decide (a = 198) && decide (b = 18 ∨ b = 19))
    || (decide (a = 198) && decide (b = 51) && decide (c = 100))
    || (decide (a = 203) && decide (b = 0) && decide (c = 113))
    || decide (a ≥ 224)

/-- Whether an address is private, local, multicast or of a metadata service. -/
def isNonPublicIp : IpAddr → Bool
  | .v4 a b c _ => isNonPublicV4 a b c
  | .v6 segments =>
      match segments with
      | [0, 0, 0, 0, 0, 65535, hi, lo] =>
          -- an IPv4-mapped address is judged as the IPv4 address
          isNonPublicV4 (hi / 256) (hi % 256) (lo / 256)
      | _ =>
          let first := segments.getD 0 0
          decide (segments = [0, 0, 0, 0, 0, 0, 0, 1])
            || decide (segments = [0, 0, 0, 0, 0, 0, 0, 0])
            || decide (first / 256 = 255)
            || decide (first / 512 = 0xfc00 / 512)
            || decide (first / 64 = 0xfe80 / 64)
            || decide (first / 64 = 0xfec0 / 64)
            || decide (first = 0x2001 ∧ segments.getD 1 0 = 0x0db8)

/-- A resolved address must be public. -/
def validateResolvedIp (ip : IpAddr) : Except TreasuryError Unit :=
  refuseIf (isNonPublicIp ip = true)
    (.invalid ("private, loopback, link-local, multicast, and metadata IPs "
      ++ "are blocked"))

/-- An address literal must be public; a name is not checked here. -/
def checkAddress (ascii : String) : Except TreasuryError Unit :=
  match IpAddr.parse ascii with
  | some ip => validateResolvedIp ip
  | none => .ok ⟨⟩

/-- The checks a domain in ASCII form passes. -/
def checkAsciiDomain (ascii : String) : Except TreasuryError Unit := do
  refuseIf (ascii.toList = [] ∨ '/' ∈ ascii.toList ∨ '@' ∈ ascii.toList
      ∨ '?' ∈ ascii.toList ∨ '#' ∈ ascii.toList ∨ ascii = "localhost"
      ∨ endsWith ascii.toList ".localhost".toList = true)
    (.invalid "local or malformed domain is not allowed")
  checkAddress ascii
  refuseIf ((ascii.toList.splitOn '.').any (fun label =>
      label.isEmpty || label.head? == some '-' || label.getLast? == some '-')
        = true)
    (.invalid "invalid DNS label")

/-- The host text whose ASCII form is taken: the host of an HTTPS origin
    URL, or the input without trailing dots. -/
def domainCandidate (input : String) : Except TreasuryError String :=
  if containsText input.toList "://".toList = true then do
    let url ← orRefuse (host.parseUrl input) (.invalid "malformed URL")
    refuseIf (url.scheme ≠ "https" ∨ url.username ≠ "" ∨ url.password.isSome
        ∨ url.port.isSome ∨ url.query.isSome ∨ url.fragment.isSome
        ∨ (url.path ≠ "/" ∧ url.path ≠ ""))
      (.invalid ("merchant URLs must be HTTPS origin URLs without credentials, "
        ++ "ports, or paths"))
    orRefuse url.host (.invalid "URL has no host")
  else pure (String.ofList (trimEndMatches input.toList '.'))

/-- The canonical form of a domain, if its name is a public one. -/
def canonicalizeDomain (input : String) : Except TreasuryError String := do
  bounded input "domain" 320
  let candidate ← domainCandidate host input
  let encoded ← orRefuse (host.domainToAscii candidate)
    (.invalid "invalid internationalized domain")
  let ascii := String.ofList
    ((trimEndMatches encoded.toList '.').map toAsciiLowercase)
  checkAsciiDomain ascii
  pure ascii

/-- The host of an address without credentials or port, in canonical form. -/
def validateHttpsUrl (input : String) : Except TreasuryError String := do
  let url ← orRefuse (host.parseUrl input) (.invalid "malformed redirect URL")
  refuseIf (url.scheme ≠ "https" ∨ url.username ≠ "" ∨ url.password.isSome
      ∨ url.port.isSome)
    (.invalid ("redirects must be HTTPS without credentials or explicit "
      ++ "ports"))
  let name ← orRefuse url.host (.invalid "redirect has no host")
  canonicalizeDomain host name

/-- An address with its host in canonical form. -/
def normalizeHttpsUrl (input : String) : Except TreasuryError String := do
  let canonicalHost ← validateHttpsUrl host input
  let url ← orRefuse (host.parseUrl input) (.invalid "malformed redirect URL")
  let url ← orRefuse (host.setHost url canonicalHost)
    (.invalid "redirect host cannot be normalized")
  pure url.text

/-! ## Redaction -/

/-- A digit with an optional separator, twelve to eighteen times, then a
    digit, between word boundaries. -/
def panPattern : Regex :=
  .seq .boundary
    (.seq (.rep 12 18 (.seq (.char isAsciiDigit)
        (.rep 0 1 (.char (fun c => c == ' ' || c == '-')))))
      (.seq (.char isAsciiDigit) .boundary))

/-- A letter in either case; `s` also matches its long form. -/
def letter (l : Char) : Regex :=
  .char (fun c => toAsciiLowercase c == l
    || (l == 's' && c == Char.ofNat 0x17f))

/-- A word in either case. -/
def word (letters : List Char) : Regex :=
  match letters with
  | [] => .rep 0 0 .boundary
  | [l] => letter l
  | l :: rest => .seq (letter l) (word rest)

/-- An ASCII space. -/
def isSpace (c : Char) : Bool :=
  c == ' ' || (decide (9 ≤ c.toNat) && decide (c.toNat ≤ 13))

/-- A security code with the word before it. -/
def cvvPattern : Regex :=
  let two := Regex.rep 0 1 (.char (fun c => c == '2'))
  let spaces := Regex.star (.char isSpace)
  .seq .boundary
    (.seq (.group 1 (.alt (.seq (word "cvv".toList) two)
        (.alt (.seq (word "cvc".toList) two)
          (.seq (word "security".toList)
            (.seq (.rep 0 1 (.char (fun c => c == ' ' || c == '_' || c == '-')))
              (word "code".toList))))))
      (.seq (.group 2 (.seq spaces
          (.seq (.rep 0 1 (.char (fun c => c == ':' || c == '='))) spaces)))
        (.seq (.rep 3 4 (.char isAsciiDigit)) .boundary)))

/-- A text with its card numbers and security codes blacked out. -/
def redactSensitive (input : String) : String :=
  let withoutPan := Regex.replaceAll host.isWord panPattern
    (fun _ => "[REDACTED_PAN]".toList) input
  Regex.replaceAll host.isWord cvvPattern
    (fun c => c.groupText 1 ++ c.groupText 2 ++ "[REDACTED_CVV]".toList)
    withoutPan

mutual

/-- A document with all its texts redacted. -/
def redactJsonValue : Json → Json
  | .str s => .str (redactSensitive host s)
  | .arr items => .arr (redactJsonItems items)
  | .obj fields => .obj (redactJsonFields fields)
  | j => j

/-- The items of an array, redacted. -/
def redactJsonItems : List Json → List Json
  | [] => []
  | j :: rest => redactJsonValue j :: redactJsonItems rest

/-- The fields of an object, redacted. -/
def redactJsonFields : List (String × Json) → List (String × Json)
  | [] => []
  | (k, j) :: rest => (k, redactJsonValue j) :: redactJsonFields rest

end

/-! ## References -/

/-- A provider's reference as it may be stored. -/
def validateProviderReference (input : String) :
    Except TreasuryError String := do
  bounded input "provider_reference" 128
  refuseIf (redactSensitive host input ≠ input)
    (.invalid "provider reference appears to contain payment data")
  refuseIf (input.toList.all (fun c => isAsciiAlphanumeric c || c == '_'
      || c == '-' || c == '.') = false)
    (.invalid "provider reference contains unsupported characters")
  pure input

/-- The hexadecimal digest of a text, cut to a length. -/
def digestOf (bytes : List UInt8) (length : Nat) : String :=
  String.ofList ((hexEncode (host.sha256 bytes)).toList.take length)

/-- The reference, or an opaque one in its place. -/
def sanitizeProviderReference (input : String) : String :=
  match validateProviderReference host input with
  | .ok reference => reference
  | .error _ => "provider_ref_" ++ digestOf host (utf8Bytes input) 24

/-- A name that tells nothing of what it stands for. -/
def opaqueReference (kind input : String) : String :=
  kind ++ "_ref_" ++ digestOf host
    (utf8Bytes ("cixa " ++ kind ++ " reference v1") ++ [0] ++ utf8Bytes input) 32

/-- A reference to a secret that a known credential store of the system
    keeps. -/
def validateSecretReference (reference providerKind : String) :
    Except TreasuryError Unit := do
  bounded reference "credential_reference" 256
  bounded providerKind "provider_kind" 64
  refuseIf (providerKind ≠ "os-credential-store"
      ∧ providerKind ≠ "macos-keychain"
      ∧ providerKind ≠ "linux-secret-service"
      ∧ providerKind ≠ "windows-credential-manager")
    (.invalid ("provider_kind is not an approved operating-system credential "
      ++ "store"))
  refuseIf (redactSensitive host reference ≠ reference)
    (.invalid "credential_reference appears to contain payment data")
  let url ← orRefuse (host.parseUrl reference)
    (.invalid "credential_reference must be an opaque store URL")
  refuseIf ((url.scheme ≠ "keychain" ∧ url.scheme ≠ "secret-service"
        ∧ url.scheme ≠ "credential-manager"
        ∧ url.scheme ≠ "os-credential-store")
      ∨ url.username ≠ "" ∨ url.password.isSome ∨ url.query.isSome
      ∨ url.fragment.isSome ∨ url.host.isNone)
    (.invalid ("credential_reference must use an approved local "
      ++ "credential-store scheme"))

end Treasury
