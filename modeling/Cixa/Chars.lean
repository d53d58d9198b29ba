import Mathlib.Data.List.Basic
import Mathlib.Data.String.Basic

/-! # Characters and bytes — text predicates over character lists

    The standard text operations of the source language (byte lengths, ASCII
    classes, trimming, splitting, searching) and lowercase hexadecimal
    encoding, each a function on the characters of a string so that it
    evaluates.

    Hexadecimal encoding doubles the length and is INJECTIVE: two byte
    strings with one encoding are equal. -/

namespace Chars

/-- The UTF-8 bytes of a text. -/
def utf8Bytes (s : String) : List UInt8 := s.toByteArray.data.toList

/-- The number of UTF-8 bytes of a text. -/
def byteLen (s : String) : Nat := (utf8Bytes s).length

theorem utf8Bytes_ofList (cs : List Char) :
    utf8Bytes (String.ofList cs) = cs.flatMap String.utf8EncodeChar := by
  unfold utf8Bytes
  rw [String.toByteArray_ofList]
  exact List.toList_data_toByteArray

theorem utf8Bytes_append (a b : String) :
    utf8Bytes (a ++ b) = utf8Bytes a ++ utf8Bytes b := by
  conv_lhs => rw [← String.ofList_toList (s := a), ← String.ofList_toList (s := b)]
  conv_rhs => rw [← String.ofList_toList (s := a), ← String.ofList_toList (s := b)]
  rw [← String.ofList_append, utf8Bytes_ofList, utf8Bytes_ofList,
    utf8Bytes_ofList, List.flatMap_append]

/-- Equal bytes are equal texts. -/
theorem utf8Bytes_inj {a b : String} (h : utf8Bytes a = utf8Bytes b) :
    a = b := by
  apply String.toByteArray_inj.mp
  exact ByteArray.ext (Array.toList_inj.mp h)

/-- Texts of one-byte characters have as many bytes as characters. -/
theorem byteLen_ofList {cs : List Char} (h : ∀ c ∈ cs, c.utf8Size = 1) :
    byteLen (String.ofList cs) = cs.length := by
  unfold byteLen
  rw [utf8Bytes_ofList]
  induction cs with
  | nil => rfl
  | cons c cs ih =>
      rw [List.flatMap_cons, List.length_append, String.length_utf8EncodeChar,
        h c (List.mem_cons_self ..),
        ih (fun d hd => h d (List.mem_cons_of_mem _ hd)), List.length_cons]
      omega

/-! ## Character classes -/

/-- The control characters: general category Cc. -/
def isControl (c : Char) : Bool :=
  decide (c.val < 0x20) || (decide (0x7f ≤ c.val) && decide (c.val ≤ 0x9f))

/-- A digit from 0 to 9. -/
def isAsciiDigit (c : Char) : Bool := decide ('0' ≤ c) && decide (c ≤ '9')

/-- A letter from A to Z. -/
def isAsciiUppercase (c : Char) : Bool := decide ('A' ≤ c) && decide (c ≤ 'Z')

/-- A letter from a to z. -/
def isAsciiLowercase (c : Char) : Bool := decide ('a' ≤ c) && decide (c ≤ 'z')

/-- A letter or a digit. -/
def isAsciiAlphanumeric (c : Char) : Bool :=
  isAsciiDigit c || isAsciiUppercase c || isAsciiLowercase c

/-- A digit of a hexadecimal number, in either case. -/
def isAsciiHexdigit (c : Char) : Bool :=
  isAsciiDigit c || (decide ('A' ≤ c) && decide (c ≤ 'F'))
    || (decide ('a' ≤ c) && decide (c ≤ 'f'))

/-- A letter from A to Z in lower case; another character as it is. -/
def toAsciiLowercase (c : Char) : Char :=
  if isAsciiUppercase c then Char.ofNat (c.toNat + 32) else c

/-! ## Searching and splitting -/

/-- Remove every trailing occurrence of a character. -/
def trimEndMatches (cs : List Char) (p : Char) : List Char :=
  (cs.reverse.dropWhile (fun c => c == p)).reverse

/-- Whether a text occurs in another. -/
def containsText (cs : List Char) (needle : List Char) : Bool :=
  cs.tails.any (fun t => needle.isPrefixOf t)

/-- Whether a text ends with another. -/
def endsWith (cs suffix : List Char) : Bool := suffix.isSuffixOf cs

/-- Join texts with a separator between them. -/
def join (sep : String) : List String → String
  | [] => ""
  | [s] => s
  | s :: rest => s ++ sep ++ join sep rest

/-! ## Hexadecimal -/

/-- The lowercase hexadecimal digit of a number below sixteen. -/
def hexDigit (n : Nat) : Char :=
  if n < 10 then Char.ofNat (48 + n) else Char.ofNat (87 + n)

/-- Lowercase hexadecimal, two digits a byte. -/
def hexChars (bytes : List UInt8) : List Char :=
  bytes.flatMap (fun b => [hexDigit (b.toNat / 16), hexDigit (b.toNat % 16)])

/-- The hexadecimal text of some bytes. -/
def hexEncode (bytes : List UInt8) : String := String.ofList (hexChars bytes)

theorem hexDigit_inj {a b : Nat} (ha : a < 16) (hb : b < 16)
    (h : hexDigit a = hexDigit b) : a = b := by
  have key : ∀ i : Fin 16, ∀ j : Fin 16,
      hexDigit i.val = hexDigit j.val → i = j := by decide
  exact congrArg Fin.val (key ⟨a, ha⟩ ⟨b, hb⟩ h)

theorem hexChars_length (bytes : List UInt8) :
    (hexChars bytes).length = 2 * bytes.length := by
  induction bytes with
  | nil => rfl
  | cons b rest ih =>
      show (hexChars rest).length + 2 = 2 * (rest.length + 1)
      omega

/-- Equal encodings come from equal bytes. -/
theorem hexChars_inj {a b : List UInt8} (h : hexChars a = hexChars b) :
    a = b := by
  induction a generalizing b with
  | nil =>
      cases b with
      | nil => rfl
      | cons y ys => exact nomatch h
  | cons x xs ih =>
      cases b with
      | nil => exact nomatch h
      | cons y ys =>
          have h' : hexDigit (x.toNat / 16) :: hexDigit (x.toNat % 16)
                :: hexChars xs
              = hexDigit (y.toNat / 16) :: hexDigit (y.toNat % 16)
                :: hexChars ys := h
          injection h' with h1 h2
          injection h2 with h2 h3
          have hx := x.toNat_lt
          have hy := y.toNat_lt
          have e1 := hexDigit_inj (by omega) (by omega) h1
          have e2 := hexDigit_inj (by omega) (by omega) h2
          have hxy : x = y := UInt8.toNat_inj.mp (by omega)
          rw [hxy, ih h3]

theorem hexEncode_inj {a b : List UInt8} (h : hexEncode a = hexEncode b) :
    a = b :=
  hexChars_inj (String.ofList_injective h)

/-- A hexadecimal digit is one byte and no control character. -/
theorem hexDigit_plain : ∀ n < 16,
    isControl (hexDigit n) = false ∧ (hexDigit n).utf8Size = 1 := by decide

theorem hexChars_plain {bytes : List UInt8} {c : Char}
    (h : c ∈ hexChars bytes) : isControl c = false ∧ c.utf8Size = 1 := by
  obtain ⟨b, _, hc⟩ := List.mem_flatMap.mp h
  have hb := b.toNat_lt
  rcases List.mem_cons.mp hc with heq | hmem
  · rw [heq]
    exact hexDigit_plain _ (by omega)
  · rw [List.mem_singleton.mp hmem]
    exact hexDigit_plain _ (by omega)

theorem hexEncode_byteLen (bytes : List UInt8) :
    byteLen (hexEncode bytes) = 2 * bytes.length := by
  unfold hexEncode
  rw [byteLen_ofList (fun c hc => (hexChars_plain hc).2), hexChars_length]

end Chars
