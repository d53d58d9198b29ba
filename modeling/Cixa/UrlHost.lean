import Cixa.AddressText
import Mathlib.Data.List.Induction

/-! # URL hosts — how a URL parser reads the host of an HTTPS address

    What a URL parser makes of the text between the slashes of `https://`
    and its port or path.  Brackets hold an IPv6 address.  Anything else is
    percent-decoded and mapped to ASCII, and where its LAST part is a number
    the whole is an IPv4 address of one to four numbers, in decimal, octal or
    hexadecimal.  The mapping to ASCII is a parameter. -/

/-- A host: a name, or an address. -/
inductive UrlHost where
  | domain (name : String)
  | address (ip : IpAddr)
  deriving DecidableEq

namespace UrlHost

open Chars AddressText

/-! ## Numbers -/

/-- The value of one number of an IPv4 address, after its radix is known. -/
def parseNumber : List Char → Option Nat
  | [] => none
  | '0' :: 'x' :: digits => numeral 16 0 digits
  | '0' :: 'X' :: digits => numeral 16 0 digits
  | '0' :: c :: digits => numeral 8 0 (c :: digits)
  | text => numeral 10 0 text

/-- The parts between dots; one dot at the end is passed over. -/
def partsOf (text : List Char) : List (List Char) :=
  let parts := text.splitOn '.'
  if parts.getLast? = some [] then parts.dropLast else parts

/-- Whether the last part is a number. -/
def endsInNumber (text : List Char) : Bool :=
  match (partsOf text).getLast? with
  | none => false
  | some last =>
      (!last.isEmpty && last.all isAsciiDigit) || (parseNumber last).isSome

/-- The number that one to four numbers stand for: each but the last is an
    octet, and the last fills what is left. -/
def fillNumbers : Nat → List Nat → Option Nat
  | _, [] => none
  | room, [last] => if last < 256 ^ room then some last else none
  | room, n :: rest =>
      if n > 255 then none
      else (fillNumbers (room - 1) rest).map (n * 256 ^ (room - 1) + ·)

/-- The address with a 32-bit value. -/
def ofValue (value : Nat) : IpAddr :=
  .v4 (value / 256 ^ 3 % 256) (value / 256 ^ 2 % 256) (value / 256 % 256)
    (value % 256)

/-- An address of one to four numbers. -/
def parseIpv4 (text : List Char) : Option IpAddr :=
  if (partsOf text).length > 4 then none
  else ((partsOf text).mapM parseNumber).bind fun numbers =>
    (fillNumbers 4 numbers).map ofValue

example : parseIpv4 "0x7f.1".toList = some (.v4 127 0 0 1) := by decide

/-! ## Percent-encoding -/

/-- The value of a hexadecimal digit given as a byte. -/
def hexByte (b : UInt8) : Option Nat := IpAddr.digitValue 16 (Char.ofNat b.toNat)

/-- Bytes with each percent sign and two digits made one byte. -/
def percentDecode : List UInt8 → List UInt8
  | a :: b :: c :: rest =>
      if a = 37 then
        match hexByte b, hexByte c with
        | some high, some low =>
            UInt8.ofNat (high * 16 + low) :: percentDecode rest
        | _, _ => a :: percentDecode (b :: c :: rest)
      else a :: percentDecode (b :: c :: rest)
  | short => short

/-- The text that percent-encoded text stands for. -/
def decodeText (text : List Char) : Option String :=
  String.fromUTF8? ⟨(percentDecode (utf8Bytes (String.ofList text))).toArray⟩

/-! ## Reading a host -/

/-- The characters that no name of a URL contains. -/
def isForbidden (c : Char) : Bool :=
  decide (c.val < 0x21) || decide (c.val = 0x7f)
    || decide (c ∈ ['#', '%', '/', ':', '<', '>', '?', '@', '[', '\\', ']', '^', '|'])

section Parsing

variable (toAscii : String → Option String)

/-- A name in ASCII, or an address if it ends in a number. -/
def parseAscii (name : String) : Option UrlHost :=
  if name.toList = [] ∨ name.toList.any isForbidden = true then none
  else if endsInNumber name.toList = true then
    (parseIpv4 name.toList).map .address
  else some (.domain name)

/-- A host: an address in brackets, or what a text decodes to. -/
def parseHost (text : List Char) : Option UrlHost :=
  match text with
  | [] => none
  | '[' :: rest =>
      if rest.getLast? = some ']' then
        match IpAddr.readIpv6 rest.dropLast with
        | some (segments, []) => some (.address (.v6 segments))
        | _ => none
      else none
  | text => ((decodeText text).bind toAscii).bind parseAscii

end Parsing

/-! ## What is read -/

/-- A character in ASCII. -/
def IsAscii (c : Char) : Prop := c.val < 0x80

instance (c : Char) : Decidable (IsAscii c) := inferInstanceAs (Decidable (_ < _))

/-- What is checked of each of the 128 characters holds in ASCII. -/
theorem IsAscii.cases {P : Char → Prop}
    (all : ∀ i : Fin 128, P (Char.ofNat i.val)) {c : Char} (hc : IsAscii c) :
    P c := by
  have hlt : c.toNat < 128 := UInt32.lt_iff_toNat_lt.mp hc
  have h := all ⟨c.toNat, hlt⟩
  simp only [Char.ofNat_toNat] at h
  exact h

theorem IsAscii.bytes {c : Char} (h : IsAscii c) :
    String.utf8EncodeChar c = [c.val.toUInt8] := by
  refine String.utf8EncodeChar_eq_singleton ?_
  unfold IsAscii at h
  unfold Char.utf8Size
  rw [if_pos (by
    rw [UInt32.lt_iff_toNat_lt] at h
    rw [UInt32.le_iff_toNat_le]
    exact Nat.le_of_lt_succ h)]

/-- Without a percent sign there is nothing to decode. -/
theorem percentDecode_plain {bytes : List UInt8} (h : 37 ∉ bytes) :
    percentDecode bytes = bytes := by
  fun_induction percentDecode bytes with
  | case1 b c rest => exact absurd (List.mem_cons_self ..) h
  | case2 b c rest => exact absurd (List.mem_cons_self ..) h
  | case3 a b c rest ha ih =>
      rw [ih (fun hmem => h (List.mem_cons_of_mem _ hmem))]
  | case4 => rfl

theorem decodeText_plain {text : List Char} (hascii : ∀ c ∈ text, IsAscii c)
    (h : '%' ∉ text) : decodeText text = some (String.ofList text) := by
  have hno : 37 ∉ utf8Bytes (String.ofList text) := by
    rw [utf8Bytes_ofList]
    intro hmem
    obtain ⟨c, hc, hbyte⟩ := List.mem_flatMap.mp hmem
    rw [(hascii c hc).bytes, List.mem_singleton] at hbyte
    have hval := congrArg UInt8.toNat hbyte
    have hsmall := hascii c hc
    unfold IsAscii at hsmall
    rw [UInt32.lt_iff_toNat_lt] at hsmall
    have heq : c.val.toNat = 37 := by
      rw [UInt32.toNat_toUInt8] at hval
      change 37 = c.val.toNat % 256 at hval
      change c.val.toNat < 128 at hsmall
      omega
    have hchar : c = '%' := Char.toNat_inj.mp heq
    exact h (hchar ▸ hc)
  unfold decodeText
  rw [percentDecode_plain hno]
  exact dif_pos (String.ofList text).isValidUTF8

section Reading

variable {toAscii : String → Option String}

/-- A text without brackets or percent signs is read after its mapping. -/
theorem parseHost_plain {text : List Char} (hascii : ∀ c ∈ text, IsAscii c)
    (hpercent : '%' ∉ text) (hbracket : text.head? ≠ some '[')
    (hne : text ≠ []) :
    parseHost toAscii text
      = (toAscii (String.ofList text)).bind parseAscii := by
  rw [← Option.bind_some (String.ofList text) toAscii,
    ← decodeText_plain hascii hpercent]
  cases text with
  | nil => exact absurd rfl hne
  | cons c rest =>
      unfold parseHost
      split
      · rename_i heq
        exact nomatch heq
      · rename_i heq
        obtain ⟨rfl, _⟩ := List.cons.inj heq
        exact absurd rfl hbracket
      · rfl

/-- Every character is allowed in a name, and an address is read where the
    last part is a number. -/
theorem parseAscii_some {name : String} {h : UrlHost}
    (hread : parseAscii name = some h) :
    name.toList ≠ [] ∧ (∀ c ∈ name.toList, isForbidden c = false)
      ∧ (endsInNumber name.toList = false ∧ h = .domain name
        ∨ ∃ ip, parseIpv4 name.toList = some ip ∧ h = .address ip) := by
  unfold parseAscii at hread
  split at hread
  · exact nomatch hread
  · rename_i hallowed
    obtain ⟨hne, hplain⟩ := not_or.mp hallowed
    refine ⟨hne, fun c hc => ?_, ?_⟩
    · exact Bool.eq_false_iff.mpr fun hf =>
        hplain (List.any_eq_true.mpr ⟨c, hc, hf⟩)
    · split at hread
      · obtain ⟨ip, hip, rfl⟩ := Option.map_eq_some_iff.mp hread
        exact Or.inr ⟨ip, hip, rfl⟩
      · rename_i hnumber
        exact Or.inl ⟨Bool.eq_false_iff.mpr hnumber,
          (Option.some.inj hread).symm⟩

theorem parsed_of_mapM {parts : List (List Char)} {numbers : List Nat}
    (h : parts.mapM parseNumber = some numbers) :
    ∀ part ∈ parts, (parseNumber part).isSome = true := by
  induction parts generalizing numbers with
  | nil => exact fun _ hmem => nomatch hmem
  | cons part rest ih =>
      rw [List.mapM_cons] at h
      obtain ⟨n, hn, h⟩ := Option.bind_eq_some_iff.mp h
      obtain ⟨ns, hns, _⟩ := Option.bind_eq_some_iff.mp h
      intro other hmem
      rcases List.mem_cons.mp hmem with rfl | hmem
      · rw [hn]
        rfl
      · exact ih hns other hmem

/-- What is read as an IPv4 address ends in a number. -/
theorem endsInNumber_of_parseIpv4 {text : List Char} {ip : IpAddr}
    (h : parseIpv4 text = some ip) : endsInNumber text = true := by
  unfold parseIpv4 at h
  split at h
  · exact nomatch h
  · obtain ⟨numbers, hnumbers, hvalue⟩ := Option.bind_eq_some_iff.mp h
    unfold endsInNumber
    cases hlast : (partsOf text).getLast? with
    | none =>
        rw [List.getLast?_eq_none_iff.mp hlast] at hnumbers
        obtain rfl : [] = numbers := Option.some.inj hnumbers
        obtain ⟨_, hfill, _⟩ := Option.map_eq_some_iff.mp hvalue
        exact nomatch hfill
    | some last =>
        have hnumber := parsed_of_mapM hnumbers last
          (List.mem_of_getLast? hlast)
        show (_ || (parseNumber last).isSome) = true
        rw [hnumber]
        exact Bool.or_true _

/-- An IPv4 address has four octets. -/
theorem parseIpv4_octets {text : List Char} {ip : IpAddr}
    (h : parseIpv4 text = some ip) : ∃ a b c d, ip = .v4 a b c d
      ∧ a < 256 ∧ b < 256 ∧ c < 256 ∧ d < 256 := by
  unfold parseIpv4 at h
  split at h
  · exact nomatch h
  · obtain ⟨numbers, _, hvalue⟩ := Option.bind_eq_some_iff.mp h
    obtain ⟨value, _, rfl⟩ := Option.map_eq_some_iff.mp hvalue
    exact ⟨_, _, _, _, rfl, Nat.mod_lt _ (by decide), Nat.mod_lt _ (by decide),
      Nat.mod_lt _ (by decide), Nat.mod_lt _ (by decide)⟩

end Reading

/-! ## Printing -/

/-- Four octets in decimal, joined by dots. -/
def dotted (a b c d : Nat) : List Char :=
  Nat.toDigits 10 a ++ '.' :: (Nat.toDigits 10 b
    ++ '.' :: (Nat.toDigits 10 c ++ '.' :: Nat.toDigits 10 d))

/-- The text of a host in a URL; how IPv6 segments are written is a
    parameter. -/
def print (segmentsText : List Nat → List Char) : UrlHost → String
  | .domain name => name
  | .address (.v4 a b c d) => String.ofList (dotted a b c d)
  | .address (.v6 segments) =>
      String.ofList ('[' :: (segmentsText segments ++ [']']))

/-! ## Trailing dots -/

theorem trimEnd_concat (text : List Char) (p : Char) :
    trimEndMatches (text ++ [p]) p = trimEndMatches text p := by
  unfold trimEndMatches
  rw [List.reverse_append, List.reverse_singleton, List.singleton_append,
    List.dropWhile_cons_of_pos (by simp)]

theorem trimEnd_of_last {text : List Char} {p : Char}
    (h : text.getLast? ≠ some p) : trimEndMatches text p = text := by
  unfold trimEndMatches
  rw [List.getLast?_eq_head?_reverse] at h
  cases hrev : text.reverse with
  | nil =>
      rw [List.reverse_eq_nil_iff.mp hrev]
      rfl
  | cons c rest =>
      have hc : ¬(c == p) = true := by
        rw [hrev] at h
        intro heq
        exact h (congrArg some (beq_iff_eq.mp heq))
      have hkeep : (c :: rest).dropWhile (fun c => c == p) = c :: rest :=
        List.dropWhile_cons_of_neg (p := fun c => c == p) hc
      rw [hkeep, ← hrev, List.reverse_reverse]

/-- What a text without its last character keeps, trimming keeps. -/
theorem trimEnd_induction {P : List Char → Prop} {text : List Char} {p : Char}
    (hstep : ∀ short, P (short ++ [p]) → P short) (h : P text) :
    P (trimEndMatches text p) := by
  induction text using List.reverseRecOn with
  | nil => exact h
  | append_singleton short c ih =>
      by_cases hc : c = p
      · subst hc
        rw [trimEnd_concat]
        exact ih (hstep short h)
      · rw [trimEnd_of_last (by
          rw [List.getLast?_concat]
          exact fun heq => hc (Option.some.inj heq))]
        exact h

theorem trimEnd_last (text : List Char) (p : Char) :
    (trimEndMatches text p).getLast? ≠ some p := by
  unfold trimEndMatches
  rw [List.getLast?_reverse]
  intro h
  have hnot := List.head?_dropWhile_not (fun c => c == p) text.reverse
  rw [h] at hnot
  simp at hnot

theorem trimEnd_trimEnd (text : List Char) (p : Char) :
    trimEndMatches (trimEndMatches text p) p = trimEndMatches text p :=
  trimEnd_of_last (trimEnd_last text p)

theorem mem_of_mem_trimEnd {text : List Char} {p c : Char}
    (h : c ∈ trimEndMatches text p) : c ∈ text := by
  unfold trimEndMatches at h
  exact List.mem_reverse.mp
    ((List.dropWhile_sublist _).subset (List.mem_reverse.mp h))

theorem length_trimEnd_le (text : List Char) (p : Char) :
    (trimEndMatches text p).length ≤ text.length := by
  unfold trimEndMatches
  rw [List.length_reverse]
  exact (List.dropWhile_sublist _).length_le.trans (List.length_reverse ..).le

end UrlHost
