import Cixa.Text
import Cixa.AddressText
import Mathlib.Data.List.TakeWhile

/-! # The checkout adapter's address guard — IPv6 texts and private ranges

    The checkout adapter classifies the addresses a merchant's name resolves
    to by their text.  An IPv6 text is cut at its zone, lower-cased, its
    dotted tail rewritten as two groups, split at `::` and filled with zero
    groups; the sixteen bytes are then compared with the ranges that are not
    public.  The platform's `isIP` is a parameter: it answers 4 or 6 for the
    texts of IPv4 and IPv6 addresses.

    The reader is EXACT on every spelling, so the answer depends on the
    address alone, and an address the broker refuses is private here too. -/

namespace CheckoutAdapter

open Chars IpAddr AddressText Treasury

/-! ## The platform's text functions -/

/-- The characters `Number` and `parseInt` skip around a number. -/
def isSpace (c : Char) : Bool :=
  let n := c.toNat
  (9 ≤ n && n ≤ 13) || n == 0x20 || n == 0xa0 || n == 0x1680
    || (0x2000 ≤ n && n ≤ 0x200a) || n == 0x2028 || n == 0x2029
    || n == 0x202f || n == 0x205f || n == 0x3000 || n == 0xfeff

/-- The digits of a text that is nothing but digits. -/
def wholeDigits (radix : Nat) (text : List Char) : Option Int :=
  let (digits, rest) := readDigits radix text
  if digits.isEmpty || !rest.isEmpty then none
  else some (Int.ofNat (digits.foldl (fun acc d => acc * radix + d) 0))

/-- `Number(text)` where that is an integer written without a fraction or an
    exponent; nothing where it is not a number.  (The texts with a fraction or
    an exponent are left out: `isIP` accepts no text with one.) -/
def number (text : List Char) : Option Int :=
  match ((text.dropWhile isSpace).reverse.dropWhile isSpace).reverse with
  | [] => some 0
  | '0' :: 'x' :: digits => wholeDigits 16 digits
  | '0' :: 'X' :: digits => wholeDigits 16 digits
  | '0' :: 'o' :: digits => wholeDigits 8 digits
  | '0' :: 'O' :: digits => wholeDigits 8 digits
  | '0' :: 'b' :: digits => wholeDigits 2 digits
  | '0' :: 'B' :: digits => wholeDigits 2 digits
  | '-' :: digits => (wholeDigits 10 digits).map (- ·)
  | '+' :: digits => wholeDigits 10 digits
  | digits => wholeDigits 10 digits

/-- The sign before a number, and the rest. -/
def readSign : List Char → Int × List Char
  | '-' :: rest => (-1, rest)
  | '+' :: rest => (1, rest)
  | text => (1, text)

/-- Hexadecimal digits may follow a radix mark. -/
def skipRadixMark : List Char → List Char
  | '0' :: 'x' :: rest => rest
  | '0' :: 'X' :: rest => rest
  | text => text

/-- `Number.parseInt(text, 16)`: the digits at the head of the text; nothing
    where there are none. -/
def parseHex (text : List Char) : Option Int :=
  let (sign, unsigned) := readSign (text.dropWhile isSpace)
  let digits := (readDigits 16 (skipRadixMark unsigned)).1
  if digits.isEmpty then none
  else some (sign * Int.ofNat (digits.foldl (fun acc d => acc * 16 + d) 0))

/-- `text.lastIndexOf(c)`; nothing where the source answers -1. -/
def lastIndexOf (c : Char) (text : List Char) : Option Nat :=
  (text.reverse.idxOf? c).map (fun i => text.length - 1 - i)

/-- A number that is an integer from 0 to `bound`. -/
def within (bound : Int) (value : Option Int) : Option Nat :=
  value.bind (fun v => if v < 0 ∨ v > bound then none else some v.toNat)

/-! ## The reader -/

/-- The dotted tail of an address text as two hexadecimal groups. -/
def rewriteTail (normalized : List Char) : Option (List Char) :=
  match lastIndexOf ':' normalized with
  | none => some normalized
  | some dottedIndex =>
      if '.' ∈ normalized then
        let octets := (normalized.drop (dottedIndex + 1)).splitOn '.'
        match octets.mapM (fun text => within 255 (number text)) with
        | some [a, b, c, d] =>
            some (normalized.take dottedIndex
              ++ ':' :: (Nat.toDigits 16 ((a <<< 8) ||| b)
              ++ ':' :: Nat.toDigits 16 ((c <<< 8) ||| d)))
        | _ => none
      else some normalized

/-- The group texts of one half: none in an empty half. -/
def groupTexts (half : List Char) : List (List Char) :=
  if half.isEmpty then [] else half.splitOn ':'

/-- The eight groups of an address text without a dotted tail. -/
def ipv6Groups (normalized : List Char) : Option (List Nat) :=
  let halves := splitDouble normalized
  let left := groupTexts (halves.getD 0 [])
  let right := if halves.length = 2 then groupTexts (halves.getD 1 []) else []
  let missing : Int := 8 - left.length - right.length
  if halves.length > 2 then none
  else if (halves.length = 1 ∧ missing ≠ 0)
      ∨ (halves.length = 2 ∧ missing < 1) then none
  else
    let texts := left ++ List.replicate missing.toNat ['0'] ++ right
    match texts.mapM (fun text => within 0xffff (parseHex text)) with
    | some groups => if groups.length ≠ 8 then none else some groups
    | none => none

variable (isIP : List Char → Nat)

/-- The sixteen bytes of an IPv6 address text, with or without a zone. -/
def ipv6Bytes (address : List Char) : Option (List Nat) :=
  let withoutZone :=
    (address.takeWhile (fun c => c != '%')).map toAsciiLowercase
  if isIP withoutZone ≠ 6 then none
  else do
    let normalized ← rewriteTail withoutZone
    let groups ← ipv6Groups normalized
    return groups.flatMap (fun group => [group >>> 8, group &&& 0xff])

/-! ## The ranges -/

/-- The IPv4 ranges that are not public, of the numbers of a dotted text; no
    comparison holds of what is not a number. -/
def privateV4 (numbers : List (Option Int)) : Bool :=
  let a := numbers.getD 0 none
  let b := numbers.getD 1 none
  let c := numbers.getD 2 none
  let is := fun (value : Option Int) (n : Int) => decide (value = some n)
  let atLeast := fun (value : Option Int) (n : Int) =>
    value.any (fun v => decide (v ≥ n))
  let atMost := fun (value : Option Int) (n : Int) =>
    value.any (fun v => decide (v ≤ n))
  is a 0 || is a 10 || is a 127 || atLeast a 224
    || (is a 100 && atLeast b 64 && atMost b 127)
    || (is a 169 && is b 254)
    || (is a 172 && atLeast b 16 && atMost b 31)
    || (is a 192 && is b 168)
    || (is a 192 && is b 0)
    || (is a 192 && is b 88 && is c 99)
    || (is a 198 && (is b 18 || is b 19 || (is b 51 && is c 100)))
    || (is a 203 && is b 0 && is c 113)

/-- The IPv6 ranges that are not public. -/
def privateV6 (bytes : List Nat) : Bool :=
  let byte := fun i => bytes.getD i 0
  let currentGlobalUnicast := decide (byte 0 &&& 0xe0 = 0x20)
  let protocolAssignments :=
    decide (byte 0 = 0x20) && decide (byte 1 = 0x01) && decide (byte 2 &&& 0xfe = 0)
  let documentation :=
    decide (byte 0 = 0x20) && decide (byte 1 = 0x01) && decide (byte 2 = 0x0d)
      && decide (byte 3 = 0xb8)
  let sixToFour := decide (byte 0 = 0x20) && decide (byte 1 = 0x02)
  let documentationV2 :=
    decide (byte 0 = 0x3f) && decide (byte 1 = 0xff) && decide (byte 2 &&& 0xf0 = 0)
  !currentGlobalUnicast || protocolAssignments || documentation || sixToFour
    || documentationV2

/-- An IPv4 address inside an IPv6 address. -/
def isMapped (bytes : List Nat) : Bool :=
  (bytes.take 10).all (fun byte => byte == 0) && bytes.getD 10 0 == 0xff
    && bytes.getD 11 0 == 0xff

/-- Bytes joined by dots. -/
def joinBytes (bytes : List Nat) : List Char :=
  List.intercalate ['.'] (bytes.map (Nat.toDigits 10))

/-! ## The recursion ends -/

theorem toAsciiLowercase_colon {c : Char} (h : toAsciiLowercase c = ':') :
    c = ':' := by
  unfold toAsciiLowercase at h
  by_cases hupper : isAsciiUppercase c = true
  · rw [if_pos hupper] at h
    unfold isAsciiUppercase at hupper
    rw [Bool.and_eq_true, decide_eq_true_eq, decide_eq_true_eq] at hupper
    have all : ∀ i : Fin 26, Char.ofNat (65 + i.val + 32) ≠ ':' := by decide
    have hlow : 65 ≤ c.toNat := hupper.1
    have hhigh : c.toNat ≤ 90 := hupper.2
    have hne := all ⟨c.toNat - 65, by omega⟩
    have heq : 65 + (c.toNat - 65) = c.toNat := by omega
    simp only [heq] at hne
    exact (hne h).elim
  · rwa [if_neg hupper] at h

/-- Without a colon there are not eight groups. -/
theorem ipv6Groups_no_colon {t : List Char} (h : ':' ∉ t) :
    ipv6Groups t = none := by
  have hsplit : splitDouble t = [t] := by
    have hone := splitDouble_append h []
    rw [List.append_nil] at hone
    rw [hone, splitDouble, List.modifyHead_cons, List.append_nil]
  have hshort : (groupTexts t).length ≤ 1 := by
    unfold groupTexts
    split
    · exact Nat.zero_le _
    · rw [List.splitOn_eq_singleton h]
      exact Nat.le_refl _
  simp only [ipv6Groups, hsplit, List.getD_cons_zero, List.length_singleton]
  rw [if_neg (by decide), if_pos]
  refine Or.inl ⟨trivial, ?_⟩
  rw [if_neg (by decide), List.length_nil]
  omega

/-- Only a text with a colon has bytes. -/
theorem ipv6Bytes_colon {address : List Char} {bytes : List Nat}
    (h : ipv6Bytes isIP address = some bytes) : ':' ∈ address := by
  refine Classical.byContradiction fun hno => ?_
  have hnone : ':' ∉
      (address.takeWhile (fun c => c != '%')).map toAsciiLowercase := by
    intro hmem
    obtain ⟨c, hc, hlower⟩ := List.mem_map.mp hmem
    have hcolon := toAsciiLowercase_colon hlower
    subst hcolon
    exact hno (List.takeWhile_subset _ hc)
  have hlast : lastIndexOf ':'
      ((address.takeWhile (fun c => c != '%')).map toAsciiLowercase) = none := by
    unfold lastIndexOf
    rw [Option.map_eq_none_iff, List.idxOf?_eq_none_iff, List.mem_reverse]
    exact hnone
  simp only [ipv6Bytes] at h
  by_cases hsix : isIP
      ((address.takeWhile (fun c => c != '%')).map toAsciiLowercase) ≠ 6
  · rw [if_pos hsix] at h
    cases h
  · rw [if_neg hsix] at h
    simp only [rewriteTail, hlast] at h
    obtain ⟨normalized, hnormalized, hrest⟩ := Option.bind_eq_some_iff.mp h
    obtain ⟨groups, hgroups, _⟩ := Option.bind_eq_some_iff.mp hrest
    rw [← Option.some.inj hnormalized, ipv6Groups_no_colon hnone] at hgroups
    cases hgroups

theorem joinBytes_no_colon (bytes : List Nat) : ':' ∉ joinBytes bytes := by
  have digits : ∀ n, ':' ∉ Nat.toDigits 10 n := by
    intro n hmem
    have := Nat.isDigit_of_mem_toDigits (by decide) (by decide) hmem
    revert this
    decide
  induction bytes with
  | nil => exact List.not_mem_nil
  | cons n bytes ih =>
      cases bytes with
      | nil =>
          show ':' ∉ List.intercalate ['.'] [Nat.toDigits 10 n]
          rw [List.intercalate_singleton]
          exact digits n
      | cons m bytes =>
          show ':' ∉ List.intercalate ['.']
            (Nat.toDigits 10 n :: Nat.toDigits 10 m :: bytes.map (Nat.toDigits 10))
          rw [List.intercalate_cons_cons]
          simp only [List.mem_append, List.mem_singleton, not_or]
          exact ⟨⟨digits n, by decide⟩, ih⟩

/-- Whether the adapter refuses an address text. -/
def privateAddress (address : List Char) : Bool :=
  if isIP address = 4 then privateV4 ((address.splitOn '.').map number)
  else
    match _bytes : ipv6Bytes isIP address with
    | none => false
    | some bytes =>
        if isMapped bytes = true then
          -- judged by the dotted text of the embedded address
          privateAddress (joinBytes (bytes.drop 12))
        else privateV6 bytes
termination_by address.count ':'
decreasing_by
  rw [List.count_eq_zero_of_not_mem (joinBytes_no_colon _)]
  exact List.count_pos_iff.mpr (ipv6Bytes_colon isIP ‹_›)

/-! ## Numbers of a spelling -/

theorem number_octet {n : Nat} (h : n < 256) :
    within 255 (number (Nat.toDigits 10 n)) = some n := by
  have all : ∀ i : Fin 256, within 255 (number (Nat.toDigits 10 i.val))
      = some i.val := by decide +kernel
  exact all ⟨n, h⟩

theorem number_of_octet {n : Nat} (h : n < 256) :
    number (Nat.toDigits 10 n) = some (n : Int) := by
  have all : ∀ i : Fin 256, number (Nat.toDigits 10 i.val)
      = some (i.val : Int) := by decide +kernel
  exact all ⟨n, h⟩

/-- The hexadecimal digits are in three ranges. -/
theorem digit_ranges {c : Char} (h : (digitValue 16 c).isSome = true) :
    (48 ≤ c.toNat ∧ c.toNat ≤ 57) ∨ (65 ≤ c.toNat ∧ c.toNat ≤ 70)
      ∨ (97 ≤ c.toNat ∧ c.toNat ≤ 102) := by
  unfold digitValue isAsciiDigit at h
  rw [Option.isSome_filter] at h
  simp only [Bool.and_eq_true, decide_eq_true_eq] at h
  split at h
  · rename_i hdigit
    exact Or.inl ⟨hdigit.1, hdigit.2⟩
  · split at h
    · rename_i hsmall
      exact Or.inr (Or.inr ⟨hsmall.1, hsmall.2⟩)
    · split at h
      · rename_i hcapital
        exact Or.inr (Or.inl ⟨hcapital.1, hcapital.2⟩)
      · cases h

theorem digit_not_space {c : Char} (h : (digitValue 16 c).isSome = true) :
    isSpace c = false := by
  have hranges := digit_ranges h
  simp only [isSpace, Bool.or_eq_false_iff, Bool.and_eq_false_iff,
    decide_eq_false_iff_not, beq_eq_false_iff_ne]
  omega

/-- A text of hexadecimal digits has no space, no sign and no radix mark. -/
theorem parseHex_group {t : List Char} {n : Nat} (h : IsGroup t n) :
    within 0xffff (parseHex t) = some n := by
  obtain ⟨hvalue, hlength⟩ := readDigits_numeral h.value
  have hspace : t.dropWhile isSpace = t := by
    cases t with
    | nil => rfl
    | cons c rest =>
        rw [List.dropWhile_cons,
          if_neg (by rw [digit_not_space (h.digits c (List.mem_cons_self ..))]; decide)]
  have hsign : readSign t = (1, t) := by
    unfold readSign
    split
    · exact absurd (List.mem_cons_self ..) (h.not_mem (c := '-') (by decide))
    · exact absurd (List.mem_cons_self ..) (h.not_mem (c := '+') (by decide))
    · rfl
  have hmark : skipRadixMark t = t := by
    unfold skipRadixMark
    split
    · exact absurd (List.mem_cons_of_mem _ (List.mem_cons_self ..))
        (h.not_mem (c := 'x') (by decide))
    · exact absurd (List.mem_cons_of_mem _ (List.mem_cons_self ..))
        (h.not_mem (c := 'X') (by decide))
    · rfl
  have hdigits : (readDigits 16 t).1.isEmpty = false := by
    rw [List.isEmpty_eq_false_iff]
    intro hnil
    rw [hnil] at hlength
    exact h.nonempty (List.length_eq_zero_iff.mp hlength.symm)
  simp only [parseHex, hspace, hsign, hmark, hdigits, hvalue]
  have hlt := h.lt
  simp only [within, Bool.false_eq_true, if_false, Option.bind_some]
  rw [if_neg (by simp only [Int.ofNat_eq_natCast]; omega)]
  simp

/-! ## The reader on a spelling -/

theorem idxOf?_append_cons {c : Char} {t : List Char} (h : c ∉ t)
    (rest : List Char) : (t ++ c :: rest).idxOf? c = some t.length := by
  induction t with
  | nil =>
      rw [List.nil_append, List.idxOf?_cons, if_pos (beq_self_eq_true c)]
      rfl
  | cons d t ih =>
      have hne : ¬ (d == c) = true := fun heq =>
        h (by rw [eq_of_beq heq]; exact List.mem_cons_self ..)
      rw [List.cons_append, List.idxOf?_cons, if_neg hne,
        ih fun hmem => h (List.mem_cons_of_mem _ hmem)]
      rfl

theorem lastIndexOf_quad {quad : List Char} (h : ':' ∉ quad)
    (before : List Char) :
    lastIndexOf ':' (before ++ ':' :: quad) = some before.length := by
  unfold lastIndexOf
  have hrev : (before ++ ':' :: quad).reverse
      = quad.reverse ++ ':' :: before.reverse := by simp
  rw [hrev, idxOf?_append_cons (fun hmem => h (List.mem_reverse.mp hmem))]
  simp

theorem shift_or {a b : Nat} (hb : b < 256) : (a <<< 8) ||| b = a * 256 + b := by
  rw [← Nat.shiftLeft_add_eq_or_of_lt (by omega), Nat.shiftLeft_eq]

theorem split_dotted {t : List Char} {a b c d : Nat} (h : IsDotted t a b c d) :
    t.splitOn '.' = [Nat.toDigits 10 a, Nat.toDigits 10 b, Nat.toDigits 10 c,
      Nat.toDigits 10 d] := by
  have dots : ∀ n, '.' ∉ Nat.toDigits 10 n := by
    intro n hmem
    have := Nat.isDigit_of_mem_toDigits (by decide) (by decide) hmem
    revert this
    decide
  rw [h.spelled, List.splitOn_append_cons_self_of_not_mem (dots a),
    List.splitOn_append_cons_self_of_not_mem (dots b),
    List.splitOn_append_cons_self_of_not_mem (dots c),
    List.splitOn_eq_singleton (dots d)]

/-- A dotted tail becomes the two groups it stands for. -/
theorem rewriteTail_quad {quad : List Char} {a b c d : Nat}
    (h : IsDotted quad a b c d) (before : List Char) :
    rewriteTail (before ++ ':' :: quad)
      = some (before ++ ':' :: dottedGroups a b c d) := by
  have hlast := lastIndexOf_quad
    (h.not_mem (x := ':') (by decide) (by decide)) before
  have hdot : '.' ∈ before ++ ':' :: quad :=
    List.mem_append_right _ (List.mem_cons_of_mem _ h.dot_mem)
  have hdrop : (before ++ ':' :: quad).drop (before.length + 1) = quad := by
    rw [← List.drop_drop, List.drop_left]
    rfl
  obtain ⟨ha, hb, hc, hd⟩ := h.octets
  simp only [rewriteTail, hlast, if_pos hdot, hdrop, split_dotted h,
    List.mapM_cons, List.mapM_nil, number_octet ha, number_octet hb,
    number_octet hc, number_octet hd, List.take_left]
  show some _ = _
  rw [shift_or hb, shift_or hd, dottedGroups]

theorem rewriteTail_groups {t : List Char} (h : '.' ∉ t) :
    rewriteTail t = some t := by
  unfold rewriteTail
  split
  · rfl
  · rw [if_neg h]

theorem groupTexts_side {t : List Char} {ns : List Nat} (h : Side false t ns) :
    List.Forall₂ IsGroup (groupTexts t) ns := by
  cases h with
  | empty => exact .nil
  | groups hg =>
      obtain ⟨c, rest, rfl, _⟩ := hg.head
      exact hg.split

theorem splitDouble_side {t : List Char} {ns : List Nat} (h : Side false t ns)
    (rest : List Char) :
    splitDouble (t ++ rest) = (splitDouble rest).modifyHead (t ++ ·) := by
  cases h with
  | empty => exact (congrFun List.modifyHead_id _).symm
  | groups hg => exact hg.splitDouble rest

theorem mapM_groups {ts : List (List Char)} {ns : List Nat}
    (h : List.Forall₂ IsGroup ts ns) :
    ts.mapM (fun text => within 0xffff (parseHex text)) = some ns := by
  induction h with
  | nil => rfl
  | cons hg _ ih =>
      rw [List.mapM_cons, parseHex_group hg, ih]
      rfl

theorem forall₂_zeros (n : Nat) :
    List.Forall₂ IsGroup (List.replicate n ['0']) (List.replicate n 0) := by
  induction n with
  | zero => exact .nil
  | succ n ih => exact .cons ⟨by decide, by decide, by decide⟩ ih

/-- **THE ZERO RUN IS PLACED EXACTLY**: the groups read are those spelled. -/
theorem ipv6Groups_spells {t : List Char} {ns : List Nat}
    (h : Spells false t ns) : ipv6Groups t = some ns := by
  have hlength := h.segments.1
  cases h with
  | full hg _ =>
      have hsplit : splitDouble t = [t] := by
        have hone := hg.splitDouble []
        rw [List.append_nil] at hone
        rw [hone, splitDouble, List.modifyHead_cons, List.append_nil]
      have htexts := groupTexts_side (.groups hg)
      have hcount : (groupTexts t).length = 8 := by
        rw [htexts.length_eq, hlength]
      simp only [ipv6Groups, hsplit, List.getD_cons_zero, List.length_singleton,
        Nat.reduceEqDiff, if_false, hcount, List.length_nil]
      rw [if_neg (by decide), if_neg (by decide)]
      show (match ((groupTexts t ++ [] ++ []).mapM _ : Option (List Nat)) with
        | some groups => _
        | none => _) = _
      rw [List.append_nil, List.append_nil, mapM_groups htexts]
      exact if_neg fun hne => hne hlength
  | @compressed t u ls rs hl hr hshort =>
      have hsplit : splitDouble (t ++ ':' :: ':' :: u) = [t, u] := by
        have hright := splitDouble_side hr []
        rw [List.append_nil] at hright
        rw [splitDouble_side hl, splitDouble, if_pos ⟨rfl, rfl⟩, hright,
          splitDouble]
        simp
      have hleft := groupTexts_side hl
      have hright := groupTexts_side hr
      have htexts : List.Forall₂ IsGroup (groupTexts t
            ++ List.replicate (8 - ls.length - rs.length) ['0'] ++ groupTexts u)
          (ls ++ List.replicate (8 - ls.length - rs.length) 0 ++ rs) :=
        List.rel_append (List.rel_append hleft (forall₂_zeros _)) hright
      simp only [ipv6Groups, hsplit, List.getD_cons_zero, List.getD_cons_succ,
        List.length_cons, List.length_nil, if_true, hleft.length_eq,
        hright.length_eq]
      rw [if_neg (by decide), if_neg (by omega)]
      have hmissing : (8 - (ls.length : Int) - (rs.length : Int)).toNat
          = 8 - ls.length - rs.length := by omega
      rw [hmissing, mapM_groups htexts]
      exact if_neg fun hne => hne hlength

/-! ## The bytes of a spelling -/

/-- The bytes of an address's groups, high byte first. -/
def octets (segments : List Nat) : List Nat :=
  segments.flatMap (fun n => [n / 256, n % 256])

theorem shift_mask (segments : List Nat) :
    segments.flatMap (fun group => [group >>> 8, group &&& 0xff])
      = octets segments := by
  unfold octets
  congr 1
  funext n
  rw [Nat.shiftRight_eq_div_pow, show 0xff = 2 ^ 8 - 1 from rfl,
    Nat.and_two_pow_sub_one_eq_mod]

theorem octets_length (segments : List Nat) :
    (octets segments).length = 2 * segments.length := by
  induction segments with
  | nil => rfl
  | cons n segments ih =>
      show (octets segments).length + 2 = 2 * (segments.length + 1)
      omega

theorem octets_lt {segments : List Nat} (h : ∀ n ∈ segments, n < 65536) :
    ∀ byte ∈ octets segments, byte < 256 := by
  intro byte hbyte
  obtain ⟨n, hn, hmem⟩ := List.mem_flatMap.mp hbyte
  have hlt := h n hn
  rcases List.mem_cons.mp hmem with rfl | hmem
  · omega
  · rw [List.mem_singleton.mp hmem]
    omega

/-- What the platform's `isIP` answers: 4 for the IPv4 texts and 6 for the
    IPv6 texts without a zone. -/
structure ReadsAddresses : Prop where
  four : ∀ t, isIP t = 4 ↔ ∃ a b c d, IsDotted t a b c d
  six : ∀ t, '%' ∉ t → (isIP t = 6 ↔ ∃ ns, Spells true t ns)

/-- A zone is cut off whole. -/
theorem takeWhile_zone {text t : List Char} (hno : '%' ∉ t)
    (h : text = t ∨ ∃ zone, zone ≠ [] ∧ text = t ++ '%' :: zone) :
    text.takeWhile (fun c => c != '%') = t := by
  have hall : ∀ c ∈ t, (c != '%') = true := by
    intro c hc
    exact bne_iff_ne.mpr fun heq => hno (heq ▸ hc)
  rcases h with rfl | ⟨zone, _, rfl⟩
  · exact List.takeWhile_eq_self_iff.mpr hall
  · rw [List.takeWhile_append_of_pos hall]
    simp

variable {isIP}

/-- **THE READER IS EXACT**: every spelling of an address, with any zone, is
    read as its sixteen bytes. -/
theorem ReadsAddresses.bytes (h : ReadsAddresses isIP) {text : List Char}
    {segments : List Nat} (ht : Zoned text segments) :
    ipv6Bytes isIP text = some (octets segments) := by
  obtain ⟨t, hspells, hzone⟩ := ht
  have hlower := hspells.lower
  have hsix := (h.six _ hlower.no_zone).mpr ⟨_, hlower⟩
  simp only [ipv6Bytes, takeWhile_zone hspells.no_zone hzone]
  rw [if_neg fun hne => hne hsix]
  have hread : ∃ normalized, rewriteTail (t.map toAsciiLowercase)
      = some normalized ∧ Spells false normalized segments := by
    rcases hlower.tail_cases with hfull | ⟨before, quad, a, b, c, d, heq, hd, hfull⟩
    · exact ⟨_, rewriteTail_groups (hfull.not_mem (by decide) (by decide)), hfull⟩
    · rw [heq]
      exact ⟨_, rewriteTail_quad hd before, hfull⟩
  obtain ⟨normalized, hnormalized, hgroups⟩ := hread
  rw [hnormalized, Option.bind_eq_bind, Option.bind_some,
    ipv6Groups_spells hgroups, Option.bind_eq_bind, Option.bind_some, shift_mask]
  rfl

/-! ## The answer depends on the address alone -/

/-- What the adapter answers for an address, however it is spelled. -/
def guard : IpAddr → Bool
  | .v4 a b c d => privateV4 ([a, b, c, d].map (fun n : Nat => some (n : Int)))
  | .v6 segments =>
      if isMapped (octets segments) = true then
        privateV4 (((octets segments).drop 12).map (fun n : Nat => some (n : Int)))
      else privateV6 (octets segments)

theorem ReadsAddresses.v4 (h : ReadsAddresses isIP) {text : List Char}
    {a b c d : Nat} (ht : IsDotted text a b c d) :
    privateAddress isIP text = guard (.v4 a b c d) := by
  obtain ⟨ha, hb, hc, hd⟩ := ht.octets
  rw [privateAddress, if_pos ((h.four _).mpr ⟨_, _, _, _, ht⟩), split_dotted ht]
  simp only [List.map_cons, List.map_nil, number_of_octet ha,
    number_of_octet hb, number_of_octet hc, number_of_octet hd, guard]

theorem isDotted_joinBytes {a b c d : Nat}
    (h : a < 256 ∧ b < 256 ∧ c < 256 ∧ d < 256) :
    IsDotted (joinBytes [a, b, c, d]) a b c d where
  octets := h
  spelled := by simp [joinBytes, List.intercalate_cons_cons]

/-- A spelling with groups is no IPv4 text. -/
theorem ReadsAddresses.not_four (h : ReadsAddresses isIP) {text : List Char}
    {segments : List Nat} (ht : Zoned text segments) : isIP text ≠ 4 := by
  intro hfour
  obtain ⟨a, b, c, d, hd⟩ := (h.four _).mp hfour
  obtain ⟨t, hspells, hzone⟩ := ht
  have hcolon : ':' ∈ text := by
    rcases hzone with rfl | ⟨zone, _, rfl⟩
    · exact hspells.colon_mem
    · exact List.mem_append_left _ hspells.colon_mem
  exact hd.not_mem (by decide) (by decide) hcolon

/-- Eight groups, written out. -/
theorem eight_segments {segments : List Nat} (h : segments.length = 8) :
    ∃ s0 s1 s2 s3 s4 s5 s6 s7, segments = [s0, s1, s2, s3, s4, s5, s6, s7] := by
  match segments, h with
  | [s0, s1, s2, s3, s4, s5, s6, s7], _ =>
      exact ⟨s0, s1, s2, s3, s4, s5, s6, s7, rfl⟩

theorem ReadsAddresses.v6 (h : ReadsAddresses isIP) {text : List Char}
    {segments : List Nat} (ht : Zoned text segments) :
    privateAddress isIP text = guard (.v6 segments) := by
  have hbytes := h.bytes ht
  obtain ⟨t, hspells, _⟩ := id ht
  obtain ⟨hlength, hlt⟩ := hspells.segments
  rw [privateAddress, if_neg (h.not_four ht)]
  split
  · rename_i hnone
    rw [hbytes] at hnone
    cases hnone
  · rename_i bytes hsome
    rw [hbytes] at hsome
    obtain rfl := Option.some.inj hsome
    rw [guard]
    by_cases hmapped : isMapped (octets segments) = true
    · rw [if_pos hmapped, if_pos hmapped]
      obtain ⟨s0, s1, s2, s3, s4, s5, s6, s7, rfl⟩ := eight_segments hlength
      have h6 : s6 < 65536 := hlt s6 (by simp)
      have h7 : s7 < 65536 := hlt s7 (by simp)
      exact h.v4 (isDotted_joinBytes (by omega))
    · rw [if_neg hmapped, if_neg hmapped]

theorem ReadsAddresses.guard_eq (h : ReadsAddresses isIP) {text : List Char}
    {ip : IpAddr} (ht : Denotes text ip) :
    privateAddress isIP text = guard ip := by
  cases ip with
  | v4 a b c d => exact h.v4 ht
  | v6 segments => exact h.v6 ht

/-! ## The two guards -/

theorem private_of_nonPublicV4 {a b c d : Nat}
    (h : isNonPublicV4 a b c = true) : guard (.v4 a b c d) = true := by
  simp only [isNonPublicV4, Bool.or_eq_true, Bool.and_eq_true,
    decide_eq_true_eq, or_assoc] at h
  simp only [guard, privateV4, List.map_cons, List.map_nil, List.getD_cons_zero,
    List.getD_cons_succ, Option.any_some, Bool.or_eq_true, Bool.and_eq_true,
    decide_eq_true_eq, Option.some.injEq]
  -- the first octet of each range decides which of the adapter's tests holds
  rcases h with rfl | rfl | ⟨rfl, h⟩ | rfl | ⟨rfl, rfl⟩ | ⟨rfl, h⟩
    | ⟨⟨rfl, rfl⟩, rfl⟩ | ⟨⟨rfl, rfl⟩, rfl⟩ | ⟨rfl, rfl⟩ | ⟨rfl, h⟩
    | ⟨⟨rfl, rfl⟩, rfl⟩ | ⟨⟨rfl, rfl⟩, rfl⟩ | h
  all_goals simp
  · omega
  · omega
  · omega
  · omega

theorem unicast_range {byte : Nat} (h : byte < 256) :
    byte &&& 0xe0 = 0x20 ↔ byte / 32 = 1 := by
  have all : ∀ i : Fin 256, i.val &&& 0xe0 = 0x20 ↔ i.val / 32 = 1 := by
    decide +kernel
  exact all ⟨byte, h⟩

/-- An address with an IPv4 address inside has that form for the broker too. -/
theorem mapped_segments {segments : List Nat} (hlength : segments.length = 8)
    (h : isMapped (octets segments) = true) :
    ∃ hi lo, segments = [0, 0, 0, 0, 0, 65535, hi, lo] := by
  obtain ⟨s0, s1, s2, s3, s4, s5, s6, s7, rfl⟩ := eight_segments hlength
  refine ⟨s6, s7, ?_⟩
  simp [isMapped, octets] at h
  simp only [List.cons.injEq, and_true]
  omega

theorem private_of_nonPublicV6 {segments : List Nat} (hlength : segments.length = 8)
    (hlt : ∀ n ∈ segments, n < 65536)
    (h : isNonPublicIp (.v6 segments) = true) : guard (.v6 segments) = true := by
  rw [guard]
  by_cases hmapped : isMapped (octets segments) = true
  · rw [if_pos hmapped]
    obtain ⟨hi, lo, rfl⟩ := mapped_segments hlength hmapped
    exact private_of_nonPublicV4 h
  · rw [if_neg hmapped]
    obtain ⟨s0, s1, s2, s3, s4, s5, s6, s7, rfl⟩ := eight_segments hlength
    have h0 : s0 < 65536 := hlt s0 (by simp)
    have hrange := unicast_range (by omega : s0 / 256 < 256)
    have houtside : s0 / 256 / 32 ≠ 1
        ∨ s0 = 0x2001 ∧ s1 = 0x0db8 := by
      simp only [isNonPublicIp] at h
      split at h
      · rename_i heq
        rw [heq] at hmapped
        exact (hmapped rfl).elim
      · simp only [List.getD_cons_zero, List.getD_cons_succ, Bool.or_eq_true,
          decide_eq_true_eq, List.cons.injEq, and_true, or_assoc] at h
        rcases h with ⟨rfl, _⟩ | ⟨rfl, _⟩ | h | h | h | h | h
        · exact Or.inl (by decide)
        · exact Or.inl (by decide)
        · exact Or.inl (by omega)
        · exact Or.inl (by omega)
        · exact Or.inl (by omega)
        · exact Or.inl (by omega)
        · exact Or.inr h
    rcases houtside with houtside | ⟨rfl, rfl⟩
    · have hno : (s0 / 256 &&& 0xe0 = 0x20) = False :=
        eq_false fun heq => houtside (hrange.mp heq)
      simp [privateV6, octets, hno]
    · simp [privateV6, octets]

/-! ## One answer for an address, and none too mild -/

/-- **THE ADDRESS GUARDS AGREE.**  Every spelling of an IPv6 address is read
    as its sixteen bytes; all spellings of one address get one answer; and an
    address the broker calls non-public is private for the adapter. -/
theorem address_guards_agree (h : ReadsAddresses isIP) :
    (∀ text segments, Zoned text segments →
      ipv6Bytes isIP text = some (octets segments)
        ∧ (octets segments).length = 16 ∧ ∀ byte ∈ octets segments, byte < 256)
    ∧ (∀ text text' ip, Denotes text ip → Denotes text' ip →
      privateAddress isIP text = privateAddress isIP text')
    ∧ (∀ text ip, Denotes text ip → isNonPublicIp ip = true →
      privateAddress isIP text = true) := by
  refine ⟨fun text segments ht => ?_, fun text text' ip ht ht' => ?_,
    fun text ip ht hip => ?_⟩
  · obtain ⟨t, hspells, _⟩ := id ht
    obtain ⟨hlength, hlt⟩ := hspells.segments
    refine ⟨h.bytes ht, ?_, octets_lt hlt⟩
    rw [octets_length, hlength]
  · rw [h.guard_eq ht, h.guard_eq ht']
  · rw [h.guard_eq ht]
    cases ip with
    | v4 a b c d => exact private_of_nonPublicV4 hip
    | v6 segments =>
        obtain ⟨t, hspells, _⟩ := ht
        obtain ⟨hlength, hlt⟩ := hspells.segments
        exact private_of_nonPublicV6 hlength hlt hip

open Classical in
/-- The platform's answer, by the grammar itself. -/
noncomputable def grammarIsIP (t : List Char) : Nat :=
  if ∃ a b c d, IsDotted t a b c d then 4
  else if ∃ ns, Spells true t ns then 6
  else 0

theorem grammarIsIP_reads : ReadsAddresses grammarIsIP where
  four t := by
    unfold grammarIsIP
    split
    · rename_i hfour
      exact ⟨fun _ => hfour, fun _ => rfl⟩
    · rename_i hfour
      refine ⟨fun h => ?_, fun h => (hfour h).elim⟩
      split at h <;> cases h
  six t _ := by
    unfold grammarIsIP
    split
    · rename_i hfour
      obtain ⟨a, b, c, d, hd⟩ := hfour
      refine ⟨fun h => (nomatch h), fun ⟨ns, hs⟩ => ?_⟩
      exact (hd.not_mem (by decide) (by decide) hs.colon_mem).elim
    · split
      · rename_i hsix
        exact ⟨fun _ => hsix, fun _ => rfl⟩
      · rename_i hsix
        exact ⟨fun h => (nomatch h), fun h => (hsix h).elim⟩

/-- The mapped spelling of 10.0.0.1, with a zone. -/
theorem zoned_mapped : Zoned "::fFfF:10.0.0.1%eth0".toList
    [0, 0, 0, 0, 0, 65535, 2560, 1] :=
  ⟨"::fFfF:10.0.0.1".toList,
    .compressed .empty (.groups (.cons (t := "fFfF".toList)
      ⟨by decide, by decide, by decide⟩
      (.dotted (a := 10) (b := 0) (c := 0) (d := 1) rfl
        ⟨by decide, by decide⟩))) (by decide),
    Or.inr ⟨"eth0".toList, by decide, by decide⟩⟩

theorem address_guards_agree_mapped :
    ipv6Bytes grammarIsIP "::fFfF:10.0.0.1%eth0".toList
        = some [0, 0, 0, 0, 0, 0, 0, 0, 0, 0, 255, 255, 10, 0, 0, 1]
      ∧ privateAddress grammarIsIP "::fFfF:10.0.0.1%eth0".toList = true := by
  have h := address_guards_agree grammarIsIP_reads
  exact ⟨(h.1 _ _ zoned_mapped).1, h.2.2 _ (.v6 _) zoned_mapped (by decide)⟩

end CheckoutAdapter
