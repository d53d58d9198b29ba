import Cixa.IpAddr
import Mathlib.Data.List.Forall2

/-! # Address texts — what spells an IPv4 or an IPv6 address

    The grammar of address texts, as relations between characters and values:
    a numeral in a radix, a 16-bit group of one to four hexadecimal digits,
    groups separated by colons, one `::` for at least one zero group, and a
    dotted IPv4 address in place of the last two groups.

    A relation, not a reader: one address has MANY spellings, and a reader of
    them is right when it answers the address for every one. -/

namespace AddressText

open Chars IpAddr

/-! ## Numerals -/

/-- The value of a text of digits, read on from `start`. -/
def numeral (radix : Nat) (start : Nat) (text : List Char) : Option Nat :=
  text.foldlM (fun acc c => (digitValue radix c).map (acc * radix + ·)) start

@[simp] theorem numeral_nil (radix start : Nat) :
    numeral radix start [] = some start := rfl

theorem numeral_cons (radix start : Nat) (c : Char) (text : List Char) :
    numeral radix start (c :: text)
      = (digitValue radix c).bind
          (fun d => numeral radix (start * radix + d) text) := by
  show (digitValue radix c).map (start * radix + ·) >>= _ = _
  cases digitValue radix c with
  | none => rfl
  | some d => rfl

theorem numeral_append (radix start : Nat) (text rest : List Char) :
    numeral radix start (text ++ rest)
      = (numeral radix start text).bind (fun n => numeral radix n rest) :=
  List.foldlM_append ..

/-- Every character of a numeral is a digit. -/
theorem numeral_digits {radix start n : Nat} {text : List Char}
    (h : numeral radix start text = some n) :
    ∀ c ∈ text, (digitValue radix c).isSome = true := by
  induction text generalizing start with
  | nil => intro c hc; cases hc
  | cons d text ih =>
      rw [numeral_cons] at h
      obtain ⟨v, hv, hrest⟩ := Option.bind_eq_some_iff.mp h
      intro c hc
      rcases List.mem_cons.mp hc with rfl | hc
      · rw [hv]; rfl
      · exact ih hrest c hc

/-- The reader of leading digits takes a numeral whole. -/
theorem readDigits_numeral {radix start n : Nat} {text : List Char}
    (h : numeral radix start text = some n) :
    (readDigits radix text).1.foldl (fun acc d => acc * radix + d) start = n
      ∧ (readDigits radix text).1.length = text.length := by
  induction text generalizing start with
  | nil => exact ⟨Option.some.inj h, rfl⟩
  | cons c text ih =>
      rw [numeral_cons] at h
      obtain ⟨d, hd, hrest⟩ := Option.bind_eq_some_iff.mp h
      obtain ⟨hvalue, hlength⟩ := ih hrest
      simp only [readDigits, hd, List.foldl_cons, List.length_cons]
      exact ⟨hvalue, by rw [hlength]⟩

theorem digitValue_digitChar {n : Nat} (h : n < 16) :
    digitValue 16 n.digitChar = some n := by
  have all : ∀ i : Fin 16, digitValue 16 i.val.digitChar = some i.val := by
    decide
  exact all ⟨n, h⟩

/-- Printing a number in hexadecimal and reading it gives it back. -/
theorem numeral_toDigits (n : Nat) :
    numeral 16 0 (Nat.toDigits 16 n) = some n := by
  induction n using Nat.strongRecOn with
  | ind n ih =>
      rw [Nat.toDigits_eq_if (by decide)]
      by_cases hn : n < 16
      · rw [if_pos hn, numeral_cons, digitValue_digitChar hn]
        simp
      · rw [if_neg hn, numeral_append, ih (n / 16) (by omega)]
        simp only [Option.bind_some]
        rw [numeral_cons, digitValue_digitChar (by omega)]
        simp only [Option.bind_some, numeral_nil, Option.some.injEq]
        omega

/-! ## Groups -/

/-- A group: one to four hexadecimal digits. -/
structure IsGroup (text : List Char) (n : Nat) : Prop where
  nonempty : text ≠ []
  short : text.length ≤ 4
  value : numeral 16 0 text = some n

/-- Four decimal octets without leading zeros, joined by dots. -/
structure IsDotted (text : List Char) (a b c d : Nat) : Prop where
  octets : a < 256 ∧ b < 256 ∧ c < 256 ∧ d < 256
  spelled : text = Nat.toDigits 10 a ++ '.' :: (Nat.toDigits 10 b
    ++ '.' :: (Nat.toDigits 10 c ++ '.' :: Nat.toDigits 10 d))

/-- Groups separated by colons; where `tail` holds, an IPv4 address may stand
    for the last two. -/
inductive Groups (tail : Bool) : List Char → List Nat → Prop where
  | last {t : List Char} {n : Nat} : IsGroup t n → Groups tail t [n]
  | dotted {t : List Char} {a b c d : Nat} : tail = true → IsDotted t a b c d →
      Groups tail t [a * 256 + b, c * 256 + d]
  | cons {t u : List Char} {n : Nat} {ns : List Nat} : IsGroup t n →
      Groups tail u ns → Groups tail (t ++ ':' :: u) (n :: ns)

/-- One side of `::`: nothing, or groups. -/
inductive Side (tail : Bool) : List Char → List Nat → Prop where
  | empty : Side tail [] []
  | groups {t : List Char} {ns : List Nat} : Groups tail t ns → Side tail t ns

/-- **THE ADDRESS TEXTS.**  Eight groups in full, or fewer around one `::`
    that stands for the zero groups in between. -/
inductive Spells (tail : Bool) : List Char → List Nat → Prop where
  | full {t : List Char} {ns : List Nat} : Groups tail t ns → ns.length = 8 →
      Spells tail t ns
  | compressed {t u : List Char} {ls rs : List Nat} : Side false t ls →
      Side tail u rs → ls.length + rs.length ≤ 7 →
      Spells tail (t ++ ':' :: ':' :: u)
        (ls ++ List.replicate (8 - ls.length - rs.length) 0 ++ rs)

/-- An address text, with or without a zone behind it. -/
def Zoned (text : List Char) (ns : List Nat) : Prop :=
  ∃ t, Spells true t ns ∧ (text = t ∨ ∃ zone, zone ≠ [] ∧ text = t ++ '%' :: zone)

/-- A text spells an address. -/
def Denotes (text : List Char) : IpAddr → Prop
  | .v4 a b c d => IsDotted text a b c d
  | .v6 ns => Zoned text ns

/-! ## The characters of a spelling -/

theorem IsGroup.digits {t : List Char} {n : Nat} (h : IsGroup t n) :
    ∀ c ∈ t, (digitValue 16 c).isSome = true := numeral_digits h.value

/-- A character that is not a hexadecimal digit stands in no group. -/
theorem IsGroup.not_mem {t : List Char} {n : Nat} (h : IsGroup t n) {c : Char}
    (hc : digitValue 16 c = none) : c ∉ t := by
  intro hmem
  have := h.digits c hmem
  rw [hc] at this
  cases this

/-- A group is at most 16 bits. -/
theorem numeral_lt {start n : Nat} {text : List Char}
    (h : numeral 16 start text = some n) :
    n < (start + 1) * 16 ^ text.length := by
  induction text generalizing start with
  | nil =>
      rw [← Option.some.inj h]
      simp
  | cons c text ih =>
      rw [numeral_cons] at h
      obtain ⟨d, hd, hrest⟩ := Option.bind_eq_some_iff.mp h
      have hlt : d < 16 := of_decide_eq_true (Option.filter_eq_some_iff.mp hd).2
      calc n < (start * 16 + d + 1) * 16 ^ text.length := ih hrest
        _ ≤ ((start + 1) * 16) * 16 ^ text.length :=
            Nat.mul_le_mul_right _ (by omega)
        _ = (start + 1) * 16 ^ (c :: text).length := by
            rw [List.length_cons, Nat.pow_succ, Nat.mul_assoc,
              Nat.mul_comm 16]

theorem IsGroup.lt {t : List Char} {n : Nat} (h : IsGroup t n) : n < 65536 := by
  have hn := numeral_lt h.value
  have hpow : 16 ^ t.length ≤ 16 ^ 4 := Nat.pow_le_pow_right (by decide) h.short
  omega

/-- Every number of 16 bits is spelled by its hexadecimal digits. -/
theorem isGroup_toDigits {n : Nat} (h : n < 65536) :
    IsGroup (Nat.toDigits 16 n) n where
  nonempty := Nat.toDigits_ne_nil
  short := (Nat.length_toDigits_le_iff (by decide) (by decide)).mpr h
  value := numeral_toDigits n

theorem IsDotted.chars {t : List Char} {a b c d : Nat}
    (h : IsDotted t a b c d) : ∀ x ∈ t, x.isDigit = true ∨ x = '.' := by
  intro x hx
  rw [h.spelled] at hx
  have digit : ∀ {n : Nat}, x ∈ Nat.toDigits 10 n → x.isDigit = true :=
    fun hmem => Nat.isDigit_of_mem_toDigits (by decide) (by decide) hmem
  simp only [List.mem_append, List.mem_cons] at hx
  rcases hx with hx | rfl | hx | rfl | hx | rfl | hx
  · exact Or.inl (digit hx)
  · exact Or.inr rfl
  · exact Or.inl (digit hx)
  · exact Or.inr rfl
  · exact Or.inl (digit hx)
  · exact Or.inr rfl
  · exact Or.inl (digit hx)

theorem IsDotted.not_mem {t : List Char} {a b c d : Nat}
    (h : IsDotted t a b c d) {x : Char} (hdigit : x.isDigit = false)
    (hdot : x ≠ '.') : x ∉ t := by
  intro hx
  rcases h.chars x hx with hx | hx
  · rw [hdigit] at hx
    cases hx
  · exact hdot hx

theorem IsDotted.dot_mem {t : List Char} {a b c d : Nat}
    (h : IsDotted t a b c d) : '.' ∈ t := by
  rw [h.spelled]
  exact List.mem_append_right _ (List.mem_cons_self ..)

/-- Groups without a dotted tail hold hexadecimal digits and colons only. -/
theorem Groups.not_mem {t : List Char} {ns : List Nat} (h : Groups false t ns)
    {c : Char} (hc : digitValue 16 c = none) (hcolon : c ≠ ':') : c ∉ t := by
  induction h with
  | last hg => exact hg.not_mem hc
  | dotted htail _ => cases htail
  | cons hg _ ih =>
      intro hmem
      rcases List.mem_append.mp hmem with hmem | hmem
      · exact hg.not_mem hc hmem
      · rcases List.mem_cons.mp hmem with h | hmem
        · exact hcolon h
        · exact ih hmem

theorem Side.not_mem {t : List Char} {ns : List Nat} (h : Side false t ns)
    {c : Char} (hc : digitValue 16 c = none) (hcolon : c ≠ ':') : c ∉ t := by
  cases h with
  | empty => exact List.not_mem_nil
  | groups hg => exact hg.not_mem hc hcolon

theorem Spells.not_mem {t : List Char} {ns : List Nat} (h : Spells false t ns)
    {c : Char} (hc : digitValue 16 c = none) (hcolon : c ≠ ':') : c ∉ t := by
  cases h with
  | full hg _ => exact hg.not_mem hc hcolon
  | compressed hl hr _ =>
      intro hmem
      rcases List.mem_append.mp hmem with hmem | hmem
      · exact hl.not_mem hc hcolon hmem
      · rcases List.mem_cons.mp hmem with h | hmem
        · exact hcolon h
        · rcases List.mem_cons.mp hmem with h | hmem
          · exact hcolon h
          · exact hr.not_mem hc hcolon hmem

/-- Every spelling has a colon. -/
theorem Spells.colon_mem {tail : Bool} {t : List Char} {ns : List Nat}
    (h : Spells tail t ns) : ':' ∈ t := by
  cases h with
  | full hg hlength =>
      cases hg with
      | last _ => cases hlength
      | dotted _ _ => cases hlength
      | cons _ _ => exact List.mem_append_right _ (List.mem_cons_self ..)
  | compressed _ _ _ => exact List.mem_append_right _ (List.mem_cons_self ..)

/-! ## The groups are those of an address -/

theorem IsDotted.groups_lt {t : List Char} {a b c d : Nat}
    (h : IsDotted t a b c d) : a * 256 + b < 65536 ∧ c * 256 + d < 65536 := by
  obtain ⟨ha, hb, hc, hd⟩ := h.octets
  omega

theorem Groups.lt {tail : Bool} {t : List Char} {ns : List Nat}
    (h : Groups tail t ns) : ∀ n ∈ ns, n < 65536 := by
  induction h with
  | last hg =>
      intro n hn
      rw [List.mem_singleton.mp hn]
      exact hg.lt
  | dotted _ hd =>
      intro n hn
      rcases List.mem_cons.mp hn with rfl | hn
      · exact hd.groups_lt.1
      · rw [List.mem_singleton.mp hn]
        exact hd.groups_lt.2
  | cons hg _ ih =>
      intro n hn
      rcases List.mem_cons.mp hn with rfl | hn
      · exact hg.lt
      · exact ih n hn

theorem Side.lt {tail : Bool} {t : List Char} {ns : List Nat}
    (h : Side tail t ns) : ∀ n ∈ ns, n < 65536 := by
  cases h with
  | empty => intro n hn; cases hn
  | groups hg => exact hg.lt

/-- **A SPELLING IS OF AN ADDRESS**: eight groups of 16 bits. -/
theorem Spells.segments {tail : Bool} {t : List Char} {ns : List Nat}
    (h : Spells tail t ns) : ns.length = 8 ∧ ∀ n ∈ ns, n < 65536 := by
  cases h with
  | full hg hlength => exact ⟨hlength, hg.lt⟩
  | @compressed _ _ ls rs hl hr hlength =>
      constructor
      · rw [List.length_append, List.length_append, List.length_replicate]
        omega
      · intro n hn
        simp only [List.mem_append, List.mem_replicate] at hn
        rcases hn with (hn | ⟨_, rfl⟩) | hn
        · exact hl.lt n hn
        · decide
        · exact hr.lt n hn

/-! ## Case -/

theorem digitValue_lower (c : Char) :
    digitValue 16 (toAsciiLowercase c) = digitValue 16 c := by
  unfold toAsciiLowercase
  by_cases hupper : isAsciiUppercase c = true
  · rw [if_pos hupper]
    unfold isAsciiUppercase at hupper
    rw [Bool.and_eq_true, decide_eq_true_eq, decide_eq_true_eq] at hupper
    have all : ∀ i : Fin 26, digitValue 16 (Char.ofNat (65 + i.val + 32))
        = digitValue 16 (Char.ofNat (65 + i.val)) := by decide
    have hlow : 65 ≤ c.toNat := hupper.1
    have hhigh : c.toNat ≤ 90 := hupper.2
    have h := all ⟨c.toNat - 65, by omega⟩
    have heq : 65 + (c.toNat - 65) = c.toNat := by omega
    simp only [heq, Char.ofNat_toNat] at h
    exact h
  · rw [if_neg hupper]

theorem toAsciiLowercase_eq {c : Char} (h : isAsciiUppercase c = false) :
    toAsciiLowercase c = c := by
  unfold toAsciiLowercase
  rw [h]
  rfl

theorem numeral_lower (start : Nat) (text : List Char) :
    numeral 16 start (text.map toAsciiLowercase) = numeral 16 start text := by
  induction text generalizing start with
  | nil => rfl
  | cons c text ih =>
      rw [List.map_cons, numeral_cons, numeral_cons, digitValue_lower]
      cases digitValue 16 c with
      | none => rfl
      | some d => exact ih _

theorem IsGroup.lower {t : List Char} {n : Nat} (h : IsGroup t n) :
    IsGroup (t.map toAsciiLowercase) n where
  nonempty hnil := h.nonempty (List.map_eq_nil_iff.mp hnil)
  short := by rw [List.length_map]; exact h.short
  value := by rw [numeral_lower]; exact h.value

theorem IsDotted.lower {t : List Char} {a b c d : Nat}
    (h : IsDotted t a b c d) : t.map toAsciiLowercase = t := by
  refine (List.map_congr_left fun x hx => ?_).trans (List.map_id t)
  refine toAsciiLowercase_eq ?_
  rcases h.chars x hx with hdigit | rfl
  · rw [Char.isDigit, Bool.and_eq_true, decide_eq_true_eq,
      decide_eq_true_eq] at hdigit
    have hhigh : x.toNat ≤ 57 := hdigit.2
    refine Bool.and_eq_false_iff.mpr (Or.inl (decide_eq_false fun hle => ?_))
    have hlow : 65 ≤ x.toNat := hle
    omega
  · decide

theorem Groups.lower {tail : Bool} {t : List Char} {ns : List Nat}
    (h : Groups tail t ns) : Groups tail (t.map toAsciiLowercase) ns := by
  induction h with
  | last hg => exact .last hg.lower
  | dotted htail hd =>
      rw [hd.lower]
      exact .dotted htail hd
  | cons hg _ ih =>
      rw [List.map_append]
      exact .cons hg.lower ih

theorem Side.lower {tail : Bool} {t : List Char} {ns : List Nat}
    (h : Side tail t ns) : Side tail (t.map toAsciiLowercase) ns := by
  cases h with
  | empty => exact .empty
  | groups hg => exact .groups hg.lower

/-- Capital and small digits spell the same address. -/
theorem Spells.lower {tail : Bool} {t : List Char} {ns : List Nat}
    (h : Spells tail t ns) : Spells tail (t.map toAsciiLowercase) ns := by
  cases h with
  | full hg hlength => exact .full hg.lower hlength
  | compressed hl hr hlength =>
      rw [List.map_append]
      exact .compressed hl.lower hr.lower hlength

/-! ## The dotted tail -/

/-- The two groups an IPv4 address stands for, in hexadecimal. -/
def dottedGroups (a b c d : Nat) : List Char :=
  Nat.toDigits 16 (a * 256 + b) ++ ':' :: Nat.toDigits 16 (c * 256 + d)

theorem IsDotted.asGroups {t : List Char} {a b c d : Nat}
    (h : IsDotted t a b c d) :
    Groups false (dottedGroups a b c d) [a * 256 + b, c * 256 + d] :=
  .cons (isGroup_toDigits h.groups_lt.1) (.last (isGroup_toDigits h.groups_lt.2))

/-- A text whose last part, behind a colon, is an IPv4 address; spelling that
    part in hexadecimal gives a text of the kind `P`. -/
def DottedTail (P : List Char → Prop) (t : List Char) : Prop :=
  ∃ before quad a b c d, t = before ++ ':' :: quad ∧ IsDotted quad a b c d
    ∧ P (before ++ ':' :: dottedGroups a b c d)

theorem DottedTail.prepend {P Q : List Char → Prop} {t : List Char}
    (h : DottedTail P t) (start : List Char) (hPQ : ∀ u, P u → Q (start ++ u)) :
    DottedTail Q (start ++ t) := by
  obtain ⟨before, quad, a, b, c, d, rfl, hd, hP⟩ := h
  refine ⟨start ++ before, quad, a, b, c, d, ?_, hd, ?_⟩
  · rw [List.append_assoc]
  · rw [List.append_assoc]
    exact hPQ _ hP

/-- Groups have no dotted tail, or are one, or end with one. -/
theorem Groups.tail_cases {t : List Char} {ns : List Nat}
    (h : Groups true t ns) :
    Groups false t ns
      ∨ (∃ a b c d, IsDotted t a b c d ∧ ns = [a * 256 + b, c * 256 + d])
      ∨ DottedTail (fun u => Groups false u ns) t := by
  induction h with
  | last hg => exact Or.inl (.last hg)
  | dotted _ hd => exact Or.inr (Or.inl ⟨_, _, _, _, hd, rfl⟩)
  | @cons t u n ns hg _ ih =>
      rcases ih with hu | ⟨a, b, c, d, hd, rfl⟩ | hu
      · exact Or.inl (.cons hg hu)
      · exact Or.inr (Or.inr ⟨t, u, a, b, c, d, rfl, hd, .cons hg hd.asGroups⟩)
      · refine Or.inr (Or.inr ?_)
        have h := hu.prepend (t ++ [':']) (Q := fun v => Groups false v (n :: ns))
          fun v hv => by
            rw [List.append_assoc]
            exact .cons hg hv
        rwa [List.append_assoc] at h

/-- **THE DOTTED TAIL IS TWO GROUPS.**  A spelling has no dotted tail, or it
    stays a spelling of the same address when the tail is written as two
    hexadecimal groups. -/
theorem Spells.tail_cases {t : List Char} {ns : List Nat}
    (h : Spells true t ns) :
    Spells false t ns ∨ DottedTail (fun u => Spells false u ns) t := by
  cases h with
  | full hg hlength =>
      rcases hg.tail_cases with h | ⟨a, b, c, d, _, rfl⟩ | h
      · exact Or.inl (.full h hlength)
      · cases hlength
      · exact Or.inr (h.prepend [] fun u hu => .full hu hlength)
  | @compressed t u ls rs hl hr hlength =>
      cases hr with
      | empty => exact Or.inl (.compressed hl .empty hlength)
      | groups hg =>
          rcases hg.tail_cases with h | ⟨a, b, c, d, hd, rfl⟩ | h
          · exact Or.inl (.compressed hl (.groups h) hlength)
          · refine Or.inr ⟨t ++ [':'], u, a, b, c, d, ?_, hd, ?_⟩
            · rw [List.append_assoc]
              rfl
            · show Spells false (t ++ [':'] ++ ':' :: dottedGroups a b c d) _
              rw [List.append_assoc t]
              exact .compressed hl (.groups hd.asGroups) hlength
          · refine Or.inr ?_
            have h := h.prepend (t ++ [':', ':']) (Q := fun v => Spells false v
              (ls ++ List.replicate (8 - ls.length - rs.length) 0 ++ rs))
              fun v hv => by
                rw [List.append_assoc t]
                exact .compressed hl (.groups hv) hlength
            rwa [List.append_assoc t] at h

/-- No spelling has a zone mark. -/
theorem Spells.no_zone {t : List Char} {ns : List Nat} (h : Spells true t ns) :
    '%' ∉ t := by
  rcases h.tail_cases with h | ⟨before, quad, a, b, c, d, rfl, hd, h⟩
  · exact h.not_mem (by decide) (by decide)
  · have hgroups := h.not_mem (c := '%') (by decide) (by decide)
    intro hmem
    rcases List.mem_append.mp hmem with hmem | hmem
    · exact hgroups (List.mem_append_left _ hmem)
    · rcases List.mem_cons.mp hmem with h | hmem
      · exact absurd h (by decide)
      · exact hd.not_mem (by decide) (by decide) hmem

/-! ## Splitting at colons -/

/-- The parts between the occurrences of `::`, from the left. -/
def splitDouble : List Char → List (List Char)
  | [] => [[]]
  | [c] => [[c]]
  | c :: d :: rest =>
      if c = ':' ∧ d = ':' then [] :: splitDouble rest
      else (splitDouble (d :: rest)).modifyHead (c :: ·)

example : splitDouble "a:::b".toList = ["a".toList, ":b".toList] := by decide

theorem splitDouble_cons {c : Char} (hc : c ≠ ':') (rest : List Char) :
    splitDouble (c :: rest) = (splitDouble rest).modifyHead (c :: ·) := by
  cases rest with
  | nil => rfl
  | cons d rest => rw [splitDouble, if_neg fun h => hc h.1]

theorem splitDouble_colon {c : Char} (hc : c ≠ ':') (rest : List Char) :
    splitDouble (':' :: c :: rest)
      = (splitDouble (c :: rest)).modifyHead (':' :: ·) := by
  rw [splitDouble, if_neg fun h => hc h.2]

theorem splitDouble_append {t : List Char} (ht : ':' ∉ t) (rest : List Char) :
    splitDouble (t ++ rest) = (splitDouble rest).modifyHead (t ++ ·) := by
  induction t with
  | nil => exact (congrFun List.modifyHead_id _).symm
  | cons c t ih =>
      have hc : c ≠ ':' := fun h => ht (h ▸ List.mem_cons_self ..)
      rw [List.cons_append, splitDouble_cons hc,
        ih fun h => ht (List.mem_cons_of_mem _ h), List.modifyHead_modifyHead]
      rfl

theorem IsGroup.no_colon {t : List Char} {n : Nat} (h : IsGroup t n) :
    ':' ∉ t := h.not_mem (by decide)

/-- Groups start with a digit. -/
theorem Groups.head {t : List Char} {ns : List Nat} (h : Groups false t ns) :
    ∃ c rest, t = c :: rest ∧ c ≠ ':' := by
  have first : ∀ {u : List Char} {n : Nat}, IsGroup u n →
      ∃ c rest, u = c :: rest ∧ c ≠ ':' := by
    intro u n hg
    cases u with
    | nil => exact (hg.nonempty rfl).elim
    | cons c rest =>
        exact ⟨c, rest, rfl, fun h => hg.no_colon (h ▸ List.mem_cons_self ..)⟩
  cases h with
  | last hg => exact first hg
  | dotted htail _ => cases htail
  | cons hg _ =>
      obtain ⟨c, rest, rfl, hc⟩ := first hg
      exact ⟨c, _, rfl, hc⟩

/-- Groups contain no `::`, and none begins at their end. -/
theorem Groups.splitDouble {t : List Char} {ns : List Nat}
    (h : Groups false t ns) (rest : List Char) :
    splitDouble (t ++ rest) = (AddressText.splitDouble rest).modifyHead (t ++ ·) := by
  induction h with
  | last hg => exact splitDouble_append hg.no_colon rest
  | dotted htail _ => cases htail
  | cons hg hu ih =>
      obtain ⟨c, u, rfl, hc⟩ := hu.head
      rw [List.append_assoc, splitDouble_append hg.no_colon, List.cons_append,
        List.cons_append, splitDouble_colon hc, ← List.cons_append, ih,
        List.modifyHead_modifyHead, List.modifyHead_modifyHead]
      congr 1
      funext v
      simp

/-- Splitting groups at colons gives a text for each group. -/
theorem Groups.split {t : List Char} {ns : List Nat} (h : Groups false t ns) :
    List.Forall₂ IsGroup (t.splitOn ':') ns := by
  induction h with
  | last hg =>
      rw [List.splitOn_eq_singleton hg.no_colon]
      exact .cons hg .nil
  | dotted htail _ => cases htail
  | cons hg _ ih =>
      rw [List.splitOn_append_cons_self_of_not_mem hg.no_colon]
      exact .cons hg ih

end AddressText
