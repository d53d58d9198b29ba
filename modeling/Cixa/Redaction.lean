import Cixa.Matching
import Cixa.Text
import Cixa.UrlHost

/-! # Redaction — what the patterns of card data find

    A card number is found between two characters that are no word
    characters, and a security code between its phrase and one.  Either match
    begins with a word character and ends with a digit, so matches and what
    replaces them touch only characters that are NOT word characters. -/

namespace Treasury

open Regex Chars CixaHost UrlHost

variable {isWord : Char → Bool}

/-! ## Characters -/

/-- The word characters as they are documented: of the ASCII characters the
    letters, the digits and the underscore, and the long s. -/
structure WordChars (isWord : Char → Bool) : Prop where
  ascii : ∀ c, IsAscii c → isWord c = (isAsciiAlphanumeric c || c == '_')
  long : isWord (Char.ofNat 0x17f) = true

/-- A separator between the digits of a card number. -/
def isSep (c : Char) : Bool := c == ' ' || c == '-'

/-- A letter of a phrase is a word character, no digit, no separator and no
    bracket. -/
structure Lettered (isWord : Char → Bool) (c : Char) : Prop where
  word : isWord c = true
  digit : isAsciiDigit c = false
  sep : isSep c = false
  opens : c ≠ '['
  closes : c ≠ ']'

theorem isAscii_digit {c : Char} (h : isAsciiDigit c = true) : IsAscii c := by
  obtain ⟨_, hhi⟩ := Bool.and_eq_true_iff.mp h
  have hle : c.val ≤ 57 := of_decide_eq_true hhi
  exact UInt32.lt_of_le_of_lt hle (by decide)

theorem WordChars.digit (hw : WordChars isWord) {c : Char}
    (h : isAsciiDigit c = true) : isWord c = true := by
  rw [hw.ascii c (isAscii_digit h)]
  unfold isAsciiAlphanumeric
  rw [h]
  rfl

theorem isSep_cases {c : Char} (h : isSep c = true) : c = ' ' ∨ c = '-' :=
  (Bool.or_eq_true_iff.mp h).imp beq_iff_eq.mp beq_iff_eq.mp

theorem WordChars.sep (hw : WordChars isWord) {c : Char} (h : isSep c = true) :
    isWord c = false := by
  rcases isSep_cases h with rfl | rfl
  · rw [hw.ascii ' ' (by decide)]
    decide
  · rw [hw.ascii '-' (by decide)]
    decide

/-- The characters that `letter` matches. -/
def isLetter (l c : Char) : Bool :=
  toAsciiLowercase c == l || (l == 's' && c == Char.ofNat 0x17f)

theorem isAscii_lower {c : Char}
    (h : isAsciiLowercase (toAsciiLowercase c) = true) : IsAscii c := by
  unfold toAsciiLowercase at h
  split at h
  · rename_i hupper
    obtain ⟨_, hhi⟩ := Bool.and_eq_true_iff.mp hupper
    have hle : c.val ≤ 90 := of_decide_eq_true hhi
    exact UInt32.lt_of_le_of_lt hle (by decide)
  · obtain ⟨_, hhi⟩ := Bool.and_eq_true_iff.mp h
    have hle : c.val ≤ 122 := of_decide_eq_true hhi
    exact UInt32.lt_of_le_of_lt hle (by decide)

theorem WordChars.letter (hw : WordChars isWord) {l c : Char}
    (hl : isAsciiLowercase l = true) (h : isLetter l c = true) :
    Lettered isWord c := by
  rcases Bool.or_eq_true_iff.mp h with h | h
  · obtain rfl := beq_iff_eq.mp h
    have hc := isAscii_lower hl
    have hfacts := hc.cases (P := fun c =>
      isAsciiLowercase (toAsciiLowercase c) = true →
        (isAsciiAlphanumeric c || c == '_') = true ∧ isAsciiDigit c = false
          ∧ isSep c = false ∧ c ≠ '[' ∧ c ≠ ']') (by decide) hl
    obtain ⟨hword, hdigit, hsep, hopens, hcloses⟩ := hfacts
    exact ⟨(hw.ascii c hc).trans hword, hdigit, hsep, hopens, hcloses⟩
  · obtain rfl := beq_iff_eq.mp (Bool.and_eq_true_iff.mp h).2
    exact ⟨hw.long, by decide, by decide, by decide, by decide⟩

/-! ## The phrase of a code -/

/-- A word in letters of either case. -/
theorem word_reads {letters : List Char} {c d : Cursor}
    (h : Steps isWord (word letters) c d) :
    ∃ m, List.Forall₂ (fun l x => isLetter l x = true) letters m ∧ Reads c m d
      ∧ d.groups = c.groups := by
  induction letters generalizing c with
  | nil =>
      cases h with
      | stop _ => exact ⟨[], .nil, .refl _, rfl⟩
  | cons l rest ih =>
      have hfirst : ∀ {e}, Steps isWord (letter l) c e → ∃ x, isLetter l x = true
          ∧ Reads c [x] e ∧ e.groups = c.groups := Steps.char
      cases rest with
      | nil =>
          obtain ⟨x, hx, hread, hgroups⟩ := hfirst h
          exact ⟨[x], .cons hx .nil, hread, hgroups⟩
      | cons l' rest =>
          obtain ⟨e, he, hd⟩ := h
          obtain ⟨x, hx, hread, hgroups⟩ := hfirst he
          obtain ⟨m, hm, hread', hgroups'⟩ := ih hd
          exact ⟨x :: m, .cons hx hm, hread.trans hread',
            hgroups'.trans hgroups⟩

theorem lettered_word (hw : WordChars isWord) {letters : List Char}
    (hl : letters.all isAsciiLowercase = true) {m : List Char}
    (h : List.Forall₂ (fun l x => isLetter l x = true) letters m) :
    ∀ x ∈ m, Lettered isWord x := by
  induction h with
  | nil => exact nofun
  | cons hx _ ih =>
      rw [List.all_cons, Bool.and_eq_true] at hl
      intro y hy
      rcases List.mem_cons.mp hy with rfl | hy
      · exact hw.letter hl.1 hx
      · exact ih hl.2 y hy

/-! ## The shape of a match -/

/-- A word character first and a digit last, after a digit or a separator,
    and no brackets. -/
structure Block (isWord : Char → Bool) (m : List Char) : Prop where
  head : ∃ x m', m = x :: m' ∧ isWord x = true
  tail : ∃ m' y x, m = m' ++ [y, x] ∧ isAsciiDigit x = true
    ∧ (isAsciiDigit y = true ∨ isSep y = true)
  bare : '[' ∉ m ∧ ']' ∉ m

/-- The text of a match is a block without a word character on either
    side. -/
structure Shaped (isWord : Char → Bool) (b : Option Char)
    (m rest : List Char) : Prop extends Block isWord m where
  start : b.any isWord = false
  stop : rest.head?.any isWord = false

theorem sep_not_digit {c : Char} (h : isSep c = true) :
    isAsciiDigit c = false := by
  rcases isSep_cases h with rfl | rfl
  · decide
  · decide

/-- A digit or a separator. -/
def isCard (c : Char) : Prop := isAsciiDigit c = true ∨ isSep c = true

theorem card_bare {m : List Char} (h : ∀ c ∈ m, isCard c) :
    '[' ∉ m ∧ ']' ∉ m := by
  constructor
  · intro hmem
    rcases h _ hmem with h | h
    · exact absurd h (by decide)
    · exact absurd h (by decide)
  · intro hmem
    rcases h _ hmem with h | h
    · exact absurd h (by decide)
    · exact absurd h (by decide)

/-- No digit is counted in a text without one. -/
theorem countP_digits_zero {m : List Char}
    (h : ∀ c ∈ m, isAsciiDigit c = false) : m.countP isAsciiDigit = 0 := by
  refine List.countP_eq_zero.mpr fun c hc => ?_
  rw [h c hc]
  exact Bool.false_ne_true

/-- Digits with single separators. -/
theorem digits_read {lo hi : Nat} {c d : Cursor}
    (h : Iterates (Steps isWord (.seq (.char isAsciiDigit)
      (.rep 0 1 (.char (fun c => c == ' ' || c == '-'))))) lo hi c d)
    (hle : lo ≤ hi) : ∃ m, (∀ c ∈ m, isCard c) ∧ lo ≤ m.countP isAsciiDigit
      ∧ m.countP isAsciiDigit ≤ hi
      ∧ (m = [] ∨ ∃ x m', m = x :: m' ∧ isAsciiDigit x = true) ∧ Reads c m d := by
  induction h with
  | stop hstop =>
      exact ⟨[], nofun, by rw [List.countP_nil]; omega, Nat.zero_le _,
        Or.inl rfl, .refl _⟩
  | more hfirst _ ih =>
      obtain ⟨e, hdigit, hsep⟩ := hfirst
      obtain ⟨x, hx, hread, _⟩ := Steps.char hdigit
      obtain ⟨s, hs, hread', _⟩ := Steps.optional hsep
      obtain ⟨m, hm, hlo, hhi, _, hread''⟩ := ih (by omega)
      have hcard : ∀ y ∈ s, isSep y = true := by
        rcases hs with rfl | ⟨y, rfl, hy⟩
        · exact nofun
        · intro z hz
          rw [List.mem_singleton.mp hz]
          exact hy
      have hnone : s.countP isAsciiDigit = 0 :=
        countP_digits_zero fun y hy => sep_not_digit (hcard y hy)
      have hcount : (x :: (s ++ m)).countP isAsciiDigit
          = m.countP isAsciiDigit + 1 := by
        rw [List.countP_cons_of_pos hx, List.countP_append, hnone, Nat.zero_add]
      refine ⟨x :: (s ++ m), ?_, by omega, by omega, Or.inr ⟨x, _, rfl, hx⟩,
        hread.trans (hread'.trans hread'')⟩
      intro y hy
      rcases List.mem_cons.mp hy with rfl | hy
      · exact Or.inl hx
      · exact (List.mem_append.mp hy).elim (fun hy => Or.inr (hcard y hy)) (hm y)

/-- **A CARD NUMBER** is thirteen to nineteen digits with single separators,
    between characters that are no word characters. -/
theorem pan_shaped (hw : WordChars isWord) {c d : Cursor}
    (h : Steps isWord panPattern c d) :
    ∃ m, Reads c m d ∧ Shaped isWord c.before m d.input ∧ (∀ x ∈ m, isCard x)
      ∧ m.countP isAsciiDigit ≤ 19 := by
  obtain ⟨c', ⟨hc, hstart⟩, e, hfront, d', hdigit, hd, hstop⟩ := h
  subst hc hd
  obtain ⟨front, hcard, hlo, hhi, hhead, hread⟩ := digits_read hfront (by omega)
  obtain ⟨x, hx, hread', _⟩ := Steps.char hdigit
  have hall : Reads c' (front ++ [x]) d := hread.trans hread'
  obtain ⟨x0, front', hfirst, hx0⟩ := hhead.resolve_left (by
    rintro rfl
    exact absurd hlo (by decide))
  have hne : front ≠ [] := by
    rw [hfirst]
    exact List.cons_ne_nil _ _
  have hcard' : ∀ y ∈ front ++ [x], isCard y := by
    intro y hy
    rcases List.mem_append.mp hy with hy | hy
    · exact hcard y hy
    · rw [List.mem_singleton.mp hy]
      exact Or.inl hx
  refine ⟨front ++ [x], hall, ⟨⟨⟨x0, front' ++ [x], ?_, hw.digit hx0⟩, ?_,
    card_bare hcard'⟩, ?_, ?_⟩, hcard', ?_⟩
  · rw [hfirst]
    rfl
  · refine ⟨front.dropLast, front.getLast hne, x, ?_, hx,
      hcard _ (List.getLast_mem _)⟩
    conv_lhs => rw [← List.dropLast_append_getLast hne]
    rw [List.append_assoc]
    rfl
  · have hinput := hall.1
    rw [hinput, hfirst] at hstart
    exact Edge.start hstart (hw.digit hx0)
  · have hbefore := hall.2
    rw [lastOf_append] at hbefore
    rw [hbefore] at hstop
    exact Edge.stop hstop (hw.digit hx)
  · rw [List.countP_append, List.countP_singleton]
    split
    · omega
    · omega

/-! ## The shape of a code -/

/-- What is kept of a match: its digits come after a character that is
    neither a digit nor a separator. -/
def Remains (kept : List Char) : Prop :=
  ∀ u x v, kept = u ++ x :: v → isAsciiDigit x = true →
    ∃ u' z, u = u' ++ [z] ∧ isAsciiDigit z = false ∧ isSep z = false

theorem Remains.digitless {kept : List Char}
    (h : ∀ c ∈ kept, isAsciiDigit c = false) : Remains kept := by
  intro u x v heq hx
  rw [h x (by rw [heq]; exact List.mem_append_right _ List.mem_cons_self)] at hx
  exact nomatch hx

/-- Text without digits after it keeps it so. -/
theorem Remains.append {kept rest : List Char} (h : Remains kept)
    (hrest : ∀ c ∈ rest, isAsciiDigit c = false) : Remains (kept ++ rest) := by
  intro u x v heq hx
  rcases List.append_eq_append_iff.mp heq with ⟨w, rfl, hw⟩ | ⟨w, hw, hw'⟩
  · have hmem : x ∈ rest := by
      rw [hw]
      exact List.mem_append_right _ List.mem_cons_self
    rw [hrest x hmem] at hx
    exact nomatch hx
  · cases w with
    | nil =>
        have hmem : x ∈ rest := by
          rw [← (show x :: v = rest from hw')]
          exact List.mem_cons_self
        rw [hrest x hmem] at hx
        exact nomatch hx
    | cons y w =>
        obtain ⟨rfl, _⟩ := List.cons.inj hw'
        exact h u x w hw hx

/-- One more character after one that is neither. -/
theorem Remains.snoc {kept : List Char} {z : Char} (h : Remains (kept ++ [z]))
    (hdigit : isAsciiDigit z = false) (hsep : isSep z = false) (x : Char) :
    Remains (kept ++ [z] ++ [x]) := by
  intro u y v heq hy
  rcases List.eq_nil_or_concat v with rfl | ⟨v', y', rfl⟩
  · obtain ⟨rfl, _⟩ := List.append_inj' heq rfl
    exact ⟨kept, z, rfl, hdigit, hsep⟩
  · rw [List.concat_eq_append, ← List.cons_append, ← List.append_assoc] at heq
    obtain ⟨heq, _⟩ := List.append_inj' heq rfl
    exact h u y v' heq hy

/-- The first two letters of a phrase. -/
def Begins (x y : Char) : Prop :=
  (isLetter 'c' x = true ∧ isLetter 'v' y = true)
    ∨ (isLetter 's' x = true ∧ isLetter 'e' y = true)

/-- A phrase: letters of either case, with a two after them or a separator
    between them. -/
structure Phrase (isWord : Char → Bool) (m : List Char) : Prop where
  head : ∃ x m', m = x :: m' ∧ isWord x = true
  begins : ∃ x y m', m = x :: y :: m' ∧ Begins x y
  kept : Remains m
  bare : '[' ∉ m ∧ ']' ∉ m
  digits : m.countP isAsciiDigit ≤ 1

theorem lettered_bare {m : List Char} (h : ∀ c ∈ m, Lettered isWord c) :
    '[' ∉ m ∧ ']' ∉ m :=
  ⟨fun hmem => (h _ hmem).opens rfl, fun hmem => (h _ hmem).closes rfl⟩

theorem lettered_head {letters m : List Char} (hne : letters ≠ [])
    (h : List.Forall₂ (fun l x => isLetter l x = true) letters m)
    (hm : ∀ x ∈ m, Lettered isWord x) :
    ∃ x m', m = x :: m' ∧ isWord x = true := by
  cases h with
  | nil => exact absurd rfl hne
  | cons hx _ => exact ⟨_, _, rfl, (hm _ List.mem_cons_self).word⟩

/-- The first two letters of a word. -/
theorem word_begins {a b : Char} {letters m : List Char}
    (h : List.Forall₂ (fun l x => isLetter l x = true) (a :: b :: letters) m) :
    ∃ x y m', m = x :: y :: m' ∧ isLetter a x = true ∧ isLetter b y = true := by
  cases h with
  | cons hx h =>
      cases h with
      | cons hy _ => exact ⟨_, _, _, rfl, hx, hy⟩

/-- A word that begins as *cvv* does, with an optional two. -/
theorem word_two (hw : WordChars isWord) {letters : List Char}
    (hl : ('c' :: 'v' :: letters).all isAsciiLowercase = true) {c d : Cursor}
    (h : Steps isWord (.seq (word ('c' :: 'v' :: letters))
      (.rep 0 1 (.char (fun c => c == '2')))) c d) :
    ∃ m, Phrase isWord m ∧ Reads c m d ∧ d.groups = c.groups := by
  obtain ⟨e, hword, htwo⟩ := h
  obtain ⟨m, hm, hread, hgroups⟩ := word_reads hword
  obtain ⟨s, hs, hread', hgroups'⟩ := Steps.optional htwo
  have hlet := lettered_word hw hl hm
  obtain ⟨x, m', hx, hword'⟩ := lettered_head (List.cons_ne_nil _ _) hm hlet
  obtain ⟨x', y', m'', hbegin, hletter1, hletter2⟩ := word_begins hm
  have hkept : Remains m := Remains.digitless fun c hc => (hlet c hc).digit
  have hzero := countP_digits_zero fun c hc => (hlet c hc).digit
  obtain ⟨hopens, hcloses⟩ := lettered_bare hlet
  refine ⟨m ++ s, ?_, hread.trans hread', hgroups'.trans hgroups⟩
  rcases hs with rfl | ⟨y, rfl, hy⟩
  · rw [List.append_nil]
    exact ⟨⟨x, m', hx, hword'⟩, ⟨x', y', m'', hbegin, Or.inl ⟨hletter1, hletter2⟩⟩,
      hkept, ⟨hopens, hcloses⟩, by omega⟩
  · obtain rfl := beq_iff_eq.mp hy
    refine ⟨⟨x, m' ++ ['2'], by rw [hx]; rfl, hword'⟩, ⟨x', y', m'' ++ ['2'],
      by rw [hbegin]; rfl, Or.inl ⟨hletter1, hletter2⟩⟩, ?_, ⟨?_, ?_⟩, ?_⟩
    · have hlast : m ≠ [] := by
        rw [hx]
        exact List.cons_ne_nil _ _
      have hletter := hlet _ (List.getLast_mem hlast)
      rw [← List.dropLast_append_getLast hlast] at hkept ⊢
      exact hkept.snoc hletter.digit hletter.sep '2'
    · exact fun h => (List.mem_append.mp h).elim hopens (by decide)
    · exact fun h => (List.mem_append.mp h).elim hcloses (by decide)
    · rw [List.countP_append, hzero]
      decide

/-- The words *security* and *code*, with an optional separator. -/
theorem security_code (hw : WordChars isWord) {c d : Cursor}
    (h : Steps isWord (.seq (word "security".toList)
      (.seq (.rep 0 1 (.char (fun c => c == ' ' || c == '_' || c == '-')))
        (word "code".toList))) c d) :
    ∃ m, Phrase isWord m ∧ Reads c m d ∧ d.groups = c.groups := by
  obtain ⟨e, hsecurity, e', hsep, hcode⟩ := h
  obtain ⟨m1, hm1, hread1, hgroups1⟩ := word_reads hsecurity
  obtain ⟨s, hs, hread2, hgroups2⟩ := Steps.optional hsep
  obtain ⟨m2, hm2, hread3, hgroups3⟩ := word_reads hcode
  have hlet1 := lettered_word hw (by decide) hm1
  have hlet2 := lettered_word hw (by decide) hm2
  obtain ⟨x, m', hx, hword⟩ := lettered_head (by decide) hm1 hlet1
  obtain ⟨x', y', m'', hbegin, hletter1, hletter2⟩ := word_begins hm1
  have hs' : ∀ y ∈ s, y = ' ' ∨ y = '_' ∨ y = '-' := by
    rcases hs with rfl | ⟨y, rfl, hy⟩
    · exact nofun
    · intro z hz
      obtain rfl := List.mem_singleton.mp hz
      rw [Bool.or_eq_true, Bool.or_eq_true, beq_iff_eq, beq_iff_eq,
        beq_iff_eq] at hy
      exact or_assoc.mp hy
  -- letters and at most one separator, no digit
  have hdigitless : ∀ y ∈ m1 ++ (s ++ m2), isAsciiDigit y = false := by
    intro y hy
    rcases List.mem_append.mp hy with hy | hy
    · exact (hlet1 y hy).digit
    rcases List.mem_append.mp hy with hy | hy
    · rcases hs' y hy with rfl | rfl | rfl
      · decide
      · decide
      · decide
    · exact (hlet2 y hy).digit
  have hbare : ∀ {z : Char}, z ∉ m1 → z ∉ m2 → z ∉ [' ', '_', '-'] →
      z ∉ m1 ++ (s ++ m2) := by
    intro z h1 h2 h3 hmem
    rcases List.mem_append.mp hmem with hmem | hmem
    · exact h1 hmem
    rcases List.mem_append.mp hmem with hmem | hmem
    · refine h3 ?_
      rcases hs' z hmem with rfl | rfl | rfl
      · decide
      · decide
      · decide
    · exact h2 hmem
  obtain ⟨hopens1, hcloses1⟩ := lettered_bare hlet1
  obtain ⟨hopens2, hcloses2⟩ := lettered_bare hlet2
  refine ⟨m1 ++ (s ++ m2), ⟨⟨x, m' ++ (s ++ m2), ?_, hword⟩,
    ⟨x', y', m'' ++ (s ++ m2), ?_, Or.inr ⟨hletter1, hletter2⟩⟩,
    .digitless hdigitless, ⟨hbare hopens1 hopens2 (by decide),
    hbare hcloses1 hcloses2 (by decide)⟩, ?_⟩, hread1.trans (hread2.trans hread3),
    hgroups3.trans (hgroups2.trans hgroups1)⟩
  · rw [hx]
    rfl
  · rw [hbegin]
    rfl
  · rw [countP_digits_zero hdigitless]
    exact Nat.zero_le 1

/-- White space, a colon or an equals sign. -/
def isGap (c : Char) : Bool := isSpace c || c == ':' || c == '='

theorem isGap_plain {c : Char} (h : isGap c = true) :
    isAsciiDigit c = false ∧ c ≠ '[' ∧ c ≠ ']' := by
  have hascii : IsAscii c := by
    unfold isGap isSpace at h
    rw [Bool.or_eq_true, Bool.or_eq_true, Bool.or_eq_true, beq_iff_eq,
      beq_iff_eq, beq_iff_eq, Bool.and_eq_true, decide_eq_true_eq,
      decide_eq_true_eq] at h
    rcases h with ((rfl | h) | rfl) | rfl
    · decide
    · exact UInt32.lt_of_le_of_lt (b := 13) h.2 (by decide)
    · decide
    · decide
  exact hascii.cases (P := fun c => isGap c = true →
    isAsciiDigit c = false ∧ c ≠ '[' ∧ c ≠ ']') (by decide) h

/-- White space around an optional colon or equals sign. -/
theorem gap_reads {c d : Cursor}
    (h : Steps isWord (.seq (.star (.char isSpace))
      (.seq (.rep 0 1 (.char (fun c => c == ':' || c == '=')))
        (.star (.char isSpace)))) c d) :
    ∃ m, (∀ x ∈ m, isGap x = true) ∧ Reads c m d ∧ d.groups = c.groups := by
  obtain ⟨e, hleft, e', hsign, hright⟩ := h
  obtain ⟨m1, hm1, _, _, hread1, hgroups1⟩ := hleft.chars (Nat.zero_le _)
  obtain ⟨s, hs, hread2, hgroups2⟩ := Steps.optional hsign
  obtain ⟨m2, hm2, _, _, hread3, hgroups3⟩ := hright.chars (Nat.zero_le _)
  have hspace : ∀ x, isSpace x = true → isGap x = true := by
    intro x hx
    unfold isGap
    rw [hx]
    rfl
  refine ⟨m1 ++ (s ++ m2), fun x hx => ?_, hread1.trans (hread2.trans hread3),
    hgroups3.trans (hgroups2.trans hgroups1)⟩
  rcases List.mem_append.mp hx with hx | hx
  · exact hspace x (hm1 x hx)
  rcases List.mem_append.mp hx with hx | hx
  · rcases hs with rfl | ⟨y, rfl, hy⟩
    · exact nomatch hx
    · rw [List.mem_singleton.mp hx]
      unfold isGap
      rw [Bool.or_assoc, hy, Bool.or_true]
  · exact hspace x (hm2 x hx)

/-- A list of at least two ends with two. -/
theorem two_last {m : List Char} (h : 2 ≤ m.length) :
    ∃ m' y x, m = m' ++ [y, x] := by
  rcases List.eq_nil_or_concat m with rfl | ⟨m1, x, rfl⟩
  · exact absurd h (by decide)
  rcases List.eq_nil_or_concat m1 with rfl | ⟨m2, y, rfl⟩
  · exact absurd h (Nat.not_le.mpr Nat.one_lt_two)
  · exact ⟨m2, y, x, by simp⟩

/-- **A SECURITY CODE** is three or four digits after its phrase. -/
theorem cvv_shaped (hw : WordChars isWord) {c d : Cursor}
    (h : Steps isWord cvvPattern c d) :
    ∃ kept gap code, Reads c (kept ++ (gap ++ code)) d
      ∧ Shaped isWord c.before (kept ++ (gap ++ code)) d.input
      ∧ Phrase isWord kept ∧ (∀ x ∈ gap, isGap x = true)
      ∧ code.length ≤ 4
      ∧ d.groups = (2, gap) :: (1, kept) :: c.groups := by
  obtain ⟨c', ⟨hc, hstart⟩, e, ⟨e1, hphrase, he⟩, f, ⟨f1, hgap, hf⟩, g, hcode,
    hg, hstop⟩ := h
  subst hc hg
  -- the three phrases are one kind of text
  have hphrase' : ∃ m, Phrase isWord m ∧ Reads c' m e1 ∧ e1.groups = c'.groups := by
    rcases hphrase with hphrase | hphrase | hphrase
    · exact word_two hw (by decide) hphrase
    · exact word_two hw (by decide) hphrase
    · exact security_code hw hphrase
  obtain ⟨kept, hkept, hread1, hgroups1⟩ := hphrase'
  obtain ⟨gap, hplain, hread2, hgroups2⟩ := gap_reads hgap
  obtain ⟨code, hdigits, hlo, hhi, hread3, hgroups3⟩ := hcode.chars (by omega)
  have hread1' : Reads c' kept e := by
    rw [he]
    exact ⟨hread1.1, hread1.2⟩
  have hread2' : Reads e gap f := by
    rw [hf]
    exact ⟨hread2.1, hread2.2⟩
  have hall := hread1'.trans (hread2'.trans hread3)
  obtain ⟨x, m', hx, hword⟩ := hkept.head
  obtain ⟨code', y, z, hend⟩ := two_last (m := code) (by omega)
  have hz : isAsciiDigit z = true := hdigits z (by rw [hend]; simp)
  refine ⟨kept, gap, code, hall, ⟨⟨⟨x, m' ++ (gap ++ code), ?_, hword⟩,
    ⟨kept ++ (gap ++ code'), y, z, ?_, hz, Or.inl (hdigits y ?_)⟩, ?_⟩, ?_, ?_⟩,
    hkept, hplain, hhi, ?_⟩
  · rw [hx]
    rfl
  · rw [hend, List.append_assoc, List.append_assoc]
  · rw [hend]
    simp
  -- a code is digits only, so the brackets are not in it
  · have hcode : ∀ w, isAsciiDigit w = false → w ∉ code := by
      intro w hw hmem
      rw [hdigits w hmem] at hw
      exact nomatch hw
    constructor
    · intro hmem
      rcases List.mem_append.mp hmem with hmem | hmem
      · exact hkept.bare.1 hmem
      rcases List.mem_append.mp hmem with hmem | hmem
      · exact (isGap_plain (hplain _ hmem)).2.1 rfl
      · exact hcode _ (by decide) hmem
    · intro hmem
      rcases List.mem_append.mp hmem with hmem | hmem
      · exact hkept.bare.2 hmem
      rcases List.mem_append.mp hmem with hmem | hmem
      · exact (isGap_plain (hplain _ hmem)).2.2 rfl
      · exact hcode _ (by decide) hmem
  · have hinput := hall.1
    rw [hinput, hx] at hstart
    exact Edge.start hstart hword
  · have hbefore := hall.2
    rw [hend, lastOf_append, lastOf_append, lastOf_append] at hbefore
    rw [hbefore] at hstop
    exact Edge.stop hstop (hw.digit hz)
  · have hf' : f.groups = (2, gap) :: e.groups := by
      rw [hf, ← hgroups2, ← hread2.between]
    have he' : e.groups = (1, kept) :: c'.groups := by
      rw [he, ← hgroups1, ← hread1.between]
    rw [hgroups3, hf', he']

end Treasury
