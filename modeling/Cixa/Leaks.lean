import Cixa.Redacted

/-! # Leaks — the card numbers that redaction lets through

    A run of digits is maximal when no digit is next to it.  Both masks keep
    the two characters around a run, so a maximal run of the output was a
    maximal run of the input with the same neighbours.  The first mask covers
    it exactly when it is at most NINETEEN digits long and has no word
    character next to it, unless it is covered as part of something longer. -/

namespace Treasury

open Regex Chars CixaData CixaHost UrlHost

variable {host : Host} {isWord : Char → Bool}

/-! ## Runs of digits -/

/-- A maximal run of digits and the characters next to it. -/
structure RunOf (text u run v : List Char) : Prop where
  text : text = u ++ (run ++ v)
  digits : ∀ x ∈ run, isAsciiDigit x = true
  before : (lastOf none u).any isAsciiDigit = false
  after : v.head?.any isAsciiDigit = false

theorem digits_start (q : List Char) : ∃ q1 q2, q = q1 ++ q2
    ∧ (∀ x ∈ q1, isAsciiDigit x = true) ∧ q2.head?.any isAsciiDigit = false := by
  induction q with
  | nil => exact ⟨[], [], rfl, nofun, rfl⟩
  | cons x q ih =>
      by_cases hx : isAsciiDigit x = true
      · obtain ⟨q1, q2, rfl, hdigits, hafter⟩ := ih
        refine ⟨x :: q1, q2, rfl, fun y hy => ?_, hafter⟩
        rcases List.mem_cons.mp hy with rfl | hy
        · exact hx
        · exact hdigits y hy
      · exact ⟨[], x :: q, rfl, nofun, Bool.eq_false_iff.mpr hx⟩

theorem digits_end (p : List Char) : ∃ p1 p2, p = p1 ++ p2
    ∧ (∀ x ∈ p2, isAsciiDigit x = true)
    ∧ (lastOf none p1).any isAsciiDigit = false := by
  induction p using List.reverseRecOn with
  | nil => exact ⟨[], [], rfl, nofun, rfl⟩
  | append_singleton p x ih =>
      by_cases hx : isAsciiDigit x = true
      · obtain ⟨p1, p2, rfl, hdigits, hbefore⟩ := ih
        refine ⟨p1, p2 ++ [x], List.append_assoc .., fun y hy => ?_, hbefore⟩
        rcases List.mem_append.mp hy with hy | hy
        · exact hdigits y hy
        · rw [List.mem_singleton.mp hy]
          exact hx
      · refine ⟨p ++ [x], [], (List.append_nil _).symm, nofun, ?_⟩
        rw [lastOf_append]
        exact Bool.eq_false_iff.mpr hx

/-- Digits in a text are in a maximal run. -/
theorem exists_run {t d : List Char} (h : d <:+: t)
    (hd : ∀ x ∈ d, isAsciiDigit x = true) :
    ∃ u run v, RunOf t u run v ∧ d <:+: run := by
  obtain ⟨p, q, rfl⟩ := h
  obtain ⟨p1, p2, rfl, hp, hbefore⟩ := digits_end p
  obtain ⟨q1, q2, rfl, hq, hafter⟩ := digits_start q
  refine ⟨p1, p2 ++ d ++ q1, q2, ⟨?_, ?_, hbefore, hafter⟩, p2, q1, rfl⟩
  · simp only [List.append_assoc]
  · intro x hx
    rw [List.mem_append, List.mem_append] at hx
    rcases hx with (hx | hx) | hx
    · exact hp x hx
    · exact hd x hx
    · exact hq x hx

theorem RunOf.block (hw : WordChars isWord) {t u run v : List Char}
    (h : RunOf t u run v) (hlength : 2 ≤ run.length) : Block isWord run := by
  have hbare : ∀ z, isAsciiDigit z = false → z ∉ run := by
    intro z hz hmem
    rw [h.digits z hmem] at hz
    exact nomatch hz
  obtain ⟨run', y, z, hend⟩ := two_last hlength
  refine ⟨?_, ⟨run', y, z, hend, ?_, Or.inl ?_⟩, hbare _ (by decide),
    hbare _ (by decide)⟩
  · cases run with
    | nil => exact absurd hlength (by decide)
    | cons x xs => exact ⟨x, xs, rfl, hw.digit (h.digits x List.mem_cons_self)⟩
  · exact h.digits z (by rw [hend]; simp)
  · exact h.digits y (by rw [hend]; simp)

/-! ## What the first mask covers -/

theorem iterates_digits {b : Option Char} {ds rest : List Char}
    {groups : List (Nat × List Char)} {lo hi : Nat}
    (hd : ∀ x ∈ ds, isAsciiDigit x = true) (hlo : lo ≤ ds.length)
    (hhi : ds.length ≤ hi) :
    Iterates (Steps isWord (.seq (.char isAsciiDigit)
        (.rep 0 1 (.char (fun c => c == ' ' || c == '-'))))) lo hi
      ⟨b, ds ++ rest, groups⟩ ⟨lastOf b ds, rest, groups⟩ := by
  induction ds generalizing b lo hi with
  | nil => exact .stop (Or.inl (Nat.le_zero.mp hlo))
  | cons x ds ih =>
      rw [List.length_cons] at hlo hhi
      obtain ⟨hi', rfl⟩ : ∃ hi', hi = hi' + 1 := ⟨hi - 1, by omega⟩
      have hx : isAsciiDigit x = true := hd x List.mem_cons_self
      refine .more (d := ⟨some x, ds ++ rest, groups⟩) ?_
        (ih (fun y hy => hd y (List.mem_cons_of_mem x hy)) (by omega) (by omega))
      exact ⟨⟨some x, ds ++ rest, groups⟩, ⟨x, hx, rfl, rfl, rfl⟩,
        .stop (Or.inl rfl)⟩

/-- Thirteen to nineteen digits with no word character next to them are a
    card number. -/
theorem pan_matches (hw : WordChars isWord) {b : Option Char}
    {run rest : List Char} (hd : ∀ x ∈ run, isAsciiDigit x = true)
    (hlo : 13 ≤ run.length) (hhi : run.length ≤ 19)
    (hstart : b.any isWord = false) (hstop : rest.head?.any isWord = false) :
    ∃ d, Steps isWord panPattern ⟨b, run ++ rest, []⟩ d := by
  rcases List.eq_nil_or_concat run with rfl | ⟨front, z, rfl⟩
  · exact absurd hlo (by decide)
  rw [List.concat_eq_append] at hd hlo hhi ⊢
  rw [List.length_append, List.length_singleton] at hlo hhi
  have hz : isAsciiDigit z = true := hd z (by simp)
  cases front with
  | nil => exact absurd hlo (by decide)
  | cons x front =>
      have hx : isAsciiDigit x = true := hd x (by simp)
      refine ⟨⟨some z, rest, []⟩, _, ⟨rfl, ?_⟩,
        ⟨lastOf b (x :: front), z :: rest, []⟩, ?_, ⟨some z, rest, []⟩,
        ⟨z, hz, rfl, rfl, rfl⟩, rfl, ?_⟩
      · show b.any isWord ≠ isWord x
        rw [hstart, hw.digit hx]
        exact Bool.false_ne_true
      · rw [List.append_assoc]
        exact iterates_digits (fun y hy => hd y (List.mem_append_left _ hy))
          (by omega) (by omega)
      · show isWord z ≠ _
        rw [hw.digit hz, hstop]
        exact Bool.false_ne_true.symm

/-! ## What gets through -/

/-- A maximal run that redaction covers. -/
def Covered (isWord : Char → Bool) (u run v : List Char) : Prop :=
  run.length ≤ 19 ∧ (lastOf none u).any isWord = false
    ∧ v.head?.any isWord = false

/-- No card number covers a run that is longer or has a word character next
    to it. -/
theorem pan_avoids (hw : WordChars isWord) {t u run v : List Char}
    (h : RunOf t u run v) (hnot : ¬Covered isWord u run v) {c d : Cursor}
    {a a' : List Char} (hd : Steps isWord panPattern c d)
    (hread : Reads c (a ++ (run ++ a')) d)
    (hbefore : lastOf c.before a = lastOf none u) :
    (a' ++ d.input).head? ≠ v.head? := by
  intro hafter
  obtain ⟨m, hread', hshape, hcard, hcount⟩ := pan_shaped hw hd
  obtain rfl := hread'.unique hread
  have hplain : ∀ z, isCard z → isAsciiDigit z = false → isWord z = false :=
    fun z hz hdigit => hz.elim (fun h => absurd (h.symm.trans hdigit) nofun) hw.sep
  refine hnot ⟨?_, ?_, ?_⟩
  · rw [List.countP_append, List.countP_append,
      List.countP_eq_length.mpr h.digits] at hcount
    omega
  · rw [← hbefore]
    rcases List.eq_nil_or_concat a with rfl | ⟨a1, z, rfl⟩
    · exact hshape.start
    · have hz := h.before
      rw [← hbefore] at hz
      rw [List.concat_eq_append, lastOf_append] at hz ⊢
      exact hplain z (hcard z (by simp)) hz
  · rw [← hafter]
    cases a' with
    | nil => exact hshape.stop
    | cons z a' =>
        have hz := h.after
        rw [← hafter] at hz
        exact hplain z (hcard z (by simp)) hz

/-- No security code covers a run of six digits. -/
theorem cvv_avoids (hw : WordChars isWord) {run : List Char}
    (hdigits : ∀ x ∈ run, isAsciiDigit x = true) (hlength : 6 ≤ run.length)
    {c d : Cursor} {a a' : List Char} (hd : Steps isWord cvvPattern c d) :
    ¬Reads c (a ++ (run ++ a')) d := by
  intro hread
  obtain ⟨kept, gap, code, hread', _, hphrase, hgap, hcode, _⟩ := cvv_shaped hw hd
  have hcount := congrArg (List.countP isAsciiDigit) (hread'.unique hread)
  rw [List.countP_append, List.countP_append, List.countP_append,
    List.countP_append, countP_digits_zero (isGap_bare hgap),
    List.countP_eq_length.mpr hdigits] at hcount
  have hkept := hphrase.digits
  have hle : code.countP isAsciiDigit ≤ code.length := List.countP_le_length
  omega

/-- **WHAT GETS THROUGH**: thirteen digits or more are in the output exactly
    when a maximal run that holds them is not covered. -/
theorem leaks_iff (hw : WordChars host.isWord) {text d : List Char}
    (hd : ∀ x ∈ d, isAsciiDigit x = true) (hlength : 13 ≤ d.length) :
    d <:+: (redactSensitive host (String.ofList text)).toList
      ↔ ∃ u run v, RunOf text u run v ∧ d <:+: run
        ∧ ¬Covered host.isWord u run v := by
  obtain ⟨mid, hpan, hcvv⟩ := redactSensitive_cuts hw (String.ofList text)
  have hsame : (String.ofList text).toList = text := String.toList_ofList
  rw [hsame] at hpan
  constructor
  · intro hin
    obtain ⟨u2, run, v2, hrun, hsub⟩ := exists_run hin hd
    have hlong := hsub.length_le
    have hblock := hrun.block hw (by omega)
    obtain ⟨u1, v1, hmid, hlast1, hnext1, _⟩ :=
      (cvvMasks hw).back hw hcvv (Or.inl rfl) hblock hrun.text
    obtain ⟨u, v, htext, hlast, hnext, hno⟩ :=
      (panMasks hw).back hw hpan (Or.inl rfl) hblock hmid
    have hbefore := hrun.before
    have hafter := hrun.after
    rw [← hlast1, ← hlast] at hbefore
    rw [← hnext1, ← hnext] at hafter
    refine ⟨u, run, v, ⟨htext, hrun.digits, hbefore, hafter⟩, hsub, ?_⟩
    rintro ⟨hshort, hstart, hstop⟩
    obtain ⟨e, he⟩ := pan_matches hw hrun.digits (by omega) hshort hstart hstop
    exact hno e he
  · rintro ⟨u, run, v, hrun, hsub, hnot⟩
    have hlong := hsub.length_le
    have hne : run ≠ [] := List.length_pos_iff.mp (by omega)
    obtain ⟨u1, v1, hmid, hlast1, hnext1⟩ := (panMasks hw).forth hw hpan
      (Or.inl rfl) hrun.digits hne
      (fun _ _ _ _ hs hread hbefore => pan_avoids hw hrun hnot hs hread hbefore)
      hrun.text
    obtain ⟨u2, v2, hout, _, _⟩ := (cvvMasks hw).forth hw hcvv (Or.inl rfl)
      hrun.digits hne
      (fun _ _ _ _ hs hread => absurd hread
        (cvv_avoids hw hrun.digits (by omega) hs)) hmid
    rw [hout]
    exact hsub.trans ⟨u2, v2, by rw [List.append_assoc]⟩

/-- **REDACTION HIDES** a card number exactly when every maximal run of digits
    that holds it is covered: at most nineteen digits, and no word character
    next to it. -/
theorem redaction_hides (hw : WordChars host.isWord) (u d v : List Char)
    (hd : ∀ x ∈ d, isAsciiDigit x = true) (hlo : 13 ≤ d.length) :
    ¬d <:+: (redactSensitive host (String.ofList (u ++ (d ++ v)))).toList
      ↔ ∀ u' run v', RunOf (u ++ (d ++ v)) u' run v' → d <:+: run →
        Covered host.isWord u' run v' := by
  rw [leaks_iff hw hd hlo]
  constructor
  · intro hnone u' run v' hrun hsub
    by_contra hnot
    exact hnone ⟨u', run, v', hrun, hsub, hnot⟩
  · rintro hall ⟨u', run, v', hrun, hsub, hnot⟩
    exact hnot (hall u' run v' hrun hsub)

/-- A card number alone is hidden. -/
theorem redaction_hides_alone :
    ¬"4111111111111111".toList <:+: (redactSensitive wordHost
        (String.ofList ([] ++ ("4111111111111111".toList ++ [])))).toList := by
  refine (redaction_hides wordHost_words [] "4111111111111111".toList []
    (List.all_eq_true.mp (by decide)) (by decide)).mpr fun u run v hrun hsub => ?_
  have hlength := congrArg List.length hrun.text
  have hlong : 16 ≤ run.length := hsub.length_le
  have htotal : u.length + (run.length + v.length) = 16 := by
    rw [← List.length_append, ← List.length_append]
    exact hlength.symm
  obtain rfl := List.length_eq_zero_iff.mp (show u.length = 0 by omega)
  obtain rfl := List.length_eq_zero_iff.mp (show v.length = 0 by omega)
  exact ⟨by omega, rfl, rfl⟩

/-- **A LETTER LEAKS IT**: a card number right after a letter is not
    redacted. -/
theorem redaction_leaks :
    ("4111111111111111".toList.all isAsciiDigit = true
      ∧ (lastOf none "x".toList).any isAsciiDigit = false)
    ∧ "4111111111111111".toList <:+: (redactSensitive wordHost
        (String.ofList ("x".toList ++ ("4111111111111111".toList ++ [])))).toList := by
  decide +kernel

end Treasury
