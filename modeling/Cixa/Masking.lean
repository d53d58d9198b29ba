import Cixa.Redaction

/-! # Masking — what replacing the matches leaves

    A match is replaced by what is kept of it and a bracketed note without
    digits.  A block of the output that no bracket cuts stands in a gap, so it
    stood in the input between the SAME two characters, and no match was
    found there; and a run of digits that no match covers stays where it
    is. -/

namespace Treasury

open Regex Chars CixaHost UrlHost

variable {isWord : Char → Bool} {r : Regex} {replacement : Cursor → List Char}

/-! ## Splitting a text -/

/-- A text stands before or after a character it does not hold. -/
theorem split_at {x : Char} {u m v s t : List Char} (hx : x ∉ m)
    (h : u ++ (m ++ v) = s ++ x :: t) :
    (∃ w, v = w ++ x :: t ∧ s = u ++ (m ++ w))
      ∨ ∃ w, u = s ++ x :: w ∧ t = w ++ (m ++ v) := by
  have hinner : ∀ a, m ++ v = a ++ x :: t → ∃ w, v = w ++ x :: t ∧ a = m ++ w := by
    intro a ha
    rcases List.append_eq_append_iff.mp ha with ⟨w, hw, hv⟩ | ⟨w, hw, hv⟩
    · exact ⟨w, hv, hw⟩
    · cases w with
      | nil => exact ⟨[], hv.symm, by rw [hw, List.append_nil, List.append_nil]⟩
      | cons y w =>
          obtain ⟨rfl, _⟩ := List.cons.inj hv
          refine absurd ?_ hx
          rw [hw]
          exact List.mem_append_right _ List.mem_cons_self
  rcases List.append_eq_append_iff.mp h with ⟨a, hs, ha⟩ | ⟨c, hu, hc⟩
  · obtain ⟨w, hv, hw⟩ := hinner a ha
    exact Or.inl ⟨w, hv, by rw [hs, hw]⟩
  · cases c with
    | nil =>
        obtain ⟨w, hv, hw⟩ := hinner [] hc.symm
        refine Or.inl ⟨w, hv, ?_⟩
        rw [← hw, hu, List.append_nil, List.append_nil]
    | cons y c =>
        obtain ⟨rfl, ht⟩ := List.cons.inj hc
        exact Or.inr ⟨c, hu, ht⟩

/-- A run of digits is before a match, after it, or covered by it. -/
theorem run_placed (hw : WordChars isWord) {b : Option Char}
    {gap m rest u run v : List Char}
    (heq : gap ++ (m ++ rest) = u ++ (run ++ v))
    (hm : Shaped isWord (lastOf b gap) m rest)
    (hrun : ∀ x ∈ run, isAsciiDigit x = true) :
    (∃ w, gap = u ++ (run ++ w) ∧ v = w ++ (m ++ rest))
      ∨ (∃ w, rest = w ++ (run ++ v) ∧ u = gap ++ (m ++ w))
      ∨ ∃ a a', m = a ++ (run ++ a') ∧ u = gap ++ a ∧ v = a' ++ rest := by
  have hafter : ∀ w, u = gap ++ w → m ++ rest = w ++ (run ++ v) →
      (∃ w, rest = w ++ (run ++ v) ∧ u = gap ++ (m ++ w))
        ∨ ∃ a a', m = a ++ (run ++ a') ∧ u = gap ++ a ∧ v = a' ++ rest := by
    intro w hu hw'
    rcases List.append_eq_append_iff.mp hw' with ⟨w', h1, h2⟩ | ⟨w', h1, h2⟩
    · exact Or.inl ⟨w', h2, by rw [hu, h1]⟩
    rcases List.append_eq_append_iff.mp h2 with ⟨x, h3, h4⟩ | ⟨x, h3, h4⟩
    · exact Or.inr ⟨w, x, by rw [h1, h3], hu, h4⟩
    cases x with
    | nil =>
        rw [List.append_nil] at h3
        exact Or.inr ⟨w, [], by rw [h1, h3, List.append_nil], hu, h4.symm⟩
    | cons y x =>
        -- the match would end inside the run
        have hy : isAsciiDigit y = true := hrun y (by rw [h3]; simp)
        have hstop := hm.stop
        rw [h4] at hstop
        exact absurd (hw.digit hy) (Bool.eq_false_iff.mp hstop)
  rcases List.append_eq_append_iff.mp heq with ⟨w, h1, h2⟩ | ⟨w, h1, h2⟩
  · exact Or.inr (hafter w h1 h2)
  rcases List.append_eq_append_iff.mp h2 with ⟨x, h3, h4⟩ | ⟨x, h3, h4⟩
  · exact Or.inl ⟨x, by rw [h1, h3], h4⟩
  cases x with
  | nil =>
      rw [List.append_nil] at h3
      exact Or.inl ⟨[], by rw [h1, h3, List.append_nil], h4.symm⟩
  | cons y x =>
      rcases List.eq_nil_or_concat w with rfl | ⟨w', z, rfl⟩
      · rw [List.append_nil] at h1
        refine Or.inr (hafter [] (by rw [h1, List.append_nil]) ?_)
        rw [h4, h3]
        rfl
      · -- the match would start inside the run
        have hz : isAsciiDigit z = true := hrun z (by rw [h3]; simp)
        have hstart := hm.start
        rw [h1, List.concat_eq_append, lastOf_append, lastOf_append] at hstart
        exact absurd (hw.digit hz) (Bool.eq_false_iff.mp hstart)

/-! ## Masks -/

/-- **A MASK**: every match is shaped, and what replaces it is what is kept of
    it and a note in brackets. -/
structure Masks (isWord : Char → Bool) (r : Regex)
    (replacement : Cursor → List Char) : Prop where
  proper : Proper isWord r
  shaped : ∀ {c d}, Steps isWord r c d → ∃ m kept note, Reads c m d
    ∧ Shaped isWord c.before m d.input
    ∧ replacement d = kept ++ '[' :: (note ++ [']']) ∧ Remains kept
    ∧ ∀ x ∈ note, isAsciiDigit x = false

theorem Block.nonempty {m : List Char} (h : Block isWord m) : m ≠ [] := by
  obtain ⟨x, m', rfl, _⟩ := h.head
  exact List.cons_ne_nil _ _

theorem Masks.reads (h : Masks isWord r replacement) (c d : Cursor)
    (m : List Char) (hd : Steps isWord r c d) (hm : Reads c m d) : m ≠ [] := by
  obtain ⟨m', _, _, hread, hshape, _⟩ := h.shaped hd
  rw [hm.unique hread]
  exact hshape.nonempty

/-- Before a word character the character before is known. -/
theorem lastOf_same {b b' : Option Char} {u : List Char} {x : Char}
    {rest : List Char} (hx : isWord x = true)
    (hb : b' = b ∨ (u ++ x :: rest).head?.any isWord = false) :
    lastOf b u = lastOf b' u := by
  cases u with
  | nil => exact hb.elim (fun h => h.symm) (fun h => absurd hx (Bool.eq_false_iff.mp h))
  | cons y u => rfl

/-- A block at the end of what is kept is in the gap before it. -/
theorem block_in_gap {gap kept u m v : List Char} (hm : Block isWord m)
    (hkept : Remains kept) (h : gap ++ kept = u ++ (m ++ v)) :
    ∃ w, gap = u ++ (m ++ w) ∧ v = w ++ kept := by
  rw [← List.append_assoc] at h
  rcases List.append_eq_append_iff.mp h with ⟨w, hw, hk⟩ | ⟨w, hw, hv⟩
  · obtain ⟨m', y, x, rfl, hx, hy⟩ := hm.tail
    rcases List.eq_nil_or_concat w with rfl | ⟨w', z, rfl⟩
    · exact ⟨[], by rw [List.append_nil, hw, List.append_nil], hk.symm⟩
    · -- its last digit would be kept, after what is no digit and no separator
      have hend : u ++ m' ++ [y] ++ [x] = gap ++ w' ++ [z] := by
        simpa only [List.append_assoc, List.concat_eq_append, List.cons_append,
          List.nil_append] using hw
      obtain ⟨hfront, hlast⟩ := List.append_inj' hend rfl
      obtain rfl := List.singleton_inj.mp hlast
      obtain ⟨w1, z1, rfl, hdigit, hsep⟩ := hkept w' x v (by rw [hk]; simp) hx
      rw [← List.append_assoc] at hfront
      obtain rfl := List.singleton_inj.mp (List.append_inj' hfront rfl).2
      rw [hdigit, hsep] at hy
      exact hy.elim nofun nofun
  · exact ⟨w, by rw [hw, List.append_assoc], hv⟩

/-- **BACK**: a block of the output was in the input, between the same two
    characters, and no match was found there. -/
theorem Masks.back (hw : WordChars isWord) (h : Masks isWord r replacement)
    {b b' : Option Char} {text out u m v : List Char}
    (hcut : Cut isWord r replacement b text out)
    (hb : b' = b ∨ text.head?.any isWord = false) (hm : Block isWord m)
    (hout : out = u ++ (m ++ v)) :
    ∃ u' v', text = u' ++ (m ++ v') ∧ lastOf b u' = lastOf b' u
      ∧ v'.head? = v.head?
      ∧ ∀ d, ¬Steps isWord r ⟨lastOf b u', m ++ v', []⟩ d := by
  obtain ⟨x, m1, hmx, hx⟩ := hm.head
  induction hcut generalizing b' u with
  | last hgap =>
      subst hout
      refine ⟨u, v, rfl, ?_, rfl, fun d => ?_⟩
      · rw [hmx] at hb
        exact lastOf_same hx hb
      · have := hgap u (m ++ v) rfl (by rw [hmx]; exact List.cons_ne_nil _ _) d
        rwa [List.append_nil] at this
  | next hgap hmatch hrest ih =>
      rename_i b gap m0 out' d
      obtain ⟨m0', kept, note, hread, hshape, hrep, hkept, hnote⟩ :=
        h.shaped hmatch
      obtain rfl : m0 = m0' := List.append_cancel_right hread.1
      rw [hrep, List.append_assoc, List.cons_append, List.append_assoc,
        List.singleton_append, ← List.append_assoc] at hout
      rcases split_at hm.bare.1 hout.symm with ⟨w, hv, hs⟩ | ⟨w, hu, ht⟩
      · -- in the gap or what is kept
        obtain ⟨w', rfl, rfl⟩ := block_in_gap hm hkept hs
        have hleft : lastOf b u = lastOf b' u := by
          rw [hmx, List.append_assoc, List.append_assoc] at hb
          exact lastOf_same hx hb
        cases w' with
        | nil =>
            -- the next match would start after its last digit
            obtain ⟨m', y, z, hmz, hz, _⟩ := hm.tail
            have hstart := hshape.start
            rw [hmz, List.append_nil, lastOf_append, lastOf_append] at hstart
            exact absurd (hw.digit hz) (Bool.eq_false_iff.mp hstart)
        | cons y w' =>
            refine ⟨u, y :: w' ++ (m0 ++ d.input), ?_, hleft, ?_, fun e => ?_⟩
            · simp only [List.append_assoc]
            · rw [hv]
              rfl
            · have := hgap u (m ++ y :: w') rfl
                (List.append_ne_nil_of_left_ne_nil hm.nonempty _) e
              rwa [List.append_assoc] at this
      · rcases split_at hm.bare.2 ht.symm with ⟨w1, hv, hs⟩ | ⟨w1, hw1, ht⟩
        · -- in the note
          obtain ⟨m', y, z, hmz, hz, _⟩ := hm.tail
          have hzero := hnote z (by rw [hs, hmz]; simp)
          rw [hz] at hzero
          exact nomatch hzero
        · -- after the match
          obtain ⟨u', v', hrest, hlast, hnext, hno⟩ :=
            ih (Or.inr hshape.stop : some ']' = d.before ∨ _) ht
          refine ⟨gap ++ (m0 ++ u'), v', ?_, ?_, hnext, ?_⟩
          · rw [hrest]
            simp only [List.append_assoc]
          · rw [lastOf_append, lastOf_append, ← hread.2, hlast, hu, hw1]
            simp only [lastOf_append, lastOf_cons]
          · rw [lastOf_append, lastOf_append, ← hread.2]
            exact hno

/-- **FORTH**: a run of digits that no match covers stays, between the same
    two characters. -/
theorem Masks.forth (hw : WordChars isWord) (h : Masks isWord r replacement)
    {b b' : Option Char} {text out u run v : List Char}
    (hcut : Cut isWord r replacement b text out)
    (hb : b' = b ∨ text.head?.any isWord = false)
    (hrun : ∀ x ∈ run, isAsciiDigit x = true) (hne : run ≠ [])
    (hno : ∀ c d a a', Steps isWord r c d → Reads c (a ++ (run ++ a')) d →
      lastOf c.before a = lastOf b u → (a' ++ d.input).head? ≠ v.head?)
    (htext : text = u ++ (run ++ v)) :
    ∃ u' v', out = u' ++ (run ++ v') ∧ lastOf b' u' = lastOf b u
      ∧ v'.head? = v.head? := by
  obtain ⟨x, run', hx⟩ := List.exists_cons_of_ne_nil hne
  have hword : isWord x = true := hw.digit (hrun x (by rw [hx]; exact List.mem_cons_self))
  induction hcut generalizing b' u with
  | last _ =>
      refine ⟨u, v, htext, ?_, rfl⟩
      rw [htext, hx] at hb
      exact (lastOf_same hword hb).symm
  | next hgap hmatch hrest ih =>
      rename_i b gap m0 out' d
      obtain ⟨m0', kept, note, hread, hshape, hrep, hkept, hnote⟩ :=
        h.shaped hmatch
      obtain rfl : m0 = m0' := List.append_cancel_right hread.1
      rcases run_placed hw htext hshape hrun with
        ⟨w, rfl, hv⟩ | ⟨w, hrest', rfl⟩ | ⟨a, a', rfl, rfl, hv⟩
      · -- in the gap
        refine ⟨u, w ++ (replacement d ++ out'), ?_, ?_, ?_⟩
        · simp only [List.append_assoc]
        · rw [hx, List.append_assoc] at hb
          exact (lastOf_same hword hb).symm
        · cases w with
          | nil =>
              -- the match would start after its last digit
              rcases List.eq_nil_or_concat run with hnil | ⟨front, y, hlast⟩
              · exact absurd hnil hne
              · have hy := hrun y (by rw [hlast]; simp)
                have hstart := hshape.start
                rw [hlast, List.append_nil, List.concat_eq_append, lastOf_append,
                  lastOf_append] at hstart
                exact absurd (hw.digit hy) (Bool.eq_false_iff.mp hstart)
          | cons y w =>
              rw [hv]
              rfl
      · -- after the match
        have hbefore : lastOf d.before w = lastOf b (gap ++ (m0 ++ w)) := by
          rw [hread.2, lastOf_append, lastOf_append]
        obtain ⟨u', v', hout, hlast, hnext⟩ := ih (u := w)
          (Or.inr hshape.stop : some ']' = d.before ∨ _)
          (by rw [hbefore]; exact hno) hrest'
        refine ⟨gap ++ (replacement d ++ u'), v', ?_, ?_, hnext⟩
        · rw [hout]
          simp only [List.append_assoc]
        · rw [hrep, ← hbefore, ← hlast]
          simp only [lastOf_append, lastOf_cons, lastOf_nil]
      · -- in the match
        refine absurd (congrArg List.head? hv.symm) (hno _ d a a' hmatch hread ?_)
        exact (lastOf_append ..).symm

/-! ## The two patterns -/

theorem word_proper (letters : List Char) : Proper isWord (word letters) := by
  induction letters with
  | nil => exact trivial
  | cons l rest ih =>
      cases rest with
      | nil => exact trivial
      | cons l' rest => exact ⟨trivial, ih⟩

/-- A text without digits, as a test. -/
theorem digitless_of {l : List Char}
    (h : l.all (fun c => !isAsciiDigit c) = true) :
    ∀ x ∈ l, isAsciiDigit x = false := by
  intro x hx
  exact (Bool.not_eq_true' _).mp (List.all_eq_true.mp h x hx)

theorem panMasks (hw : WordChars isWord) :
    Masks isWord panPattern (fun _ => "[REDACTED_PAN]".toList) where
  proper := ⟨trivial, ⟨trivial, trivial⟩, trivial, trivial⟩
  shaped h := by
    obtain ⟨m, hread, hshape, _⟩ := pan_shaped hw h
    exact ⟨m, [], "REDACTED_PAN".toList, hread, hshape, rfl, .digitless nofun,
      digitless_of (by decide)⟩

theorem spaces_proper : Proper isWord (.star (.char isSpace)) := by
  refine ⟨trivial, fun c d m h hread => ?_⟩
  obtain ⟨x, _, hread', _⟩ := Steps.char h
  rw [hread.unique hread']
  exact List.cons_ne_nil _ _

theorem isGap_bare {gap : List Char} (h : ∀ x ∈ gap, isGap x = true) :
    ∀ x ∈ gap, isAsciiDigit x = false :=
  fun x hx => (isGap_plain (h x hx)).1

theorem cvvMasks (hw : WordChars isWord) : Masks isWord cvvPattern
    (fun c => c.groupText 1 ++ c.groupText 2 ++ "[REDACTED_CVV]".toList) where
  proper := ⟨trivial,
    ⟨⟨word_proper _, trivial⟩, ⟨word_proper _, trivial⟩, word_proper _, trivial,
      word_proper _⟩,
    ⟨spaces_proper, trivial, spaces_proper⟩, trivial, trivial⟩
  shaped h := by
    obtain ⟨kept, gap, code, hread, hshape, hphrase, hgap, _, hgroups⟩ :=
      cvv_shaped hw h
    refine ⟨_, kept ++ gap, "REDACTED_CVV".toList, hread, hshape, ?_,
      hphrase.kept.append (isGap_bare hgap), digitless_of (by decide)⟩
    unfold Cursor.groupText
    rw [hgroups]
    rfl

end Treasury
