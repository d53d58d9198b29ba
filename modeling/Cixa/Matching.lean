import Cixa.Regex

/-! # Matching — what a backtracking search finds

    A pattern relates the cursor where it starts to every cursor where it can
    end.  The relation is by recursion on the pattern and says nothing about
    priorities; the search finds one of the related cursors if there is one.

    Replacing every match CUTS a text into gaps and matches: no match starts
    inside a gap, and the gaps are kept as they are. -/

namespace Regex

variable {isWord : Char → Bool}

/-! ## Where a pattern can end -/

/-- Between `lo` and `hi` steps one after another. -/
inductive Iterates (step : Cursor → Cursor → Prop) :
    Nat → Nat → Cursor → Cursor → Prop where
  | stop {lo hi : Nat} {c : Cursor} (h : lo = 0 ∨ hi = 0) :
      Iterates step lo hi c c
  | more {lo hi : Nat} {c d e : Cursor} (h : step c d)
      (hrest : Iterates step (lo - 1) hi d e) : Iterates step lo (hi + 1) c e

/-- A word character on exactly one side. -/
def Edge (isWord : Char → Bool) (before : Option Char) (input : List Char) :
    Prop :=
  before.any isWord ≠ input.head?.any isWord

/-- Before an edge at a word character there is none. -/
theorem Edge.start {b : Option Char} {x : Char} {xs : List Char}
    (h : Edge isWord b (x :: xs)) (hx : isWord x = true) :
    b.any isWord = false := by
  refine Bool.eq_false_iff.mpr fun hb => h ?_
  rw [hb]
  exact hx.symm

/-- After an edge at a word character there is none. -/
theorem Edge.stop {x : Char} {rest : List Char}
    (h : Edge isWord (some x) rest) (hx : isWord x = true) :
    rest.head?.any isWord = false := by
  refine Bool.eq_false_iff.mpr fun hrest => h ?_
  rw [hrest]
  exact hx

/-- The text between two cursors. -/
def between (c d : Cursor) : List Char :=
  c.input.take (c.input.length - d.input.length)

/-- The cursors where a pattern can end. -/
def Steps (isWord : Char → Bool) : Regex → Cursor → Cursor → Prop
  | .char p => fun c d => ∃ x, p x = true ∧ c.input = x :: d.input
      ∧ d.before = some x ∧ d.groups = c.groups
  | .seq a b => fun c d => ∃ e, Steps isWord a c e ∧ Steps isWord b e d
  | .alt a b => fun c d => Steps isWord a c d ∨ Steps isWord b c d
  | .rep lo hi r => Iterates (Steps isWord r) lo hi
  | .star r => fun c d => Iterates (Steps isWord r) 0 c.input.length c d
  | .boundary => fun c d => d = c ∧ Edge isWord c.before c.input
  | .group index r => fun c d => ∃ e, Steps isWord r c e
      ∧ d = { e with groups := (index, between c e) :: e.groups }

/-! ## The search is sound and complete -/

/-- A matcher that searches what a step relation allows. -/
structure Searches (step : Cursor → Cursor → Prop) (search : Cont → Cont) :
    Prop where
  sound : ∀ k c e, search k c = some e → ∃ d, step c d ∧ k d = some e
  complete : ∀ k c d, step c d → (k d).isSome = true → (search k c).isSome = true

theorem orElse_some {α : Type} {x : Option α} {y : Unit → Option α} {a : α}
    (h : x.orElse y = some a) : x = some a ∨ y () = some a := by
  cases x with
  | none => exact Or.inr h
  | some b => exact Or.inl h

theorem orElse_isSome {α : Type} {x : Option α} {y : Unit → Option α} :
    (x.orElse y).isSome = true ↔ x.isSome = true ∨ (y ()).isSome = true := by
  cases x with
  | none => exact ⟨Or.inr, fun h => h.elim nofun id⟩
  | some b => exact iff_of_true rfl (Or.inl rfl)

theorem Searches.iterate {step : Cursor → Cursor → Prop} {search : Cont → Cont}
    (h : Searches step search) (lo hi : Nat) :
    Searches (Iterates step lo hi) (repeatMatch search lo hi) := by
  induction hi generalizing lo with
  | zero =>
      constructor
      · intro k c e hk
        refine ⟨c, .stop (Or.inr rfl), ?_⟩
        cases lo <;> exact hk
      · intro k c d hstep hk
        cases hstep with
        | stop _ => cases lo <;> exact hk
  | succ hi ih =>
      -- once enough were read, going on is tried before stopping
      cases lo with
      | zero =>
          constructor
          · intro k c e hk
            rcases orElse_some hk with hk | hk
            · obtain ⟨d, hstep, hk⟩ := h.sound _ c e hk
              obtain ⟨d', hrest, hk⟩ := (ih 0).sound k d e hk
              exact ⟨d', .more hstep hrest, hk⟩
            · exact ⟨c, .stop (Or.inl rfl), hk⟩
          · intro k c d hstep hk
            refine orElse_isSome.mpr ?_
            cases hstep with
            | stop _ => exact Or.inr hk
            | more hfirst hrest =>
                exact Or.inl (h.complete _ c _ hfirst
                  ((ih 0).complete k _ d hrest hk))
      | succ lo =>
          constructor
          · intro k c e hk
            obtain ⟨d, hstep, hk⟩ := h.sound _ c e hk
            obtain ⟨d', hrest, hk⟩ := (ih lo).sound k d e hk
            exact ⟨d', .more hstep hrest, hk⟩
          · intro k c d hstep hk
            cases hstep with
            | stop hstop => exact absurd hstop (by omega)
            | more hfirst hrest =>
                exact h.complete _ c _ hfirst ((ih lo).complete k _ d hrest hk)

/-- **THE SEARCH** finds an end of the pattern if there is one. -/
theorem run_searches (r : Regex) : Searches (Steps isWord r) (run isWord r) := by
  -- the search for each form of expression, with any continuation
  induction r with
  | char p =>
      constructor
      · intro k c e hk
        unfold run at hk
        split at hk
        · exact nomatch hk
        · rename_i x xs hinput
          split at hk
          · exact ⟨⟨some x, xs, c.groups⟩, ⟨x, ‹_›, hinput, rfl, rfl⟩, hk⟩
          · exact nomatch hk
      · rintro k c ⟨before, input, groups⟩ ⟨x, hx, hinput, rfl, rfl⟩ hk
        unfold run
        rw [hinput]
        dsimp only
        rw [if_pos hx]
        exact hk
  | seq a b iha ihb =>
      constructor
      · intro k c e hk
        obtain ⟨d, ha, hk⟩ := iha.sound _ c e hk
        obtain ⟨d', hb, hk⟩ := ihb.sound k d e hk
        exact ⟨d', ⟨d, ha, hb⟩, hk⟩
      · rintro k c d ⟨e, ha, hb⟩ hk
        exact iha.complete _ c e ha (ihb.complete k e d hb hk)
  | alt a b iha ihb =>
      constructor
      · intro k c e hk
        rcases orElse_some hk with hk | hk
        · obtain ⟨d, ha, hk⟩ := iha.sound k c e hk
          exact ⟨d, Or.inl ha, hk⟩
        · obtain ⟨d, hb, hk⟩ := ihb.sound k c e hk
          exact ⟨d, Or.inr hb, hk⟩
      · intro k c d hstep hk
        refine orElse_isSome.mpr (hstep.imp ?_ ?_)
        · exact fun ha => iha.complete k c d ha hk
        · exact fun hb => ihb.complete k c d hb hk
  | rep lo hi r ih => exact ih.iterate lo hi
  | star r ih =>
      constructor
      · exact fun k c e hk => (ih.iterate 0 c.input.length).sound k c e hk
      · exact fun k c d hd hk => (ih.iterate 0 c.input.length).complete k c d hd hk
  | boundary =>
      constructor
      · intro k c e hk
        unfold run at hk
        split at hk
        · rename_i hne
          exact ⟨c, ⟨rfl, bne_iff_ne.mp hne⟩, hk⟩
        · exact nomatch hk
      · rintro k c d ⟨rfl, hne⟩ hk
        unfold run
        rw [if_pos (bne_iff_ne.mpr hne)]
        exact hk
  | group index r ih =>
      constructor
      · intro k c e hk
        obtain ⟨d, hd, hk⟩ := ih.sound _ c e hk
        exact ⟨_, ⟨d, hd, rfl⟩, hk⟩
      · rintro k c _ ⟨d, hd, rfl⟩ hk
        exact ih.complete _ c d hd hk

/-- What a match at a position is. -/
theorem matchAt_some {r : Regex} {before : Option Char} {input : List Char}
    {d : Cursor} (h : matchAt isWord r before input = some d) :
    Steps isWord r ⟨before, input, []⟩ d := by
  obtain ⟨e, he, hk⟩ := (run_searches r).sound some _ d h
  rw [← Option.some.inj hk]
  exact he

theorem matchAt_none {r : Regex} {before : Option Char} {input : List Char}
    (h : matchAt isWord r before input = none) (d : Cursor) :
    ¬Steps isWord r ⟨before, input, []⟩ d := by
  intro hd
  have := (run_searches r).complete some _ d hd rfl
  unfold matchAt at h
  rw [h] at this
  exact nomatch this

/-! ## What a pattern reads -/

/-- The character before what follows a text. -/
def lastOf : Option Char → List Char → Option Char
  | b, [] => b
  | _, x :: xs => lastOf (some x) xs

@[simp] theorem lastOf_nil (b : Option Char) : lastOf b [] = b := rfl

@[simp] theorem lastOf_cons (b : Option Char) (x : Char) (xs : List Char) :
    lastOf b (x :: xs) = lastOf (some x) xs := rfl

@[simp] theorem lastOf_append (b : Option Char) (u v : List Char) :
    lastOf b (u ++ v) = lastOf (lastOf b u) v := by
  induction u generalizing b with
  | nil => rfl
  | cons x u ih => exact ih (some x)

/-- One cursor is another after a text was read. -/
def Reads (c : Cursor) (m : List Char) (d : Cursor) : Prop :=
  c.input = m ++ d.input ∧ d.before = lastOf c.before m

theorem Reads.refl (c : Cursor) : Reads c [] c := ⟨rfl, rfl⟩

theorem Reads.trans {c d e : Cursor} {m m' : List Char} (h : Reads c m d)
    (h' : Reads d m' e) : Reads c (m ++ m') e := by
  obtain ⟨hinput, hbefore⟩ := h
  obtain ⟨hinput', hbefore'⟩ := h'
  refine ⟨?_, ?_⟩
  · rw [hinput, hinput', List.append_assoc]
  · rw [hbefore', hbefore, lastOf_append]

theorem Reads.between {c d : Cursor} {m : List Char} (h : Reads c m d) :
    between c d = m := by
  unfold Regex.between
  rw [h.1, List.length_append, Nat.add_sub_cancel]
  exact List.take_left

theorem Iterates.reads {step : Cursor → Cursor → Prop} {lo hi : Nat}
    {c d : Cursor} (h : Iterates step lo hi c d)
    (hstep : ∀ c d, step c d → ∃ m, Reads c m d) : ∃ m, Reads c m d := by
  induction h with
  | stop _ => exact ⟨[], .refl _⟩
  | more hfirst _ ih =>
      obtain ⟨m, hm⟩ := hstep _ _ hfirst
      obtain ⟨m', hm'⟩ := ih
      exact ⟨m ++ m', hm.trans hm'⟩

/-- A pattern reads a text. -/
theorem Steps.reads {r : Regex} {c d : Cursor} (h : Steps isWord r c d) :
    ∃ m, Reads c m d := by
  induction r generalizing c d with
  | char p =>
      obtain ⟨x, _, hinput, hbefore, _⟩ := h
      exact ⟨[x], hinput, hbefore⟩
  | seq a b iha ihb =>
      obtain ⟨e, ha, hb⟩ := h
      obtain ⟨m, hm⟩ := iha ha
      obtain ⟨m', hm'⟩ := ihb hb
      exact ⟨m ++ m', hm.trans hm'⟩
  | alt a b iha ihb => exact h.elim iha ihb
  | rep lo hi r ih => exact Iterates.reads h fun _ _ => ih
  | star r ih => exact Iterates.reads h fun _ _ => ih
  | boundary =>
      obtain ⟨rfl, _⟩ := h
      exact ⟨[], .refl _⟩
  | group index r ih =>
      obtain ⟨e, he, rfl⟩ := h
      obtain ⟨m, hm⟩ := ih he
      exact ⟨m, hm.1, hm.2⟩

/-! ## Reading simple patterns -/

theorem Steps.char {p : Char → Bool} {c d : Cursor}
    (h : Steps isWord (.char p) c d) :
    ∃ x, p x = true ∧ Reads c [x] d ∧ d.groups = c.groups := by
  obtain ⟨x, hx, hinput, hbefore, hgroups⟩ := h
  exact ⟨x, hx, ⟨hinput, hbefore⟩, hgroups⟩

/-- An optional character. -/
theorem Steps.optional {p : Char → Bool} {c d : Cursor}
    (h : Steps isWord (.rep 0 1 (.char p)) c d) :
    ∃ m, (m = [] ∨ ∃ x, m = [x] ∧ p x = true) ∧ Reads c m d
      ∧ d.groups = c.groups := by
  cases h with
  | stop _ => exact ⟨[], Or.inl rfl, .refl _, rfl⟩
  | more hfirst hrest =>
      obtain ⟨x, hx, hread, hgroups⟩ := Steps.char hfirst
      cases hrest with
      | stop _ => exact ⟨[x], Or.inr ⟨x, rfl, hx⟩, hread, hgroups⟩

/-- Repeated characters. -/
theorem Iterates.chars {p : Char → Bool} {lo hi : Nat} {c d : Cursor}
    (h : Iterates (Steps isWord (.char p)) lo hi c d) (hle : lo ≤ hi) :
    ∃ m, (∀ x ∈ m, p x = true) ∧ lo ≤ m.length ∧ m.length ≤ hi ∧ Reads c m d
      ∧ d.groups = c.groups := by
  induction h with
  | stop hstop =>
      exact ⟨[], nofun, by omega, Nat.zero_le _, .refl _, rfl⟩
  | more hfirst _ ih =>
      obtain ⟨x, hx, hread, hgroups⟩ := Steps.char hfirst
      obtain ⟨m, hm, hlo, hhi, hread', hgroups'⟩ := ih (by omega)
      refine ⟨x :: m, ?_, ?_, ?_, hread.trans hread', hgroups'.trans hgroups⟩
      · intro y hy
        rcases List.mem_cons.mp hy with rfl | hy
        · exact hx
        · exact hm y hy
      · rw [List.length_cons]
        omega
      · rw [List.length_cons]
        omega

/-! ## Moving a match -/

/-- Repetition without a bound repeats only what reads something. -/
def Proper (isWord : Char → Bool) : Regex → Prop
  | .seq a b => Proper isWord a ∧ Proper isWord b
  | .alt a b => Proper isWord a ∧ Proper isWord b
  | .rep _ _ r => Proper isWord r
  | .star r => Proper isWord r
      ∧ ∀ c d m, Steps isWord r c d → Reads c m d → m ≠ []
  | .group _ r => Proper isWord r
  | _ => True

/-- A cursor elsewhere, before the same text with the same sides. -/
structure Moved (isWord : Char → Bool) (c d c' : Cursor) (m rest : List Char) :
    Prop where
  input : c'.input = m ++ rest
  before : c'.before.any isWord = c.before.any isWord
  after : rest.head?.any isWord = d.input.head?.any isWord

theorem lastOf_any {b b' : Option Char} (h : b'.any isWord = b.any isWord)
    (m : List Char) :
    (lastOf b' m).any isWord = (lastOf b m).any isWord := by
  cases m with
  | nil => exact h
  | cons x xs => rfl

/-- A text read in two parts is moved in two parts. -/
theorem Moved.split {c e d c' : Cursor} {m m' rest : List Char}
    (h : Moved isWord c d c' (m ++ m') rest) (hm : Reads c m e)
    (hm' : Reads e m' d) : Moved isWord c e c' m (m' ++ rest)
      ∧ ∀ e', Reads c' m e' → Moved isWord e d e' m' rest := by
  have hinput : c'.input = m ++ (m' ++ rest) := by
    rw [h.input, List.append_assoc]
  refine ⟨⟨hinput, h.before, ?_⟩, fun e' he' => ⟨?_, ?_, h.after⟩⟩
  · rw [hm'.1]
    cases m' with
    | nil => exact h.after
    | cons x xs => rfl
  · exact List.append_cancel_left (he'.1.symm.trans hinput)
  · rw [he'.2, hm.2]
    exact lastOf_any h.before m

/-- The text between two cursors is what was read. -/
theorem Reads.unique {c d : Cursor} {m m' : List Char} (h : Reads c m d)
    (h' : Reads c m' d) : m = m' :=
  List.append_cancel_right (h.1.symm.trans h'.1)

/-- A step relation whose steps can be moved. -/
def Movable (isWord : Char → Bool) (step : Cursor → Cursor → Prop) : Prop :=
  ∀ c d c' m rest, step c d → Reads c m d → Moved isWord c d c' m rest →
    ∃ d', step c' d' ∧ Reads c' m d'

theorem Iterates.movable {step : Cursor → Cursor → Prop} (lo hi : Nat)
    (hreads : ∀ c d, step c d → ∃ m, Reads c m d)
    (h : Movable isWord step) : Movable isWord (Iterates step lo hi) := by
  intro c d c' m rest hd hread hmoved
  induction hd generalizing c' m with
  | stop hstop =>
      rw [hread.unique (.refl _)]
      exact ⟨c', .stop hstop, .refl _⟩
  | more hfirst hrest ih =>
      obtain ⟨m1, hm1⟩ := hreads _ _ hfirst
      obtain ⟨m2, hm2⟩ := hrest.reads hreads
      obtain rfl := hread.unique (hm1.trans hm2)
      obtain ⟨hleft, hright⟩ := hmoved.split hm1 hm2
      obtain ⟨e', he', hread1⟩ := h _ _ _ _ _ hfirst hm1 hleft
      obtain ⟨d', hd', hread2⟩ := ih _ _ hm2 (hright e' hread1)
      exact ⟨d', .more he' hd', hread1.trans hread2⟩

/-- Steps that read something are at most as many as the characters read. -/
theorem Iterates.bounded {step : Cursor → Cursor → Prop} {n : Nat}
    {c d : Cursor} (h : Iterates step 0 n c d)
    (hreads : ∀ c d, step c d → ∃ m, m ≠ [] ∧ Reads c m d) {m : List Char}
    (hm : Reads c m d) {n' : Nat} (hn : m.length ≤ n') :
    Iterates step 0 n' c d := by
  generalize hlo : (0 : Nat) = lo at h
  induction h generalizing m n' with
  | stop _ => exact .stop (Or.inl hlo.symm)
  | more hfirst hrest ih =>
      obtain ⟨m1, hne, hm1⟩ := hreads _ _ hfirst
      obtain ⟨m2, hm2⟩ := hrest.reads
        (fun c d h => (hreads c d h).imp fun _ h => h.2)
      obtain rfl := hm.unique (hm1.trans hm2)
      have hpos := List.length_pos_of_ne_nil hne
      rw [List.length_append] at hn
      obtain ⟨k, rfl⟩ : ∃ k, n' = k + 1 := ⟨n' - 1, by omega⟩
      exact .more hfirst (ih hm2 (by omega) (by omega))

/-- **A MATCH DEPENDS ON ITS TEXT AND ITS SIDES**: it is a match wherever the
    same text stands between the same sides. -/
theorem Steps.movable {r : Regex} (hr : Proper isWord r) :
    Movable isWord (Steps isWord r) := by
  induction r with
  | char p =>
      rintro c d c' m rest ⟨x, hx, hinput, hbefore, hgroups⟩ hread hmoved
      obtain rfl := hread.unique (show Reads c [x] d from ⟨hinput, hbefore⟩)
      exact ⟨⟨some x, rest, c'.groups⟩, ⟨x, hx, hmoved.input, rfl, rfl⟩,
        hmoved.input, rfl⟩
  | seq a b iha ihb =>
      rintro c d c' m rest ⟨e, ha, hb⟩ hread hmoved
      obtain ⟨m1, hm1⟩ := ha.reads
      obtain ⟨m2, hm2⟩ := hb.reads
      obtain rfl := hread.unique (hm1.trans hm2)
      obtain ⟨hleft, hright⟩ := hmoved.split hm1 hm2
      obtain ⟨e', he', hread1⟩ := iha hr.1 _ _ _ _ _ ha hm1 hleft
      obtain ⟨d', hd', hread2⟩ := ihb hr.2 _ _ _ _ _ hb hm2 (hright e' hread1)
      exact ⟨d', ⟨e', he', hd'⟩, hread1.trans hread2⟩
  | alt a b iha ihb =>
      rintro c d c' m rest (ha | hb) hread hmoved
      · obtain ⟨d', hd', hread'⟩ := iha hr.1 _ _ _ _ _ ha hread hmoved
        exact ⟨d', Or.inl hd', hread'⟩
      · obtain ⟨d', hd', hread'⟩ := ihb hr.2 _ _ _ _ _ hb hread hmoved
        exact ⟨d', Or.inr hd', hread'⟩
  | rep lo hi r ih => exact Iterates.movable lo hi (fun _ _ => Steps.reads) (ih hr)
  | star r ih =>
      intro c d c' m rest hd hread hmoved
      obtain ⟨d', hd', hread'⟩ := Iterates.movable 0 _ (fun _ _ => Steps.reads)
        (ih hr.1) _ _ _ _ _ hd hread hmoved
      refine ⟨d', ?_, hread'⟩
      refine hd'.bounded (fun c d h => ?_) hread' ?_
      · obtain ⟨m, hm⟩ := Steps.reads h
        exact ⟨m, hr.2 c d m h hm, hm⟩
      · rw [hmoved.input, List.length_append]
        exact Nat.le_add_right _ _
  | boundary =>
      rintro c d c' m rest ⟨rfl, hedge⟩ hread hmoved
      obtain rfl := hread.unique (.refl _)
      refine ⟨c', ⟨rfl, ?_⟩, .refl _⟩
      unfold Edge
      rw [hmoved.before, hmoved.input, List.nil_append, hmoved.after]
      exact hedge
  | group index r ih =>
      rintro c d c' m rest ⟨e, he, rfl⟩ hread hmoved
      obtain ⟨e', he', hread'⟩ := ih hr _ e _ _ _ he ⟨hread.1, hread.2⟩
        ⟨hmoved.input, hmoved.before, hmoved.after⟩
      exact ⟨_, ⟨e', he', rfl⟩, hread'.1, hread'.2⟩

/-! ## Cutting a text into gaps and matches -/

/-- No match starts inside a gap before a text. -/
def Unmatched (isWord : Char → Bool) (r : Regex) (b : Option Char)
    (gap rest : List Char) : Prop :=
  ∀ u v, gap = u ++ v → v ≠ [] →
    ∀ d, ¬Steps isWord r ⟨lastOf b u, v ++ rest, []⟩ d

/-- **A CUT**: a text with its matches replaced, gap by gap. -/
inductive Cut (isWord : Char → Bool) (r : Regex)
    (replacement : Cursor → List Char) :
    Option Char → List Char → List Char → Prop where
  | last {b : Option Char} {gap : List Char}
      (hgap : Unmatched isWord r b gap []) :
      Cut isWord r replacement b gap gap
  | next {b : Option Char} {gap m out : List Char} {d : Cursor}
      (hgap : Unmatched isWord r b gap (m ++ d.input))
      (hmatch : Steps isWord r ⟨lastOf b gap, m ++ d.input, []⟩ d)
      (hrest : Cut isWord r replacement d.before d.input out) :
      Cut isWord r replacement b (gap ++ (m ++ d.input))
        (gap ++ (replacement d ++ out))

variable {r : Regex} {replacement : Cursor → List Char}

theorem Unmatched.cons {b : Option Char} {x : Char} {gap rest : List Char}
    (hx : ∀ d, ¬Steps isWord r ⟨b, x :: gap ++ rest, []⟩ d)
    (h : Unmatched isWord r (some x) gap rest) :
    Unmatched isWord r b (x :: gap) rest := by
  intro u v heq hv
  cases u with
  | nil =>
      rw [← (show x :: gap = v from heq)]
      exact hx
  | cons y u =>
      obtain ⟨rfl, rfl⟩ := List.cons.inj heq
      exact h u v rfl hv

theorem Cut.skip {b : Option Char} {x : Char} {xs out : List Char}
    (hx : ∀ d, ¬Steps isWord r ⟨b, x :: xs, []⟩ d)
    (h : Cut isWord r replacement (some x) xs out) :
    Cut isWord r replacement b (x :: xs) (x :: out) := by
  cases h with
  | last hgap =>
      refine .last (hgap.cons ?_)
      rw [List.append_nil]
      exact hx
  | next hgap hmatch hrest =>
      rename_i gap m out d
      show Cut isWord r replacement b (x :: gap ++ (m ++ d.input))
        (x :: gap ++ (replacement d ++ out))
      exact .next (hgap.cons hx) hmatch hrest

/-- **REPLACING** every match of a pattern that reads something cuts the
    text. -/
theorem replaceFrom_cut
    (hreads : ∀ c d m, Steps isWord r c d → Reads c m d → m ≠ []) {fuel : Nat}
    {b : Option Char} {input : List Char} (hfuel : input.length ≤ fuel) :
    Cut isWord r replacement b input
      (replaceFrom isWord r replacement fuel b input) := by
  induction fuel generalizing b input with
  | zero =>
      rw [List.length_eq_zero_iff.mp (Nat.le_zero.mp hfuel)]
      exact .last fun u v heq hv => absurd (List.append_eq_nil_iff.mp heq.symm).2 hv
  | succ fuel ih =>
      cases input with
      | nil =>
          exact .last fun u v heq hv =>
            absurd (List.append_eq_nil_iff.mp heq.symm).2 hv
      | cons x xs =>
          unfold replaceFrom
          cases hm : matchAt isWord r b (x :: xs) with
          | none => exact (ih (Nat.le_of_succ_le_succ hfuel)).skip (matchAt_none hm)
          | some d =>
              have hsteps := matchAt_some hm
              obtain ⟨m, hread⟩ := hsteps.reads
              have hpos := List.length_pos_of_ne_nil (hreads _ _ m hsteps hread)
              have hinput : x :: xs = m ++ d.input := hread.1
              have hlength := congrArg List.length hinput
              rw [List.length_append] at hlength
              rw [hinput] at hsteps ⊢
              have hnil : Unmatched isWord r b [] (m ++ d.input) :=
                fun u v heq hv => absurd (List.append_eq_nil_iff.mp heq.symm).2 hv
              show Cut isWord r replacement b ([] ++ (m ++ d.input))
                ([] ++ (replacement d ++ _))
              exact .next hnil hsteps (ih (by omega))

/-- Where nothing matches the text stays. -/
theorem Cut.same {b : Option Char} {text out : List Char}
    (h : Cut isWord r replacement b text out)
    (hnone : Unmatched isWord r b text [])
    (hreads : ∀ c d m, Steps isWord r c d → Reads c m d → m ≠ []) :
    out = text := by
  cases h with
  | last _ => rfl
  | next hgap hmatch hrest =>
      rename_i gap m out d
      refine absurd hmatch ?_
      have hne : m ++ d.input ≠ [] := by
        obtain ⟨m', hread⟩ := hmatch.reads
        obtain ⟨x, xs, hm'⟩ := List.exists_cons_of_ne_nil (hreads _ _ _ hmatch hread)
        rw [show m ++ d.input = m' ++ d.input from hread.1, hm']
        exact List.cons_ne_nil _ _
      have := hnone gap (m ++ d.input) rfl hne d
      rwa [List.append_nil] at this

/-- A match in a text is a match where it stands. -/
theorem matchAt_eq_none {b : Option Char} {input : List Char}
    (h : ∀ d, ¬Steps isWord r ⟨b, input, []⟩ d) :
    matchAt isWord r b input = none := by
  cases hm : matchAt isWord r b input with
  | none => rfl
  | some d => exact absurd (matchAt_some hm) (h d)

end Regex
