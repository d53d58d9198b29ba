import Mathlib.Logic.Basic

/-! # Checks — pure results that may fail

    Sequencing, guards and lookups in `Except`, each with the statement of
    when it succeeds.  A check written with them is inverted by one `simp`
    call: it succeeds exactly when every guard passes and every lookup
    finds its value. -/

namespace Checks

variable {ε α β : Type}

/-- Fail with an error when a condition holds. -/
def refuseIf (c : Prop) [Decidable c] (e : ε) : Except ε Unit :=
  if c then .error e else .ok ⟨⟩

/-- The value of an option, or fail. -/
def orRefuse (o : Option α) (e : ε) : Except ε α :=
  match o with
  | some a => .ok a
  | none => .error e

@[simp] theorem bind_eq_ok {x : Except ε α} {f : α → Except ε β} {b : β} :
    (x >>= f) = .ok b ↔ ∃ a, x = .ok a ∧ f a = .ok b := by
  cases x with
  | error e =>
      constructor
      · intro h
        exact nomatch h
      · rintro ⟨a, h, _⟩
        exact nomatch h
  | ok a =>
      constructor
      · intro h
        exact ⟨a, rfl, h⟩
      · rintro ⟨a', h, hf⟩
        cases h
        exact hf

theorem ok_bind (a : α) (f : α → Except ε β) :
    ((Except.ok a : Except ε α) >>= f) = f a := rfl

theorem error_bind (e : ε) (f : α → Except ε β) :
    ((Except.error e : Except ε α) >>= f) = .error e := rfl

@[simp] theorem pure_eq_ok {a b : α} :
    (pure a : Except ε α) = .ok b ↔ a = b := by
  constructor
  · intro h
    cases h
    rfl
  · rintro rfl
    rfl

@[simp] theorem map_eq_ok {x : Except ε α} {f : α → β} {b : β} :
    (f <$> x) = .ok b ↔ ∃ a, x = .ok a ∧ f a = b := by
  cases x with
  | error e =>
      constructor
      · intro h
        exact nomatch h
      · rintro ⟨a, h, _⟩
        exact nomatch h
  | ok a =>
      constructor
      · intro h
        cases h
        exact ⟨a, rfl, rfl⟩
      · rintro ⟨a', h, hf⟩
        cases h
        cases hf
        rfl

@[simp] theorem refuseIf_eq_ok {c : Prop} [Decidable c] {e : ε} {u : Unit} :
    refuseIf c e = .ok u ↔ ¬c := by
  unfold refuseIf
  by_cases hc : c
  · simp [hc]
  · simp [hc]

@[simp] theorem orRefuse_eq_ok {o : Option α} {e : ε} {a : α} :
    orRefuse o e = .ok a ↔ o = some a := by
  cases o with
  | none => simp [orRefuse]
  | some b => simp [orRefuse]

/-- A loop of checks succeeds when every check does. -/
theorem forM_eq_ok {l : List α} {f : α → Except ε Unit} :
    l.forM f = .ok ⟨⟩ ↔ ∀ a ∈ l, f a = .ok ⟨⟩ := by
  induction l with
  | nil =>
      constructor
      · intro _ a ha
        exact nomatch ha
      · intro _
        rfl
  | cons a l ih =>
      show (f a >>= fun _ => l.forM f) = .ok ⟨⟩ ↔ _
      rw [bind_eq_ok, List.forall_mem_cons]
      constructor
      · rintro ⟨_, ha, hl⟩
        exact ⟨ha, ih.mp hl⟩
      · rintro ⟨ha, hl⟩
        exact ⟨⟨⟩, ha, ih.mpr hl⟩

/-- Folds whose steps agree on the elements agree. -/
theorem foldlM_congr {f g : β → α → Except ε β} {l : List α}
    (h : ∀ b, ∀ a ∈ l, f b a = g b a) (b : β) :
    l.foldlM f b = l.foldlM g b := by
  induction l generalizing b with
  | nil => rfl
  | cons a l ih =>
      rw [List.foldlM_cons, List.foldlM_cons, h b a (List.mem_cons_self ..)]
      congr 1
      funext c
      exact ih (fun c x hx => h c x (List.mem_cons_of_mem _ hx)) c

/-- Folds that read no more than what two lists have in common agree. -/
theorem foldlM_congr_map {γ : Type} {f : β → α → Except ε β} {g : α → γ}
    (hg : ∀ a a', g a = g a' → ∀ b, f b a = f b a') {l l' : List α}
    (h : l.map g = l'.map g) (b : β) : l.foldlM f b = l'.foldlM f b := by
  induction l generalizing l' b with
  | nil => rw [List.map_eq_nil_iff.mp h.symm]
  | cons a l ih =>
      obtain ⟨a', l'', rfl, ha, hl⟩ := List.map_eq_cons_iff.mp h.symm
      rw [List.foldlM_cons, List.foldlM_cons, hg a a' ha.symm b]
      congr 1
      funext c
      exact ih hl.symm c

/-- An element that a fold passes over can be left out. -/
theorem foldlM_skip {f : β → α → Except ε β} {a : α}
    (h : ∀ b, f b a = pure b) (before after : List α) (b : β) :
    (before ++ a :: after).foldlM f b = (before ++ after).foldlM f b := by
  induction before generalizing b with
  | nil =>
      rw [List.nil_append, List.nil_append, List.foldlM_cons, h]
      rfl
  | cons x before ih =>
      rw [List.cons_append, List.cons_append, List.foldlM_cons,
        List.foldlM_cons]
      congr 1
      funext c
      exact ih c

/-- What every step commutes with, the fold commutes with. -/
theorem foldlM_commutes {f : β → α → Except ε β} {g : β → β}
    (h : ∀ b a, f (g b) a = g <$> f b a) (l : List α) (b : β) :
    l.foldlM f (g b) = g <$> l.foldlM f b := by
  induction l generalizing b with
  | nil => rfl
  | cons a l ih =>
      rw [List.foldlM_cons, List.foldlM_cons, h]
      cases f b a with
      | error e => rfl
      | ok c => exact ih c

/-- A fold that collects what it finds ends with nothing exactly when it
    starts with nothing and every element can be looked up and finds
    nothing. -/
theorem foldlM_collect_nil {γ : Type} {f : α → Except ε β} {g : β → List γ}
    {l : List α} {found : List γ} :
    l.foldlM (fun found a => do
        let b ← f a
        pure (found ++ g b)) found = .ok []
      ↔ found = [] ∧ ∀ a ∈ l, ∃ b, f a = .ok b ∧ g b = [] := by
  induction l generalizing found with
  | nil =>
      rw [List.foldlM_nil, pure_eq_ok]
      exact ⟨fun h => ⟨h, fun a ha => nomatch ha⟩, fun h => h.1⟩
  | cons a l ih =>
      rw [List.foldlM_cons, bind_eq_ok, List.forall_mem_cons]
      simp only [bind_eq_ok, pure_eq_ok]
      constructor
      · rintro ⟨_, ⟨b, hb, rfl⟩, hrest⟩
        obtain ⟨hnil, hl⟩ := ih.mp hrest
        obtain ⟨hfound, hg⟩ := List.append_eq_nil_iff.mp hnil
        exact ⟨hfound, ⟨b, hb, hg⟩, hl⟩
      · rintro ⟨hfound, ⟨b, hb, hg⟩, hl⟩
        exact ⟨_, ⟨b, hb, rfl⟩, ih.mpr ⟨List.append_eq_nil_iff.mpr ⟨hfound, hg⟩, hl⟩⟩

/-! ## What a failure can say -/

/-- Whenever it fails, its error satisfies `P`. -/
def FailsWith (P : ε → Prop) (x : Except ε α) : Prop :=
  ∀ e, x = .error e → P e

variable {P : ε → Prop}

theorem FailsWith.pure (a : α) : FailsWith P (Pure.pure a : Except ε α) := by
  intro e h
  exact nomatch h

theorem FailsWith.bind {x : Except ε α} {f : α → Except ε β}
    (hx : FailsWith P x) (hf : ∀ a, x = .ok a → FailsWith P (f a)) :
    FailsWith P (x >>= f) := by
  intro e h
  cases hrun : x with
  | error e' =>
      rw [hrun] at h
      cases h
      exact hx e hrun
  | ok a =>
      rw [hrun] at h
      exact hf a hrun e h

theorem FailsWith.refuseIf {c : Prop} [Decidable c] {e : ε} (h : c → P e) :
    FailsWith P (Checks.refuseIf c e) := by
  intro e' he
  unfold Checks.refuseIf at he
  split at he
  · cases he
    exact h ‹_›
  · exact nomatch he

theorem FailsWith.orRefuse {o : Option α} {e : ε} (h : P e) :
    FailsWith P (Checks.orRefuse o e) := by
  intro e' he
  cases o with
  | some a => exact nomatch he
  | none =>
      cases he
      exact h

theorem FailsWith.ite {c : Prop} [Decidable c] {x y : Except ε α}
    (hx : FailsWith P x) (hy : FailsWith P y) :
    FailsWith P (if c then x else y) := by
  split
  · exact hx
  · exact hy

/-- A fold fails as one of its steps does. -/
theorem FailsWith.foldlM {step : β → α → Except ε β}
    (hstep : ∀ b a, FailsWith P (step b a)) (l : List α) (b : β) :
    FailsWith P (l.foldlM step b) := by
  induction l generalizing b with
  | nil => exact .pure b
  | cons a l ih =>
      rw [List.foldlM_cons]
      exact .bind (hstep b a) fun c _ => ih c

end Checks
