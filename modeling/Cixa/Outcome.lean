import Mathlib.Logic.Basic

/-! # Outcomes — preconditions for programs with state and errors

    A program over `EStateM ε σ` ends either with a value or with an error,
    and in BOTH cases with a state: an error does not undo what was written
    before it.  `wp x Q E s` says that a run of `x` from `s` ends in `Q` when
    it returns and in `E` when it fails.

    The rules compute `wp` through sequencing, guards, lookups, lifted pure
    results and handlers, so a program is verified in the order it is
    written and a helper is used through its own specification. -/

namespace Outcome

variable {ε σ α β : Type}

/-- Every run of `x` from `s` ends in `Q` if it returns, in `E` if it
    fails. -/
def wp (x : EStateM ε σ α) (Q : α → σ → Prop) (E : ε → σ → Prop) (s : σ) :
    Prop :=
  match x s with
  | .ok a s' => Q a s'
  | .error e s' => E e s'

/-- The state in which a run ends. -/
def final (x : EStateM ε σ α) (s : σ) : σ :=
  match x s with
  | .ok _ s' => s'
  | .error _ s' => s'

/-- The value or the error with which a run ends. -/
def result (x : EStateM ε σ α) (s : σ) : Except ε α :=
  match x s with
  | .ok a _ => .ok a
  | .error e _ => .error e

/-- A precondition is a statement about the result and the final state. -/
theorem wp_iff {x : EStateM ε σ α} {Q : α → σ → Prop} {E : ε → σ → Prop}
    {s : σ} :
    wp x Q E s ↔ (∀ a, result x s = .ok a → Q a (final x s))
      ∧ (∀ e, result x s = .error e → E e (final x s)) := by
  unfold wp result final
  cases x s with
  | ok a s' => simp
  | error e s' => simp

theorem wp_final {x : EStateM ε σ α} {P : σ → Prop} {s : σ} :
    wp x (fun _ => P) (fun _ => P) s ↔ P (final x s) := by
  unfold wp final
  cases x s with
  | ok a s' => exact Iff.rfl
  | error e s' => exact Iff.rfl

/-- The result of a sequence. -/
theorem result_bind (x : EStateM ε σ β) (f : β → EStateM ε σ α) (s : σ) :
    result (x >>= f) s = match result x s with
      | .ok b => result (f b) (final x s)
      | .error e => .error e := by
  show result (EStateM.bind x f) s = _
  unfold result final EStateM.bind
  cases x s with
  | ok b s' => rfl
  | error e s' => rfl

/-- **CONSEQUENCE**: weaken both postconditions. -/
theorem wp_mono {x : EStateM ε σ α} {Q Q' : α → σ → Prop}
    {E E' : ε → σ → Prop} {s : σ} (h : wp x Q E s)
    (hQ : ∀ a s', Q a s' → Q' a s') (hE : ∀ e s', E e s' → E' e s') :
    wp x Q' E' s := by
  unfold wp at h ⊢
  cases hx : x s with
  | ok a s' =>
      rw [hx] at h
      exact hQ a s' h
  | error e s' =>
      rw [hx] at h
      exact hE e s' h

/-- What holds anyway holds however a run ends. -/
theorem wp_const {x : EStateM ε σ α} {P : Prop} {s : σ} (h : P) :
    wp x (fun _ _ => P) (fun _ _ => P) s := by
  unfold wp
  cases x s with
  | ok a s' => exact h
  | error e s' => exact h

/-- Two specifications of one run hold together. -/
theorem wp_and {x : EStateM ε σ α} {Q Q' : α → σ → Prop}
    {E E' : ε → σ → Prop} {s : σ} (h : wp x Q E s) (h' : wp x Q' E' s) :
    wp x (fun a s' => Q a s' ∧ Q' a s') (fun e s' => E e s' ∧ E' e s') s := by
  unfold wp at h h' ⊢
  cases hx : x s with
  | ok a s' =>
      rw [hx] at h h'
      exact ⟨h, h'⟩
  | error e s' =>
      rw [hx] at h h'
      exact ⟨h, h'⟩

/-! ## The basic programs -/

section Rules

variable {Q : α → σ → Prop} {E : ε → σ → Prop} {s : σ}

@[simp] theorem wp_pure (a : α) : wp (pure a) Q E s ↔ Q a s := Iff.rfl

@[simp] theorem wp_throw (e : ε) :
    wp (throw e : EStateM ε σ α) Q E s ↔ E e s := Iff.rfl

@[simp] theorem wp_bind (x : EStateM ε σ β) (f : β → EStateM ε σ α) :
    wp (x >>= f) Q E s ↔ wp x (fun b s' => wp (f b) Q E s') E s := by
  show wp (EStateM.bind x f) Q E s ↔ _
  unfold wp EStateM.bind
  cases x s with
  | ok b s' => exact Iff.rfl
  | error e s' => exact Iff.rfl

@[simp] theorem wp_map (g : β → α) (x : EStateM ε σ β) :
    wp (g <$> x) Q E s ↔ wp x (fun b s' => Q (g b) s') E s := by
  show wp (EStateM.map g x) Q E s ↔ _
  unfold wp EStateM.map
  cases x s with
  | ok b s' => exact Iff.rfl
  | error e s' => exact Iff.rfl

@[simp] theorem wp_get {Q : σ → σ → Prop} :
    wp (get : EStateM ε σ σ) Q E s ↔ Q s s := Iff.rfl

@[simp] theorem wp_set {Q : Unit → σ → Prop} (s' : σ) :
    wp (set s' : EStateM ε σ Unit) Q E s ↔ Q ⟨⟩ s' := Iff.rfl

@[simp] theorem wp_modify {Q : Unit → σ → Prop} (f : σ → σ) :
    wp (modify f : EStateM ε σ Unit) Q E s ↔ Q ⟨⟩ (f s) := Iff.rfl

/-- A handler continues from the state the failed run left behind. -/
@[simp] theorem wp_tryCatch (x : EStateM ε σ α) (h : ε → EStateM ε σ α) :
    wp (tryCatch x h) Q E s ↔ wp x Q (fun e s' => wp (h e) Q E s') s := by
  show wp (EStateM.tryCatch x h) Q E s ↔ _
  unfold wp EStateM.tryCatch
  cases x s with
  | ok a s' => exact Iff.rfl
  | error e s' => exact Iff.rfl

@[simp] theorem wp_ite (c : Prop) [Decidable c] (x y : EStateM ε σ α) :
    wp (if c then x else y) Q E s
      ↔ (c → wp x Q E s) ∧ (¬c → wp y Q E s) := by
  by_cases hc : c
  · simp [hc]
  · simp [hc]

end Rules

/-! ## Guards, lookups and lifted results -/

/-- Fail with an error when a condition holds. -/
def rejectIf (c : Prop) [Decidable c] (e : ε) : EStateM ε σ Unit :=
  if c then throw e else pure ⟨⟩

/-- The value of an option, or fail. -/
def orReject (o : Option α) (e : ε) : EStateM ε σ α :=
  match o with
  | some a => pure a
  | none => throw e

/-- Run a program and hand over its result, be it a value or an error. -/
def attempt (x : EStateM ε σ α) : EStateM ε σ (Except ε α) := fun s =>
  match x s with
  | .ok a s' => .ok (.ok a) s'
  | .error e s' => .ok (.error e) s'

/-- A pure result as a program that leaves the state alone. -/
def lift (x : Except ε α) : EStateM ε σ α :=
  match x with
  | .ok a => pure a
  | .error e => throw e

/-- A pure result that is a value is handed on. -/
theorem lift_ok_bind (a : α) (f : α → EStateM ε σ β) :
    (lift (.ok a) >>= f) = f a := rfl

section Guards

variable {Q : α → σ → Prop} {E : ε → σ → Prop} {s : σ}

@[simp] theorem wp_rejectIf {Q : Unit → σ → Prop} (c : Prop) [Decidable c]
    (e : ε) :
    wp (rejectIf c e) Q E s ↔ (c → E e s) ∧ (¬c → Q ⟨⟩ s) := by
  unfold rejectIf
  exact wp_ite c _ _

@[simp] theorem wp_orReject (o : Option α) (e : ε) :
    wp (orReject o e) Q E s
      ↔ (o = none → E e s) ∧ (∀ a, o = some a → Q a s) := by
  cases o with
  | none => simp [orReject]
  | some a => simp [orReject]

@[simp] theorem wp_lift (x : Except ε α) :
    wp (lift x) Q E s
      ↔ (∀ e, x = .error e → E e s) ∧ (∀ a, x = .ok a → Q a s) := by
  cases x with
  | ok a => simp [lift]
  | error e => simp [lift]

@[simp] theorem wp_attempt {Q : Except ε α → σ → Prop} (x : EStateM ε σ α) :
    wp (attempt x) Q E s
      ↔ wp x (fun a s' => Q (.ok a) s') (fun e s' => Q (.error e) s') s := by
  unfold wp attempt
  cases x s with
  | ok a s' => exact Iff.rfl
  | error e s' => exact Iff.rfl

end Guards

/-! ## Reading a program line by line

    With an error postcondition that already holds, a line that only checks
    or looks up contributes its success to the context and nothing else. -/

section Lines

variable {Q : β → σ → Prop} {E : ε → σ → Prop} {s : σ}

theorem line {P : α → σ → Prop} {x : EStateM ε σ α} {f : α → EStateM ε σ β}
    (hx : wp x P E s) (hf : ∀ a s', P a s' → wp (f a) Q E s') :
    wp (x >>= f) Q E s := by
  rw [wp_bind]
  exact wp_mono hx hf (fun _ _ h => h)

theorem line_lift {x : Except ε α} {f : α → EStateM ε σ β} (hE : ∀ e, E e s)
    (hf : ∀ a, x = .ok a → wp (f a) Q E s) : wp (lift x >>= f) Q E s := by
  rw [wp_bind, wp_lift]
  exact ⟨fun e _ => hE e, hf⟩

theorem line_orReject {o : Option α} {e : ε} {f : α → EStateM ε σ β}
    (hE : ∀ e, E e s) (hf : ∀ a, o = some a → wp (f a) Q E s) :
    wp (orReject o e >>= f) Q E s := by
  rw [wp_bind, wp_orReject]
  exact ⟨fun _ => hE e, hf⟩

theorem line_rejectIf {c : Prop} [Decidable c] {e : ε}
    {f : Unit → EStateM ε σ β} (hE : ∀ e, E e s)
    (hf : ¬c → wp (f ()) Q E s) : wp (rejectIf c e >>= f) Q E s := by
  rw [wp_bind, wp_rejectIf]
  exact ⟨fun _ => hE e, hf⟩

/-- What a run that returned satisfies. -/
theorem wp_ok {x : EStateM ε σ α} {P : α → σ → Prop} {F : ε → σ → Prop}
    {a : α} {s' : σ} (h : wp x P F s) (hx : x s = .ok a s') : P a s' := by
  unfold wp at h
  rw [hx] at h
  exact h

/-- What a run that failed satisfies. -/
theorem wp_error {x : EStateM ε σ α} {P : α → σ → Prop} {F : ε → σ → Prop}
    {e : ε} {s' : σ} (h : wp x P F s) (hx : x s = .error e s') : F e s' := by
  unfold wp at h
  rw [hx] at h
  exact h

/-- A program that returns just when a condition holds. -/
theorem returns_iff {x : EStateM ε σ α} {P : α → σ → Prop} {C : Prop}
    (h : wp x (fun a t => P a t ∧ C) (fun _ _ => ¬C) s) :
    (∃ a t, x s = .ok a t) ↔ C := by
  constructor
  · rintro ⟨a, t, hx⟩
    exact (wp_ok h hx).2
  · intro hC
    cases hx : x s with
    | ok a t => exact ⟨a, t, rfl⟩
    | error e t => exact absurd hC (wp_error h hx)

/-- A run ends where it ends. -/
theorem wp_self (x : EStateM ε σ α) :
    wp x (fun a s' => x s = .ok a s') (fun e s' => x s = .error e s') s := by
  unfold wp
  cases hx : x s with
  | ok a s' => rfl
  | error e s' => rfl

/-- A program that can end in one way only ends so. -/
theorem wp_exact {x : EStateM ε σ α} {a : α} {s' : σ}
    (h : wp x (fun b t => b = a ∧ t = s') (fun _ _ => False) s) :
    x s = .ok a s' := by
  unfold wp at h
  cases hx : x s with
  | ok b t =>
      rw [hx] at h
      obtain ⟨rfl, rfl⟩ := h
      rfl
  | error e t =>
      rw [hx] at h
      exact h.elim

/-- A program that cannot fail returns. -/
theorem wp_returns {x : EStateM ε σ α} {P : α → σ → Prop}
    (h : wp x P (fun _ _ => False) s) :
    ∃ a, result x s = .ok a ∧ P a (final x s) := by
  unfold wp at h
  unfold result final
  cases hx : x s with
  | ok a t =>
      rw [hx] at h
      exact ⟨a, rfl, h⟩
  | error e t =>
      rw [hx] at h
      exact h.elim

end Lines

-- from here on a program is read by the rules only
attribute [irreducible] wp

end Outcome
