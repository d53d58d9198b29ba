import Mathlib.Algebra.BigOperators.Group.List.Basic
import Mathlib.Algebra.Order.Ring.Int

/-! # Checked integers — 64-bit arithmetic over the integers

    Machine integers are integers with explicit range checks: the checked
    operations fail outside the range, the wrapping ones reduce modulo
    2^64.  A checked sum that succeeds is the exact sum, and so is a checked
    fold. -/

namespace I64

/-- The least 64-bit integer. -/
def minValue : Int := -9223372036854775808

/-- The greatest 64-bit integer. -/
def maxValue : Int := 9223372036854775807

/-- The integers a signed 64-bit word holds. -/
def Fits (n : Int) : Prop := minValue ≤ n ∧ n ≤ maxValue

instance (n : Int) : Decidable (Fits n) :=
  inferInstanceAs (Decidable (minValue ≤ n ∧ n ≤ maxValue))

/-- A sum, if it is in range. -/
def checkedAdd (a b : Int) : Option Int :=
  if Fits (a + b) then some (a + b) else none

/-- A difference, if it is in range. -/
def checkedSub (a b : Int) : Option Int :=
  if Fits (a - b) then some (a - b) else none

/-- A product, if it is in range. -/
def checkedMul (a b : Int) : Option Int :=
  if Fits (a * b) then some (a * b) else none

/-- A difference, or the bound that it passes. -/
def saturatingSub (a b : Int) : Int :=
  max minValue (min maxValue (a - b))

/-- The word that a result out of range leaves behind. -/
def wrap (n : Int) : Int :=
  (n - minValue) % 18446744073709551616 + minValue

/-- The word that a sum leaves behind. -/
def wrappingAdd (a b : Int) : Int := wrap (a + b)

theorem checkedAdd_eq_some {a b c : Int} :
    checkedAdd a b = some c ↔ Fits (a + b) ∧ c = a + b := by
  unfold checkedAdd
  by_cases h : Fits (a + b)
  · simp [h, eq_comm]
  · simp [h]

theorem checkedSub_eq_some {a b c : Int} :
    checkedSub a b = some c ↔ Fits (a - b) ∧ c = a - b := by
  unfold checkedSub
  by_cases h : Fits (a - b)
  · simp [h, eq_comm]
  · simp [h]

/-- In range, wrapping changes nothing. -/
theorem wrap_of_fits {n : Int} (h : Fits n) : wrap n = n := by
  unfold wrap
  unfold Fits minValue maxValue at h
  unfold minValue
  omega

/-- A positive amount added later is not in the past exactly in range. -/
theorem le_wrappingAdd_iff {a b : Int} (ha : 0 ≤ a) (hb : 0 < b)
    (hfa : Fits a) (hfb : Fits b) : a ≤ wrappingAdd a b ↔ Fits (a + b) := by
  unfold wrappingAdd wrap
  unfold Fits minValue maxValue at *
  omega

theorem wrappingAdd_of_fits {a b : Int} (h : Fits (a + b)) :
    wrappingAdd a b = a + b :=
  wrap_of_fits h

end I64

/-! ## Folds that may fail -/

namespace CheckedFold

variable {ε α β : Type}

theorem foldlM_cons {step : β → α → Except ε β} {b : β} {a : α}
    {l : List α} {b' : β} (h : (a :: l).foldlM step b = .ok b') :
    ∃ c, step b a = .ok c ∧ l.foldlM step c = .ok b' := by
  rw [List.foldlM_cons] at h
  cases hs : step b a with
  | error e =>
      rw [hs] at h
      exact nomatch h
  | ok c =>
      rw [hs] at h
      exact ⟨c, rfl, h⟩

/-- A fold whose steps each add a measure adds the sum of the measures, and
    keeps what the steps keep. -/
theorem foldlM_sum {step : β → α → Except ε β} {I : β → Prop} {m : β → Int}
    {f : α → Int}
    (hstep : ∀ b a b', I b → step b a = .ok b' → I b' ∧ m b' = m b + f a) :
    ∀ {l : List α} {b b' : β}, I b → l.foldlM step b = .ok b' →
      I b' ∧ m b' = m b + (l.map f).sum := by
  intro l
  induction l with
  | nil =>
      intro b b' hb h
      cases h
      exact ⟨hb, by simp⟩
  | cons a l ih =>
      intro b b' hb h
      obtain ⟨c, hc, hl⟩ := foldlM_cons h
      obtain ⟨hI, hm⟩ := hstep b a c hb hc
      obtain ⟨hI', hm'⟩ := ih hI hl
      refine ⟨hI', ?_⟩
      rw [hm', hm, List.map_cons, List.sum_cons, add_assoc]

/-- A fold that returns has taken every step, each from where the invariant
    holds. -/
theorem foldlM_each {step : β → α → Except ε β} {I : β → Prop}
    (hstep : ∀ b a b', I b → step b a = .ok b' → I b') :
    ∀ {l : List α} {b b' : β}, I b → l.foldlM step b = .ok b' →
      ∀ a ∈ l, ∃ c c', I c ∧ step c a = .ok c' := by
  intro l
  induction l with
  | nil => exact fun _ _ a ha => nomatch ha
  | cons a l ih =>
      intro b b' hb h x hx
      obtain ⟨c, hc, hl⟩ := foldlM_cons h
      rcases List.mem_cons.mp hx with rfl | hx
      · exact ⟨b, c, hb, hc⟩
      · exact ih (hstep b a c hb hc) hl x hx

/-- A fold returns when every step does, from where there is room for the
    rest of the list. -/
theorem foldlM_returns {step : β → α → Except ε β} {I : List α → β → Prop}
    (hstep : ∀ b a l, I (a :: l) b → ∃ b', step b a = .ok b' ∧ I l b') :
    ∀ {l : List α} {b : β}, I l b →
      ∃ b', l.foldlM step b = .ok b' ∧ I [] b' := by
  intro l
  induction l with
  | nil => exact fun hb => ⟨_, rfl, hb⟩
  | cons a l ih =>
      intro b hb
      obtain ⟨c, hc, hI⟩ := hstep b a l hb
      obtain ⟨b', hb', hI'⟩ := ih hI
      refine ⟨b', ?_, hI'⟩
      rw [List.foldlM_cons, hc]
      exact hb'

end CheckedFold
