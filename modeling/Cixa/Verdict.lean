import Mathlib.Order.Basic
import Mathlib.Algebra.Order.Ring.Int

/-! # Verdicts — what a decision by vetoes and consents lets through

    A decision is REFUSED when anything vetoes it, left to a consent when
    nothing vetoes it and something asks for consent, and ALLOWED otherwise.
    The three are ordered by what they let through.  A decision with more
    vetoes and more consents is never above one with fewer: to compare two
    decisions it is enough to compare what vetoes and what asks. -/

/-- The three ways a decision can end. -/
inductive Verdict where
  | refused
  | consent
  | allowed
  deriving DecidableEq

namespace Verdict

/-- How much a verdict lets through. -/
def rank : Verdict → Nat
  | refused => 0
  | consent => 1
  | allowed => 2

theorem rank_injective : Function.Injective rank := by
  intro a b h
  cases a <;> cases b <;> first | rfl | exact absurd h (by decide)

instance : PartialOrder Verdict := PartialOrder.lift rank rank_injective

theorem le_def {a b : Verdict} : a ≤ b ↔ a.rank ≤ b.rank := Iff.rfl

/-- **THE ORDER BY ITS TWO CUTS**: a verdict is below another when whatever
    it does not refuse is not refused there, and whatever it allows is
    allowed there. -/
theorem le_of_cuts {a b : Verdict} (hrefused : a ≠ refused → b ≠ refused)
    (hallowed : a = allowed → b = allowed) : a ≤ b := by
  cases a with
  | refused => exact le_def.mpr (Nat.zero_le _)
  | consent =>
      cases b with
      | refused => exact absurd rfl (hrefused (fun h => nomatch h))
      | consent => exact le_rfl
      | allowed => exact le_def.mpr (Nat.le_succ _)
  | allowed =>
      rw [hallowed rfl]

end Verdict
