import Mathlib.Algebra.Order.Group.Defs
import Mathlib.Algebra.Order.Group.Unbundled.Basic
import Mathlib.Logic.Relation
import Mathlib.Tactic.Abel

/-! # Pools — what is granted, held and spent

    A pool grants an amount.  Parts of it are HELD for work that has begun,
    and later spent or given back.  Only holding asks whether enough is left;
    a hold is settled for at most what it held.  So what is held and spent
    never exceeds what is granted, in whatever order holds are made, settled
    and given back: the one check at the hold is enough. -/

namespace Pools

/-- What was granted, what of it is held, and what was spent. -/
structure Pool (α : Type) where
  granted : α
  held : α
  spent : α

/-- What is left of a pool. -/
def Pool.left {α : Type} [Add α] [Sub α] (p : Pool α) : α :=
  p.granted - (p.spent + p.held)

variable {α : Type} [AddCommGroup α] [PartialOrder α]

/-- What can happen to a pool. -/
inductive Step : Pool α → Pool α → Prop where
  | grant {p : Pool α} {x : α} (hx : 0 ≤ x) :
      Step p { p with granted := p.granted + x }
  | hold {p : Pool α} {x : α} (hx : p.held + p.spent + x ≤ p.granted) :
      Step p { p with held := p.held + x }
  | settle {p : Pool α} {x y : α} (hy : y ≤ x) :
      Step p { p with held := p.held - x, spent := p.spent + y }
  | forget {p : Pool α} {x : α} (hx : 0 ≤ x) :
      Step p { p with spent := p.spent - x }

/-- Any number of steps, none among them. -/
abbrev Steps : Pool α → Pool α → Prop := Relation.ReflTransGen Step

/-- Enough was granted for all that is held and spent. -/
def Covered (p : Pool α) : Prop := p.held + p.spent ≤ p.granted

section Order

variable [IsOrderedAddMonoid α] {p q : Pool α}

theorem Step.covered (h : Step p q) (hp : Covered p) : Covered q := by
  unfold Covered at hp ⊢
  cases h with
  | grant hx => exact le_add_of_le_of_nonneg hp hx
  | @hold x hx =>
      show p.held + x + p.spent ≤ p.granted
      rw [add_right_comm]
      exact hx
  | @settle x y hy =>
      have hback : p.held - x + (p.spent + y) = p.held + p.spent - (x - y) := by
        abel
      show p.held - x + (p.spent + y) ≤ p.granted
      rw [hback]
      exact le_trans (sub_le_self _ (sub_nonneg.mpr hy)) hp
  | @forget x hx =>
      show p.held + (p.spent - x) ≤ p.granted
      rw [← add_sub_assoc]
      exact le_trans (sub_le_self _ hx) hp

/-- **COVERED FOR EVER**, whatever the order of the steps. -/
theorem Steps.covered (h : Steps p q) (hp : Covered p) : Covered q := by
  induction h with
  | refl => exact hp
  | tail _ hstep ih => exact hstep.covered ih

end Order

end Pools
