import Mathlib.Logic.Basic

/-! # Transitions with rollback — invariants over labelled changes and runs

    A component changes its state in small labelled steps, and may at any
    point give up and RESTORE what it had at an earlier point.  Not all of
    the state comes back: what `restore base now` keeps of `now` (clocks,
    logs, counters) is up to the instance.

    `Reaches allowed w w'` collects every sequence of allowed steps and
    rollbacks.  An invariant kept by each step and by each rollback holds
    after all of them.  A `Run` is a list of whole operations; what each
    operation keeps, every run keeps, and what an operation keeps only under
    a condition is kept as long as the condition holds THROUGHOUT. -/

namespace Transition

variable {σ Λ : Type} (step : Λ → σ → σ → Prop) (restore : σ → σ → σ)

/-- States reached by allowed steps, giving up or not along the way. -/
inductive Reaches (allowed : Λ → Prop) : σ → σ → Prop where
  | refl (w : σ) : Reaches allowed w w
  | tail {w w1 w2 : σ} {l : Λ} : Reaches allowed w w1 → allowed l →
      step l w1 w2 → Reaches allowed w w2
  | rollback {w w1 w2 : σ} : Reaches allowed w w1 → Reaches allowed w1 w2 →
      Reaches allowed w (restore w1 w2)

namespace Reaches

variable {step restore}
variable {allowed allowed' : Λ → Prop} {w w1 w2 : σ}

theorem single {l : Λ} (ha : allowed l) (h : step l w w1) :
    Reaches step restore allowed w w1 :=
  .tail (.refl w) ha h

theorem trans (h1 : Reaches step restore allowed w w1)
    (h2 : Reaches step restore allowed w1 w2) :
    Reaches step restore allowed w w2 := by
  induction h2 with
  | refl => exact h1
  | tail _ ha hs ih => exact .tail (ih h1) ha hs
  | rollback _ h ih _ => exact .rollback (ih h1) h

/-- Fewer allowed labels reach fewer states. -/
theorem mono (hsub : ∀ l, allowed l → allowed' l)
    (h : Reaches step restore allowed w w1) :
    Reaches step restore allowed' w w1 := by
  induction h with
  | refl => exact .refl _
  | tail _ ha hs ih => exact .tail ih (hsub _ ha) hs
  | rollback _ _ ih1 ih2 => exact .rollback ih1 ih2

/-- A preorder that contains every allowed step and every rollback relates
    the two ends. -/
theorem rel {R : σ → σ → Prop} (hrefl : ∀ w, R w w)
    (htrans : ∀ a b c, R a b → R b c → R a c)
    (hstep : ∀ l a b, allowed l → step l a b → R a b)
    (hroll : ∀ a b, R a b → R a (restore a b))
    (h : Reaches step restore allowed w w1) : R w w1 := by
  induction h with
  | refl => exact hrefl _
  | tail _ ha hs ih => exact htrans _ _ _ ih (hstep _ _ _ ha hs)
  | rollback _ _ ih1 ih2 => exact htrans _ _ _ ih1 (hroll _ _ ih2)

/-- **INVARIANTS**: what each allowed step and each rollback keeps is kept
    throughout. -/
theorem invariant {I : σ → Prop}
    (hstep : ∀ l a b, allowed l → step l a b → I a → I b)
    (hroll : ∀ a b, Reaches step restore allowed a b → I a → I b →
      I (restore a b))
    (h : Reaches step restore allowed w w1) : I w → I w1 := by
  induction h with
  | refl => exact id
  | tail _ ha hs ih => exact fun hI => hstep _ _ _ ha hs (ih hI)
  | rollback _ h2 ih1 ih2 =>
      exact fun hI => hroll _ _ h2 (ih1 hI) (ih2 (ih1 hI))

end Reaches

/-! ## Runs of whole operations -/

variable {C : Type}

/-- A run: the operations in the order they were executed and the state they
    lead to.  Only states that can exist (`fits`) are reached. -/
inductive Run (exec : C → σ → σ) (fits : σ → Prop) (w : σ) :
    List C → σ → Prop where
  | nil : Run exec fits w [] w
  | snoc {cs : List C} {w1 : σ} (c : C) : Run exec fits w cs w1 →
      fits (exec c w1) → Run exec fits w (cs ++ [c]) (exec c w1)

namespace Run

variable {exec : C → σ → σ} {fits : σ → Prop} {w w1 : σ} {cs ds : List C}

/-- What holds at the start and is kept by every operation holds at the
    end. -/
theorem invariant {I : σ → Prop} (h : Run exec fits w cs w1) (hw : I w)
    (hI : ∀ c v, I v → fits (exec c v) → I (exec c v)) : I w1 := by
  induction h with
  | nil => exact hw
  | snoc c _ hfit ih => exact hI c _ ih hfit

theorem append {w2 : σ} (h1 : Run exec fits w cs w1)
    (h2 : Run exec fits w1 ds w2) : Run exec fits w (cs ++ ds) w2 := by
  induction h2 with
  | nil => rw [List.append_nil]; exact h1
  | snoc c _ hfit ih =>
      rw [← List.append_assoc]
      exact .snoc c ih hfit

end Run

/-! ## Conditions along a run -/

/-- Every operation meets a condition in the state where it is executed. -/
def Throughout (exec : C → σ → σ) (P : C → σ → Prop) : σ → List C → Prop
  | _, [] => True
  | w, c :: cs => P c w ∧ Throughout exec P (exec c w) cs

namespace Run

variable {exec : C → σ → σ} {fits : σ → Prop} {P : C → σ → Prop} {w w1 : σ}
  {cs : List C}

/-- The last operation of a run is executed where the run before it ends. -/
theorem throughout_snoc (h : Run exec fits w cs w1) (c : C) :
    Throughout exec P w (cs ++ [c]) ↔ Throughout exec P w cs ∧ P c w1 := by
  have hend : w1 = cs.foldl (fun v c => exec c v) w := by
    induction h with
    | nil => rfl
    | snoc c _ _ ih => rw [List.foldl_append, ← ih]; rfl
  clear h
  induction cs generalizing w with
  | nil =>
      subst hend
      exact ⟨fun h => ⟨trivial, h.1⟩, fun h => ⟨h.2, trivial⟩⟩
  | cons d ds ih =>
      have hrest : Throughout exec P (exec d w) (ds ++ [c]) ↔ _ := ih hend
      exact (and_congr_right fun _ => hrest).trans and_assoc.symm

/-- What every operation keeps where its condition holds, a run keeps along
    which all conditions hold. -/
theorem invariantThroughout {I : σ → Prop} (h : Run exec fits w cs w1)
    (hP : Throughout exec P w cs) (hw : I w)
    (hI : ∀ c v, P c v → I v → fits (exec c v) → I (exec c v)) : I w1 := by
  induction h with
  | nil => exact hw
  | snoc c hrun hfit ih =>
      obtain ⟨hbefore, hc⟩ := (hrun.throughout_snoc c).mp hP
      exact hI c _ hc (ih hbefore) hfit

end Run

end Transition
