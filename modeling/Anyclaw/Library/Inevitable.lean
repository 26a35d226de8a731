import Anyclaw.Library.Transition

/-!
# What a machine cannot avoid

A property is inevitable in a state when every run from it comes to a state with the property:
no run goes on without it for ever, and none gets stuck before.  A measure that decreases
shows that a property is inevitable; a trap, where the machine may stay without the property,
shows that it is not.
-/

namespace Machine

variable {σ ι : Type*} (M : Machine σ ι)

/-- Every run from the state comes to one with the property. -/
inductive Inevitable (P : σ → Prop) : σ → Prop where
  | here {s : σ} (h : P s) : Inevitable P s
  | later {s : σ} (goes : ∃ l s', M.step s l = some s')
      (h : ∀ l s', M.step s l = some s' → Inevitable P s') : Inevitable P s

variable {M} {P I : σ → Prop} {s : σ}

/-- The invariant keeps the machine from getting stuck, and each step has the property or
    decreases the measure. -/
theorem inevitable_of_measure (μ : σ → Nat)
    (goes : ∀ s, I s → P s ∨ ∃ l s', M.step s l = some s')
    (step : ∀ s l s', I s → ¬P s → M.step s l = some s' → P s' ∨ (I s' ∧ μ s' < μ s))
    (h : I s) : M.Inevitable P s := by
  induction hn : μ s using Nat.strongRecOn generalizing s with
  | ind n ih =>
      by_cases hP : P s
      · exact .here hP
      · refine .later ((goes s h).resolve_left hP) ?_
        intro l s' hstep
        rcases step s l s' h hP hstep with hP' | ⟨hI, hlt⟩
        · exact .here hP'
        · exact ih (μ s') (hn ▸ hlt) hI rfl

/-- From a state of the trap, the machine cannot go on or may stay in the trap. -/
theorem not_inevitable_of_trap (hP : ∀ s, I s → ¬P s)
    (stays : ∀ s, I s → (∀ l, M.step s l = none) ∨ ∃ l s', M.step s l = some s' ∧ I s')
    (h : I s) : ¬M.Inevitable P s := by
  intro hinev
  induction hinev with
  | here hs => exact hP _ h hs
  | later goes _ ih =>
      rcases stays _ h with hstuck | ⟨l, s', hstep, hI⟩
      · obtain ⟨l, s', hstep⟩ := goes
        rw [hstuck l] at hstep
        cases hstep
      · exact ih l s' hstep hI

end Machine
