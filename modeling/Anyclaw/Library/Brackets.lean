import Mathlib.Data.List.Basic
import Mathlib.Data.List.Infix

/-!
# Brackets that do not nest

A sequence of opening and closing marks is bracketed when between two opening marks there
is a closing one and every closing mark has an opening one of its own before it.  Whoever
emits the marks keeps one bit, whether a bracket is open; the sequence is bracketed as
long as no mark contradicts that bit.
-/

namespace Brackets

inductive Mark where
  | opens
  | closes
deriving DecidableEq

/-- The bit after a mark; `none` when the mark contradicts it. -/
def step : Bool → Mark → Option Bool
  | false, .opens => some true
  | true, .closes => some false
  | _, _ => none

def run (s : Bool) (l : List Mark) : Option Bool := l.foldlM step s

structure Bracketed (l : List Mark) : Prop where
  /-- Between two opening marks there is a closing one. -/
  separated : ∀ l₁ l₂ l₃, l = l₁ ++ .opens :: (l₂ ++ .opens :: l₃) → Mark.closes ∈ l₂
  /-- The closing marks have as many opening marks before them. -/
  matched : ∀ p, p <+: l → p.count .closes ≤ p.count .opens

/-! ### Runs of the bit -/

variable {s s' : Bool} {l l' : List Mark}

@[simp] theorem run_nil (s : Bool) : run s [] = some s := rfl

@[simp] theorem run_cons (s : Bool) (x : Mark) (l : List Mark) :
    run s (x :: l) = (step s x).bind fun s' => run s' l := by
  rw [run, List.foldlM_cons]
  rfl

theorem run_append (s : Bool) (l l' : List Mark) :
    run s (l ++ l') = (run s l).bind fun s' => run s' l' := by
  rw [run, List.foldlM_append]
  rfl

theorem run_of_append {s'' : Bool} (h : run s (l ++ l') = some s'') :
    ∃ s', run s l = some s' ∧ run s' l' = some s'' := by
  rw [run_append] at h
  exact Option.bind_eq_some_iff.mp h

/-- The bit counts the open brackets. -/
theorem count_of_run :
    ∀ (l : List Mark) (s : Bool), run s l = some s' →
      l.count .closes + s'.toNat = l.count .opens + s.toNat
  | [], s, h => by
      cases h
      rfl
  | x :: l, s, h => by
      rw [run_cons] at h
      obtain ⟨s₁, hs₁, hrest⟩ := Option.bind_eq_some_iff.mp h
      have ih := count_of_run l s₁ hrest
      rw [List.count_cons, List.count_cons]
      cases s <;> cases x
      · cases hs₁
        simp at ih ⊢
        omega
      · cases hs₁
      · cases hs₁
      · cases hs₁
        simp at ih ⊢
        omega

/-- **A sequence that agrees with the bit is bracketed.** -/
theorem bracketed_of_run (h : run false l = some s) : Bracketed l := by
  refine ⟨?_, ?_⟩
  · rintro l₁ l₂ l₃ rfl
    obtain ⟨s₁, _, hrest⟩ := run_of_append h
    rw [run_cons] at hrest
    obtain ⟨s₂, hopen, hrest⟩ := Option.bind_eq_some_iff.mp hrest
    obtain ⟨s₃, hmiddle, hrest⟩ := run_of_append hrest
    rw [run_cons] at hrest
    obtain ⟨s₄, hopen', _⟩ := Option.bind_eq_some_iff.mp hrest
    have hcount := count_of_run l₂ s₂ hmiddle
    have hs₂ : s₂ = true := by
      cases s₁ <;> cases hopen
      rfl
    have hs₃ : s₃ = false := by
      cases s₃ with
      | false => rfl
      | true => cases hopen'
    rw [hs₂, hs₃] at hcount
    have hpos : 0 < l₂.count .closes := by
      simp at hcount
      omega
    exact List.count_pos_iff.mp hpos
  · rintro p ⟨q, rfl⟩
    obtain ⟨s₁, hp, _⟩ := run_of_append h
    have hcount := count_of_run p false hp
    simp at hcount
    omega

end Brackets
