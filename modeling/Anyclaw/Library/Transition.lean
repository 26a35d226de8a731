import Mathlib.Logic.Relation

/-!
# Guarded runs of a labelled machine

A machine has initial states and a partial step function: `step s l` is `none`
when the label `l` is not enabled in `s`.  A *guard* is a condition on a state and
the label taken in it; a guarded run takes only steps that satisfy the guard.
Safety statements quantify over guarded runs, and the trivial guard gives all runs.

A concrete run is a list of labels, executed by `run`; `reachable_of_run` turns the
execution into a reachable state.

A property of a run that no single state shows is stated over the recorded machine,
whose states carry the steps that were taken.
-/

/-- A labelled machine with a deterministic, partial step function.  All
    nondeterminism is in the choice of the label. -/
structure Machine (σ : Type*) (ι : Type*) where
  init : σ → Prop
  step : σ → ι → Option σ

namespace Machine

variable {σ ι : Type*} (M : Machine σ ι)

/-! ### Runs -/

def StepUnder (G : σ → ι → Prop) (s s' : σ) : Prop :=
  ∃ l, G s l ∧ M.step s l = some s'

def RunUnder (G : σ → ι → Prop) : σ → σ → Prop :=
  Relation.ReflTransGen (M.StepUnder G)

/-- States of guarded runs that start in an initial state. -/
def ReachableUnder (G : σ → ι → Prop) (s : σ) : Prop :=
  ∃ s₀, M.init s₀ ∧ M.RunUnder G s₀ s

def Reachable (s : σ) : Prop := M.ReachableUnder (fun _ _ => True) s

/-- Execute a list of labels; `none` when one is not enabled or breaks the guard. -/
def run (G : σ → ι → Prop) [∀ s l, Decidable (G s l)] : σ → List ι → Option σ
  | s, [] => some s
  | s, l :: ls => if G s l then (M.step s l).bind fun s' => run G s' ls else none

variable {M} {G G' : σ → ι → Prop} {s s' : σ}

theorem ReachableUnder.init (h : M.init s) : M.ReachableUnder G s :=
  ⟨s, h, Relation.ReflTransGen.refl⟩

theorem ReachableUnder.step {l : ι} (h : M.ReachableUnder G s) (hG : G s l)
    (hs : M.step s l = some s') : M.ReachableUnder G s' := by
  obtain ⟨s₀, h₀, hrun⟩ := h
  exact ⟨s₀, h₀, hrun.tail ⟨l, hG, hs⟩⟩

theorem RunUnder.mono (hG : ∀ s l, G s l → G' s l) (h : M.RunUnder G s s') :
    M.RunUnder G' s s' := by
  refine Relation.ReflTransGen.mono ?_ _ _ h
  rintro a b ⟨l, hl, hs⟩
  exact ⟨l, hG a l hl, hs⟩

theorem ReachableUnder.mono (hG : ∀ s l, G s l → G' s l) (h : M.ReachableUnder G s) :
    M.ReachableUnder G' s := by
  obtain ⟨s₀, h₀, hrun⟩ := h
  exact ⟨s₀, h₀, hrun.mono hG⟩

theorem ReachableUnder.reachable (h : M.ReachableUnder G s) : M.Reachable s :=
  h.mono fun _ _ _ => trivial

/-! ### The invariant rules -/

/-- What a guarded step preserves, a guarded run preserves. -/
theorem RunUnder.preserves {I : σ → Prop}
    (hstep : ∀ s l s', I s → G s l → M.step s l = some s' → I s')
    (h : M.RunUnder G s s') (hs : I s) : I s' := by
  induction h with
  | refl => exact hs
  | tail _ hlast ih =>
      obtain ⟨l, hG, hl⟩ := hlast
      exact hstep _ l _ ih hG hl

/-- **The invariant rule.**  The step may use that its state is reached, hence
    every invariant that has been proved before. -/
theorem ReachableUnder.invariant {I : σ → Prop} (h₀ : ∀ s, M.init s → I s)
    (hstep : ∀ s l s', M.ReachableUnder G s → I s → G s l → M.step s l = some s' → I s')
    (h : M.ReachableUnder G s) : I s := by
  obtain ⟨s₀, hinit, hrun⟩ := h
  suffices hboth : M.ReachableUnder G s ∧ I s from hboth.2
  refine RunUnder.preserves (I := fun s => M.ReachableUnder G s ∧ I s) ?_ hrun
    ⟨ReachableUnder.init hinit, h₀ s₀ hinit⟩
  rintro a l b ⟨hreach, hI⟩ hG hs
  exact ⟨hreach.step hG hs, hstep a l b hreach hI hG hs⟩

/-- **The simulation rule.**  When every guarded step is matched by steps of another
    machine, reached states are related to reachable states of that machine. -/
theorem ReachableUnder.simulated {τ κ : Type*} {N : Machine τ κ} {R : σ → τ → Prop}
    (h₀ : ∀ s, M.init s → ∃ t, N.init t ∧ R s t)
    (hstep : ∀ s l s' t, M.ReachableUnder G s → R s t → G s l → M.step s l = some s' →
      ∃ t', N.RunUnder (fun _ _ => True) t t' ∧ R s' t')
    (h : M.ReachableUnder G s) : ∃ t, N.Reachable t ∧ R s t := by
  refine h.invariant (I := fun s => ∃ t, N.Reachable t ∧ R s t) ?_ ?_
  · intro s hinit
    obtain ⟨t, ht, hR⟩ := h₀ s hinit
    exact ⟨t, ReachableUnder.init ht, hR⟩
  · rintro s l s' hreach ⟨t, ⟨t₀, ht₀, hrun⟩, hR⟩ hG hs
    obtain ⟨t', hrun', hR'⟩ := hstep s l s' t hreach hR hG hs
    exact ⟨t', ⟨t₀, ht₀, hrun.trans hrun'⟩, hR'⟩

/-! ### Executed runs -/

theorem runUnder_of_run [∀ s l, Decidable (G s l)] :
    ∀ (ls : List ι) (s : σ), M.run G s ls = some s' → M.RunUnder G s s'
  | [], s, h => by
      cases Option.some.inj h
      exact Relation.ReflTransGen.refl
  | l :: ls, s, h => by
      rw [run] at h
      obtain ⟨hG, h⟩ := Option.ite_none_right_eq_some.mp h
      obtain ⟨a, ha, hrest⟩ := Option.bind_eq_some_iff.mp h
      exact (runUnder_of_run ls a hrest).head ⟨l, hG, ha⟩

theorem reachable_of_run [∀ s l, Decidable (G s l)] {s₀ : σ} (ls : List ι) (h₀ : M.init s₀)
    (h : M.run G s₀ ls = some s) : M.ReachableUnder G s :=
  ⟨s₀, h₀, runUnder_of_run ls s₀ h⟩

/-! ### Recorded runs -/

structure Taken (σ : Type*) (ι : Type*) where
  before : σ
  label : ι
  after : σ

/-- The machine together with the history of its run. -/
def recorded (M : Machine σ ι) : Machine (List (Taken σ ι) × σ) ι where
  init x := x.1 = [] ∧ M.init x.2
  step x l := (M.step x.2 l).map fun s' => (x.1 ++ [⟨x.2, l, s'⟩], s')

section Recorded

variable {H : List (Taken σ ι) × σ → ι → Prop} {x x' : List (Taken σ ι) × σ}

theorem of_recorded_step {l : ι} (h : M.recorded.step x l = some x') :
    M.step x.2 l = some x'.2 ∧ x'.1 = x.1 ++ [⟨x.2, l, x'.2⟩] := by
  obtain ⟨s', hs', rfl⟩ := Option.map_eq_some_iff.mp h
  exact ⟨hs', rfl⟩

/-- A recorded run is a run. -/
theorem ReachableUnder.of_recorded (hG : ∀ x l, H x l → G x.2 l)
    (h : M.recorded.ReachableUnder H x) : M.ReachableUnder G x.2 := by
  refine h.invariant (I := fun x => M.ReachableUnder G x.2) ?_ ?_
  · rintro x ⟨_, hinit⟩
    exact ReachableUnder.init hinit
  · intro x l x' _ hI hH hs
    exact hI.step (hG x l hH) (of_recorded_step hs).1

/-- **The history rule.**  What holds of every step when it is taken, and of the later
    state if it held of the earlier one, holds of every recorded step. -/
theorem ReachableUnder.recorded_steps {P : List (Taken σ ι) × σ → Taken σ ι → Prop}
    (hnew : ∀ x l x', M.recorded.ReachableUnder H x → H x l → M.recorded.step x l = some x' →
      P x' ⟨x.2, l, x'.2⟩)
    (hold : ∀ x l x' t, M.recorded.ReachableUnder H x → t ∈ x.1 → P x t → H x l →
      M.recorded.step x l = some x' → P x' t)
    (h : M.recorded.ReachableUnder H x) : ∀ t ∈ x.1, P x t := by
  refine h.invariant (I := fun x => ∀ t ∈ x.1, P x t) ?_ ?_
  · rintro x ⟨hnil, _⟩ t ht
    rw [hnil] at ht
    cases ht
  · intro x l x' hreach hI hH hs t ht
    rw [(of_recorded_step hs).2] at ht
    rcases List.mem_append.mp ht with hmem | hlast
    · exact hold x l x' t hreach hmem (hI t hmem) hH hs
    · rw [List.mem_singleton.mp hlast]
      exact hnew x l x' hreach hH hs

/-- **The split rule.**  The steps before a recorded step are a recorded run, and the step was
    taken in the state that they led to. -/
theorem ReachableUnder.of_split (h : M.recorded.ReachableUnder H x) {earlier later : List (Taken σ ι)}
    {t : Taken σ ι} (hx : x.1 = earlier ++ t :: later) :
    M.recorded.ReachableUnder H (earlier, t.before) ∧ H (earlier, t.before) t.label ∧
      M.step t.before t.label = some t.after := by
  suffices hall : ∀ earlier t later, x.1 = earlier ++ t :: later →
      M.recorded.ReachableUnder H (earlier, t.before) ∧ H (earlier, t.before) t.label ∧
        M.step t.before t.label = some t.after from hall earlier t later hx
  refine h.invariant (I := fun x => ∀ earlier t later, x.1 = earlier ++ t :: later →
    M.recorded.ReachableUnder H (earlier, t.before) ∧ H (earlier, t.before) t.label ∧
      M.step t.before t.label = some t.after) ?_ ?_
  · rintro x ⟨hnil, -⟩ earlier t later heq
    rw [hnil] at heq
    simp at heq
  · intro x l x' hreach hI hH hs earlier t later heq
    obtain ⟨hstep, hsteps⟩ := of_recorded_step hs
    rw [hsteps] at heq
    rcases List.eq_nil_or_concat later with rfl | ⟨rest, last, rfl⟩
    · obtain ⟨rfl, hlast⟩ := List.append_inj' heq rfl
      cases hlast
      exact ⟨hreach, hH, hstep⟩
    · rw [List.concat_eq_append, ← List.cons_append, ← List.append_assoc] at heq
      exact hI earlier t rest (List.append_inj' heq rfl).1

end Recorded

end Machine
