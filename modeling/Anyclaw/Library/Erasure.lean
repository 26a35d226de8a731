import Anyclaw.Library.Transition

/-!
# Erasing steps from a run

Some steps of a machine are hidden from an observer, and `erase` removes from a state what
only hidden steps have put there.  When a hidden step leaves the erased state as it is, and
every other step can be taken in it as well, the erased state of a run is the state of
another run, which takes the other labels only.  Two runs with the same visible labels thus
agree on everything that is not erased.
-/

namespace Machine

variable {σ ι : Type*} {M : Machine σ ι} {G : σ → ι → Prop}
  {hidden : σ → ι → Prop} [∀ s l, Decidable (hidden s l)] {erase : σ → σ}

def visible (hidden : σ → ι → Prop) [∀ s l, Decidable (hidden s l)] (taken : List (Taken σ ι)) :
    List ι :=
  (taken.filter fun t => ¬ hidden t.before t.label).map Taken.label

/-- A hidden step changes nothing but what is erased, and the other steps do not depend on
    what is erased. -/
structure Erases (M : Machine σ ι) (G hidden : σ → ι → Prop) (erase : σ → σ) : Prop where
  of_hidden : ∀ s l s', M.ReachableUnder G s → G s l → hidden s l → M.step s l = some s' →
    erase s' = erase s
  of_shown : ∀ s l s', M.ReachableUnder G s → G s l → ¬ hidden s l → M.step s l = some s' →
    M.step (erase s) l = some (erase s')

theorem visible_concat (taken : List (Taken σ ι)) (t : Taken σ ι) :
    visible hidden (taken ++ [t]) =
      visible hidden taken ++ if hidden t.before t.label then [] else [t.label] := by
  unfold visible
  rw [List.filter_append, List.map_append]
  congr 1
  by_cases ht : hidden t.before t.label
  · rw [if_pos ht, List.filter_cons_of_neg (by simpa using ht)]
    rfl
  · rw [if_neg ht, List.filter_cons_of_pos (by simpa using ht)]
    rfl

theorem run_concat [∀ s l, Decidable (G s l)] (ls : List ι) (l : ι) (s : σ) :
    M.run G s (ls ++ [l]) = (M.run G s ls).bind fun s' =>
      if G s' l then M.step s' l else none := by
  induction ls generalizing s with
  | nil =>
      rw [List.nil_append, run, run, Option.bind_some]
      simp [run]
  | cons l' ls ih =>
      rw [List.cons_append, run, run]
      split
      · rw [Option.bind_assoc]
        congr 1
        funext s'
        exact ih s'
      · rfl

/-- **The erasure rule.**  The erased state is where the visible labels lead to. -/
theorem Erases.run (h : Erases M G hidden erase) {s₀ : σ} (hinit : M.init s₀)
    {x : List (Taken σ ι) × σ}
    (hrun : M.recorded.RunUnder (fun x l => G x.2 l) ([], s₀) x) :
    M.run (fun _ _ => True) (erase s₀) (visible hidden x.1) = some (erase x.2) := by
  suffices hboth : M.ReachableUnder G x.2 ∧
      M.run (fun _ _ => True) (erase s₀) (visible hidden x.1) = some (erase x.2) from hboth.2
  refine RunUnder.preserves (I := fun x : List (Taken σ ι) × σ => M.ReachableUnder G x.2 ∧
    M.run (fun _ _ => True) (erase s₀) (visible hidden x.1) = some (erase x.2)) ?_ hrun
    ⟨ReachableUnder.init hinit, rfl⟩
  rintro x l x' ⟨hreach, hvisible⟩ hG hs
  obtain ⟨hstep, htaken⟩ := of_recorded_step hs
  refine ⟨hreach.step hG hstep, ?_⟩
  rw [htaken, visible_concat]
  by_cases hl : hidden x.2 l
  · rw [if_pos hl, List.append_nil, hvisible, h.of_hidden x.2 l x'.2 hreach hG hl hstep]
  · rw [if_neg hl, run_concat, hvisible, Option.bind_some, if_pos trivial]
    exact h.of_shown x.2 l x'.2 hreach hG hl hstep

/-- **The two-run rule.**  Runs that differ in hidden steps only agree on what is not erased. -/
theorem Erases.agree (h : Erases M G hidden erase) {s₀ : σ} (hinit : M.init s₀)
    {x y : List (Taken σ ι) × σ}
    (hx : M.recorded.RunUnder (fun x l => G x.2 l) ([], s₀) x)
    (hy : M.recorded.RunUnder (fun x l => G x.2 l) ([], s₀) y)
    (hvisible : visible hidden x.1 = visible hidden y.1) : erase x.2 = erase y.2 := by
  have hxrun := h.run hinit hx
  rw [hvisible, h.run hinit hy] at hxrun
  exact (Option.some.inj hxrun).symm

/-! ### Runs with hidden steps at their end -/

/-- A recorded run appends to the record. -/
theorem prefix_of_recorded {H : List (Taken σ ι) × σ → ι → Prop} {x y : List (Taken σ ι) × σ}
    (h : M.recorded.RunUnder H x y) : x.1 <+: y.1 := by
  refine RunUnder.preserves (I := fun y : List (Taken σ ι) × σ => x.1 <+: y.1) ?_ h
    (List.prefix_refl _)
  intro y l y' hprefix _ hs
  rw [(of_recorded_step hs).2]
  exact hprefix.trans (List.prefix_append _ _)

theorem visible_eq_of_hidden {H : List (Taken σ ι) × σ → ι → Prop}
    {x y : List (Taken σ ι) × σ} (h : M.recorded.RunUnder H x y)
    (hhidden : ∀ t ∈ y.1.drop x.1.length, hidden t.before t.label) :
    visible hidden y.1 = visible hidden x.1 := by
  obtain ⟨rest, hrest⟩ := prefix_of_recorded h
  rw [← hrest, List.drop_left] at hhidden
  have hnone : visible hidden rest = [] := by
    unfold visible
    rw [List.filter_eq_nil_iff.mpr, List.map_nil]
    intro t ht
    simpa using hhidden t ht
  rw [← hrest]
  unfold visible at hnone ⊢
  rw [List.filter_append, List.map_append, hnone, List.append_nil]

end Machine
