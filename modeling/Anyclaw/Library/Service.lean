import Mathlib.Data.List.Forall2

/-!
# Services that answer calls

A service answers a call and goes on to its next state.  Two services are compared by the
replies that a client sees over a whole run.
-/

structure Service (σ : Type*) (ι : Type*) (ο : Type*) where
  init : σ
  call : σ → ι → ο × σ

namespace Service

variable {σ τ ι κ ο ρ : Type*}

def replies (S : Service σ ι ο) : σ → List ι → List ο
  | _, [] => []
  | s, i :: calls => (S.call s i).1 :: S.replies (S.call s i).2 calls

/-- The calls of a run as another service takes them: a call is translated in the state in
    which it is made. -/
def translated (S : Service σ ι ο) (f : σ → ι → κ) : σ → List ι → List κ
  | _, [] => []
  | s, i :: calls => f s i :: S.translated f (S.call s i).2 calls

variable {S : Service σ ι ο} {T : Service τ κ ρ} {f : σ → ι → κ} {R : σ → τ → Prop}
  {O : ο → ρ → Prop}

/-- **The refinement rule.**  When each call is answered alike in related states, and leads
    to related states, every run is answered alike. -/
theorem replies_refine
    (hcall : ∀ s t i, R s t → O (S.call s i).1 (T.call t (f s i)).1 ∧
      R (S.call s i).2 (T.call t (f s i)).2) {s : σ} {t : τ} (h : R s t) (calls : List ι) :
    List.Forall₂ O (S.replies s calls) (T.replies t (S.translated f s calls)) := by
  induction calls generalizing s t with
  | nil => exact .nil
  | cons i calls ih =>
      obtain ⟨hreply, hnext⟩ := hcall s t i h
      exact .cons hreply (ih hnext)

/-- What each call satisfies, the translated run satisfies. -/
theorem forall₂_translated {P : ι → κ → Prop} (h : ∀ s i, P i (f s i)) (s : σ)
    (calls : List ι) : List.Forall₂ P calls (S.translated f s calls) := by
  induction calls generalizing s with
  | nil => exact .nil
  | cons i calls ih => exact .cons (h s i) (ih _)

/-- A translation that changes nothing until some resource is used up changes no run that
    is short enough. -/
theorem translated_eq_self {f : σ → ι → ι} (used : σ → Nat) {n : Nat}
    (hused : ∀ s i, used (S.call s i).2 ≤ used s + 1)
    (hsame : ∀ s i, used s < n → f s i = i)
    {s : σ} {calls : List ι} (h : used s + calls.length ≤ n) :
    S.translated f s calls = calls := by
  induction calls generalizing s with
  | nil => rfl
  | cons i calls ih =>
      rw [List.length_cons] at h
      rw [translated, hsame s i (by omega), ih (by have := hused s i; omega)]

end Service
