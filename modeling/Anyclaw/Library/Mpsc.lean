import Mathlib.Algebra.Order.BigOperators.Group.Finset
import Mathlib.Data.Fintype.Basic

/-!
# Bounded channels

A channel has several senders, one receiver and `capacity` places.  What is sent waits in
order; a sender that finds no place waits until the receiver takes something.

`room_of_fits` is the argument for the senders: when all that is on its way fits into the
channel, none of them waits.
-/

/-- A channel with at most `capacity` waiting messages. -/
structure Mpsc (α : Type*) (capacity : Nat) where
  queue : List α
  bounded : queue.length ≤ capacity

namespace Mpsc

variable {α : Type*} {capacity : Nat} (q : Mpsc α capacity)

def empty : Mpsc α capacity := ⟨[], Nat.zero_le _⟩

def Full : Prop := q.queue.length = capacity

instance : Decidable q.Full := inferInstanceAs (Decidable (_ = _))

/-- `none` when the sender has to wait. -/
def send (x : α) : Option (Mpsc α capacity) :=
  if h : q.queue.length < capacity then
    some ⟨q.queue ++ [x], by rw [List.length_append]; exact h⟩
  else none

/-- `none` when there is nothing to take. -/
def recv : Option (α × Mpsc α capacity) :=
  match h : q.queue with
  | [] => none
  | x :: rest => some (x, ⟨rest, by
      have hbounded := q.bounded
      rw [h, List.length_cons] at hbounded
      exact Nat.le_of_succ_le hbounded⟩)

variable {q} {q' : Mpsc α capacity} {x : α}

@[simp] theorem empty_queue : (empty : Mpsc α capacity).queue = [] := rfl

theorem send_eq_some (h : q.send x = some q') : ¬ q.Full ∧ q'.queue = q.queue ++ [x] := by
  unfold send at h
  split at h
  · rename_i hroom
    cases h
    exact ⟨Nat.ne_of_lt hroom, rfl⟩
  · cases h

/-! ### Senders with messages on their way -/

section Senders

variable {ι : Type*} [Fintype ι]

/-- What waits, and what the senders have on their way. -/
def load (q : Mpsc α capacity) (unsent : ι → Nat) : Nat := q.queue.length + ∑ i, unsent i

/-- A sender that has something on its way finds room when everything fits. -/
theorem room_of_fits {unsent : ι → Nat} {i : ι} (hfits : q.load unsent ≤ capacity)
    (hi : 0 < unsent i) : ¬ q.Full := by
  have hle := Finset.single_le_sum (f := unsent) (fun _ _ => Nat.zero_le _) (Finset.mem_univ i)
  unfold load at hfits
  unfold Full
  omega

variable [DecidableEq ι]

/-- A sum over the senders of which one has changed. -/
theorem sum_of_change {f g : ι → Nat} (i : ι) (h : ∀ j, j ≠ i → g j = f j) :
    ∑ j, g j + f i = ∑ j, f j + g i := by
  have hrest : ∑ j ∈ Finset.univ.erase i, g j = ∑ j ∈ Finset.univ.erase i, f j :=
    Finset.sum_congr rfl fun j hj => h j (Finset.ne_of_mem_erase hj)
  have hf := Finset.add_sum_erase Finset.univ f (Finset.mem_univ i)
  have hg := Finset.add_sum_erase Finset.univ g (Finset.mem_univ i)
  omega

/-- Sending keeps the load. -/
theorem load_of_send {unsent unsent' : ι → Nat} {i : ι} (hsend : q.send x = some q')
    (hi : unsent' i + 1 = unsent i) (hothers : ∀ j, j ≠ i → unsent' j = unsent j) :
    q'.load unsent' = q.load unsent := by
  have hsum := sum_of_change i hothers
  unfold load
  rw [(send_eq_some hsend).2, List.length_append, List.length_singleton]
  omega

end Senders

end Mpsc
