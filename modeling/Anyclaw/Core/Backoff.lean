import Anyclaw.Core.Lifecycle
import Mathlib.Algebra.Order.Ring.Nat
import Mathlib.Data.Nat.Basic
import Mathlib.Order.Lattice
import Mathlib.Order.MinMax

/-!
# The law of the backoff

Delays double from the base up to the cap.  The cap is applied to the next delay, not to the
one that is returned, so that a base above the cap is returned as it is; and the doubling is
done in 64 bits of seconds, which a large cap lets it leave.

`next_delay` is given here with its arithmetic: a `Duration` that does not fit is a panic, and
so is a counter of attempts that does not, where overflow is checked.

`next_delay` is in `crates/anyclaw-core/src/backoff.rs`.
-/

namespace Anyclaw

/-! ### Bounded arithmetic -/

/-- A `Duration` counts its seconds in 64 bits; here it counts milliseconds. -/
def durationLimit : Nat := 2 ^ 64 * 1000

/-- `Duration * u32`. -/
def mulDuration (d k : Nat) : Option Nat := if d * k < durationLimit then some (d * k) else none

/-- `u32 + 1`. -/
def succU32 (n : Nat) : Option Nat := if n + 1 < 2 ^ 32 then some (n + 1) else none

inductive BackoffCall where
  | nextDelay
  | reset
deriving DecidableEq

namespace ExponentialBackoff

/-- `next_delay`, `none` when a value does not fit. -/
def nextDelayChecked (b : ExponentialBackoff) : Option (Nat × ExponentialBackoff) := do
  let doubled ← mulDuration b.current 2
  let attempts ← succU32 b.attempts
  some (b.current, { b with current := min doubled b.max, attempts := attempts })

/-- Where nothing overflows, this is the step of the lifecycle. -/
theorem nextDelayChecked_eq (b : ExponentialBackoff) :
    b.nextDelayChecked = if b.current * 2 < durationLimit ∧ b.attempts + 1 < 2 ^ 32 then
      some b.nextDelay else none := by
  rw [nextDelayChecked, mulDuration, succU32]
  by_cases hdelay : b.current * 2 < durationLimit
  · by_cases hattempts : b.attempts + 1 < 2 ^ 32
    · simp only [hdelay, hattempts, and_self, if_true]
      rfl
    · simp only [hdelay, hattempts, and_false, if_true, if_false]
      rfl
  · simp only [hdelay, false_and, if_false]
    rfl

def delays (b : ExponentialBackoff) : List BackoffCall → Option (List Nat)
  | [] => some []
  | .nextDelay :: calls => do
      let (delay, b') ← b.nextDelayChecked
      let rest ← b'.delays calls
      some (delay :: rest)
  | .reset :: calls => b.reset.delays calls

theorem delays_nextDelay {b : ExponentialBackoff} {calls : List BackoffCall} {ds : List Nat} :
    b.delays (.nextDelay :: calls) = some ds ↔
      ∃ delay b' rest, b.nextDelayChecked = some (delay, b') ∧ b'.delays calls = some rest ∧
        delay :: rest = ds := by
  rw [delays]
  constructor
  · intro h
    obtain ⟨⟨delay, b'⟩, hnext, h⟩ := Option.bind_eq_some_iff.mp h
    obtain ⟨rest, hrest, h⟩ := Option.bind_eq_some_iff.mp h
    exact ⟨delay, b', rest, hnext, hrest, Option.some.inj h⟩
  · rintro ⟨delay, b', rest, hnext, hrest, rfl⟩
    refine Option.bind_eq_some_iff.mpr ⟨(delay, b'), hnext, ?_⟩
    exact Option.bind_eq_some_iff.mpr ⟨rest, hrest, rfl⟩

end ExponentialBackoff

/-! ### The closed form -/

def backoffLaw (base max k : Nat) : Nat := min (base * 2 ^ k) max

/-- The number of each delay that is taken, counted from 0 since the last reset. -/
def delayNumbers : Nat → List BackoffCall → List Nat
  | _, [] => []
  | k, .nextDelay :: calls => k :: delayNumbers (k + 1) calls
  | _, .reset :: calls => delayNumbers 0 calls

/-- The most delays that are taken without a reset, when `k` were taken before. -/
def mostDelays : Nat → List BackoffCall → Nat
  | k, [] => k
  | k, .nextDelay :: calls => mostDelays (k + 1) calls
  | k, .reset :: calls => max k (mostDelays 0 calls)

/-- The delays follow the closed form; so none exceeds the cap, and none is shorter than the
    one before it unless there was a reset. -/
structure ObeysLaw (base max : Nat) (calls : List BackoffCall) : Prop where
  closed : (ExponentialBackoff.new base max).delays calls
    = some ((delayNumbers 0 calls).map (backoffLaw base max))
  capped : ∀ ds, (ExponentialBackoff.new base max).delays calls = some ds → ∀ d ∈ ds, d ≤ max
  grows : ∀ ds, (ExponentialBackoff.new base max).delays calls = some ds → ∀ i d d' k,
    ds[i]? = some d → ds[i + 1]? = some d' → (delayNumbers 0 calls)[i + 1]? = some (k + 1) →
    d ≤ d'

theorem backoffLaw_le (base max k : Nat) : backoffLaw base max k ≤ max := min_le_right _ _

theorem backoffLaw_mono (base max : Nat) {j k : Nat} (h : j ≤ k) :
    backoffLaw base max j ≤ backoffLaw base max k := by
  apply min_le_min_right
  exact Nat.mul_le_mul_left base (Nat.pow_le_pow_right (by decide) h)

/-- One step of the closed form. -/
theorem backoffLaw_succ (base max k : Nat) :
    backoffLaw base max (k + 1) = min (backoffLaw base max k * 2) max := by
  rw [backoffLaw, backoffLaw, Nat.pow_succ, ← Nat.mul_assoc]
  omega

/-! ### Which delays are taken -/

theorem le_mostDelays (k : Nat) (calls : List BackoffCall) : k ≤ mostDelays k calls := by
  induction calls generalizing k with
  | nil => exact Nat.le_refl k
  | cons call calls ih =>
      cases call with
      | nextDelay => exact Nat.le_trans (Nat.le_succ k) (ih (k + 1))
      | reset => exact Nat.le_max_left ..

theorem lt_mostDelays {j k : Nat} {calls : List BackoffCall} (h : j ∈ delayNumbers k calls) :
    j < mostDelays k calls := by
  induction calls generalizing k with
  | nil => cases h
  | cons call calls ih =>
      cases call with
      | nextDelay =>
          rcases List.mem_cons.mp h with rfl | hrest
          · exact le_mostDelays (j + 1) calls
          · exact ih hrest
      | reset => exact Nat.lt_of_lt_of_le (ih h) (Nat.le_max_right ..)

/-- The last of the most delays without a reset is taken. -/
theorem mostDelays_mem (k : Nat) (calls : List BackoffCall) :
    mostDelays k calls = k ∨ ∃ j ∈ delayNumbers k calls, mostDelays k calls = j + 1 := by
  induction calls generalizing k with
  | nil => exact .inl rfl
  | cons call calls ih =>
      cases call with
      | nextDelay =>
          right
          rcases ih (k + 1) with heq | ⟨j, hj, heq⟩
          · exact ⟨k, List.mem_cons_self, heq⟩
          · exact ⟨j, List.mem_cons_of_mem k hj, heq⟩
      | reset =>
          by_cases hle : mostDelays 0 calls ≤ k
          · exact .inl (Nat.max_eq_left hle)
          · right
            have hmax : mostDelays k (.reset :: calls) = mostDelays 0 calls :=
              Nat.max_eq_right (Nat.le_of_not_le hle)
            rcases ih 0 with heq | ⟨j, hj, heq⟩
            · omega
            · exact ⟨j, hj, hmax.trans heq⟩

/-- Delay 0 is taken, if any is. -/
theorem zero_mem_delayNumbers {calls : List BackoffCall} {j : Nat}
    (h : j ∈ delayNumbers 0 calls) : 0 ∈ delayNumbers 0 calls := by
  induction calls with
  | nil => cases h
  | cons call calls ih =>
      cases call with
      | nextDelay => exact List.mem_cons_self
      | reset => exact ih h

theorem first_delayNumbers {k j : Nat} {calls : List BackoffCall}
    (h : (delayNumbers k calls)[0]? = some j) : j = k ∨ j = 0 := by
  induction calls generalizing k with
  | nil => cases h
  | cons call calls ih =>
      cases call with
      | nextDelay =>
          cases h
          exact .inl rfl
      | reset =>
          rcases ih h with hzero | hzero
          · exact .inr hzero
          · exact .inr hzero

/-- A delay is the first after a reset, or one more than the delay before it. -/
theorem delayNumbers_succ {k i j : Nat} {calls : List BackoffCall}
    (h : (delayNumbers k calls)[i + 1]? = some (j + 1)) : (delayNumbers k calls)[i]? = some j := by
  induction calls generalizing k i with
  | nil => cases h
  | cons call calls ih =>
      cases call with
      | nextDelay =>
          cases i with
          | zero =>
              rcases first_delayNumbers h with hj | hj
              · cases hj
                rfl
              · cases hj
          | succ i => exact ih h
      | reset => exact ih h

/-! ### When the law is obeyed -/

/-- Delay `k` is what it should be, and what is computed for it fits. -/
structure DelayFits (base max k : Nat) : Prop where
  first : k = 0 → base ≤ max
  counted : k + 1 < 2 ^ 32
  doubled : backoffLaw base max k * 2 < durationLimit

namespace ExponentialBackoff

def afterDelays (base max k : Nat) : ExponentialBackoff where
  current := if k = 0 then base else backoffLaw base max k
  max := max
  base := base
  attempts := k

@[simp] theorem current_afterDelays (base max k : Nat) : (afterDelays base max k).current
    = if k = 0 then base else backoffLaw base max k := rfl

/-- Only the first delay may differ from the closed form. -/
theorem current_eq_iff (base max k : Nat) :
    (afterDelays base max k).current = backoffLaw base max k ↔ (k = 0 → base ≤ max) := by
  by_cases hk : k = 0
  · simp [backoffLaw, hk]
  · simp [hk]

theorem nextDelay_afterDelays (base max k : Nat) :
    (afterDelays base max k).nextDelay
      = ((afterDelays base max k).current, afterDelays base max (k + 1)) := by
  have hnext : min ((afterDelays base max k).current * 2) max = backoffLaw base max (k + 1) := by
    by_cases hk : k = 0
    · simp [backoffLaw, hk]
    · rw [backoffLaw_succ, current_afterDelays, if_neg hk]
  have hfields : afterDelays base max (k + 1)
      = ⟨backoffLaw base max (k + 1), max, base, k + 1⟩ := by simp [afterDelays]
  rw [hfields, ← hnext]
  rfl

theorem delays_afterDelays (base max k : Nat) (calls : List BackoffCall) :
    (afterDelays base max k).delays calls
        = some ((delayNumbers k calls).map (backoffLaw base max)) ↔
      ∀ j ∈ delayNumbers k calls, DelayFits base max j := by
  induction calls generalizing k with
  | nil => simp [delays, delayNumbers]
  | cons call calls ih =>
      cases call with
      | reset => exact ih 0
      | nextDelay =>
          have hcurrent := current_eq_iff base max k
          have hnext := nextDelayChecked_eq (afterDelays base max k)
          rw [nextDelay_afterDelays] at hnext
          rw [delays_nextDelay, hnext, delayNumbers, List.forall_mem_cons, ← ih (k + 1)]
          constructor
          · rintro ⟨delay, b', rest, hchecked, hrest, hds⟩
            obtain ⟨hfits, hb'⟩ := Option.ite_none_right_eq_some.mp hchecked
            cases hb'
            rw [List.map_cons, List.cons.injEq] at hds
            obtain ⟨hdelay, rfl⟩ := hds
            refine ⟨⟨hcurrent.mp hdelay, hfits.2, ?_⟩, hrest⟩
            rw [← hdelay]
            exact hfits.1
          · rintro ⟨hk, hrest⟩
            have hdelay := hcurrent.mpr hk.first
            have hdoubled : (afterDelays base max k).current * 2 < durationLimit := by
              rw [hdelay]
              exact hk.doubled
            refine ⟨_, _, _, if_pos ⟨hdoubled, hk.counted⟩, hrest, ?_⟩
            rw [hdelay, List.map_cons]

end ExponentialBackoff

/-- **The law of the backoff.**  The delays follow the closed form exactly when none is taken,
    or the base is not above the cap, fewer than `2 ^ 32` delays are taken without a reset and
    the longest of them is below half of what a `Duration` can hold. -/
theorem obeysLaw_iff (base max : Nat) (calls : List BackoffCall) :
    ObeysLaw base max calls ↔
      mostDelays 0 calls = 0 ∨
        base ≤ max ∧ mostDelays 0 calls < 2 ^ 32 ∧
          backoffLaw base max (mostDelays 0 calls - 1) * 2 < durationLimit := by
  have hclosed := ExponentialBackoff.delays_afterDelays base max 0 calls
  have hnew : ExponentialBackoff.afterDelays base max 0 = .new base max := rfl
  rw [hnew] at hclosed
  constructor
  · intro h
    have hfits := hclosed.mp h.closed
    rcases mostDelays_mem 0 calls with hzero | ⟨j, hj, hmost⟩
    · exact .inl hzero
    · right
      have hlast := hfits j hj
      rw [hmost, Nat.add_sub_cancel]
      exact ⟨(hfits 0 (zero_mem_delayNumbers hj)).first rfl, hlast.counted, hlast.doubled⟩
  · intro h
    have hfits : ∀ j ∈ delayNumbers 0 calls, DelayFits base max j := by
      intro j hj
      have hlt := lt_mostDelays hj
      rcases h with hzero | ⟨hbase, hcount, hdouble⟩
      · omega
      · have hmono := backoffLaw_mono base max (Nat.le_sub_one_of_lt hlt)
        exact ⟨fun _ => hbase, by omega, by omega⟩
    have hdelays := hclosed.mpr hfits
    refine ⟨hdelays, ?_, ?_⟩
    · intro ds hds d hd
      cases hdelays.symm.trans hds
      obtain ⟨k, _, rfl⟩ := List.mem_map.mp hd
      exact backoffLaw_le base max k
    · intro ds hds i d d' k hd hd' hk
      cases hdelays.symm.trans hds
      rw [List.getElem?_map, hk] at hd'
      rw [List.getElem?_map, delayNumbers_succ hk] at hd
      cases hd
      cases hd'
      exact backoffLaw_mono base max (Nat.le_succ k)

/-- A base above the cap is returned as it is. -/
theorem base_above_cap : ¬∀ base max calls, base < 2 ^ 64 → max < 2 ^ 64 →
    ObeysLaw base (max * 1000) calls := by
  intro hall
  have h := hall 60000 30 [.nextDelay] (by decide) (by decide)
  have hdelays : (ExponentialBackoff.new 60000 (30 * 1000)).delays [.nextDelay] = some [60000] := by
    decide
  have hle := h.capped [60000] hdelays 60000 List.mem_cons_self
  revert hle
  decide

end Anyclaw
