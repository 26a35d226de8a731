import Mathlib.Algebra.Order.Ring.Int

/-!
# Decimal integers

An integer is written in decimal with a leading minus sign when it is negative, and read back
from a text of digits with an optional sign.  A number out of the range of 64-bit signed
integers is not read.
-/

/-! ### Reading -/

def readDigits (digits : List Char) : Option Nat :=
  if digits ≠ [] ∧ digits.all Char.isDigit then some (Nat.ofDigitChars 10 digits 0) else none

/-- The number as a 64-bit signed integer, when it is in range. -/
def int64OfInt? (n : Int) : Option Int64 :=
  if -2 ^ 63 ≤ n ∧ n < 2 ^ 63 then some (Int64.ofInt n) else none

def readInt64 (s : String) : Option Int64 :=
  match s.toList with
  | '-' :: digits => (readDigits digits).bind fun n => int64OfInt? (-n)
  | '+' :: digits => (readDigits digits).bind fun n => int64OfInt? n
  | digits => (readDigits digits).bind fun n => int64OfInt? n

/-! ### Reading what was written -/

theorem readDigits_toDigits (n : Nat) : readDigits (Nat.toDigits 10 n) = some n := by
  unfold readDigits
  have hdigits : (Nat.toDigits 10 n).all Char.isDigit = true := by
    rw [List.all_eq_true]
    intro c hc
    exact Nat.isDigit_of_mem_toDigits (by omega) (by omega) hc
  rw [if_pos ⟨Nat.toDigits_ne_nil, hdigits⟩, Nat.ofDigitChars_ten_toDigits]

/-- A natural number is read back when it is in range. -/
theorem readInt64_repr (n : Nat) : readInt64 n.repr = int64OfInt? n := by
  unfold readInt64
  rw [Nat.toList_repr]
  have hsign : ∀ c ∈ Nat.toDigits 10 n, c ≠ '-' ∧ c ≠ '+' := by
    intro c hc
    have hdigit : c.isDigit := Nat.isDigit_of_mem_toDigits (by omega) (by omega) hc
    constructor
    · rintro rfl
      exact absurd hdigit (by decide)
    · rintro rfl
      exact absurd hdigit (by decide)
  split
  · rename_i digits heq
    exact absurd rfl (hsign '-' (by rw [heq]; exact List.mem_cons_self)).1
  · rename_i digits heq
    exact absurd rfl (hsign '+' (by rw [heq]; exact List.mem_cons_self)).2
  · rw [readDigits_toDigits, Option.bind_some]

theorem int64OfInt?_toInt (n : Int64) : int64OfInt? n.toInt = some n := by
  unfold int64OfInt?
  rw [if_pos ⟨n.le_toInt, n.toInt_lt⟩, Int64.ofInt_toInt]

theorem int64OfInt?_eq_some {n : Int} {i : Int64} : int64OfInt? n = some i ↔ n = i.toInt := by
  constructor
  · intro h
    unfold int64OfInt? at h
    split at h
    · rename_i hrange
      cases h
      rw [Int64.toInt_ofInt_of_le hrange.1 hrange.2]
    · cases h
  · rintro rfl
    exact int64OfInt?_toInt i

/-- **A 64-bit signed integer is read back.** -/
theorem readInt64_toString (n : Int64) : readInt64 (toString n.toInt) = some n := by
  rw [Int.toString_eq_repr, Int.repr_eq_if]
  split
  · rename_i hnonneg
    rw [readInt64_repr, Int.toNat_of_nonneg hnonneg]
    exact int64OfInt?_toInt n
  · rename_i hneg
    have htext : ("-" ++ (-n.toInt).toNat.repr).toList =
        '-' :: Nat.toDigits 10 (-n.toInt).toNat := by
      rw [String.toList_append, Nat.toList_repr]
      rfl
    have hback : -((-n.toInt).toNat : Int) = n.toInt := by omega
    unfold readInt64
    rw [htext]
    simp only [readDigits_toDigits, Option.bind_some, hback]
    exact int64OfInt?_toInt n
