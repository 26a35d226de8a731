import Anyclaw.Config.Validate
import Anyclaw.Library.DecimalFloat

/-!
# Resource limits

A memory limit is a number with a unit, a CPU limit a number of cores or of thousandths of a
core.  What is accepted is handed to Docker, where 0 means that there is no limit.  The
numbers are read with the syntax of floating-point numbers, here as their exact values.  They
are multiplied as doubles, so that the product is rounded, and cut to integers; nothing looks at
the result.

The parsers are `parse_memory_limit` and `parse_cpu_limit` of
`crates/anyclaw-config/src/parse.rs`.
-/

namespace Anyclaw.Config

open Fallible Slices DecimalFloat Binary64

/-! ### Exact numbers -/

/-- The parser of floating-point numbers, with exact values. -/
def exactParsers (isIpAddr : String → Bool) : StdParsers F64 where
  isIpAddr := isIpAddr
  parseF64 s := parse s.toList
  nonpositive := F64.nonpositive
  scaled x m := (x.scale m).toInt64

/-- The limit is the quantity that a positive decimal number of a unit stands for, without
    its fraction; it is not 0, nor the largest integer, at which a cast saturates. -/
def Quantity (num : List Char) (m : Nat) (n : Int64) : Prop :=
  ∃ q, IsDecimal num q ∧ 0 < q ∧ n.toInt = ⌊q * m⌋ ∧ 1 ≤ n.toInt ∧ n.toInt < 2 ^ 63 - 1

/-- The quantity is at least 1 and in range, and its integer part survives the rounding. -/
def Representable (q : ℚ) : Prop := 1 ≤ q ∧ q < 2 ^ 63 ∧ KeepsFloor q

/-- A text that is read as a number above zero, or as no number, is in plain notation, and
    the quantity is one that the multiplication and the cast represent. -/
def InRange (num : List Char) (m : Nat) : Prop :=
  ∀ x, parse num = some x → x.nonpositive = false →
    NoExponent num ∧ ∃ q, x = .finite q ∧ Representable (q * m)

theorem quantity_iff {num : List Char} {m : Nat} {x : F64} (hparse : parse num = some x)
    (hpos : x.nonpositive = false) :
    Quantity num m (x.scale m).toInt64 ↔
      NoExponent num ∧ ∃ q, x = .finite q ∧ Representable (q * m) := by
  constructor
  · rintro ⟨q, hdecimal, hq, hfloor, hone, hlast⟩
    obtain ⟨hread, hno⟩ := (parse_eq_some_finite_iff hq).mpr hdecimal
    rw [hparse] at hread
    cases hread
    have hone' : 1 ≤ q * m := by
      rw [hfloor] at hone
      exact_mod_cast Int.le_floor.mp hone
    exact ⟨hno, q, rfl, hone', (F64.toInt64_ofRat_iff hone').mp ⟨hfloor, hlast⟩⟩
  · rintro ⟨hno, q, rfl, hone, hrepresentable⟩
    have hq : 0 < q := by simpa [F64.nonpositive] using hpos
    obtain ⟨hfloor, hlast⟩ := (F64.toInt64_ofRat_iff hone).mpr hrepresentable
    refine ⟨q, (parse_eq_some_finite_iff hq).mp ⟨hparse, hno⟩, hq, hfloor, ?_, hlast⟩
    rw [F64.scale, hfloor]
    exact Int.le_floor.mpr (by exact_mod_cast hone)

/-! ### Memory -/

variable {isIpAddr : String → Bool} {s : String} {n : Int64}

/-- **A memory limit is safe and exact**: the parser returns, and what it accepts is the
    quantity that the text stands for. -/
def MemoryLimitExact (isIpAddr : String → Bool) (s : String) : Prop :=
  ∃ r, parseMemoryLimit (exactParsers isIpAddr) s = .ok r ∧
    ∀ n, r = .ok n → ∃ num unit m, trim s = num ++ [unit] ∧ memoryMultiplier unit = some m ∧
      Quantity num m n

def MemoryLimitFits (s : String) : Prop :=
  SplitsWell s ∧
    ∀ num unit m, trim s = num ++ [unit] → memoryMultiplier unit = some m → InRange num m

theorem getLast?_eq_some_iff_concat {l num : List Char} {unit : Char} (h : l = num ++ [unit]) :
    l.getLast? = some unit ∧ l.dropLast = num := by
  rw [h]
  exact ⟨List.getLast?_concat, List.dropLast_concat⟩

/-- What is accepted: a number above zero, or no number, with a unit. -/
theorem parseMemoryLimit_eq_ok_iff :
    parseMemoryLimit (exactParsers isIpAddr) s = .ok (.ok n) ↔
      ∃ num unit m x, trim s = num ++ [unit] ∧ unit.utf8Size = 1 ∧
        memoryMultiplier unit = some m ∧ parse num = some x ∧ x.nonpositive = false ∧
        (x.scale m).toInt64 = n := by
  constructor
  · intro h
    rw [parseMemoryLimit] at h
    split at h
    · cases h
    · rename_i unit hlast
      have hcut : trim s = (trim s).dropLast ++ [unit] :=
        (List.dropLast_append_getLast? unit hlast).symm
      split at h
      · cases h
      · rename_i hsize
        split at h
        · cases h
        · rename_i m hm
          dsimp only at h
          split at h
          · cases h
          · rename_i x hx
            have hparse : parse (trim s).dropLast = some x := by
              simpa [exactParsers] using hx
            split at h
            · cases h
            · rename_i hpos
              cases h
              exact ⟨_, unit, m, x, hcut, not_not.mp hsize, hm, hparse,
                Bool.eq_false_of_not_eq_true hpos, rfl⟩
  · rintro ⟨num, unit, m, x, hcut, hsize, hm, hparse, hpos, rfl⟩
    obtain ⟨hlast, hnum⟩ := getLast?_eq_some_iff_concat hcut
    have hread : (exactParsers isIpAddr).parseF64 (String.ofList num) = some x := by
      simpa [exactParsers] using hparse
    have hposx : ¬(exactParsers isIpAddr).nonpositive x = true := by
      simpa [exactParsers] using hpos
    rw [parseMemoryLimit]
    simp only [hlast, hnum, hsize, hm, hread, hposx]
    rfl

theorem memoryLimitExact_iff (isIpAddr : String → Bool) (s : String) :
    MemoryLimitExact isIpAddr s ↔ MemoryLimitFits s := by
  constructor
  · rintro ⟨r, hr, hexact⟩
    have hsplits : SplitsWell s := returns_parseMemoryLimit.mp ⟨r, hr⟩
    refine ⟨hsplits, ?_⟩
    intro num unit m hcut hm x hparse hpos
    have hsize : unit.utf8Size = 1 := hsplits unit (getLast?_eq_some_iff_concat hcut).1
    have hok := (@parseMemoryLimit_eq_ok_iff isIpAddr _ _).mpr
      ⟨num, unit, m, x, hcut, hsize, hm, hparse, hpos, rfl⟩
    rw [hr] at hok
    obtain ⟨num', unit', m', hcut', hm', hquantity⟩ := hexact _ (Except.ok.inj hok)
    obtain ⟨rfl, hunit⟩ := List.append_inj' (hcut.symm.trans hcut') rfl
    cases hunit
    rw [hm] at hm'
    cases hm'
    exact (quantity_iff hparse hpos).mp hquantity
  · rintro ⟨hsplits, hrange⟩
    obtain ⟨r, hr⟩ := returns_parseMemoryLimit.mpr hsplits
    refine ⟨r, hr, ?_⟩
    rintro n rfl
    obtain ⟨num, unit, m, x, hcut, _, hm, hparse, hpos, rfl⟩ := parseMemoryLimit_eq_ok_iff.mp hr
    exact ⟨num, unit, m, hcut, hm,
      (quantity_iff hparse hpos).mpr (hrange num unit m hcut hm x hparse hpos)⟩

/-! ### CPU -/

/-- The number in a CPU limit, and what it is multiplied with. -/
def CpuQuantity (s : String) (num : List Char) (m : Nat) : Prop :=
  (∃ unit, (unit = 'm' ∨ unit = 'M') ∧ trim s = num ++ [unit] ∧ m = 1000000) ∨
    (trim s = num ∧ (∀ unit ∈ num.getLast?, unit ≠ 'm' ∧ unit ≠ 'M') ∧ m = 1000000000)

/-- **A CPU limit is exact**: what the parser accepts is the quantity that the text stands
    for, in cores or, with an `m`, in thousandths. -/
def CpuLimitExact (isIpAddr : String → Bool) (s : String) : Prop :=
  ∀ n, parseCpuLimit (exactParsers isIpAddr) s = .ok n →
    ∃ num m, CpuQuantity s num m ∧ Quantity num m n

def CpuLimitFits (s : String) : Prop := ∀ num m, CpuQuantity s num m → InRange num m

theorem cpuQuantity_unique {num num' : List Char} {m m' : Nat} (h : CpuQuantity s num m)
    (h' : CpuQuantity s num' m') : num = num' ∧ m = m' := by
  rcases h with ⟨unit, hunit, hcut, rfl⟩ | ⟨hcut, hnot, rfl⟩
  · rcases h' with ⟨unit', _, hcut', rfl⟩ | ⟨hcut', hnot', rfl⟩
    · obtain ⟨rfl, _⟩ := List.append_inj' (hcut.symm.trans hcut') rfl
      exact ⟨rfl, rfl⟩
    · have hlast := (getLast?_eq_some_iff_concat hcut).1
      rw [hcut'] at hlast
      obtain ⟨hm, hM⟩ := hnot' unit hlast
      rcases hunit with hunit | hunit
      · exact absurd hunit hm
      · exact absurd hunit hM
  · rcases h' with ⟨unit', hunit', hcut', rfl⟩ | ⟨hcut', _, rfl⟩
    · have hlast := (getLast?_eq_some_iff_concat hcut').1
      rw [hcut] at hlast
      obtain ⟨hm, hM⟩ := hnot unit' hlast
      rcases hunit' with hunit | hunit
      · exact absurd hunit hm
      · exact absurd hunit hM
    · exact ⟨hcut.symm.trans hcut', rfl⟩

theorem parseCpuLimit_eq_ok_iff :
    parseCpuLimit (exactParsers isIpAddr) s = .ok n ↔
      ∃ num m x, CpuQuantity s num m ∧ parse num = some x ∧ x.nonpositive = false ∧
        (x.scale m).toInt64 = n := by
  have hparsers : ∀ {num : List Char} {x : F64},
      (exactParsers isIpAddr).parseF64 (String.ofList num) = some x ↔ parse num = some x := by
    intro num x
    simp [exactParsers]
  constructor
  · intro h
    rw [parseCpuLimit] at h
    split at h
    · cases h
    · rename_i unit hlast
      split at h
      · rename_i hunit
        dsimp only at h
        split at h
        · cases h
        · rename_i x hx
          split at h
          · cases h
          · rename_i hpos
            cases h
            have hcut := List.dropLast_append_getLast? unit hlast
            exact ⟨_, _, x, .inl ⟨unit, hunit, hcut.symm, rfl⟩, hparsers.mp hx,
              Bool.eq_false_of_not_eq_true hpos, rfl⟩
      · rename_i hunit
        split at h
        · cases h
        · rename_i x hx
          split at h
          · cases h
          · rename_i hpos
            cases h
            refine ⟨_, _, x, .inr ⟨rfl, ?_, rfl⟩, hparsers.mp hx,
              Bool.eq_false_of_not_eq_true hpos, rfl⟩
            intro last hmem
            rw [hlast] at hmem
            cases hmem
            exact not_or.mp hunit
  · rintro ⟨num, m, x, hnum, hparse, hpos, rfl⟩
    have hread := hparsers.mpr hparse
    have hposx : ¬(exactParsers isIpAddr).nonpositive x = true := by
      simpa [exactParsers] using hpos
    rw [parseCpuLimit]
    rcases hnum with ⟨unit, hunit, hcut, rfl⟩ | ⟨rfl, hnot, rfl⟩
    · obtain ⟨hlast, hdrop⟩ := getLast?_eq_some_iff_concat hcut
      simp only [hlast, hunit, if_true, hdrop, hread, hposx]
      rfl
    · cases hlast : (trim s).getLast? with
      | none =>
          rw [List.getLast?_eq_none_iff.mp hlast] at hparse
          cases hparse
      | some unit =>
          have hunit : ¬(unit = 'm' ∨ unit = 'M') := not_or.mpr (hnot unit hlast)
          simp only [hunit, if_false, hread, hposx]
          rfl

theorem cpuLimitExact_iff (isIpAddr : String → Bool) (s : String) :
    CpuLimitExact isIpAddr s ↔ CpuLimitFits s := by
  constructor
  · intro hexact num m hnum x hparse hpos
    obtain ⟨num', m', hnum', hquantity⟩ :=
      hexact _ (parseCpuLimit_eq_ok_iff.mpr ⟨num, m, x, hnum, hparse, hpos, rfl⟩)
    obtain ⟨rfl, rfl⟩ := cpuQuantity_unique hnum hnum'
    exact (quantity_iff hparse hpos).mp hquantity
  · intro hrange n hn
    obtain ⟨num, m, x, hnum, hparse, hpos, rfl⟩ := parseCpuLimit_eq_ok_iff.mp hn
    exact ⟨num, m, hnum, (quantity_iff hparse hpos).mpr (hrange num m hnum x hparse hpos)⟩

/-- **Limit parsing is safe and exact** for a text that does not end in a character of several
    bytes, when every number that is accepted is in plain notation and stands for a quantity that
    is in range and whose integer part survives the rounding; and for no other. -/
theorem limits_exact_iff (isIpAddr : String → Bool) (s : String) :
    (MemoryLimitExact isIpAddr s ↔ MemoryLimitFits s) ∧
      (CpuLimitExact isIpAddr s ↔ CpuLimitFits s) :=
  ⟨memoryLimitExact_iff isIpAddr s, cpuLimitExact_iff isIpAddr s⟩

def noAddresses (_ : String) : Bool := false

/-- A Kelvin sign for the unit panics; a tenth of a byte and no number at all are no limit; the
    largest limit stands for infinity; and an odd number of nanocpus above `2 ^ 53` is no double. -/
theorem limits_wrong :
    parseMemoryLimit (exactParsers noAddresses) "5\u212A" = .error .charBoundary ∧
      parseMemoryLimit (exactParsers noAddresses) "0.0001k" = .ok (.ok 0) ∧
      ¬MemoryLimitExact noAddresses "0.0001k" ∧
      parseMemoryLimit (exactParsers noAddresses) "nang" = .ok (.ok 0) ∧
      parseCpuLimit (exactParsers noAddresses) "inf" = .ok Int64.maxValue ∧
      parseCpuLimit (exactParsers noAddresses) "9007200.001953125" = .ok 9007200001953124 := by
  have hzero : parseMemoryLimit (exactParsers noAddresses) "0.0001k" = .ok (.ok 0) := by
    decide +kernel
  refine ⟨by decide +kernel, hzero, ?_, by decide +kernel, by decide +kernel, by decide +kernel⟩
  rintro ⟨r, hr, hexact⟩
  rw [hzero] at hr
  cases hr
  obtain ⟨_, _, _, _, _, _, _, _, _, hone, _⟩ := hexact 0 rfl
  exact absurd hone (by decide)

end Anyclaw.Config
