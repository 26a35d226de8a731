import Mathlib.Data.List.TakeWhile
import Mathlib.Data.Rat.Floor
import Anyclaw.Library.Binary64
import Anyclaw.Library.Decimal
import Anyclaw.Library.LowerCase

/-!
# Floating-point numbers from text

The syntax of floating-point numbers: digits with a point among them, a sign and an exponent,
or one of the special values.  A finite number is read as its exact value, and a product is
rounded.  Most programs expect plain decimal notation, digits with a point at most;
`parse_eq_some_finite_iff` says when that is what was read, and `toInt64_ofRat_iff` when a
product that is cut to an integer is the exact one.
-/

namespace DecimalFloat

/-- A number, exact when it is finite. -/
inductive F64 where
  | finite (q : ℚ)
  | infinite (negative : Bool)
  | nan
deriving DecidableEq

/-! ### Reading -/

/-- Whether there is a minus sign, and what stands behind the sign. -/
def stripSign : List Char → Bool × List Char
  | '+' :: cs => (false, cs)
  | '-' :: cs => (true, cs)
  | cs => (false, cs)

/-- What follows the digits: nothing, or an exponent. -/
def exponent : List Char → Option Int
  | [] => some 0
  | c :: cs =>
      if c = 'e' ∨ c = 'E' then
        (readDigits (stripSign cs).2).map fun n => if (stripSign cs).1 then -(n : Int) else n
      else none

/-- Digits, some of them behind the point, times a power of ten. -/
def decimal (digits : List Char) (scale : Nat) (e : Int) : ℚ :=
  if 0 ≤ e - scale then Nat.ofDigitChars 10 digits 0 * 10 ^ (e - scale).toNat
  else Nat.ofDigitChars 10 digits 0 / 10 ^ (scale - e).toNat

def number (cs : List Char) : Option ℚ :=
  match cs.dropWhile Char.isDigit with
  | '.' :: rest =>
      if cs.takeWhile Char.isDigit = [] ∧ rest.takeWhile Char.isDigit = [] then none
      else
        (exponent (rest.dropWhile Char.isDigit)).map
          (decimal (cs.takeWhile Char.isDigit ++ rest.takeWhile Char.isDigit)
            (rest.takeWhile Char.isDigit).length)
  | tail =>
      if cs.takeWhile Char.isDigit = [] then none
      else (exponent tail).map (decimal (cs.takeWhile Char.isDigit) 0)

def parse (cs : List Char) : Option F64 :=
  let negative := (stripSign cs).1
  let body := (stripSign cs).2
  let word := body.map Char.toLower
  if word = "inf".toList ∨ word = "infinity".toList then some (.infinite negative)
  else if word = "nan".toList then some .nan
  else (number body).map fun q => .finite (if negative then -q else q)

/-! ### Plain decimal notation -/

/-- Digits, with a point at most. -/
inductive IsPlain : List Char → ℚ → Prop
  | whole {int : List Char} : int ≠ [] → int.all Char.isDigit = true →
      IsPlain int (Nat.ofDigitChars 10 int 0)
  | point {int frac : List Char} : (int ≠ [] ∨ frac ≠ []) → int.all Char.isDigit = true →
      frac.all Char.isDigit = true →
      IsPlain (int ++ '.' :: frac) (Nat.ofDigitChars 10 (int ++ frac) 0 / 10 ^ frac.length)

/-- Plain decimal notation, with a plus sign if one likes. -/
def IsDecimal (cs : List Char) (q : ℚ) : Prop := IsPlain cs q ∨ ∃ ds, cs = '+' :: ds ∧ IsPlain ds q

def NoExponent (cs : List Char) : Prop := ∀ c ∈ cs, c ≠ 'e' ∧ c ≠ 'E'

variable {cs ds : List Char} {q : ℚ}

theorem exponent_eq_some {e : Int} (h : exponent cs = some e) (hno : NoExponent cs) :
    cs = [] ∧ e = 0 := by
  cases cs with
  | nil =>
      cases h
      exact ⟨rfl, rfl⟩
  | cons c cs =>
      obtain ⟨hlower, hupper⟩ := hno c (List.mem_cons_self ..)
      rw [exponent, if_neg (by simp [hlower, hupper])] at h
      cases h

theorem decimal_zero_zero (digits : List Char) :
    decimal digits 0 0 = Nat.ofDigitChars 10 digits 0 := by
  simp [decimal]

theorem decimal_zero (digits : List Char) (scale : Nat) :
    decimal digits scale 0 = Nat.ofDigitChars 10 digits 0 / 10 ^ scale := by
  cases scale with
  | zero => simp [decimal]
  | succ scale =>
      rw [decimal, if_neg (by omega)]
      simp

theorem decimal_nonneg (digits : List Char) (scale : Nat) (e : Int) :
    0 ≤ decimal digits scale e := by
  rw [decimal]
  split
  · positivity
  · positivity

/-- What is read without an exponent is written in plain notation. -/
theorem isPlain_of_number (h : number cs = some q) (hno : NoExponent cs) : IsPlain cs q := by
  have hcut := List.takeWhile_append_dropWhile (p := Char.isDigit) (l := cs)
  rw [number] at h
  split at h
  · rename_i rest hrest
    split at h
    · cases h
    · rename_i hsome
      obtain ⟨e, he, rfl⟩ := Option.map_eq_some_iff.mp h
      have hcut' := List.takeWhile_append_dropWhile (p := Char.isDigit) (l := rest)
      have hsuffix : rest.dropWhile Char.isDigit <:+ cs :=
        (List.dropWhile_suffix _).trans ((List.suffix_cons '.' rest).trans
          (hrest ▸ List.dropWhile_suffix _))
      obtain ⟨htail, rfl⟩ := exponent_eq_some he fun c hc => hno c (hsuffix.subset hc)
      rw [htail, List.append_nil] at hcut'
      rw [hrest] at hcut
      rw [decimal_zero]
      have hplain := @IsPlain.point (cs.takeWhile Char.isDigit) (rest.takeWhile Char.isDigit)
        (by tauto) List.all_takeWhile List.all_takeWhile
      rw [hcut'] at hplain ⊢
      rwa [hcut] at hplain
  · split at h
    · cases h
    · rename_i hint
      obtain ⟨e, he, rfl⟩ := Option.map_eq_some_iff.mp h
      have hsuffix : cs.dropWhile Char.isDigit <:+ cs := List.dropWhile_suffix _
      obtain ⟨htail, rfl⟩ := exponent_eq_some he fun c hc => hno c (hsuffix.subset hc)
      rw [htail, List.append_nil] at hcut
      rw [decimal_zero_zero]
      have hplain := @IsPlain.whole (cs.takeWhile Char.isDigit) hint List.all_takeWhile
      rwa [hcut] at hplain ⊢

theorem IsPlain.noExponent (h : IsPlain cs q) : NoExponent cs := by
  have hdigit : ∀ c : Char, c.isDigit = true → c ≠ 'e' ∧ c ≠ 'E' := by
    intro c hc
    constructor
    · rintro rfl
      exact absurd hc (by decide)
    · rintro rfl
      exact absurd hc (by decide)
  cases h with
  | whole _ hint =>
      intro c hc
      exact hdigit c (List.all_eq_true.mp hint c hc)
  | point _ hint hfrac =>
      intro c hc
      rcases List.mem_append.mp hc with hc | hc
      · exact hdigit c (List.all_eq_true.mp hint c hc)
      · rcases List.mem_cons.mp hc with rfl | hc
        · decide
        · exact hdigit c (List.all_eq_true.mp hfrac c hc)

/-- Plain notation is read. -/
theorem number_of_isPlain (h : IsPlain cs q) : number cs = some q := by
  cases h with
  | @whole int hne hint =>
      have htake : cs.takeWhile Char.isDigit = cs :=
        List.takeWhile_eq_self_iff.mpr (List.all_eq_true.mp hint)
      have hdrop : cs.dropWhile Char.isDigit = [] :=
        List.dropWhile_eq_nil_iff.mpr (List.all_eq_true.mp hint)
      rw [number, hdrop, htake]
      simp only [if_neg hne, exponent, Option.map_some, decimal_zero_zero]
  | @point int frac hne hint hfrac =>
      have htake : (int ++ '.' :: frac).takeWhile Char.isDigit = int := by
        rw [List.takeWhile_append_of_pos (List.all_eq_true.mp hint),
          List.takeWhile_cons_of_neg (by decide), List.append_nil]
      have hdrop : (int ++ '.' :: frac).dropWhile Char.isDigit = '.' :: frac := by
        rw [List.dropWhile_append_of_pos (List.all_eq_true.mp hint),
          List.dropWhile_cons_of_neg (by decide)]
      have htake' : frac.takeWhile Char.isDigit = frac :=
        List.takeWhile_eq_self_iff.mpr (List.all_eq_true.mp hfrac)
      have hdrop' : frac.dropWhile Char.isDigit = [] :=
        List.dropWhile_eq_nil_iff.mpr (List.all_eq_true.mp hfrac)
      have hboth : ¬(int = [] ∧ frac = []) := by tauto
      rw [number, hdrop, htake]
      simp only [htake', hdrop', if_neg hboth, exponent, Option.map_some, decimal_zero]

theorem number_nonneg (h : number cs = some q) : 0 ≤ q := by
  rw [number] at h
  split at h
  · split at h
    · cases h
    · obtain ⟨e, _, rfl⟩ := Option.map_eq_some_iff.mp h
      exact decimal_nonneg _ _ e
  · split at h
    · cases h
    · obtain ⟨e, _, rfl⟩ := Option.map_eq_some_iff.mp h
      exact decimal_nonneg _ _ e

/-! ### Positive numbers -/

/-- Plain notation begins with a digit or the point, so that it is no special value. -/
theorem IsPlain.head (h : IsPlain cs q) : ∃ c rest, cs = c :: rest ∧ (c.isDigit = true ∨ c = '.') := by
  cases h with
  | @whole int hne hint =>
      obtain ⟨c, rest, rfl⟩ := List.exists_cons_of_ne_nil hne
      exact ⟨c, rest, rfl, .inl (List.all_eq_true.mp hint c (List.mem_cons_self ..))⟩
  | @point int frac _ hint _ =>
      cases int with
      | nil => exact ⟨'.', frac, rfl, .inr rfl⟩
      | cons c int =>
          exact ⟨c, int ++ '.' :: frac, rfl, .inl (List.all_eq_true.mp hint c (List.mem_cons_self ..))⟩

theorem toLower_of_isDigit {c : Char} (h : c.isDigit = true) : c.toLower = c := by
  simp only [Char.isDigit, Bool.and_eq_true, decide_eq_true_eq] at h
  have hnine : c.toNat ≤ 57 := h.2
  rw [← Char.toNat_inj, LowerCase.toNat_toLower, if_neg (by omega)]

theorem IsPlain.not_word (h : IsPlain cs q) {letter : Char} {word : List Char}
    (hdigit : letter.isDigit = false) (hpoint : letter ≠ '.') :
    cs.map Char.toLower ≠ letter :: word := by
  obtain ⟨c, rest, rfl, hc⟩ := h.head
  intro heq
  rw [List.map_cons] at heq
  obtain ⟨hletter, _⟩ := List.cons.inj heq
  rcases hc with hc | rfl
  · rw [toLower_of_isDigit hc] at hletter
    rw [← hletter, hc] at hdigit
    cases hdigit
  · exact hpoint hletter.symm

theorem stripSign_of_isPlain (h : IsPlain cs q) : stripSign cs = (false, cs) := by
  obtain ⟨c, rest, rfl, hc⟩ := h.head
  have hplus : c ≠ '+' := by
    rintro rfl
    rcases hc with hc | hc
    · exact absurd hc (by decide)
    · exact absurd hc (by decide)
  have hminus : c ≠ '-' := by
    rintro rfl
    rcases hc with hc | hc
    · exact absurd hc (by decide)
    · exact absurd hc (by decide)
  rw [stripSign]
  · rintro cs heq
    cases heq
    exact hplus rfl
  · rintro cs heq
    cases heq
    exact hminus rfl

/-- Without a minus sign there is no sign or a plus. -/
theorem eq_of_stripSign (h : (stripSign cs).1 = false) :
    (stripSign cs).2 = cs ∨ cs = '+' :: (stripSign cs).2 := by
  unfold stripSign at h ⊢
  split
  · exact .inr rfl
  · cases h
  · exact .inl rfl

theorem parse_of_isPlain (h : IsPlain cs q) : parse cs = some (.finite q) := by
  have hinf : cs.map Char.toLower ≠ "inf".toList := h.not_word (by decide) (by decide)
  have hinfinity : cs.map Char.toLower ≠ "infinity".toList := h.not_word (by decide) (by decide)
  have hnan : cs.map Char.toLower ≠ "nan".toList := h.not_word (by decide) (by decide)
  rw [parse, stripSign_of_isPlain h]
  simp only [hinf, hinfinity, hnan, or_self, if_false, number_of_isPlain h, Option.map_some,
    Bool.false_eq_true]

theorem parse_of_isDecimal (h : IsDecimal cs q) : parse cs = some (.finite q) := by
  rcases h with h | ⟨ds, rfl, h⟩
  · exact parse_of_isPlain h
  · have hparse := parse_of_isPlain h
    rw [parse, stripSign_of_isPlain h] at hparse
    exact hparse

theorem IsDecimal.noExponent (h : IsDecimal cs q) : NoExponent cs := by
  rcases h with h | ⟨ds, rfl, h⟩
  · exact h.noExponent
  · intro c hc
    rcases List.mem_cons.mp hc with rfl | hc
    · decide
    · exact h.noExponent c hc

/-- **A positive number is written in decimal notation** exactly when it is read as a finite
    one and has no exponent. -/
theorem parse_eq_some_finite_iff (hq : 0 < q) :
    parse cs = some (.finite q) ∧ NoExponent cs ↔ IsDecimal cs q := by
  constructor
  · rintro ⟨h, hno⟩
    rw [parse] at h
    split at h
    · cases h
    · split at h
      · cases h
      · obtain ⟨value, hvalue, heq⟩ := Option.map_eq_some_iff.mp h
        have hnonneg := number_nonneg hvalue
        have hvalue_eq := F64.finite.inj heq
        have hsign : (stripSign cs).1 = false := by
          cases hneg : (stripSign cs).1 with
          | false => rfl
          | true =>
              rw [hneg, if_pos rfl] at hvalue_eq
              linarith
        rw [hsign, if_neg (by simp)] at hvalue_eq
        rw [hvalue_eq] at hvalue
        -- either there is no sign, or it is a plus
        rcases eq_of_stripSign hsign with hbody | hbody
        · rw [hbody] at hvalue
          exact .inl (isPlain_of_number hvalue hno)
        · refine .inr ⟨(stripSign cs).2, hbody, isPlain_of_number hvalue ?_⟩
          intro c hc
          apply hno c
          rw [hbody]
          exact List.mem_cons_of_mem _ hc
  · intro h
    exact ⟨parse_of_isDecimal h, h.noExponent⟩

/-! ### Multiplying and casting -/

/-- The nearest double, with infinity beyond the largest one. -/
def F64.ofRat (q : ℚ) : F64 :=
  if Binary64.roundNearest |q| < 2 ^ 1024 then
    .finite (if q < 0 then -Binary64.roundNearest |q| else Binary64.roundNearest |q|)
  else .infinite (decide (q < 0))

/-- `x * m`, for an `m` that is a double. -/
def F64.scale : F64 → Nat → F64
  | .finite q, m => .ofRat (q * m)
  | .infinite negative, _ => .infinite negative
  | .nan, _ => .nan

/-- `x as i64`: towards zero, within the range, and 0 for what is no number. -/
def F64.toInt64 : F64 → Int64
  | .finite q => Int64.ofInt (max (-2 ^ 63) (min (2 ^ 63 - 1) (if 0 ≤ q then ⌊q⌋ else ⌈q⌉)))
  | .infinite negative => if negative then Int64.minValue else Int64.maxValue
  | .nan => 0

/-- `x <= 0.0`, which is false for what is no number. -/
def F64.nonpositive : F64 → Bool
  | .finite q => decide (q ≤ 0)
  | .infinite negative => negative
  | .nan => false

theorem F64.toInt64_finite (hq : 0 ≤ q) :
    (F64.finite q).toInt64.toInt = min (2 ^ 63 - 1) ⌊q⌋ := by
  have hfloor : 0 ≤ ⌊q⌋ := Int.floor_nonneg.mpr hq
  have hrange : max (-2 ^ 63) (min (2 ^ 63 - 1) ⌊q⌋) = min (2 ^ 63 - 1) ⌊q⌋ := by
    omega
  rw [F64.toInt64, if_pos hq, hrange, Int64.toInt_ofInt_of_le]
  · omega
  · omega

open Binary64 in
theorem F64.toInt64_ofRat (hq : 1 ≤ q) :
    (F64.ofRat q).toInt64.toInt = min (2 ^ 63 - 1) ⌊roundNearest q⌋ := by
  have habs : |q| = q := abs_of_nonneg (by linarith)
  have hnonneg : ¬q < 0 := by linarith
  have hround : 1 ≤ roundNearest q := by
    have h := pow_le_roundNearest hq (j := 0) (by simpa using hq)
    simpa using h
  unfold F64.ofRat
  rw [habs, if_neg hnonneg]
  split
  · exact F64.toInt64_finite (by linarith)
  · rename_i hle
    have hfloor : (2 ^ 63 : ℤ) ≤ ⌊roundNearest q⌋ := by
      have hpow : (2 : ℚ) ^ 63 ≤ 2 ^ 1024 := pow_le_pow_right₀ one_le_two (by omega)
      rw [Int.le_floor]
      push_cast
      exact hpow.trans (not_lt.mp hle)
    have hmax : ((F64.infinite (decide (q < 0))).toInt64).toInt = 2 ^ 63 - 1 := by
      rw [decide_eq_false hnonneg]
      decide
    rw [hmax]
    omega

open Binary64 in
/-- **A number is rounded and cut to its integer part** when this survives the rounding and is in
    range.  The largest integer is no double, and is what a cast saturates at. -/
theorem F64.toInt64_ofRat_iff (hq : 1 ≤ q) :
    ((F64.ofRat q).toInt64.toInt = ⌊q⌋ ∧ (F64.ofRat q).toInt64.toInt < 2 ^ 63 - 1) ↔
      q < 2 ^ 63 ∧ KeepsFloor q := by
  rw [F64.toInt64_ofRat hq]
  by_cases hlt : q < 2 ^ 63
  · rw [and_iff_right hlt, ← floor_roundNearest_iff hq]
    have hupper : ⌊roundNearest q⌋ ≤ 2 ^ 63 := by
      have h := (Int.floor_le _).trans (roundNearest_le_pow hq hlt)
      exact_mod_cast h
    have hrange : ⌊q⌋ < 2 ^ 63 := Int.floor_lt.mpr (by exact_mod_cast hlt)
    have hlast : ⌊q⌋ = 2 ^ 63 - 1 → 2 ^ 63 ≤ ⌊roundNearest q⌋ := by
      intro hfloor
      have hle : (2 ^ 63 - 1 : ℚ) ≤ q := by
        have h := Int.floor_le q
        rw [hfloor] at h
        exact_mod_cast h
      have hnear : 2 ^ 63 - spacing q / 2 ≤ q := by
        obtain ⟨k, hlower, hupper', hspacing⟩ := spacing_of_one_le hq
        have hk : 62 ≤ k := by
          have hlog : (2 : ℚ) ^ 62 < 2 ^ (k + 1) := by linarith
          exact Nat.lt_succ_iff.mp ((pow_lt_pow_iff_right₀ one_lt_two).mp hlog)
        have hpow : (2 : ℚ) ^ 62 ≤ 2 ^ k := pow_le_pow_right₀ one_le_two hk
        linarith
      rw [Int.le_floor]
      exact_mod_cast pow_le_roundNearest_of_near hq hlt hnear
    omega
  · have hle := not_lt.mp hlt
    have hfloor : (2 ^ 63 : ℤ) ≤ ⌊q⌋ := Int.le_floor.mpr (by exact_mod_cast hle)
    refine iff_of_false ?_ fun h => hlt h.1
    omega

end DecimalFloat
