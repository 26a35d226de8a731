import Anyclaw.Library.Utf16
import Anyclaw.Telegram.Mentions

/-!
# Slices by UTF-16 units

Telegram gives the place of an entity in UTF-16 units.  The loop that cuts it out of a text
counts bytes and units at once; the part that it returns is the part those units encode.
First for offsets that are natural numbers, then for the machine words of the source, whose
sums can overflow.

The loop is that of `slice_utf16` (`ext/channels/telegram/src/dispatcher.rs`).
-/

namespace Anyclaw

open Slices Utf16

theorem lenUtf16_eq (c : Char) : lenUtf16 c = (encodeChar c).length := by
  rw [lenUtf16, length_encodeChar]

/-! ### What is cut out -/

/-- The slice begins at the offset, which lies in what was read so far. -/
def StartsAt (utf16Offset : Nat) (before : List Char) (byteStart : Option Nat) : Prop :=
  ∀ start, byteStart = some start →
    ∃ a m, before = a ++ m ∧ byteLen a = start ∧ (encode a).length = utf16Offset

theorem StartsAt.snoc {utf16Offset : Nat} {before : List Char} {byteStart : Option Nat}
    (h : StartsAt utf16Offset before byteStart) (c : Char) :
    StartsAt utf16Offset (before ++ [c]) byteStart := by
  intro start hstart
  obtain ⟨a, m, rfl, hbytes, hunits⟩ := h start hstart
  exact ⟨a, m ++ [c], List.append_assoc a m [c], hbytes, hunits⟩

section Loop

variable {text before rest s : List Char} {utf16Offset utf16Length : Nat}
  {byteStart : Option Nat}

theorem isPart_of_sliceFrom (hstart : StartsAt utf16Offset before byteStart)
    (hstop : (encode before).length = utf16Offset + utf16Length)
    (h : sliceFrom (before ++ rest) byteStart (byteLen before) = some (some s)) :
    IsPart (before ++ rest) utf16Offset utf16Length s := by
  cases byteStart with
  | none => cases h
  | some start =>
      obtain ⟨a, m, rfl, rfl, rfl⟩ := hstart start rfl
      rw [sliceFrom, slice_append] at h
      cases h
      rw [encode_append, List.length_append] at hstop
      exact ⟨⟨a, rest, List.append_assoc a s rest, rfl⟩, Nat.add_left_cancel hstop⟩

/-- What the loop returns lies at the offset. -/
theorem isPart_of_sliceUtf16Loop (htext : text = before ++ rest)
    (hstart : StartsAt utf16Offset before byteStart)
    (h : sliceUtf16Loop text utf16Offset utf16Length rest (byteLen before)
      (encode before).length byteStart = some (some s)) :
    IsPart text utf16Offset utf16Length s := by
  induction rest generalizing before byteStart with
  | nil =>
      rw [sliceUtf16Loop] at h
      split at h
      · rename_i hstop
        rw [htext] at h ⊢
        exact isPart_of_sliceFrom hstart hstop h
      · cases h
  | cons c rest ih =>
      rw [sliceUtf16Loop] at h
      have hnext : StartsAt utf16Offset before
          (if (encode before).length = utf16Offset then some (byteLen before)
            else byteStart) := by
        split
        · rename_i hoffset
          intro start heq
          cases heq
          exact ⟨before, [], (List.append_nil before).symm, rfl, hoffset⟩
        · exact hstart
      split at h
      · rename_i hstop
        rw [htext] at h ⊢
        exact isPart_of_sliceFrom hnext hstop h
      · have hbytes : byteLen before + c.utf8Size = byteLen (before ++ [c]) := by simp
        have hunits : (encode before).length + lenUtf16 c = (encode (before ++ [c])).length := by
          simp [lenUtf16_eq]
        rw [hbytes, hunits] at h
        exact ih (by rw [htext, List.append_assoc]; rfl) (hnext.snoc c) h

/-- The loop passes over characters that lie before the offset or between the ends. -/
theorem sliceUtf16Loop_append {m : List Char} {byteIdx utf16Pos : Nat}
    (hplace : utf16Offset < utf16Pos ∨ utf16Pos + (encode m).length ≤ utf16Offset)
    (hstop : utf16Pos + (encode m).length ≤ utf16Offset + utf16Length) :
    sliceUtf16Loop text utf16Offset utf16Length (m ++ rest) byteIdx utf16Pos byteStart =
      sliceUtf16Loop text utf16Offset utf16Length rest (byteIdx + byteLen m)
        (utf16Pos + (encode m).length) byteStart := by
  induction m generalizing byteIdx utf16Pos with
  | nil => rfl
  | cons c m ih =>
      have hc := length_encodeChar_pos c
      rw [encode_cons, List.length_append] at hplace hstop
      have hoffset : ¬utf16Pos = utf16Offset := by omega
      have hbefore : ¬utf16Pos = utf16Offset + utf16Length := by omega
      rw [List.cons_append, sliceUtf16Loop, if_neg hoffset, if_neg hbefore, lenUtf16_eq,
        ih (by omega) (by omega), encode_cons, List.length_append, byteLen_cons, Nat.add_assoc,
        Nat.add_assoc]

/-- The loop returns at the end of the slice. -/
theorem sliceUtf16Loop_stop {a : List Char} (hs : 0 < (encode s).length) :
    sliceUtf16Loop text (encode a).length (encode s).length rest (byteLen (a ++ s))
        ((encode a).length + (encode s).length) byteStart =
      sliceFrom text byteStart (byteLen (a ++ s)) := by
  cases rest with
  | nil => rw [sliceUtf16Loop, if_pos rfl]
  | cons c rest =>
      have hoffset : ¬(encode a).length + (encode s).length = (encode a).length := by omega
      rw [sliceUtf16Loop, if_neg hoffset, if_pos rfl]

/-- The loop returns every part that has a unit. -/
theorem sliceUtf16Loop_of_isPart (h : IsPart text utf16Offset utf16Length s)
    (hlength : 1 ≤ utf16Length) :
    sliceUtf16Loop text utf16Offset utf16Length text 0 0 none = some (some s) := by
  obtain ⟨⟨a, b, rfl, rfl⟩, rfl⟩ := h
  cases s with
  | nil =>
      rw [encode_nil, List.length_nil] at hlength
      omega
  | cons c m =>
      have hc := length_encodeChar_pos c
      -- up to the offset
      rw [sliceUtf16Loop_append (.inr (by omega)) (by omega), Nat.zero_add, Nat.zero_add]
      -- the first character, at which the start is set
      have hbefore : ¬(encode a).length = (encode a).length + (encode (c :: m)).length := by
        omega
      rw [List.cons_append, sliceUtf16Loop, if_pos rfl, if_neg hbefore, lenUtf16_eq]
      -- the rest of the part, up to its end
      have hsize : (encode (c :: m)).length = (encodeChar c).length + (encode m).length := by
        rw [encode_cons, List.length_append]
      rw [sliceUtf16Loop_append (.inl (by omega)) (by omega)]
      have hbytes : byteLen a + c.utf8Size + byteLen m = byteLen (a ++ c :: m) := by
        rw [byteLen_append, byteLen_cons, Nat.add_assoc]
      have hunits : (encode a).length + (encodeChar c).length + (encode m).length =
          (encode a).length + (encode (c :: m)).length := by
        rw [hsize, Nat.add_assoc]
      rw [hbytes, hunits, sliceUtf16Loop_stop hlength, ← List.cons_append,
        ← List.append_assoc, sliceFrom, slice_append]
      rfl

end Loop

/-- **The slice is the part of the text at these units.** -/
theorem sliceUtf16_eq_some_iff {text s : List Char} {utf16Offset utf16Length : Nat}
    (hlength : 1 ≤ utf16Length) :
    sliceUtf16 text utf16Offset utf16Length = some s ↔
      IsPart text utf16Offset utf16Length s := by
  constructor
  · intro h
    apply @isPart_of_sliceUtf16Loop text [] text s utf16Offset utf16Length none rfl
      (fun _ h => nomatch h)
    rw [← h, sliceUtf16, Option.some_get]
    rfl
  · intro h
    rw [sliceUtf16, ← Option.some_inj, Option.some_get]
    exact sliceUtf16Loop_of_isPart h hlength

/-! ### Machine words -/

/-- A `str`: it has at most `isize::MAX` bytes. -/
structure Str where
  chars : List Char
  bytes_lt : byteLen chars < 2 ^ 63

inductive SlicePanic where
  /-- A sum does not fit `usize`. -/
  | overflow
  /-- A slice does not begin and end at character boundaries. -/
  | byteIndex
deriving DecidableEq

/-- `a + b` in `usize`: without overflow checks it wraps around, with them it panics. -/
def addUsize (overflowChecks : Bool) (a b : UInt64) : Except SlicePanic UInt64 :=
  if overflowChecks ∧ 2 ^ 64 ≤ a.toNat + b.toNat then .error .overflow else .ok (a + b)

/-- The value of an index expression that may panic. -/
def indexed {α : Type} : Option α → Except SlicePanic α
  | some r => .ok r
  | none => .error .byteIndex

def sliceUtf16WordsLoop (overflowChecks : Bool) (text : List Char)
    (utf16Offset utf16Length : UInt64) :
    List Char → Nat → UInt64 → Option Nat → Except SlicePanic (Option (List Char))
  | [], byteIdx, utf16Pos, byteStart => do
      -- behind the loop the byte index is the length of the text
      let stop ← addUsize overflowChecks utf16Offset utf16Length
      if utf16Pos = stop then indexed (sliceFrom text byteStart byteIdx) else pure none
  | ch :: rest, byteIdx, utf16Pos, byteStart => do
      let byteStart := if utf16Pos = utf16Offset then some byteIdx else byteStart
      let stop ← addUsize overflowChecks utf16Offset utf16Length
      if utf16Pos = stop then indexed (sliceFrom text byteStart byteIdx)
      else do
        let utf16Pos ← addUsize overflowChecks utf16Pos (UInt64.ofNat (lenUtf16 ch))
        sliceUtf16WordsLoop overflowChecks text utf16Offset utf16Length rest
          (byteIdx + ch.utf8Size) utf16Pos byteStart

/-- `slice_utf16` with the offset and the length that it gets. -/
def sliceUtf16Words (overflowChecks : Bool) (text : Str) (utf16Offset utf16Length : UInt64) :
    Except SlicePanic (Option (List Char)) :=
  sliceUtf16WordsLoop overflowChecks text.chars utf16Offset utf16Length text.chars 0 0 none

theorem addUsize_of_lt {a b : UInt64} (h : a.toNat + b.toNat < 2 ^ 64) (overflowChecks : Bool) :
    addUsize overflowChecks a b = .ok (a + b) := by
  rw [addUsize, if_neg]
  omega

/-- A sum that wraps around is below its first part. -/
theorem toNat_add_of_le {a b : UInt64} (h : 2 ^ 64 ≤ a.toNat + b.toNat) :
    (a + b).toNat < a.toNat := by
  have ha := a.toNat_lt
  have hb := b.toNat_lt
  rw [UInt64.toNat_add]
  omega

theorem toNat_lenUtf16 (c : Char) : (UInt64.ofNat (lenUtf16 c)).toNat = lenUtf16 c := by
  rw [lenUtf16]
  split <;> rfl

/-! ### The words of the loop -/

section Words

variable {text rest : List Char} {utf16Offset utf16Length utf16Pos : UInt64} {byteIdx : Nat}
  {byteStart : Option Nat}

/-- The position of the loop fits as long as the rest of the text does. -/
theorem exists_addUsize_lenUtf16 {c : Char}
    (hfits : utf16Pos.toNat + (encode (c :: rest)).length < 2 ^ 64) (overflowChecks : Bool) :
    ∃ next, addUsize overflowChecks utf16Pos (UInt64.ofNat (lenUtf16 c)) = .ok next ∧
      next.toNat = utf16Pos.toNat + lenUtf16 c ∧
      next.toNat + (encode rest).length < 2 ^ 64 := by
  rw [encode_cons, List.length_append, ← lenUtf16_eq] at hfits
  have hsum : utf16Pos.toNat + (UInt64.ofNat (lenUtf16 c)).toNat < 2 ^ 64 := by
    rw [toNat_lenUtf16]
    omega
  have hnext : (utf16Pos + UInt64.ofNat (lenUtf16 c)).toNat = utf16Pos.toNat + lenUtf16 c := by
    rw [UInt64.toNat_add, Nat.mod_eq_of_lt hsum, toNat_lenUtf16]
  refine ⟨_, addUsize_of_lt hsum overflowChecks, hnext, ?_⟩
  rw [hnext]
  omega

/-- Where the sum of offset and length fits, the loop is the one on natural numbers. -/
theorem sliceUtf16WordsLoop_of_fits (hstop : utf16Offset.toNat + utf16Length.toNat < 2 ^ 64)
    (hfits : utf16Pos.toNat + (encode rest).length < 2 ^ 64) (overflowChecks : Bool) :
    sliceUtf16WordsLoop overflowChecks text utf16Offset utf16Length rest byteIdx utf16Pos
        byteStart =
      indexed (sliceUtf16Loop text utf16Offset.toNat utf16Length.toNat rest byteIdx
        utf16Pos.toNat byteStart) := by
  have hat : ∀ {pos : UInt64}, pos = utf16Offset + utf16Length ↔
      pos.toNat = utf16Offset.toNat + utf16Length.toNat := by
    intro pos
    rw [← UInt64.toNat_inj, UInt64.toNat_add, Nat.mod_eq_of_lt hstop]
  induction rest generalizing byteIdx utf16Pos byteStart with
  | nil =>
      rw [sliceUtf16WordsLoop, sliceUtf16Loop, addUsize_of_lt hstop]
      show (if utf16Pos = utf16Offset + utf16Length then _ else _) = _
      simp only [hat]
      split <;> rfl
  | cons c rest ih =>
      obtain ⟨next, hadd, hnext, hrest⟩ := exists_addUsize_lenUtf16 hfits overflowChecks
      rw [sliceUtf16WordsLoop, sliceUtf16Loop, addUsize_of_lt hstop, hadd]
      show (if utf16Pos = utf16Offset + utf16Length then _ else
        sliceUtf16WordsLoop overflowChecks text utf16Offset utf16Length rest _ next _) = _
      rw [ih hrest, hnext]
      simp only [hat, ← UInt64.toNat_inj]
      split <;> rfl

/-- With overflow checks a sum that does not fit panics in the first round. -/
theorem sliceUtf16WordsLoop_checked
    (hstop : 2 ^ 64 ≤ utf16Offset.toNat + utf16Length.toNat) :
    sliceUtf16WordsLoop true text utf16Offset utf16Length rest byteIdx utf16Pos byteStart =
      .error .overflow := by
  have hadd : addUsize true utf16Offset utf16Length = .error .overflow := by
    rw [addUsize, if_pos ⟨rfl, hstop⟩]
  cases rest with
  | nil =>
      rw [sliceUtf16WordsLoop, hadd]
      rfl
  | cons c rest =>
      rw [sliceUtf16WordsLoop, hadd]
      rfl

/-- Without them the end lies before the offset, where no start is set yet. -/
theorem sliceUtf16WordsLoop_wrapped
    (hstop : 2 ^ 64 ≤ utf16Offset.toNat + utf16Length.toNat)
    (hfits : utf16Pos.toNat + (encode rest).length < 2 ^ 64)
    (hstart : byteStart = none ∨ (utf16Offset + utf16Length).toNat < utf16Pos.toNat) :
    sliceUtf16WordsLoop false text utf16Offset utf16Length rest byteIdx utf16Pos byteStart =
      .ok none := by
  have hbelow := toNat_add_of_le hstop
  have hadd : addUsize false utf16Offset utf16Length = .ok (utf16Offset + utf16Length) := rfl
  have hnone : ∀ {start : Option Nat} {pos : UInt64},
      (start = none ∨ (utf16Offset + utf16Length).toNat < pos.toNat) →
      pos = utf16Offset + utf16Length → start = none := by
    rintro start pos hstart rfl
    exact hstart.resolve_right (Nat.lt_irrefl _)
  induction rest generalizing byteIdx utf16Pos byteStart with
  | nil =>
      rw [sliceUtf16WordsLoop, hadd]
      show (if utf16Pos = utf16Offset + utf16Length then _ else _) = _
      split
      · rename_i hat
        rw [hnone hstart hat]
        rfl
      · rfl
  | cons c rest ih =>
      obtain ⟨next, hnextadd, hnext, hrest⟩ := exists_addUsize_lenUtf16 hfits false
      have hc : 0 < lenUtf16 c := by
        rw [lenUtf16_eq]
        exact length_encodeChar_pos c
      rw [sliceUtf16WordsLoop, hadd, hnextadd]
      show (if utf16Pos = utf16Offset + utf16Length then _ else
        sliceUtf16WordsLoop false text utf16Offset utf16Length rest _ next _) = _
      split
      · rename_i hat
        have hoffset : ¬utf16Pos = utf16Offset := by
          rintro rfl
          rw [← hat] at hbelow
          exact Nat.lt_irrefl _ hbelow
        rw [if_neg hoffset, hnone hstart hat]
        rfl
      · apply ih hrest
        split
        · rename_i hoffset
          rw [hoffset] at hnext
          exact .inr (by omega)
        · rcases hstart with hstart | hstart
          · exact .inl hstart
          · exact .inr (by omega)

end Words

/-! ### Every call -/

section Calls

variable {text : Str} {utf16Offset utf16Length : UInt64}

/-- The units of a `str` can be counted in `usize`. -/
theorem Str.length_encode_lt (text : Str) : (encode text.chars).length < 2 ^ 64 := by
  have hunits := length_encode_le text.chars
  have hbytes := text.bytes_lt
  omega

/-- Where the sum fits, the call returns the slice at the natural numbers. -/
theorem sliceUtf16Words_of_fits (hstop : utf16Offset.toNat + utf16Length.toNat < 2 ^ 64)
    (overflowChecks : Bool) :
    sliceUtf16Words overflowChecks text utf16Offset utf16Length =
      .ok (sliceUtf16 text.chars utf16Offset.toNat utf16Length.toNat) := by
  have hfits : (0 : UInt64).toNat + (encode text.chars).length < 2 ^ 64 := by
    rw [UInt64.toNat_zero, Nat.zero_add]
    exact text.length_encode_lt
  have hslice : sliceUtf16Loop text.chars utf16Offset.toNat utf16Length.toNat text.chars 0 0
      none = some (sliceUtf16 text.chars utf16Offset.toNat utf16Length.toNat) := by
    rw [sliceUtf16, Option.some_get]
  rw [sliceUtf16Words, sliceUtf16WordsLoop_of_fits hstop hfits, UInt64.toNat_zero, hslice]
  rfl

/-- Where it does not, the call panics or returns nothing. -/
theorem sliceUtf16Words_of_overflow
    (hstop : 2 ^ 64 ≤ utf16Offset.toNat + utf16Length.toNat) (overflowChecks : Bool) :
    sliceUtf16Words overflowChecks text utf16Offset utf16Length =
      if overflowChecks then .error .overflow else .ok none := by
  rw [sliceUtf16Words]
  cases overflowChecks with
  | true => exact sliceUtf16WordsLoop_checked hstop
  | false =>
      apply sliceUtf16WordsLoop_wrapped hstop _ (.inl rfl)
      rw [UInt64.toNat_zero, Nat.zero_add]
      exact text.length_encode_lt

/-- **A call panics** at a sum only, and only with overflow checks. -/
theorem sliceUtf16Words_eq_error_iff {overflowChecks : Bool} {p : SlicePanic} :
    sliceUtf16Words overflowChecks text utf16Offset utf16Length = .error p ↔
      p = .overflow ∧ overflowChecks = true ∧
        2 ^ 64 ≤ utf16Offset.toNat + utf16Length.toNat := by
  by_cases hstop : utf16Offset.toNat + utf16Length.toNat < 2 ^ 64
  · rw [sliceUtf16Words_of_fits hstop]
    constructor
    · intro h
      cases h
    · rintro ⟨_, _, hle⟩
      omega
  · have hle : 2 ^ 64 ≤ utf16Offset.toNat + utf16Length.toNat := Nat.le_of_not_lt hstop
    rw [sliceUtf16Words_of_overflow hle]
    cases overflowChecks with
    | true =>
        constructor
        · intro h
          cases h
          exact ⟨rfl, rfl, hle⟩
        · rintro ⟨rfl, _, _⟩
          rfl
    | false => simp

/-- What a call returns is the part of the text at these units. -/
theorem sliceUtf16Words_eq_some_iff {s : List Char} (hlength : 1 ≤ utf16Length)
    (overflowChecks : Bool) :
    sliceUtf16Words overflowChecks text utf16Offset utf16Length = .ok (some s) ↔
      IsPart text.chars utf16Offset.toNat utf16Length.toNat s := by
  by_cases hstop : utf16Offset.toNat + utf16Length.toNat < 2 ^ 64
  · have hone : 1 ≤ utf16Length.toNat := UInt64.le_iff_toNat_le.mp hlength
    rw [sliceUtf16Words_of_fits hstop, ← sliceUtf16_eq_some_iff hone]
    constructor
    · exact Except.ok.inj
    · exact congrArg Except.ok
  · have hle : 2 ^ 64 ≤ utf16Offset.toNat + utf16Length.toNat := Nat.le_of_not_lt hstop
    rw [sliceUtf16Words_of_overflow hle]
    constructor
    · intro h
      cases overflowChecks <;> cases h
    · intro h
      have hinside := h.aligned.inside
      have hunits := text.length_encode_lt
      omega

end Calls

/-- **Slicing by UTF-16 units**: with a length of at least one unit, a call returns a part of
    the text exactly when these units lie inside the text between two boundaries, and it is
    the part that they encode; no call panics at a byte index. -/
theorem sliceUtf16Words_exact (overflowChecks : Bool) (text : Str)
    (utf16Offset utf16Length : UInt64) (hlength : 1 ≤ utf16Length) :
    ((∃ s, sliceUtf16Words overflowChecks text utf16Offset utf16Length = .ok (some s)) ↔
      Aligned text.chars utf16Offset.toNat utf16Length.toNat) ∧
    (∀ s, sliceUtf16Words overflowChecks text utf16Offset utf16Length = .ok (some s) ↔
      Aligned text.chars utf16Offset.toNat utf16Length.toNat ∧
        encode s = units text.chars utf16Offset.toNat utf16Length.toNat) ∧
    sliceUtf16Words overflowChecks text utf16Offset utf16Length ≠ .error .byteIndex := by
  refine ⟨?_, ?_, ?_⟩
  · constructor
    · rintro ⟨s, hs⟩
      exact ((sliceUtf16Words_eq_some_iff hlength overflowChecks).mp hs).aligned
    · intro haligned
      obtain ⟨s, hs⟩ := haligned.exists_isPart
      exact ⟨s, (sliceUtf16Words_eq_some_iff hlength overflowChecks).mpr hs⟩
  · intro s
    rw [sliceUtf16Words_eq_some_iff hlength, isPart_iff]
  · intro h
    have hpanic := (sliceUtf16Words_eq_error_iff.mp h).1
    cases hpanic

/-- A hand waves before the name. -/
def wave : Str := ⟨"👋 @mybot".toList, by decide⟩

/-- The name behind a character of two units. -/
theorem sliceUtf16Words_wave :
    1 ≤ (6 : UInt64) ∧
      sliceUtf16Words true wave 3 6 = .ok (some "@mybot".toList) := by
  refine ⟨by decide, ?_⟩
  have hexact := (sliceUtf16Words_exact true wave 3 6 (by decide)).2.1 "@mybot".toList
  apply hexact.mpr
  refine ⟨⟨by decide, by decide, by decide⟩, by decide⟩

end Anyclaw
