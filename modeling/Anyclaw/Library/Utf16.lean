import Anyclaw.Library.Slices
import Mathlib.Data.List.Infix

/-!
# UTF-16

The code units of a text: one for a character below U+10000, a surrogate pair for any other.
A position between units is a boundary when a beginning of the text has exactly that many
units.  A text is determined by its units, so units between two boundaries are those of one
part of the text and of no other text.
-/

namespace Utf16

open Slices

/-! ### Encoding -/

def encodeChar (c : Char) : List UInt16 :=
  if c.toNat < 0x10000 then [UInt16.ofNat c.toNat]
  else
    [UInt16.ofNat (0xD800 + (c.toNat - 0x10000) / 0x400),
      UInt16.ofNat (0xDC00 + (c.toNat - 0x10000) % 0x400)]

def encode (cs : List Char) : List UInt16 := cs.flatMap encodeChar

@[simp] theorem encode_nil : encode [] = [] := rfl

@[simp] theorem encode_cons (c : Char) (cs : List Char) :
    encode (c :: cs) = encodeChar c ++ encode cs := rfl

@[simp] theorem encode_append (a b : List Char) : encode (a ++ b) = encode a ++ encode b :=
  List.flatMap_append

theorem length_encodeChar (c : Char) :
    (encodeChar c).length = if c.toNat < 0x10000 then 1 else 2 := by
  rw [encodeChar]
  split <;> rfl

theorem length_encodeChar_pos (c : Char) : 0 < (encodeChar c).length := by
  rw [length_encodeChar]
  split <;> omega

/-- A character has no more units than bytes. -/
theorem length_encodeChar_le (c : Char) : (encodeChar c).length ≤ c.utf8Size := by
  have hpos := c.utf8Size_pos
  rw [length_encodeChar]
  split
  · exact hpos
  · rename_i hpair
    have hfour : c.utf8Size ≠ 1 := by
      intro hone
      have hle : c.toNat ≤ 127 := UInt32.le_iff_toNat_le.mp (Char.utf8Size_eq_one_iff.mp hone)
      omega
    omega

theorem length_encode_le (cs : List Char) : (encode cs).length ≤ byteLen cs := by
  induction cs with
  | nil => exact Nat.le_refl 0
  | cons c cs ih =>
      have hc := length_encodeChar_le c
      rw [encode_cons, List.length_append, byteLen_cons]
      omega

/-! ### Reading back -/

/-- No unit of a surrogate pair is a character. -/
theorem toNat_not_surrogate (c : Char) : c.toNat < 0xD800 ∨ 0xDFFF < c.toNat := by
  rcases c.valid with h | h
  · exact .inl h
  · exact .inr h.1

theorem toNat_lt (c : Char) : c.toNat < 0x110000 := by
  rcases c.valid with h | h
  · exact Nat.lt_trans h (by decide)
  · exact h.2

theorem eq_of_unit {m n : Nat} (h : UInt16.ofNat m = UInt16.ofNat n) (hm : m < 0x10000)
    (hn : n < 0x10000) : m = n := by
  have hnat := congrArg UInt16.toNat h
  rwa [UInt16.toNat_ofNat_of_lt' hm, UInt16.toNat_ofNat_of_lt' hn] at hnat

/-- The first character can be read off the units. -/
theorem encodeChar_append_inj {c d : Char} {x y : List UInt16}
    (h : encodeChar c ++ x = encodeChar d ++ y) : c = d ∧ x = y := by
  have hc := toNat_not_surrogate c
  have hd := toNat_not_surrogate d
  have hc' := toNat_lt c
  have hd' := toNat_lt d
  rw [encodeChar, encodeChar] at h
  by_cases hsingle : c.toNat < 0x10000
  · by_cases hsingle' : d.toNat < 0x10000
    · rw [if_pos hsingle, if_pos hsingle'] at h
      obtain ⟨hunit, hrest⟩ := List.cons.inj h
      exact ⟨Char.toNat_inj.mp (eq_of_unit hunit hsingle hsingle'), hrest⟩
    · rw [if_pos hsingle, if_neg hsingle'] at h
      have hunit := eq_of_unit (List.cons.inj h).1 hsingle (by omega)
      omega
  · by_cases hsingle' : d.toNat < 0x10000
    · rw [if_neg hsingle, if_pos hsingle'] at h
      have hunit := eq_of_unit (List.cons.inj h).1 (by omega) hsingle'
      omega
    · rw [if_neg hsingle, if_neg hsingle'] at h
      obtain ⟨hhigh, htail⟩ := List.cons.inj h
      obtain ⟨hlow, hrest⟩ := List.cons.inj htail
      have hdiv := eq_of_unit hhigh (by omega) (by omega)
      have hmod := eq_of_unit hlow (by omega) (by omega)
      exact ⟨Char.toNat_inj.mp (by omega), hrest⟩

/-- **A text is determined by its units.** -/
theorem encode_injective {a b : List Char} (h : encode a = encode b) : a = b := by
  induction a generalizing b with
  | nil =>
      cases b with
      | nil => rfl
      | cons d b =>
          have hlen := congrArg List.length h
          have hd := length_encodeChar_pos d
          rw [encode_nil, encode_cons, List.length_append, List.length_nil] at hlen
          omega
  | cons c a ih =>
      cases b with
      | nil =>
          have hlen := congrArg List.length h
          have hc := length_encodeChar_pos c
          rw [encode_nil, encode_cons, List.length_append, List.length_nil] at hlen
          omega
      | cons d b =>
          obtain ⟨rfl, hrest⟩ := encodeChar_append_inj h
          rw [ih hrest]

theorem eq_nil_of_length_encode {cs : List Char} (h : (encode cs).length = 0) : cs = [] :=
  encode_injective (List.length_eq_zero_iff.mp h)

/-! ### Parts of a text -/

/-- A position where the units of a character begin, or the end of the text. -/
def IsBoundary (cs : List Char) (n : Nat) : Prop := ∃ a, a <+: cs ∧ (encode a).length = n

instance (cs : List Char) (n : Nat) : Decidable (IsBoundary cs n) :=
  decidable_of_iff (∃ a ∈ cs.inits, (encode a).length = n) (by simp [IsBoundary])

/-- So many units from the offset on lie inside the text, between two boundaries. -/
structure Aligned (cs : List Char) (offset length : Nat) : Prop where
  inside : offset + length ≤ (encode cs).length
  begins : IsBoundary cs offset
  ends : IsBoundary cs (offset + length)

/-- The units from the offset on. -/
def units (cs : List Char) (offset length : Nat) : List UInt16 :=
  ((encode cs).drop offset).take length

structure IsPart (cs : List Char) (offset length : Nat) (s : List Char) : Prop where
  place : ∃ a b, cs = a ++ (s ++ b) ∧ (encode a).length = offset
  size : (encode s).length = length

section Parts

variable {cs s : List Char} {offset length : Nat}

theorem IsPart.aligned (h : IsPart cs offset length s) : Aligned cs offset length := by
  obtain ⟨⟨a, b, rfl, rfl⟩, rfl⟩ := h
  constructor
  · rw [encode_append, encode_append, List.length_append, List.length_append]
    omega
  · exact ⟨a, List.prefix_append a _, rfl⟩
  · refine ⟨a ++ s, ⟨b, List.append_assoc a s b⟩, ?_⟩
    rw [encode_append, List.length_append]

theorem IsPart.encode_eq (h : IsPart cs offset length s) : encode s = units cs offset length := by
  obtain ⟨⟨a, b, rfl, rfl⟩, rfl⟩ := h
  rw [units, encode_append, encode_append, List.drop_left, List.take_left]

/-- Between two boundaries there is a part of the text. -/
theorem Aligned.exists_isPart (h : Aligned cs offset length) :
    ∃ s, IsPart cs offset length s := by
  obtain ⟨a, ⟨r, rfl⟩, rfl⟩ := h.begins
  obtain ⟨p, hp, hlen⟩ := h.ends
  have ha : a <+: a ++ r := List.prefix_append a r
  rcases List.prefix_or_prefix_of_prefix ha hp with ⟨s, rfl⟩ | ⟨s, rfl⟩
  · obtain ⟨b, hb⟩ := hp
    refine ⟨s, ⟨⟨a, b, ?_, rfl⟩, ?_⟩⟩
    · rw [← hb, List.append_assoc]
    · rw [encode_append, List.length_append] at hlen
      omega
  · -- the end is not before the beginning, so nothing is between them
    rw [encode_append, List.length_append] at hlen
    have hnil : s = [] := eq_nil_of_length_encode (by omega)
    subst hnil
    refine ⟨[], ⟨⟨p ++ [], r, rfl, rfl⟩, ?_⟩⟩
    rw [encode_nil, List.length_nil]
    omega

/-- **The units between two boundaries** are those of a part of the text. -/
theorem isPart_iff :
    IsPart cs offset length s ↔
      Aligned cs offset length ∧ encode s = units cs offset length := by
  constructor
  · intro h
    exact ⟨h.aligned, h.encode_eq⟩
  · rintro ⟨haligned, hencode⟩
    obtain ⟨t, ht⟩ := haligned.exists_isPart
    have heq : s = t := encode_injective (hencode.trans ht.encode_eq.symm)
    rw [heq]
    exact ht

end Parts

end Utf16
