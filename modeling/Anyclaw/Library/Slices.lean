import Mathlib.Algebra.Order.Ring.Nat
import Mathlib.Data.List.Basic

/-!
# Slices of UTF-8 text

Text as its characters, cut at byte offsets.  An offset is a character boundary when a
prefix has exactly that many bytes; a slice at any other offset does not exist, which is
where an implementation panics.
-/

namespace Slices

/-- `char::is_whitespace`. -/
def isWhitespace (c : Char) : Bool :=
  (9 ≤ c.toNat && c.toNat ≤ 13) || c.toNat == 32 || c.toNat == 0x85 || c.toNat == 0xA0 ||
    c.toNat == 0x1680 || (0x2000 ≤ c.toNat && c.toNat ≤ 0x200A) || c.toNat == 0x2028 ||
    c.toNat == 0x2029 || c.toNat == 0x202F || c.toNat == 0x205F || c.toNat == 0x3000

/-- `char::is_ascii_alphanumeric`, by code points. -/
theorem isAlphanum_iff {c : Char} :
    c.isAlphanum = true ↔
      (65 ≤ c.toNat ∧ c.toNat ≤ 90) ∨ (97 ≤ c.toNat ∧ c.toNat ≤ 122) ∨
        48 ≤ c.toNat ∧ c.toNat ≤ 57 := by
  change ((decide (65 ≤ c.val ∧ c.val ≤ 90) || (decide (97 ≤ c.val) && decide (c.val ≤ 122))) ||
    (decide (48 ≤ c.val) && decide (c.val ≤ 57))) = true ↔ _
  simp only [Bool.or_eq_true, Bool.and_eq_true, decide_eq_true_eq, or_assoc]
  rfl

/-! ### Cutting -/

def byteLen (cs : List Char) : Nat := (cs.map Char.utf8Size).sum

/-- The text before an offset and the text from it on. -/
def splitAtByte : List Char → Nat → Option (List Char × List Char)
  | cs, 0 => some ([], cs)
  | [], _ + 1 => none
  | c :: cs, b + 1 =>
      if c.utf8Size ≤ b + 1 then
        (splitAtByte cs (b + 1 - c.utf8Size)).map fun p => (c :: p.1, p.2)
      else none

def isCharBoundary (cs : List Char) (b : Nat) : Bool := (splitAtByte cs b).isSome

@[simp] theorem byteLen_nil : byteLen [] = 0 := rfl

@[simp] theorem byteLen_cons (c : Char) (cs : List Char) :
    byteLen (c :: cs) = c.utf8Size + byteLen cs := by
  simp [byteLen]

@[simp] theorem byteLen_append (cs ds : List Char) :
    byteLen (cs ++ ds) = byteLen cs + byteLen ds := by
  simp [byteLen]

/-- What a cut gives back is the text, cut where it was asked for. -/
theorem of_splitAtByte {cs a r : List Char} {b : Nat} (h : splitAtByte cs b = some (a, r)) :
    cs = a ++ r ∧ byteLen a = b := by
  induction cs generalizing a b with
  | nil =>
      cases b with
      | zero =>
          rw [splitAtByte] at h
          cases h
          exact ⟨rfl, rfl⟩
      | succ b =>
          rw [splitAtByte] at h
          exact absurd h (by simp)
  | cons c cs ih =>
      cases b with
      | zero =>
          rw [splitAtByte] at h
          cases h
          exact ⟨rfl, rfl⟩
      | succ b =>
          rw [splitAtByte] at h
          split at h
          · rename_i hle
            obtain ⟨⟨a', r'⟩, hcut, heq⟩ := Option.map_eq_some_iff.mp h
            cases heq
            obtain ⟨happ, hlen⟩ := ih hcut
            refine ⟨by rw [happ]; rfl, ?_⟩
            rw [byteLen_cons, hlen]
            omega
          · exact absurd h (by simp)

/-- A text can be cut after each of its prefixes. -/
theorem splitAtByte_append (a r : List Char) : splitAtByte (a ++ r) (byteLen a) = some (a, r) := by
  induction a with
  | nil =>
      rw [List.nil_append, byteLen_nil]
      cases r <;> rfl
  | cons c a ih =>
      have hc := c.utf8Size_pos
      obtain ⟨b, hb⟩ : ∃ b, byteLen (c :: a) = b + 1 :=
        ⟨byteLen (c :: a) - 1, by rw [byteLen_cons]; omega⟩
      rw [hb, List.cons_append, splitAtByte]
      rw [byteLen_cons] at hb
      have hrest : b + 1 - c.utf8Size = byteLen a := by omega
      rw [if_pos (by omega), hrest, ih]
      rfl

def slice (cs : List Char) (start stop : Nat) : Option (List Char) :=
  (splitAtByte cs stop).bind fun p => (splitAtByte p.1 start).map Prod.snd

theorem slice_append (a m r : List Char) :
    slice (a ++ m ++ r) (byteLen a) (byteLen (a ++ m)) = some m := by
  rw [slice, splitAtByte_append, Option.bind_some, splitAtByte_append]
  rfl

theorem infix_of_slice {cs m : List Char} {start stop : Nat} (h : slice cs start stop = some m) :
    m <:+: cs := by
  obtain ⟨⟨a, r⟩, hcut, h⟩ := Option.bind_eq_some_iff.mp h
  obtain ⟨⟨b, m'⟩, hcut', rfl⟩ := Option.map_eq_some_iff.mp h
  have hinner : a = b ++ m' := (of_splitAtByte hcut').1
  refine ⟨b, r, ?_⟩
  rw [(of_splitAtByte hcut).1, hinner]

theorem exists_of_isCharBoundary {cs : List Char} {b : Nat} (h : isCharBoundary cs b = true) :
    ∃ a r, cs = a ++ r ∧ byteLen a = b := by
  obtain ⟨⟨a, r⟩, hcut⟩ := Option.isSome_iff_exists.mp h
  exact ⟨a, r, of_splitAtByte hcut⟩

/-- The last boundary that is not after the offset. -/
def floorBoundary (cs : List Char) : Nat → Nat
  | 0 => 0
  | b + 1 => if isCharBoundary cs (b + 1) then b + 1 else floorBoundary cs b

theorem floorBoundary_spec (cs : List Char) (b : Nat) :
    ∃ a r, cs = a ++ r ∧ byteLen a = floorBoundary cs b := by
  induction b with
  | zero => exact ⟨[], cs, rfl, rfl⟩
  | succ b ih =>
      rw [floorBoundary]
      split
      · rename_i hb
        exact exists_of_isCharBoundary hb
      · exact ih

theorem le_floorBoundary {cs a r : List Char} {b : Nat} (happ : cs = a ++ r)
    (h : byteLen a ≤ b) : byteLen a ≤ floorBoundary cs b := by
  induction b with
  | zero => exact h
  | succ b ih =>
      rw [floorBoundary]
      split
      · exact h
      · rename_i hnot
        apply ih
        apply Nat.le_of_lt_succ
        apply Nat.lt_of_le_of_ne h
        intro heq
        apply hnot
        rw [isCharBoundary, ← heq, happ, splitAtByte_append]
        rfl

/-- Every offset that leaves room for one character has a boundary before it. -/
theorem floorBoundary_pos {cs : List Char} {b : Nat} (hne : cs ≠ []) (hb : 4 ≤ b) :
    0 < floorBoundary cs b := by
  cases cs with
  | nil => exact absurd rfl hne
  | cons c cs =>
      have hc := c.utf8Size_pos
      have hfour := c.utf8Size_le_four
      have hfirst : byteLen [c] ≤ floorBoundary (c :: cs) b := by
        apply le_floorBoundary (r := cs) rfl
        rw [byteLen_cons, byteLen_nil]
        omega
      rw [byteLen_cons, byteLen_nil] at hfirst
      omega

/-! ### Searching -/

def find (pat : List Char) : List Char → Option Nat
  | [] => none
  | c :: cs =>
      if pat.isPrefixOf (c :: cs) then some 0 else (find pat cs).map (c.utf8Size + ·)

/-- The offset of the last occurrence of a pattern. -/
def rfind (pat : List Char) : List Char → Option Nat
  | [] => none
  | c :: cs =>
      match rfind pat cs with
      | some p => some (c.utf8Size + p)
      | none => if pat.isPrefixOf (c :: cs) then some 0 else none

/-- The number of occurrences of a pattern that cannot overlap itself. -/
def countMatches (pat : List Char) : List Char → Nat
  | [] => 0
  | c :: cs => (if pat.isPrefixOf (c :: cs) then 1 else 0) + countMatches pat cs

theorem of_find {pat cs : List Char} {p : Nat} (h : find pat cs = some p) :
    ∃ a r, cs = a ++ (pat ++ r) ∧ byteLen a = p := by
  induction cs generalizing p with
  | nil => exact absurd h (by simp [find])
  | cons c cs ih =>
      rw [find] at h
      split at h
      · rename_i hpre
        obtain ⟨r, hr⟩ := List.isPrefixOf_iff_prefix.mp hpre
        cases h
        exact ⟨[], r, hr.symm, rfl⟩
      · obtain ⟨q, hq, rfl⟩ := Option.map_eq_some_iff.mp h
        obtain ⟨a, r, happ, hlen⟩ := ih hq
        refine ⟨c :: a, r, by rw [happ]; rfl, ?_⟩
        rw [byteLen_cons, hlen]

theorem of_rfind {pat cs : List Char} {p : Nat} (h : rfind pat cs = some p) :
    ∃ a r, cs = a ++ (pat ++ r) ∧ byteLen a = p := by
  induction cs generalizing p with
  | nil => exact absurd h (by simp [rfind])
  | cons c cs ih =>
      rw [rfind] at h
      split at h
      · rename_i q hq
        cases h
        obtain ⟨a, r, happ, hlen⟩ := ih hq
        refine ⟨c :: a, r, by rw [happ]; rfl, ?_⟩
        rw [byteLen_cons, hlen]
      · split at h
        · rename_i hpre
          obtain ⟨r, hr⟩ := List.isPrefixOf_iff_prefix.mp hpre
          cases h
          exact ⟨[], r, hr.symm, rfl⟩
        · cases h

/-- The text can be cut behind the last occurrence of a pattern. -/
theorem splitAtByte_rfind {pat cs : List Char} {p : Nat} (h : rfind pat cs = some p) :
    ∃ a r, cs = (a ++ pat) ++ r ∧ byteLen (a ++ pat) = p + byteLen pat := by
  obtain ⟨a, r, happ, hlen⟩ := of_rfind h
  refine ⟨a, r, by rw [happ, List.append_assoc], ?_⟩
  rw [byteLen_append, hlen]

/-! ### What is found -/

/-- The longest prefix of at most so many bytes. -/
structure IsLongestWithin (limit : Nat) (cs v : List Char) : Prop where
  pre : v <+: cs
  fits : byteLen v ≤ limit
  longest : ∀ v', v' <+: cs → byteLen v' ≤ limit → v' <+: v

/-- The prefix that ends with the first occurrence of a pattern. -/
structure EndsWithFirst (pat cs w : List Char) : Prop where
  pre : w <+: cs
  ends : pat <:+ w
  first : ∀ w', w' <+: cs → pat <:+ w' → w <+: w'

/-- The prefix that ends with the last occurrence of a pattern. -/
structure EndsWithLast (pat cs w : List Char) : Prop where
  pre : w <+: cs
  ends : pat <:+ w
  last : ∀ w', w' <+: cs → pat <:+ w' → w' <+: w

section Found

variable {pat cs v v' w w' : List Char} {limit p : Nat}

theorem eq_of_prefixes (h : v <+: w) (h' : w <+: v) : v = w :=
  h.eq_of_length (Nat.le_antisymm h.length_le h'.length_le)

theorem IsLongestWithin.unique (h : IsLongestWithin limit cs v) (h' : IsLongestWithin limit cs v') :
    v = v' :=
  eq_of_prefixes (h'.longest v h.pre h.fits) (h.longest v' h'.pre h'.fits)

theorem EndsWithFirst.unique (h : EndsWithFirst pat cs w) (h' : EndsWithFirst pat cs w') :
    w = w' :=
  eq_of_prefixes (h.first w' h'.pre h'.ends) (h'.first w h.pre h.ends)

theorem EndsWithLast.unique (h : EndsWithLast pat cs w) (h' : EndsWithLast pat cs w') :
    w = w' :=
  eq_of_prefixes (h'.last w h.pre h.ends) (h.last w' h'.pre h'.ends)

theorem EndsWithFirst.occurs (h : EndsWithFirst pat cs w) : pat <:+: cs :=
  h.ends.isInfix.trans h.pre.isInfix

theorem EndsWithLast.occurs (h : EndsWithLast pat cs w) : pat <:+: cs :=
  h.ends.isInfix.trans h.pre.isInfix

theorem byteLen_le_of_prefix (h : v <+: w) : byteLen v ≤ byteLen w := by
  obtain ⟨r, rfl⟩ := h
  rw [byteLen_append]
  exact Nat.le_add_right _ _

theorem length_le_byteLen (cs : List Char) : cs.length ≤ byteLen cs := by
  induction cs with
  | nil => exact Nat.le_refl 0
  | cons c cs ih =>
      have hc := c.utf8Size_pos
      rw [List.length_cons, byteLen_cons]
      omega

theorem floorBoundary_le (cs : List Char) (b : Nat) : floorBoundary cs b ≤ b := by
  induction b with
  | zero => exact Nat.le_refl 0
  | succ b ih =>
      rw [floorBoundary]
      split
      · exact Nat.le_refl _
      · exact Nat.le_succ_of_le ih

theorem isLongestWithin_floorBoundary (cs : List Char) (limit : Nat) :
    ∃ v r, cs = v ++ r ∧ byteLen v = floorBoundary cs limit ∧ IsLongestWithin limit cs v := by
  obtain ⟨v, r, happ, hlen⟩ := floorBoundary_spec cs limit
  have hv : v <+: cs := ⟨r, happ.symm⟩
  refine ⟨v, r, happ, hlen, hv, by rw [hlen]; exact floorBoundary_le cs limit, ?_⟩
  intro v' hv' hfits
  obtain ⟨r', hr'⟩ := hv'
  have hle : byteLen v' ≤ byteLen v := by
    rw [hlen]
    exact le_floorBoundary hr'.symm hfits
  rcases List.prefix_or_prefix_of_prefix ⟨r', hr'⟩ hv with hpre | ⟨x, rfl⟩
  · exact hpre
  · rw [byteLen_append] at hle
    have hx := length_le_byteLen x
    have hnil : x = [] := List.length_eq_zero_iff.mp (by omega)
    subst hnil
    exact ⟨[], by simp⟩

theorem find_eq_none_iff (hpat : pat ≠ []) : find pat cs = none ↔ ¬pat <:+: cs := by
  induction cs with
  | nil => simp [find, hpat]
  | cons c cs ih =>
      rw [find, List.infix_cons_iff, not_or, ← ih, ← List.isPrefixOf_iff_prefix]
      split
      · rename_i hpre
        simp [hpre]
      · rename_i hpre
        simp [hpre]

theorem rfind_eq_none_iff (hpat : pat ≠ []) : rfind pat cs = none ↔ ¬pat <:+: cs := by
  induction cs with
  | nil => simp [rfind, hpat]
  | cons c cs ih =>
      rw [rfind, List.infix_cons_iff, not_or, ← ih, ← List.isPrefixOf_iff_prefix]
      split
      · rename_i q hq
        simp [hq]
      · rename_i hnone
        simp [hnone]

theorem endsWithFirst_find (hpat : pat ≠ []) (h : find pat cs = some p) :
    ∃ w r, cs = w ++ r ∧ byteLen w = p + byteLen pat ∧ EndsWithFirst pat cs w := by
  induction cs generalizing p with
  | nil => cases h
  | cons c cs ih =>
      rw [find] at h
      split at h
      · rename_i hpre
        obtain ⟨r, hr⟩ := List.isPrefixOf_iff_prefix.mp hpre
        cases h
        refine ⟨pat, r, hr.symm, (Nat.zero_add _).symm, ⟨r, hr⟩, List.suffix_rfl, ?_⟩
        intro w' hw' hends
        exact List.prefix_of_prefix_length_le ⟨r, hr⟩ hw' hends.length_le
      · rename_i hpre
        obtain ⟨q, hq, rfl⟩ := Option.map_eq_some_iff.mp h
        obtain ⟨w, r, rfl, hlen, hw⟩ := ih hq
        refine ⟨c :: w, r, rfl, by rw [byteLen_cons, hlen, Nat.add_assoc],
          List.prefix_append (c :: w) r, hw.ends.trans (List.suffix_cons c w), ?_⟩
        intro w' hw' hends
        cases w' with
        | nil => exact absurd (List.suffix_nil.mp hends) hpat
        | cons d w' =>
            obtain ⟨rfl, htail⟩ := List.cons_prefix_cons.mp hw'
            rw [List.cons_prefix_cons]
            refine ⟨rfl, ?_⟩
            rcases List.suffix_cons_iff.mp hends with rfl | hends
            · exact absurd (List.isPrefixOf_iff_prefix.mpr
                (List.cons_prefix_cons.mpr ⟨rfl, htail⟩)) hpre
            · exact hw.first w' htail hends

theorem endsWithLast_rfind (hpat : pat ≠ []) (h : rfind pat cs = some p) :
    ∃ w r, cs = w ++ r ∧ byteLen w = p + byteLen pat ∧ EndsWithLast pat cs w := by
  induction cs generalizing p with
  | nil => cases h
  | cons c cs ih =>
      rw [rfind] at h
      split at h
      · rename_i q hq
        cases h
        obtain ⟨w, r, rfl, hlen, hw⟩ := ih hq
        refine ⟨c :: w, r, rfl, by rw [byteLen_cons, hlen, Nat.add_assoc],
          List.prefix_append (c :: w) r, hw.ends.trans (List.suffix_cons c w), ?_⟩
        intro w' hw' hends
        have hlength : w'.length ≤ (c :: w).length := by
          cases w' with
          | nil => exact Nat.zero_le _
          | cons d w' =>
              obtain ⟨rfl, htail⟩ := List.cons_prefix_cons.mp hw'
              rcases List.suffix_cons_iff.mp hends with rfl | hends
              · exact Nat.le_trans hw.ends.length_le (Nat.le_succ _)
              · exact Nat.succ_le_succ (hw.last w' htail hends).length_le
        exact List.prefix_of_prefix_length_le hw' (List.prefix_append (c :: w) r) hlength
      · rename_i hnone
        split at h
        · rename_i hpre
          obtain ⟨r, hr⟩ := List.isPrefixOf_iff_prefix.mp hpre
          cases h
          refine ⟨pat, r, hr.symm, (Nat.zero_add _).symm, ⟨r, hr⟩, List.suffix_rfl, ?_⟩
          intro w' hw' hends
          cases w' with
          | nil => exact List.nil_prefix
          | cons d w' =>
              obtain ⟨rfl, htail⟩ := List.cons_prefix_cons.mp hw'
              rcases List.suffix_cons_iff.mp hends with rfl | hends
              · exact List.prefix_rfl
              · have hinfix := hends.isInfix.trans htail.isInfix
                exact absurd hinfix ((rfind_eq_none_iff hpat).mp hnone)
        · cases h

end Found

end Slices
