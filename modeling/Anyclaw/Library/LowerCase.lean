import Mathlib.Data.List.Infix

/-!
# Lower case

Unicode text in lower case, character by character: a character may become several, and only
a sigma looks at what stands around it.  The tables are parameters; what is known of them
concerns the ASCII characters, which arise from themselves, from capitals, from the Kelvin
sign and from the dotted capital I, and from nothing else.
-/

namespace LowerCase

/-- The Kelvin sign, which becomes `k`. -/
def KELVIN : Char := '\u212A'

/-- The dotted capital I, which becomes `i` with a combining dot. -/
def DOTTED_I : Char := '\u0130'

structure Tables where
  /-- The lower case of a character on its own. -/
  lower : Char → List Char
  /-- Whether a sigma between two texts ends a word. -/
  finalSigma : List Char → List Char → Bool

/-- What the tables say of ASCII characters. -/
structure Tables.Standard (T : Tables) : Prop where
  ascii : ∀ c, c.toNat < 128 → T.lower c = [c.toLower]
  kelvin : T.lower KELVIN = ['k']
  dotted : T.lower DOTTED_I = ['i', '\u0307']
  other : ∀ c, 128 ≤ c.toNat → c ≠ KELVIN → c ≠ DOTTED_I →
    T.lower c ≠ [] ∧ ∀ d ∈ T.lower c, 128 ≤ d.toNat

variable (T : Tables)

def lowerAt (before : List Char) (c : Char) (after : List Char) : List Char :=
  if c = 'Σ' then [if T.finalSigma before after then 'ς' else 'σ'] else T.lower c

/-- The lower case of a text that stands behind another one. -/
def lowerFrom : List Char → List Char → List Char
  | _, [] => []
  | before, c :: after => lowerAt T before c after ++ lowerFrom (before ++ [c]) after

def toLowercase (s : String) : String := String.ofList (lowerFrom T [] s.toList)

variable {T} {before after cs name : List Char} {c : Char}

/-! ### ASCII characters -/

theorem toNat_toLower (c : Char) :
    c.toLower.toNat = if 65 ≤ c.toNat ∧ c.toNat ≤ 90 then c.toNat + 32 else c.toNat := by
  delta Char.toLower
  split
  · rename_i h
    have hlow : 65 ≤ c.toNat := h.1
    have hhigh : c.toNat ≤ 90 := h.2
    rw [if_pos ⟨hlow, hhigh⟩]
    change (c.val + 32).toNat = c.val.toNat + 32
    rw [UInt32.toNat_add]
    exact Nat.mod_eq_of_lt (by change c.toNat + 32 < _; omega)
  · rename_i h
    rw [if_neg]
    intro hcapital
    exact h ⟨hcapital.1, hcapital.2⟩

theorem lowerAt_ascii (hT : T.Standard) (h : c.toNat < 128) (before after : List Char) :
    lowerAt T before c after = [c.toLower] := by
  rw [lowerAt, if_neg, hT.ascii c h]
  rintro rfl
  exact absurd h (by decide)

/-- A character that is neither ASCII nor like an ASCII letter stays outside ASCII. -/
theorem lowerAt_other (hT : T.Standard) (h : 128 ≤ c.toNat) (hk : c ≠ KELVIN)
    (hi : c ≠ DOTTED_I) (before after : List Char) :
    lowerAt T before c after ≠ [] ∧ ∀ d ∈ lowerAt T before c after, 128 ≤ d.toNat := by
  rw [lowerAt]
  split
  · constructor
    · exact List.cons_ne_nil _ _
    · intro d hd
      rw [List.mem_singleton.mp hd]
      split
      · decide
      · decide
  · exact hT.other c h hk hi

theorem lowerFrom_ascii (hT : T.Standard) (h : ∀ c ∈ cs, c.toNat < 128) (before : List Char) :
    lowerFrom T before cs = cs.map Char.toLower := by
  induction cs generalizing before with
  | nil => rfl
  | cons c cs ih =>
      rw [lowerFrom, lowerAt_ascii hT (h c (List.mem_cons_self ..)), ih]
      · rfl
      · intro d hd
        exact h d (List.mem_cons_of_mem c hd)

/-! ### Words in lower case -/

/-- Whether the lower case of a text begins with an ASCII word in lower case. -/
def spells : List Char → List Char → Bool
  | [], _ => true
  | _ :: _, [] => false
  | n :: name, c :: cs =>
      if c.toNat < 128 then c.toLower == n && spells name cs
      else if c = KELVIN then n == 'k' && spells name cs
      else c = DOTTED_I && n == 'i' && name.isEmpty

theorem spells_iff (hT : T.Standard) (hname : ∀ n ∈ name, n.toNat < 128) (before : List Char) :
    name <+: lowerFrom T before cs ↔ spells name cs = true := by
  induction name generalizing cs before with
  | nil => simp [spells]
  | cons n name ih =>
      have hn : n.toNat < 128 := hname n (List.mem_cons_self ..)
      have hrest : ∀ m ∈ name, m.toNat < 128 := fun m hm => hname m (List.mem_cons_of_mem n hm)
      cases cs with
      | nil => simp [spells, lowerFrom]
      | cons c cs =>
          rw [lowerFrom, spells]
          by_cases hc : c.toNat < 128
          · rw [lowerAt_ascii hT hc, if_pos hc, List.singleton_append, List.cons_prefix_cons,
              ih hrest, Bool.and_eq_true, beq_iff_eq, @eq_comm _ n]
          · rw [if_neg hc]
            by_cases hk : c = KELVIN
            · have hlower : lowerAt T before c cs = ['k'] := by
                rw [hk, lowerAt, if_neg (by decide), hT.kelvin]
              rw [if_pos hk, hlower, List.singleton_append, List.cons_prefix_cons, ih hrest,
                Bool.and_eq_true, beq_iff_eq]
            · rw [if_neg hk]
              by_cases hi : c = DOTTED_I
              · -- only the end of the word fits, because the dot is not ASCII
                have hlower : lowerAt T before c cs = ['i', '\u0307'] := by
                  rw [hi, lowerAt, if_neg (by decide), hT.dotted]
                rw [hlower]
                cases name with
                | nil => simp [hi, List.cons_prefix_cons]
                | cons m name =>
                    have hm : m ≠ '\u0307' := by
                      rintro rfl
                      exact absurd (hrest _ (List.mem_cons_self ..)) (by decide)
                    constructor
                    · intro h
                      obtain ⟨_, h⟩ := List.cons_prefix_cons.mp h
                      exact absurd (List.cons_prefix_cons.mp h).1 hm
                    · intro h
                      rw [List.isEmpty_cons, Bool.and_false] at h
                      cases h
              · obtain ⟨hne, hother⟩ := lowerAt_other hT (Nat.le_of_not_lt hc) hk hi before cs
                obtain ⟨d, ds, hds⟩ := List.exists_cons_of_ne_nil hne
                have hd : n ≠ d := by
                  rintro rfl
                  have hge := hother n (by rw [hds]; exact List.mem_cons_self ..)
                  omega
                rw [hds]
                constructor
                · intro h
                  exact absurd (List.cons_prefix_cons.mp h).1 hd
                · intro h
                  simp only [hi, decide_false, Bool.false_and] at h
                  cases h

theorem spells_append_right (h : spells name cs = true) (ds : List Char) :
    spells name (cs ++ ds) = true := by
  induction name generalizing cs with
  | nil => rfl
  | cons n name ih =>
      cases cs with
      | nil => cases h
      | cons c cs =>
          rw [spells] at h
          rw [List.cons_append, spells]
          split
          · rename_i hc
            rw [if_pos hc, Bool.and_eq_true] at h
            rw [h.1, ih h.2]
            rfl
          · rename_i hc
            rw [if_neg hc] at h
            split
            · rename_i hk
              rw [if_pos hk, Bool.and_eq_true] at h
              rw [h.1, ih h.2]
              rfl
            · rename_i hk
              rw [if_neg hk] at h
              exact h

/-- A text in ASCII spells itself, whatever follows. -/
theorem spells_append (h : ∀ c ∈ cs, c.toNat < 128) (after : List Char) :
    spells (cs.map Char.toLower) (cs ++ after) = true := by
  induction cs with
  | nil => rfl
  | cons c cs ih =>
      rw [List.map_cons, List.cons_append, spells, if_pos (h c (List.mem_cons_self ..)), ih]
      · simp
      · intro d hd
        exact h d (List.mem_cons_of_mem c hd)

/-! ### Marked words -/

/-- A mark, which is no letter, in the lower case of a character is the character. -/
theorem mem_lowerAt_mark {mark : Char} (hT : T.Standard) (hmark : mark.toNat < 65)
    (h : mark ∈ lowerAt T before c after) : c = mark := by
  by_cases hc : c.toNat < 128
  · rw [lowerAt_ascii hT hc, List.mem_singleton] at h
    have hnat : mark.toNat = c.toLower.toNat := by rw [h]
    rw [toNat_toLower] at hnat
    split at hnat
    · omega
    · exact Char.toNat_inj.mp hnat.symm
  · by_cases hk : c = KELVIN
    · rw [hk, lowerAt, if_neg (by decide), hT.kelvin, List.mem_singleton] at h
      rw [h] at hmark
      exact absurd hmark (by decide)
    · by_cases hi : c = DOTTED_I
      · rw [hi, lowerAt, if_neg (by decide), hT.dotted] at h
        rcases List.mem_cons.mp h with h | h
        · rw [h] at hmark
          exact absurd hmark (by decide)
        · rw [List.mem_singleton.mp h] at hmark
          exact absurd hmark (by decide)
      · have hge := (lowerAt_other hT (Nat.le_of_not_lt hc) hk hi before after).2 mark h
        omega

theorem lowerAt_mark {mark : Char} (hT : T.Standard) (hmark : mark.toNat < 65) :
    lowerAt T before mark after = [mark] := by
  have hlower : mark.toLower = mark := by
    apply Char.toNat_inj.mp
    rw [toNat_toLower, if_neg (by omega)]
  rw [lowerAt_ascii hT (by omega), hlower]

theorem infix_append_iff_of_not_mem {mark : Char} {l ds : List Char} (h : mark ∉ l) :
    mark :: name <:+: l ++ ds ↔ mark :: name <:+: ds := by
  induction l with
  | nil => rfl
  | cons d l ih =>
      obtain ⟨hd, hl⟩ : mark ≠ d ∧ mark ∉ l := by simpa using h
      rw [List.cons_append, List.infix_cons_iff, ih hl, List.cons_prefix_cons]
      simp [hd]

/-- **A marked word in the lower case of a text** is spelled behind a mark of the text. -/
theorem infix_lowerFrom_iff {mark : Char} (hT : T.Standard) (hmark : mark.toNat < 65)
    (hname : ∀ n ∈ name, n.toNat < 128) (before : List Char) :
    mark :: name <:+: lowerFrom T before cs ↔
      ∃ a r, cs = a ++ mark :: r ∧ spells name r = true := by
  induction cs generalizing before with
  | nil => simp [lowerFrom]
  | cons c cs ih =>
      rw [lowerFrom]
      by_cases hc : c = mark
      · subst hc
        rw [lowerAt_mark hT hmark, List.singleton_append, List.infix_cons_iff,
          List.cons_prefix_cons, spells_iff hT hname, ih]
        constructor
        · rintro (⟨_, h⟩ | ⟨a, r, rfl, h⟩)
          · exact ⟨[], cs, rfl, h⟩
          · exact ⟨c :: a, r, rfl, h⟩
        · rintro ⟨a, r, heq, h⟩
          cases a with
          | nil =>
              cases heq
              exact .inl ⟨rfl, h⟩
          | cons d a =>
              cases heq
              exact .inr ⟨a, r, rfl, h⟩
      · have hnot : mark ∉ lowerAt T before c cs := by
          intro h
          exact hc (mem_lowerAt_mark hT hmark h)
        rw [infix_append_iff_of_not_mem hnot, ih]
        constructor
        · rintro ⟨a, r, rfl, h⟩
          exact ⟨c :: a, r, rfl, h⟩
        · rintro ⟨a, r, heq, h⟩
          cases a with
          | nil =>
              cases heq
              exact absurd rfl hc
          | cons d a =>
              cases heq
              exact ⟨a, r, rfl, h⟩

end LowerCase
