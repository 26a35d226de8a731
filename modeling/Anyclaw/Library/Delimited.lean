import Mathlib.Data.List.TakeWhile

/-!
# Texts between separators

A list is cut at the first occurrence of a separator: what is before it, and what is after
it.  When two lists are joined with the separator between them, the cut gives them back
exactly when the first one does not contain it.

A mark is a longer separator, whose first element does not occur again in it.  A text that
contains no mark ends at the first mark after it, so that two such texts with the same
continuation are the same.

An element that is found in a row of parts is found in one of the parts.
-/

namespace Delimited

variable {α : Type*} [DecidableEq α] {sep : α} {x y : List α}

def before (sep : α) (l : List α) : List α := l.takeWhile (· != sep)

def after (sep : α) (l : List α) : List α := (l.dropWhile (· != sep)).tail

def splitOnce (sep : α) (l : List α) : Option (List α × List α) :=
  if sep ∈ l then some (before sep l, after sep l) else none

theorem bne_of_not_mem (h : sep ∉ x) : ∀ a ∈ x, (a != sep) = true := by
  intro a ha
  have hne : a ≠ sep := fun heq => h (heq ▸ ha)
  simpa using hne

theorem takeWhile_join (h : sep ∉ x) : (x ++ sep :: y).takeWhile (· != sep) = x := by
  rw [List.takeWhile_append_of_pos (bne_of_not_mem h)]
  simp

theorem dropWhile_join (h : sep ∉ x) : (x ++ sep :: y).dropWhile (· != sep) = sep :: y := by
  rw [List.dropWhile_append_of_pos (bne_of_not_mem h)]
  simp

theorem not_mem_before (sep : α) (l : List α) : sep ∉ before sep l := by
  intro hmem
  have hne := List.mem_takeWhile_imp hmem
  simp at hne

/-- The first part is what is before the separator exactly when it does not contain it. -/
theorem before_join_iff : before sep (x ++ sep :: y) = x ↔ sep ∉ x := by
  constructor
  · intro hbefore
    rw [← hbefore]
    exact not_mem_before sep _
  · exact takeWhile_join

theorem after_join (h : sep ∉ x) : after sep (x ++ sep :: y) = y := by
  rw [after, dropWhile_join h, List.tail_cons]

/-- A separator in the first part is found before the one that joins the two. -/
theorem after_join_of_mem (h : sep ∈ x) :
    after sep (x ++ sep :: y) = after sep x ++ sep :: y := by
  obtain ⟨first, rest, rfl, hfirst⟩ := List.eq_append_cons_of_mem h
  rw [List.append_assoc, List.cons_append, after_join hfirst, after_join hfirst]

/-- Either way the second part stands at the end. -/
theorem length_le_after_join : y.length ≤ (after sep (x ++ sep :: y)).length := by
  by_cases h : sep ∈ x
  · rw [after_join_of_mem h, List.length_append, List.length_cons]
    omega
  · rw [after_join h]

/-- The second part is what is after the separator exactly when the first does not contain
    it. -/
theorem after_join_iff : after sep (x ++ sep :: y) = y ↔ sep ∉ x := by
  constructor
  · intro hafter hmem
    have hlength := congrArg List.length hafter
    rw [after_join_of_mem hmem, List.length_append, List.length_cons] at hlength
    omega
  · exact after_join

/-- The parts of a split, with the separator between them, are the list. -/
theorem before_append_after (h : sep ∈ x) : before sep x ++ sep :: after sep x = x := by
  obtain ⟨first, rest, rfl, hfirst⟩ := List.eq_append_cons_of_mem h
  rw [before, takeWhile_join hfirst, after_join hfirst]

/-! ### Marks -/

section

omit [DecidableEq α]

variable {r r' z : List α}

/-- No mark starts in a text that contains none, also not one that goes on after it. -/
theorem length_le_of_mark (hr : sep ∉ r) (hfree : ¬(sep :: r) <:+: x)
    (h : y ++ sep :: (r ++ z) = x ++ sep :: r') : x.length ≤ y.length := by
  rcases List.append_eq_append_iff.mp h with ⟨rest, hx, hrest⟩ | ⟨rest, hy, -⟩
  · rcases rest with _ | ⟨a, rest⟩
    · rw [hx, List.append_nil]
    · obtain ⟨rfl, htail⟩ := List.cons.inj hrest
      rcases List.append_eq_append_iff.mp htail with ⟨more, hmore, -⟩ | ⟨more, hmore, hz⟩
      · rw [hx, hmore, ← List.cons_append] at hfree
        exact absurd (List.infix_append' _ _ _) hfree
      · rcases more with _ | ⟨b, more⟩
        · rw [hx, hmore, List.append_nil] at hfree
          exact absurd (List.suffix_append _ _).isInfix hfree
        · obtain ⟨rfl, -⟩ := List.cons.inj hz
          rw [hmore] at hr
          exact absurd (List.mem_append_right _ List.mem_cons_self) hr
  · rw [hy, List.length_append]
    omega

/-- **A text without marks ends at the first mark.** -/
theorem eq_of_marks {t t' : List α} (hr : sep ∉ r) (hr' : sep ∉ r')
    (hx : ¬(sep :: r') <:+: x) (hy : ¬(sep :: r) <:+: y)
    (h : x ++ sep :: (r ++ t) = y ++ sep :: (r' ++ t')) : x = y ∧ r ++ t = r' ++ t' := by
  have hle : y.length ≤ x.length := length_le_of_mark hr hy h
  have hge : x.length ≤ y.length := length_le_of_mark hr' hx h.symm
  obtain ⟨hsame, hrest⟩ := List.append_inj h (Nat.le_antisymm hge hle)
  exact ⟨hsame, (List.cons.inj hrest).2⟩

/-- A text that contains one of some marks has a first one. -/
theorem exists_first (marks : List α → Prop) (hne : ¬marks []) {l : List α}
    (h : ∃ mark, marks mark ∧ mark <:+: l) :
    ∃ first mark rest, marks mark ∧ l = first ++ (mark ++ rest) ∧
      ∀ other, marks other → ¬other <:+: first := by
  have hnil : ∀ other, marks other → ¬other <:+: [] := by
    intro other hother hinfix
    rw [List.infix_nil.mp hinfix] at hother
    exact hne hother
  induction l with
  | nil =>
      obtain ⟨mark, hmark, hinfix⟩ := h
      exact absurd hinfix (hnil mark hmark)
  | cons a l ih =>
      by_cases hhead : ∃ mark, marks mark ∧ mark <+: a :: l
      · obtain ⟨mark, hmark, rest, hrest⟩ := hhead
        exact ⟨[], mark, rest, hmark, hrest.symm, hnil⟩
      · have htail : ∃ mark, marks mark ∧ mark <:+: l := by
          obtain ⟨mark, hmark, hinfix⟩ := h
          rcases List.infix_cons_iff.mp hinfix with hprefix | hinfix
          · exact absurd ⟨mark, hmark, hprefix⟩ hhead
          · exact ⟨mark, hmark, hinfix⟩
        obtain ⟨first, mark, rest, hmark, hl, hfree⟩ := ih htail
        refine ⟨a :: first, mark, rest, hmark, by rw [hl]; rfl, ?_⟩
        intro other hother hinfix
        rcases List.infix_cons_iff.mp hinfix with hprefix | hinfix
        · have hfirst : a :: first <+: a :: l := ⟨mark ++ rest, by rw [hl]; rfl⟩
          exact hhead ⟨other, hother, hprefix.trans hfirst⟩
        · exact hfree other hother hinfix

end

/-! ### Rows of parts -/

omit [DecidableEq α] in
/-- An element of a row of parts stands in one of them. -/
theorem exists_of_flatMap_eq {β : Type*} {f : β → List α} {parts : List β} {a : α}
    (h : parts.flatMap f = x ++ a :: y) :
    ∃ xs part ys u v, parts = xs ++ part :: ys ∧ f part = u ++ a :: v ∧
      x = xs.flatMap f ++ u ∧ y = v ++ ys.flatMap f := by
  induction parts generalizing x with
  | nil => exact absurd h.symm (by simp)
  | cons part parts ih =>
      have hlater : ∀ x', parts.flatMap f = x' ++ a :: y → x = f part ++ x' →
          ∃ xs other ys u v, part :: parts = xs ++ other :: ys ∧ f other = u ++ a :: v ∧
            x = xs.flatMap f ++ u ∧ y = v ++ ys.flatMap f := by
        intro x' hparts hx
        obtain ⟨xs, other, ys, u, v, rfl, hother, rfl, hy⟩ := ih hparts
        refine ⟨part :: xs, other, ys, u, v, rfl, hother, ?_, hy⟩
        rw [hx, List.flatMap_cons, List.append_assoc]
      rw [List.flatMap_cons] at h
      rcases List.append_eq_append_iff.mp h with ⟨x', hx, hparts⟩ | ⟨z, hpart, hz⟩
      · exact hlater x' hparts hx
      · cases z with
        | nil => exact hlater [] hz.symm (by rw [hpart, List.append_nil, List.append_nil])
        | cons b v =>
            obtain ⟨rfl, hy⟩ := List.cons.inj hz
            exact ⟨[], part, parts, x, v, rfl, hpart, rfl, hy⟩

/-- The list contains the pattern at one place only. -/
def OccursAtMostOnce (pat l : List α) : Prop :=
  ∀ x y x' y', l = x ++ (pat ++ y) → l = x' ++ (pat ++ y') → x = x'

end Delimited
