import Mathlib.Data.List.Forall2

/-!
# Computations that may fail

What a sequence and a loop of fallible computations return: a sequence returns when its parts
do, and a loop over a list returns when each of its rounds does.
-/

namespace Fallible

variable {ε α β : Type*}

def Returns (x : Except ε α) : Prop := ∃ a, x = .ok a

@[simp] theorem returns_ok (a : α) : Returns (.ok a : Except ε α) := ⟨a, rfl⟩

@[simp] theorem not_returns_error (e : ε) : ¬ Returns (.error e : Except ε α) :=
  fun ⟨_, h⟩ => nomatch h

theorem bind_eq_ok {ε α β : Type} {x : Except ε α} {f : α → Except ε β} {b : β} :
    x >>= f = .ok b ↔ ∃ a, x = .ok a ∧ f a = .ok b := by
  cases x with
  | ok a => simp [bind, Except.bind]
  | error e => simp [bind, Except.bind]

theorem map_eq_ok {ε α β : Type} {x : Except ε α} {f : α → β} {b : β} :
    x.map f = .ok b ↔ ∃ a, x = .ok a ∧ f a = b := by
  cases x with
  | ok a => simp [Except.map]
  | error e => simp [Except.map]

theorem returns_map {ε α β : Type} {x : Except ε α} {f : α → β} :
    Returns (x.map f) ↔ Returns x := by
  cases x with
  | ok a => simp [Except.map]
  | error e => simp [Except.map]

theorem exists_mem_of_forall₂ {R : α → β → Prop} {l : List α} {r : List β}
    (h : List.Forall₂ R l r) : ∀ a ∈ l, ∃ b ∈ r, R a b := by
  induction h with
  | nil =>
      intro a ha
      cases ha
  | cons hab _ ih =>
      intro a ha
      rcases List.mem_cons.mp ha with rfl | ha
      · exact ⟨_, List.mem_cons_self, hab⟩
      · obtain ⟨b, hb, hR⟩ := ih a ha
        exact ⟨b, List.mem_cons_of_mem _ hb, hR⟩

theorem forall₂_of_mem {R S : α → β → Prop} {l : List α} {r : List β}
    (h : List.Forall₂ R l r) (himp : ∀ a ∈ l, ∀ b, R a b → S a b) : List.Forall₂ S l r := by
  induction h with
  | nil => exact .nil
  | cons hab _ ih =>
      refine .cons (himp _ List.mem_cons_self _ hab) (ih fun a ha => ?_)
      exact himp a (List.mem_cons_of_mem _ ha)

theorem forall_iff_of_forall₂ {R : α → β → Prop} {l : List α} {r : List β} {p : α → Prop}
    {q : β → Prop} (h : List.Forall₂ R l r) (hpq : ∀ a ∈ l, ∀ b, R a b → (p a ↔ q b)) :
    (∀ a ∈ l, p a) ↔ ∀ b ∈ r, q b := by
  induction h with
  | nil => simp
  | cons hab _ ih =>
      rw [List.forall_mem_cons, List.forall_mem_cons, hpq _ List.mem_cons_self _ hab,
        ih fun a ha => hpq a (List.mem_cons_of_mem _ ha)]

theorem find?_of_forall₂ {R : α → β → Prop} {l : List α} {r : List β} {p : α → Bool}
    {q : β → Bool} (h : List.Forall₂ R l r) (hpq : ∀ a b, R a b → p a = q b) {a : α}
    (hfind : l.find? p = some a) : ∃ b, r.find? q = some b ∧ R a b := by
  induction h with
  | nil => cases hfind
  | cons hab _ ih =>
      rw [List.find?_cons] at hfind ⊢
      rw [← hpq _ _ hab]
      split at hfind
      · cases hfind
        exact ⟨_, rfl, hab⟩
      · exact ih hfind

theorem getElem?_of_forall₂ {R : α → β → Prop} {l : List α} {r : List β}
    (h : List.Forall₂ R l r) {n : Nat} {a : α} (hget : l[n]? = some a) :
    ∃ b, r[n]? = some b ∧ R a b := by
  induction h generalizing n with
  | nil => cases hget
  | cons hab _ ih =>
      cases n with
      | zero =>
          cases hget
          exact ⟨_, rfl, hab⟩
      | succ n => exact ih hget

/-! ### Loops -/

section Loops

variable {ε α β : Type} {f : α → Except ε β} {l : List α}

theorem mapM_eq_ok {r : List β} :
    l.mapM f = .ok r ↔ List.Forall₂ (fun a b => f a = .ok b) l r := by
  induction l generalizing r with
  | nil =>
      rw [List.mapM_nil, List.forall₂_nil_left_iff]
      constructor
      · intro h
        cases h
        rfl
      · rintro rfl
        rfl
  | cons a l ih =>
      rw [List.mapM_cons, bind_eq_ok]
      constructor
      · rintro ⟨b, hb, hrest⟩
        obtain ⟨bs, hbs, hr⟩ := bind_eq_ok.mp hrest
        cases hr
        exact List.Forall₂.cons hb (ih.mp hbs)
      · intro h
        cases h with
        | cons hb hbs => exact ⟨_, hb, bind_eq_ok.mpr ⟨_, ih.mpr hbs, rfl⟩⟩

theorem returns_mapM : Returns (l.mapM f) ↔ ∀ a ∈ l, Returns (f a) := by
  constructor
  · rintro ⟨r, hr⟩ a ha
    obtain ⟨b, _, hb⟩ := exists_mem_of_forall₂ (mapM_eq_ok.mp hr) a ha
    exact ⟨b, hb⟩
  · intro h
    induction l with
    | nil => exact ⟨[], rfl⟩
    | cons a l ih =>
        obtain ⟨b, hb⟩ := h a List.mem_cons_self
        obtain ⟨bs, hbs⟩ := ih fun a' ha' => h a' (List.mem_cons_of_mem _ ha')
        exact ⟨b :: bs, mapM_eq_ok.mpr (List.Forall₂.cons hb (mapM_eq_ok.mp hbs))⟩

end Loops

end Fallible
