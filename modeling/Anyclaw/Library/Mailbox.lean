import Mathlib.Data.List.Nodup
import Mathlib.Logic.Function.Basic
import Anyclaw.Library.Transition

/-!
# Keyed mailboxes

What a queue in front of a worker is for: for every key, items are accepted, wait, and
are handed over in batches; a batch takes everything that waits.  Items may also be
dropped.  A mailbox keeps the whole history, so that the accounting of items is a fact
about one state (`Sound`), proved once for all runs (`sound_of_reachable`).

A program whose queue moves like a mailbox inherits the accounting by simulation.
-/

@[ext] structure Mailbox (κ α : Type*) where
  /-- All items ever accepted, with their keys, oldest first. -/
  accepted : List (κ × α)
  waiting : κ → List α
  /-- The batches handed over, oldest first. -/
  batches : List (κ × List α)
  dropped : List (κ × α)

namespace Mailbox

variable {κ α β : Type*} [DecidableEq κ]

/-- The values that a history holds for a key. -/
def forKey (k : κ) (l : List (κ × β)) : List β :=
  l.filterMap fun e => if e.1 = k then some e.2 else none

@[simp] theorem forKey_nil (k : κ) : forKey k ([] : List (κ × β)) = [] := rfl

@[simp] theorem forKey_append (k : κ) (l l' : List (κ × β)) :
    forKey k (l ++ l') = forKey k l ++ forKey k l' :=
  List.filterMap_append

@[simp] theorem forKey_singleton (k k' : κ) (v : β) :
    forKey k [(k', v)] = if k' = k then [v] else [] := by
  unfold forKey
  by_cases h : k' = k <;> simp [h]

@[simp] theorem mem_forKey {k : κ} {l : List (κ × β)} {v : β} :
    v ∈ forKey k l ↔ (k, v) ∈ l := by
  unfold forKey
  rw [List.mem_filterMap]
  constructor
  · rintro ⟨⟨k', v'⟩, hmem, heq⟩
    split at heq
    · rename_i hk
      cases hk
      cases heq
      exact hmem
    · cases heq
  · intro hmem
    exact ⟨(k, v), hmem, if_pos rfl⟩

variable (b : Mailbox κ α)

def handed (k : κ) : List α := (forKey k b.batches).flatten

def carriers [DecidableEq α] (x : α) : List (κ × List α) :=
  b.batches.filter fun e => x ∈ e.2

/-! ### Moves -/

@[simps] def accept (k : κ) (x : α) : Mailbox κ α where
  accepted := b.accepted ++ [(k, x)]
  waiting := fun k' => if k' = k then b.waiting k ++ [x] else b.waiting k'
  batches := b.batches
  dropped := b.dropped

@[simps] def hand (k : κ) : Mailbox κ α where
  accepted := b.accepted
  waiting := fun k' => if k' = k then [] else b.waiting k'
  batches := b.batches ++ [(k, b.waiting k)]
  dropped := b.dropped

@[simps] def drop (k : κ) : Mailbox κ α where
  accepted := b.accepted
  waiting := fun k' => if k' = k then [] else b.waiting k'
  batches := b.batches
  dropped := b.dropped ++ (b.waiting k).map fun x => (k, x)

@[simp] theorem handed_accept (k k' : κ) (x : α) : (b.accept k x).handed k' = b.handed k' := rfl

@[simp] theorem handed_drop (k k' : κ) : (b.drop k).handed k' = b.handed k' := rfl

@[simp] theorem handed_hand (k k' : κ) :
    (b.hand k).handed k' = b.handed k' ++ if k' = k then b.waiting k else [] := by
  unfold handed
  rw [hand_batches, forKey_append, forKey_singleton, List.flatten_append]
  by_cases h : k' = k
  · simp [h]
  · simp [h, Ne.symm h]

def empty : Mailbox κ α where
  accepted := []
  waiting := fun _ => []
  batches := []
  dropped := []

inductive Move (κ α : Type*) where
  | accept (k : κ) (x : α)
  | hand (k : κ)
  | drop (k : κ)

/-- An item is accepted once only. -/
def step [DecidableEq α] (b : Mailbox κ α) : Move κ α → Option (Mailbox κ α)
  | .accept k x => if x ∈ b.accepted.map Prod.snd then none else some (b.accept k x)
  | .hand k => some (b.hand k)
  | .drop k => some (b.drop k)

variable (κ α) in
def machine [DecidableEq α] : Machine (Mailbox κ α) (Move κ α) where
  init b := b = empty
  step := step

section Moves

variable [DecidableEq α]

theorem run_accept {b : Mailbox κ α} {k : κ} {x : α} (hfresh : x ∉ b.accepted.map Prod.snd) :
    (machine κ α).RunUnder (fun _ _ => True) b (b.accept k x) :=
  Relation.ReflTransGen.single ⟨.accept k x, trivial, if_neg hfresh⟩

theorem run_hand (b : Mailbox κ α) (k : κ) :
    (machine κ α).RunUnder (fun _ _ => True) b (b.hand k) :=
  Relation.ReflTransGen.single ⟨.hand k, trivial, rfl⟩

theorem run_drop (b : Mailbox κ α) (k : κ) :
    (machine κ α).RunUnder (fun _ _ => True) b (b.drop k) :=
  Relation.ReflTransGen.single ⟨.drop k, trivial, rfl⟩

end Moves

/-! ### The accounting -/

structure Sound (b : Mailbox κ α) : Prop where
  /-- No item is accepted twice. -/
  nodup : (b.accepted.map Prod.snd).Nodup
  /-- Items are handed over in the order of their acceptance. -/
  ordered : ∀ k, (b.handed k ++ b.waiting k).Sublist (forKey k b.accepted)
  /-- No item is handed over twice. -/
  once : (b.batches.flatMap Prod.snd).Nodup
  /-- No accepted item is unaccounted for. -/
  kept : ∀ k x, (k, x) ∈ b.accepted → x ∈ b.waiting k ∨ x ∈ b.handed k ∨ (k, x) ∈ b.dropped
  /-- A dropped item neither waits nor is it handed over. -/
  gone : ∀ k x, (k, x) ∈ b.dropped →
    (k, x) ∈ b.accepted ∧ x ∉ b.waiting k ∧ x ∉ b.handed k

section Sound

variable {b} {k k' : κ} {x : α}

theorem mem_handed : x ∈ b.handed k ↔ ∃ xs, (k, xs) ∈ b.batches ∧ x ∈ xs := by
  simp [handed]

theorem Sound.key_unique (h : Sound b) (hx : (k, x) ∈ b.accepted) (hx' : (k', x) ∈ b.accepted) :
    k = k' := by
  have heq := List.inj_on_of_nodup_map h.nodup hx hx' rfl
  exact congrArg Prod.fst heq

theorem Sound.accepted_of_waiting (h : Sound b) (hx : x ∈ b.waiting k) :
    (k, x) ∈ b.accepted :=
  mem_forKey.mp ((h.ordered k).subset (List.mem_append_right _ hx))

theorem Sound.accepted_of_handed (h : Sound b) (hx : x ∈ b.handed k) : (k, x) ∈ b.accepted :=
  mem_forKey.mp ((h.ordered k).subset (List.mem_append_left _ hx))

theorem Sound.nodup_forKey (h : Sound b) (k : κ) : (forKey k b.accepted).Nodup := by
  unfold forKey
  refine List.Nodup.filterMap ?_ (List.Nodup.of_map Prod.snd h.nodup)
  rintro ⟨k₁, x₁⟩ ⟨k₂, x₂⟩ y hy₁ hy₂
  simp only [Option.mem_def, Option.ite_none_right_eq_some, Option.some.injEq] at hy₁ hy₂
  rw [Prod.mk.injEq]
  exact ⟨hy₁.1.trans hy₂.1.symm, hy₁.2.trans hy₂.2.symm⟩

theorem Sound.nodup_waiting (h : Sound b) (k : κ) : (b.waiting k).Nodup :=
  (h.nodup_forKey k).sublist ((List.sublist_append_right _ _).trans (h.ordered k))

/-- An item that waits has not been handed over. -/
theorem Sound.not_handed (h : Sound b) (hx : x ∈ b.waiting k) : x ∉ b.handed k := by
  intro hhanded
  have hnodup := (h.nodup_forKey k).sublist (h.ordered k)
  exact (List.nodup_append.mp hnodup).2.2 x hhanded x hx rfl

theorem sound_empty : Sound (empty : Mailbox κ α) where
  nodup := List.nodup_nil
  ordered := fun k => by simp [handed, empty]
  once := List.nodup_nil
  kept := fun k x hx => by cases hx
  gone := fun k x hx => by cases hx

theorem Sound.accept (h : Sound b) (hfresh : x ∉ b.accepted.map Prod.snd) :
    Sound (b.accept k x) := by
  have hnew : ∀ k', (k', x) ∉ b.accepted := fun k' hmem =>
    hfresh (List.mem_map.mpr ⟨(k', x), hmem, rfl⟩)
  refine
    { nodup := ?_
      ordered := fun k' => ?_
      once := h.once
      kept := fun k' y hy => ?_
      gone := fun k' y hy => ?_ }
  · rw [accept_accepted, List.map_append]
    exact h.nodup.append (List.nodup_singleton x) (by simpa using hfresh)
  · rw [handed_accept, accept_waiting, accept_accepted, forKey_append, forKey_singleton]
    by_cases hk : k' = k
    · subst hk
      rw [if_pos rfl, if_pos rfl, ← List.append_assoc]
      exact (h.ordered k').append (List.Sublist.refl [x])
    · rw [if_neg hk, if_neg (Ne.symm hk), List.append_nil]
      exact h.ordered k'
  · rw [accept_waiting, handed_accept]
    rcases List.mem_append.mp hy with hold | hlast
    · rcases h.kept k' y hold with hwait | hrest
      · refine Or.inl ?_
        split
        · rename_i hk
          exact List.mem_append_left _ (hk ▸ hwait)
        · exact hwait
      · exact Or.inr hrest
    · cases List.mem_singleton.mp hlast
      rw [if_pos rfl]
      exact Or.inl (List.mem_append_right _ (List.mem_singleton_self _))
  · obtain ⟨hacc, hwait, hhanded⟩ := h.gone k' y hy
    refine ⟨List.mem_append_left _ hacc, ?_, hhanded⟩
    rw [accept_waiting]
    split
    · rename_i hk
      subst hk
      rw [List.mem_append, not_or]
      refine ⟨hwait, fun hlast => ?_⟩
      rw [List.mem_singleton.mp hlast] at hacc
      exact hnew k' hacc
    · exact hwait

theorem Sound.hand (h : Sound b) (k : κ) : Sound (b.hand k) := by
  refine
    { nodup := h.nodup
      ordered := fun k' => ?_
      once := ?_
      kept := fun k' y hy => ?_
      gone := fun k' y hy => ?_ }
  · rw [handed_hand, hand_waiting]
    by_cases hk : k' = k
    · rw [if_pos hk, if_pos hk, hk, List.append_nil]
      exact h.ordered k
    · rw [if_neg hk, if_neg hk, List.append_nil]
      exact h.ordered k'
  · rw [hand_batches, List.flatMap_append, List.flatMap_singleton]
    refine h.once.append (h.nodup_waiting k) ?_
    intro y hy hwait
    obtain ⟨⟨k', xs⟩, hbatch, hxs⟩ := List.mem_flatMap.mp hy
    have hhanded : y ∈ b.handed k' := mem_handed.mpr ⟨xs, hbatch, hxs⟩
    have hkey := h.key_unique (h.accepted_of_waiting hwait) (h.accepted_of_handed hhanded)
    subst hkey
    exact h.not_handed hwait hhanded
  · rw [handed_hand, hand_waiting, List.mem_append]
    by_cases hk : k' = k
    · subst hk
      rw [if_pos rfl, if_pos rfl]
      rcases h.kept k' y hy with hwait | hdone | hdrop
      · exact Or.inr (Or.inl (Or.inr hwait))
      · exact Or.inr (Or.inl (Or.inl hdone))
      · exact Or.inr (Or.inr hdrop)
    · rw [if_neg hk, if_neg hk]
      rcases h.kept k' y hy with hwait | hdone | hdrop
      · exact Or.inl hwait
      · exact Or.inr (Or.inl (Or.inl hdone))
      · exact Or.inr (Or.inr hdrop)
  · obtain ⟨hacc, hwait, hdone⟩ := h.gone k' y hy
    rw [handed_hand, hand_waiting, List.mem_append, not_or]
    by_cases hk : k' = k
    · subst hk
      rw [if_pos rfl, if_pos rfl]
      exact ⟨hacc, List.not_mem_nil, hdone, hwait⟩
    · rw [if_neg hk, if_neg hk]
      exact ⟨hacc, hwait, hdone, List.not_mem_nil⟩

theorem Sound.drop (h : Sound b) (k : κ) : Sound (b.drop k) := by
  refine
    { nodup := h.nodup
      ordered := fun k' => ?_
      once := h.once
      kept := fun k' y hy => ?_
      gone := fun k' y hy => ?_ }
  · rw [handed_drop, drop_waiting]
    split
    · rw [List.append_nil]
      exact (List.sublist_append_left _ _).trans (h.ordered k')
    · exact h.ordered k'
  · rw [handed_drop, drop_waiting]
    rcases h.kept k' y hy with hwait | hdone | hdrop
    · split
      · rename_i hk
        subst hk
        exact Or.inr (Or.inr (List.mem_append_right _ (List.mem_map.mpr ⟨y, hwait, rfl⟩)))
      · exact Or.inl hwait
    · exact Or.inr (Or.inl hdone)
    · exact Or.inr (Or.inr (List.mem_append_left _ hdrop))
  · rw [handed_drop, drop_waiting]
    rcases List.mem_append.mp hy with hold | hnew
    · obtain ⟨hacc, hwait, hdone⟩ := h.gone k' y hold
      refine ⟨hacc, ?_, hdone⟩
      split
      · exact List.not_mem_nil
      · exact hwait
    · obtain ⟨x, hx, heq⟩ := List.mem_map.mp hnew
      cases heq
      rw [if_pos rfl]
      exact ⟨h.accepted_of_waiting hx, List.not_mem_nil, h.not_handed hx⟩

end Sound

variable [DecidableEq α]

/-- **The accounting holds along all runs.** -/
theorem sound_of_reachable {b : Mailbox κ α} (h : (machine κ α).Reachable b) : Sound b := by
  refine h.invariant ?_ ?_
  · rintro b rfl
    exact sound_empty
  · intro b move b' _ hsound _ hstep
    cases move with
    | accept k x =>
        simp only [machine, step] at hstep
        split at hstep
        · cases hstep
        · rename_i hfresh
          cases hstep
          exact hsound.accept hfresh
    | hand k =>
        cases hstep
        exact hsound.hand k
    | drop k =>
        cases hstep
        exact hsound.drop k

omit [DecidableEq κ] in
private theorem filter_eq_singleton {l : List (κ × List α)} {e : κ × List α} {x : α}
    (hnodup : (l.flatMap Prod.snd).Nodup) (he : e ∈ l) (hx : x ∈ e.2) :
    l.filter (fun e => x ∈ e.2) = [e] := by
  induction l with
  | nil => cases he
  | cons e' l ih =>
      rw [List.flatMap_cons, List.nodup_append] at hnodup
      obtain ⟨_, hrest, hdisjoint⟩ := hnodup
      rcases List.mem_cons.mp he with rfl | he
      · have hnone : l.filter (fun e => x ∈ e.2) = [] := by
          rw [List.filter_eq_nil_iff]
          intro e' he' hx'
          exact hdisjoint x hx x (List.mem_flatMap.mpr ⟨e', he', by simpa using hx'⟩) rfl
        rw [List.filter_cons_of_pos (by simpa using hx), hnone]
      · have hnot : x ∉ e'.2 := fun hx' =>
          hdisjoint x hx' x (List.mem_flatMap.mpr ⟨e, he, hx⟩) rfl
        rw [List.filter_cons_of_neg (by simpa using hnot)]
        exact ih hrest he

/-- An item that was handed over is carried by one batch, of its own key. -/
theorem Sound.carriers_eq {b : Mailbox κ α} (h : Sound b) {k : κ} {x : α}
    (hx : x ∈ b.handed k) : ∃ xs, b.carriers x = [(k, xs)] := by
  obtain ⟨xs, hbatch, hmem⟩ := mem_handed.mp hx
  exact ⟨xs, filter_eq_singleton h.once hbatch hmem⟩

/-- An item that was not handed over is carried by no batch. -/
theorem Sound.carriers_eq_nil {b : Mailbox κ α} (h : Sound b) {k : κ} {x : α}
    (hacc : (k, x) ∈ b.accepted) (hx : x ∉ b.handed k) : b.carriers x = [] := by
  unfold carriers
  rw [List.filter_eq_nil_iff]
  rintro ⟨k', xs⟩ hbatch hmem
  have hhanded : x ∈ b.handed k' := mem_handed.mpr ⟨xs, hbatch, by simpa using hmem⟩
  have hkey := h.key_unique hacc (h.accepted_of_handed hhanded)
  subst hkey
  exact hx hhanded

/-! ### Mailboxes that forget -/

/-- What is left of the accounting when items that wait may be forgotten. -/
structure AtMostOnce (b : Mailbox κ α) : Prop where
  /-- No item is accepted twice. -/
  nodup : (b.accepted.map Prod.snd).Nodup
  /-- Items are handed over in the order of their acceptance, and wait in that order. -/
  ordered : ∀ k, (b.handed k ++ b.waiting k).Sublist (forKey k b.accepted)

section AtMostOnce

omit [DecidableEq α]

variable {b b' : Mailbox κ α} {k k' : κ} {x : α}

theorem atMostOnce_empty : AtMostOnce (empty : Mailbox κ α) :=
  ⟨List.nodup_nil, fun _ => by simp [handed, empty]⟩

theorem AtMostOnce.accept (h : AtMostOnce b) (hfresh : x ∉ b.accepted.map Prod.snd) :
    AtMostOnce (b.accept k x) := by
  refine ⟨?_, fun k' => ?_⟩
  · simp only [accept_accepted, List.map_append]
    exact h.nodup.append (List.nodup_singleton x) (by simpa using hfresh)
  · simp only [handed_accept, accept_waiting, accept_accepted, forKey_append, forKey_singleton]
    by_cases hk : k' = k
    · subst hk
      simp only [if_true, ← List.append_assoc]
      exact (h.ordered k').append (List.Sublist.refl [x])
    · simp only [if_neg hk, if_neg (Ne.symm hk), List.append_nil]
      exact h.ordered k'

theorem AtMostOnce.hand (h : AtMostOnce b) (k : κ) : AtMostOnce (b.hand k) := by
  refine ⟨h.nodup, fun k' => ?_⟩
  simp only [handed_hand, hand_waiting, hand_accepted]
  by_cases hk : k' = k
  · subst hk
    simpa using h.ordered k'
  · simpa [hk] using h.ordered k'

/-- Items that wait may be forgotten. -/
theorem AtMostOnce.forget (h : AtMostOnce b) (haccepted : b'.accepted = b.accepted)
    (hbatches : b'.batches = b.batches) (hwaiting : ∀ k, (b'.waiting k).Sublist (b.waiting k)) :
    AtMostOnce b' := by
  refine ⟨by rw [haccepted]; exact h.nodup, fun k => ?_⟩
  have hhanded : b'.handed k = b.handed k := by rw [handed, handed, hbatches]
  rw [hhanded, haccepted]
  exact ((List.Sublist.refl _).append (hwaiting k)).trans (h.ordered k)

theorem AtMostOnce.key_unique (h : AtMostOnce b) (hx : x ∈ b.handed k) (hx' : x ∈ b.handed k') :
    k = k' := by
  have haccepted : ∀ {k}, x ∈ b.handed k → (k, x) ∈ b.accepted := fun hmem =>
    mem_forKey.mp ((h.ordered _).subset (List.mem_append_left _ hmem))
  exact congrArg Prod.fst
    (List.inj_on_of_nodup_map h.nodup (haccepted hx) (haccepted hx') rfl)

theorem AtMostOnce.nodup_forKey (h : AtMostOnce b) (k : κ) : (forKey k b.accepted).Nodup := by
  refine List.Nodup.filterMap ?_ (List.Nodup.of_map Prod.snd h.nodup)
  rintro ⟨k₁, x₁⟩ ⟨k₂, x₂⟩ y hy₁ hy₂
  simp only [Option.mem_def, Option.ite_none_right_eq_some, Option.some.injEq] at hy₁ hy₂
  exact Prod.ext (hy₁.1.trans hy₂.1.symm) (hy₁.2.trans hy₂.2.symm)

/-- An item is in one batch at most when each key's batches are disjoint and no item is in
    batches of two keys. -/
theorem nodup_flatMap_batches {l : List (κ × List α)}
    (hkeys : ∀ k, (forKey k l).flatten.Nodup)
    (hown : ∀ e ∈ l, ∀ e' ∈ l, ∀ x ∈ e.2, x ∈ e'.2 → e.1 = e'.1) :
    (l.flatMap Prod.snd).Nodup := by
  induction l with
  | nil => exact List.nodup_nil
  | cons e l ih =>
      have hcons : ∀ k, forKey k (e :: l) = (if e.1 = k then [e.2] else []) ++ forKey k l :=
        fun k => (forKey_append k [e] l).trans (by rw [forKey_singleton])
      have hrest : ∀ k, (forKey k l).flatten.Nodup := fun k => by
        have hnodup := hkeys k
        rw [hcons, List.flatten_append] at hnodup
        exact hnodup.of_append_right
      have hfirst := hkeys e.1
      rw [hcons, if_pos rfl, List.flatten_append, List.flatten_singleton,
        List.nodup_append] at hfirst
      obtain ⟨hhead, -, hdisjoint⟩ := hfirst
      rw [List.flatMap_cons]
      refine hhead.append (ih hrest fun e₁ he₁ e₂ he₂ =>
        hown e₁ (List.mem_cons_of_mem _ he₁) e₂ (List.mem_cons_of_mem _ he₂)) ?_
      intro x hx hlater
      obtain ⟨e', he', hx'⟩ := List.mem_flatMap.mp hlater
      have hkey : e'.1 = e.1 :=
        hown e' (List.mem_cons_of_mem _ he') e List.mem_cons_self x hx' hx
      have hmem : x ∈ (forKey e.1 l).flatten :=
        List.mem_flatten.mpr ⟨e'.2, mem_forKey.mpr (hkey ▸ he'), hx'⟩
      exact hdisjoint x hx x hmem rfl

theorem AtMostOnce.once (h : AtMostOnce b) : (b.batches.flatMap Prod.snd).Nodup := by
  refine nodup_flatMap_batches (fun k => ?_) fun e he e' he' x hx hx' => ?_
  · exact (h.nodup_forKey k).sublist ((List.sublist_append_left _ _).trans (h.ordered k))
  · exact h.key_unique (mem_handed.mpr ⟨e.2, he, hx⟩) (mem_handed.mpr ⟨e'.2, he', hx'⟩)

end AtMostOnce

/-- Whatever is forgotten, no item is in two batches. -/
theorem AtMostOnce.carriers {b : Mailbox κ α} (h : AtMostOnce b) (x : α) :
    b.carriers x = [] ∨ ∃ k xs, b.carriers x = [(k, xs)] ∧ (k, x) ∈ b.accepted := by
  by_cases hcarried : ∃ k, x ∈ b.handed k
  · obtain ⟨k, hx⟩ := hcarried
    obtain ⟨xs, hbatch, hmem⟩ := mem_handed.mp hx
    exact Or.inr ⟨k, xs, filter_eq_singleton h.once hbatch hmem,
      mem_forKey.mp ((h.ordered k).subset (List.mem_append_left _ hx))⟩
  · refine Or.inl (List.filter_eq_nil_iff.mpr ?_)
    rintro ⟨k, xs⟩ hbatch hmem
    exact hcarried ⟨k, mem_handed.mpr ⟨xs, hbatch, by simpa using hmem⟩⟩

end Mailbox
