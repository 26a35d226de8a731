import Mathlib.Data.List.Infix
import Mathlib.Logic.Function.Basic
import Mathlib.Logic.Relation

/-!
# Numbered links with a greeting

A master speaks to workers, one for each slot, over links that it opens under fresh numbers.
The first thing that goes over a link is a greeting.  Only when the greeting has been answered
does anything else go over it, and only what the terms of the answer allow.  A link that is
closed, or replaced by a new one of its slot, is not used again.

`Proper` says all this of the log of what went over the links; it is a fact about the log alone.
`proper_of_runs` proves it of every run of the moves, so that a program inherits it by showing
that its handlers are runs of moves.
-/

/-- The link of a slot: none, one that was not greeted, or one whose greeting was answered. -/
inductive Link (γ : Type*) where
  | down
  | opened (no : Nat)
  | ready (no : Nat) (terms : γ)

/-- What happens on a link.  A greeting is logged with its answer. -/
inductive LinkAct (ι γ μ : Type*) where
  | opened (i : ι) (no : Nat)
  | greeted (i : ι) (no : Nat) (answer : Option γ)
  | said (i : ι) (no : Nat) (x : μ)

namespace LinkAct

variable {ι γ μ : Type*}

def no : LinkAct ι γ μ → Nat
  | .opened _ no => no
  | .greeted _ no _ => no
  | .said _ no _ => no

/-- What an observer sees who is not told the answers to greetings. -/
def shown : LinkAct ι γ μ → LinkAct ι Unit μ
  | .opened i no => .opened i no
  | .greeted i no _ => .greeted i no none
  | .said i no x => .said i no x

@[simp] theorem no_shown (a : LinkAct ι γ μ) : a.shown.no = a.no := by
  cases a <;> rfl

end LinkAct

structure Links (ι γ μ : Type*) where
  link : ι → Link γ
  next : Nat
  /-- Everything that happened, oldest first. -/
  log : List (LinkAct ι γ μ)

namespace Links

variable {ι γ μ : Type*}

/-! ### Moves -/

def empty : Links ι γ μ where
  link := fun _ => .down
  next := 0
  log := []

/-- A new link, in place of the one that the slot had. -/
def connect [DecidableEq ι] (L : Links ι γ μ) (i : ι) : Links ι γ μ where
  link := Function.update L.link i (.opened L.next)
  next := L.next + 1
  log := L.log ++ [.opened i L.next]

/-- The greeting of a new link; without an answer the link is given up. -/
def greet [DecidableEq ι] (L : Links ι γ μ) (i : ι) (no : Nat) (answer : Option γ) : Links ι γ μ where
  link := Function.update L.link i (answer.elim .down fun c => .ready no c)
  next := L.next
  log := L.log ++ [.greeted i no answer]

def say (L : Links ι γ μ) (i : ι) (no : Nat) (x : μ) : Links ι γ μ where
  link := L.link
  next := L.next
  log := L.log ++ [.said i no x]

def close (L : Links ι γ μ) (P : ι → Prop) [DecidablePred P] : Links ι γ μ where
  link := fun i => if P i then .down else L.link i
  next := L.next
  log := L.log

/-- One move; `allows c x` says that the terms `c` allow `x`. -/
inductive Move [DecidableEq ι] (allows : γ → μ → Prop) (L : Links ι γ μ) : Links ι γ μ → Prop
  | connect (i : ι) : Move allows L (L.connect i)
  | greet {i : ι} {no : Nat} (answer : Option γ) (hlink : L.link i = .opened no) :
      Move allows L (L.greet i no answer)
  | say {i : ι} {no : Nat} {c : γ} {x : μ} (hlink : L.link i = .ready no c)
      (hallowed : allows c x) : Move allows L (L.say i no x)
  | close (P : ι → Prop) [DecidablePred P] : Move allows L (L.close P)

def Runs [DecidableEq ι] (allows : γ → μ → Prop) : Links ι γ μ → Links ι γ μ → Prop :=
  Relation.ReflTransGen (Move allows)

/-! ### Logs -/

def on (log : List (LinkAct ι γ μ)) (no : Nat) : List (LinkAct ι γ μ) :=
  log.filter fun a => a.no == no

/-- No later link of the slot was opened. -/
def Newest (log : List (LinkAct ι γ μ)) (i : ι) (no : Nat) : Prop :=
  ∀ no', .opened i no' ∈ log → no' ≤ no

/-- The link was opened and greeted, and the answer brought the terms `c`. -/
def Greeted (log : List (LinkAct ι γ μ)) (i : ι) (no : Nat) (c : γ) : Prop :=
  ∃ xs : List μ, on log no = .opened i no :: .greeted i no (some c) :: xs.map (.said i no)

/-- What happened before justifies that `a` happens. -/
def Justified (allows : γ → μ → Prop) (before : List (LinkAct ι γ μ)) : LinkAct ι γ μ → Prop
  | .opened _ no => ∀ a ∈ before, a.no < no
  | .greeted i no _ => on before no = [.opened i no] ∧ Newest before i no
  | .said i no x => Newest before i no ∧ ∃ c, allows c x ∧ Greeted before i no c

/-- Everything in the log is justified by what precedes it. -/
def Proper (allows : γ → μ → Prop) (log : List (LinkAct ι γ μ)) : Prop :=
  ∀ before a, before ++ [a] <+: log → Justified allows before a

variable {allows : γ → μ → Prop} {L L' : Links ι γ μ} {log : List (LinkAct ι γ μ)}
  {a : LinkAct ι γ μ} {i : ι} {no : Nat}

theorem on_append (log log' : List (LinkAct ι γ μ)) (no : Nat) :
    on (log ++ log') no = on log no ++ on log' no :=
  List.filter_append ..

theorem on_singleton (a : LinkAct ι γ μ) (no : Nat) :
    on [a] no = if a.no = no then [a] else [] := by
  simp [on, List.filter_cons]

theorem Proper.concat (h : Proper allows log) (ha : Justified allows log a) :
    Proper allows (log ++ [a]) := by
  intro before a' hprefix
  rcases List.prefix_concat_iff.mp hprefix with hall | hpart
  · obtain ⟨rfl, hsame⟩ := List.append_inj' hall rfl
    cases hsame
    exact ha
  · exact h before a' hpart

theorem Newest.concat (h : Newest log i no) (ha : ∀ no', a ≠ .opened i no' ∨ no' ≤ no) :
    Newest (log ++ [a]) i no := by
  intro no' hmem
  rcases List.mem_append.mp hmem with hold | hnew
  · exact h no' hold
  · rcases ha no' with hne | hle
    · exact absurd (List.mem_singleton.mp hnew).symm hne
    · exact hle

/-! ### What the moves keep -/

/-- The log is proper, and tells the state of the links. -/
structure Kept (allows : γ → μ → Prop) (L : Links ι γ μ) : Prop where
  proper : Proper allows L.log
  bounded : ∀ a ∈ L.log, a.no < L.next
  opened : ∀ i no, L.link i = .opened no →
    on L.log no = [.opened i no] ∧ Newest L.log i no
  ready : ∀ i no c, L.link i = .ready no c → Greeted L.log i no c ∧ Newest L.log i no

theorem kept_empty : Kept allows (empty : Links ι γ μ) where
  proper before a hprefix := by
    have hlength := hprefix.length_le
    simp [empty] at hlength
  bounded a ha := by cases ha
  opened i no h := by cases h
  ready i no c h := by cases h

/-- Nothing happened on a link that was not opened. -/
theorem on_fresh (h : ∀ a ∈ log, a.no < no) : on log no = [] := by
  rw [on, List.filter_eq_nil_iff]
  intro a ha heq
  have hlt := h a ha
  rw [beq_iff_eq.mp heq] at hlt
  exact Nat.lt_irrefl _ hlt

theorem Greeted.slot {i j : ι} {c d : γ} (h : Greeted log i no c) (h' : Greeted log j no d) :
    i = j ∧ c = d := by
  obtain ⟨xs, hxs⟩ := h
  obtain ⟨ys, hys⟩ := h'
  rw [hxs] at hys
  injection hys with hopened hrest
  injection hrest with hgreeted _
  cases hgreeted
  exact ⟨rfl, rfl⟩

/-- What happens on one link leaves the others as they were. -/
theorem Kept.other_links (h : Kept allows L) {j : ι} {no' : Nat} (hne : a.no ≠ no')
    (ha : ∀ no, a ≠ .opened j no) :
    (∀ c, L.link j = .ready no' c → Greeted (L.log ++ [a]) j no' c ∧
        Newest (L.log ++ [a]) j no') ∧
      (L.link j = .opened no' → on (L.log ++ [a]) no' = [.opened j no'] ∧
        Newest (L.log ++ [a]) j no') := by
  have hon : on (L.log ++ [a]) no' = on L.log no' := by
    rw [on_append, on_singleton, if_neg hne, List.append_nil]
  refine ⟨fun c hlink => ?_, fun hlink => ?_⟩
  · obtain ⟨⟨xs, hxs⟩, hnewest⟩ := h.ready j no' c hlink
    exact ⟨⟨xs, hon.trans hxs⟩, hnewest.concat fun no => Or.inl (ha no)⟩
  · obtain ⟨hopened, hnewest⟩ := h.opened j no' hlink
    exact ⟨hon.trans hopened, hnewest.concat fun no => Or.inl (ha no)⟩

theorem Kept.say (h : Kept allows L) {c : γ} {x : μ} (hlink : L.link i = .ready no c)
    (hallowed : allows c x) : Kept allows (L.say i no x) := by
  obtain ⟨hgreeted, hnewest⟩ := h.ready i no c hlink
  have hunopened : ∀ {j no'}, (.said i no x : LinkAct ι γ μ) ≠ .opened j no' :=
    fun heq => by cases heq
  refine
    { proper := h.proper.concat ⟨hnewest, c, hallowed, hgreeted⟩
      bounded := fun a ha => ?_
      opened := fun j no' hj => ?_
      ready := fun j no' c' hj => ?_ }
  · rcases List.mem_append.mp ha with hold | hnew
    · exact h.bounded a hold
    · obtain ⟨xs, hxs⟩ := hgreeted
      rw [List.mem_singleton.mp hnew]
      exact h.bounded (.opened i no) (List.mem_of_mem_filter (hxs ▸ List.mem_cons_self))
  · refine (h.other_links (a := .said i no x) (fun heq => ?_) fun _ => hunopened).2 hj
    obtain ⟨xs, hxs⟩ := hgreeted
    have hsame := (h.opened j no' hj).1
    simp only [LinkAct.no] at heq
    rw [← heq, hxs] at hsame
    cases hsame
  · by_cases heq : no = no'
    · subst heq
      obtain ⟨rfl, rfl⟩ := hgreeted.slot (h.ready j no c' hj).1
      obtain ⟨xs, hxs⟩ := hgreeted
      refine ⟨⟨xs ++ [x], ?_⟩, hnewest.concat fun _ => Or.inl hunopened⟩
      simp [Links.say, on_append, on_singleton, hxs, LinkAct.no]
    · exact (h.other_links (a := .said i no x) heq fun _ => hunopened).1 c' hj

theorem Kept.close (h : Kept allows L) (P : ι → Prop) [DecidablePred P] :
    Kept allows (L.close P) where
  proper := h.proper
  bounded := h.bounded
  opened i no hlink := by
    simp only [Links.close] at hlink
    split at hlink
    · cases hlink
    · exact h.opened i no hlink
  ready i no c hlink := by
    simp only [Links.close] at hlink
    split at hlink
    · cases hlink
    · exact h.ready i no c hlink

section Moves

variable [DecidableEq ι]

theorem Kept.connect (h : Kept allows L) (i : ι) : Kept allows (L.connect i) where
  proper := h.proper.concat h.bounded
  bounded a ha := by
    rcases List.mem_append.mp ha with hold | hnew
    · exact Nat.lt_succ_of_lt (h.bounded a hold)
    · rw [List.mem_singleton.mp hnew]
      exact Nat.lt_succ_self _
  opened j no hlink := by
    simp only [Links.connect, Function.update_apply] at hlink
    simp only [Links.connect, on_append, on_singleton]
    split at hlink
    · rename_i hj
      subst hj
      cases hlink
      refine ⟨by simp [on_fresh h.bounded, LinkAct.no], ?_⟩
      refine Newest.concat (fun no' hmem => ?_) fun no' => ?_
      · exact (h.bounded _ hmem).le
      · by_cases hle : no' ≤ L.next
        · exact Or.inr hle
        · exact Or.inl fun heq => by
            cases heq
            exact hle le_rfl
    · rename_i hj
      obtain ⟨hon, hnewest⟩ := h.opened j no hlink
      have hlt : no < L.next :=
        h.bounded (.opened j no) (List.mem_of_mem_filter (hon ▸ List.mem_singleton_self _))
      refine ⟨?_, hnewest.concat fun no' => Or.inl fun heq => ?_⟩
      · rw [hon, if_neg (by simp only [LinkAct.no]; omega), List.append_nil]
      · cases heq
        exact hj rfl
  ready j no c hlink := by
    simp only [Links.connect, Function.update_apply] at hlink
    split at hlink
    · cases hlink
    · rename_i hj
      obtain ⟨⟨xs, hon⟩, hnewest⟩ := h.ready j no c hlink
      have hlt : no < L.next :=
        h.bounded (.opened j no) (List.mem_of_mem_filter (hon ▸ List.mem_cons_self))
      refine ⟨⟨xs, ?_⟩, hnewest.concat fun no' => Or.inl fun heq => ?_⟩
      · simp only [Links.connect, on_append, on_singleton]
        rw [hon, if_neg (by simp only [LinkAct.no]; omega), List.append_nil]
      · cases heq
        exact hj rfl

theorem Kept.greet (h : Kept allows L) (hlink : L.link i = .opened no) (answer : Option γ) :
    Kept allows (L.greet i no answer) := by
  obtain ⟨hopened, hnewest⟩ := h.opened i no hlink
  have hon : on (L.log ++ [.greeted i no answer]) no =
      [.opened i no, .greeted i no answer] := by
    rw [on_append, on_singleton, hopened]
    exact congrArg (_ ++ ·) (if_pos rfl)
  have hunopened : ∀ {j no'}, (.greeted i no answer : LinkAct ι γ μ) ≠ .opened j no' :=
    fun heq => by cases heq
  have hother : ∀ {j no'}, j ≠ i → (∀ c, L.link j = .ready no' c → no ≠ no') ∧
      (L.link j = .opened no' → no ≠ no') := by
    intro j no' hj
    refine ⟨fun c hready heq => ?_, fun hopen heq => ?_⟩
    · obtain ⟨⟨xs, hxs⟩, -⟩ := h.ready j no' c hready
      rw [← heq, hopened] at hxs
      cases hxs
    · have hsame := (h.opened j no' hopen).1
      rw [← heq, hopened] at hsame
      cases hsame
      exact hj rfl
  refine
    { proper := h.proper.concat ⟨hopened, hnewest⟩
      bounded := fun a ha => ?_
      opened := fun j no' hj => ?_
      ready := fun j no' c hj => ?_ }
  · rcases List.mem_append.mp ha with hold | hnew
    · exact h.bounded a hold
    · rw [List.mem_singleton.mp hnew]
      exact h.bounded (.opened i no)
        (List.mem_of_mem_filter (hopened ▸ List.mem_singleton_self _))
  · simp only [Links.greet, Function.update_apply] at hj
    split at hj
    · cases answer <;> cases hj
    · rename_i hne
      exact (h.other_links (a := .greeted i no answer) ((hother hne).2 hj) fun _ => hunopened).2 hj
  · simp only [Links.greet, Function.update_apply] at hj
    split at hj
    · rename_i heq
      subst heq
      cases answer with
      | none => cases hj
      | some c' =>
          cases hj
          exact ⟨⟨[], hon⟩, hnewest.concat fun _ => Or.inl hunopened⟩
    · rename_i hne
      exact (h.other_links (a := .greeted i no answer) ((hother hne).1 c hj)
        fun _ => hunopened).1 c hj

theorem Kept.move (h : Kept allows L) (hmove : Move allows L L') : Kept allows L' := by
  cases hmove with
  | connect i => exact h.connect i
  | greet answer hlink => exact h.greet hlink answer
  | say hlink hallowed => exact h.say hlink hallowed
  | close P => exact h.close P

theorem Kept.runs (h : Kept allows L) (hruns : Runs allows L L') : Kept allows L' := by
  induction hruns with
  | refl => exact h
  | tail _ hmove ih => exact ih.move hmove

/-- **The log of a run is proper.** -/
theorem proper_of_runs (h : Runs allows (empty : Links ι γ μ) L) : Proper allows L.log :=
  (kept_empty.runs h).proper

end Moves

/-! ### What an observer sees -/

theorem exists_of_shown {log : List (LinkAct ι γ μ)} {before : List (LinkAct ι Unit μ)}
    {a : LinkAct ι Unit μ} (h : before ++ [a] <+: log.map LinkAct.shown) :
    ∃ before' a', before' ++ [a'] <+: log ∧ before'.map LinkAct.shown = before ∧
      a'.shown = a := by
  obtain ⟨rest, hrest⟩ := h
  obtain ⟨first, last, rfl, hfirst, -⟩ := List.map_eq_append_iff.mp hrest.symm
  obtain ⟨before', one, rfl, hbefore, hone⟩ := List.map_eq_append_iff.mp hfirst
  obtain ⟨a', rfl, ha⟩ := List.map_eq_singleton_iff.mp hone
  exact ⟨before', a', List.prefix_append _ _, hbefore, ha⟩

theorem on_shown (log : List (LinkAct ι γ μ)) (no : Nat) :
    on (log.map LinkAct.shown) no = (on log no).map LinkAct.shown := by
  simp only [on, List.filter_map]
  congr 2
  funext a
  simp

theorem newest_shown {log : List (LinkAct ι γ μ)} {i : ι} {no : Nat} :
    Newest (log.map LinkAct.shown) i no ↔ Newest log i no := by
  refine forall_congr' fun no' => imp_congr_left ?_
  rw [List.mem_map]
  constructor
  · rintro ⟨a, ha, heq⟩
    cases a <;> cases heq
    exact ha
  · intro hmem
    exact ⟨_, hmem, rfl⟩

end Links
