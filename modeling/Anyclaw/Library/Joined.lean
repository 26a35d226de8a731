import Mathlib.Data.List.Infix
import Anyclaw.Library.Transition

/-!
# Machines that read from each other

A node is a machine that sends messages and takes messages: its states show what has been
sent so far, and a label shows what it takes.  Two nodes are joined so that each takes what
the other has sent, in that order and each message once; otherwise they go on independently.

`received_prefix` is what the order is good for: what a node has received is always the
beginning of what the other has sent.
-/

namespace Machine

/-- A machine with what it has sent, and with what its labels take. -/
structure Node (σ ι α β : Type*) where
  machine : Machine σ ι
  sent : σ → List α
  takes : ι → Option β

namespace Node

variable {σ ι τ κ α β : Type*}

def received (M : Node σ ι α β) (steps : List (Taken σ ι)) : List β :=
  steps.filterMap fun t => M.takes t.label

/-- Nothing that was sent is taken back, in any run. -/
def Grows (M : Node σ ι α β) : Prop :=
  ∀ s l s', M.machine.Reachable s → M.machine.step s l = some s' → M.sent s <+: M.sent s'

/-- The label takes nothing, or the first message that has not been received. -/
def TakesNext [DecidableEq β] (M : Node σ ι α β) (steps : List (Taken σ ι))
    (sent : List β) (l : ι) : Prop :=
  ∀ b ∈ M.takes l, sent[(M.received steps).length]? = some b

instance [DecidableEq β] (M : Node σ ι α β) (steps : List (Taken σ ι)) (sent : List β)
    (l : ι) : Decidable (M.TakesNext steps sent l) :=
  inferInstanceAs (Decidable (∀ b ∈ M.takes l, _))

variable [DecidableEq α] [DecidableEq β]

/-- Both nodes with their histories; a label is one of either. -/
def joined (M : Node σ ι α β) (N : Node τ κ β α) :
    Machine ((List (Taken σ ι) × σ) × (List (Taken τ κ) × τ)) (ι ⊕ κ) where
  init x := M.machine.recorded.init x.1 ∧ N.machine.recorded.init x.2
  step x
    | .inl l =>
        if M.TakesNext x.1.1 (N.sent x.2.2) l then
          (M.machine.recorded.step x.1 l).map fun y => (y, x.2)
        else none
    | .inr l =>
        if N.TakesNext x.2.1 (M.sent x.1.2) l then
          (N.machine.recorded.step x.2 l).map fun y => (x.1, y)
        else none

variable {M : Node σ ι α β} {N : Node τ κ β α}
  {x x' : (List (Taken σ ι) × σ) × (List (Taken τ κ) × τ)}

/-- The steps of joined nodes, one case for each side. -/
theorem joined_step {l : ι ⊕ κ} (h : (joined M N).step x l = some x') :
    (∃ l', M.TakesNext x.1.1 (N.sent x.2.2) l' ∧ M.machine.recorded.step x.1 l' = some x'.1 ∧
        x'.2 = x.2) ∨
      ∃ l', N.TakesNext x.2.1 (M.sent x.1.2) l' ∧ N.machine.recorded.step x.2 l' = some x'.2 ∧
        x'.1 = x.1 := by
  cases l with
  | inl l =>
      obtain ⟨hnext, hmap⟩ := Option.ite_none_right_eq_some.mp h
      obtain ⟨y, hy, rfl⟩ := Option.map_eq_some_iff.mp hmap
      exact Or.inl ⟨l, hnext, hy, rfl⟩
  | inr l =>
      obtain ⟨hnext, hmap⟩ := Option.ite_none_right_eq_some.mp h
      obtain ⟨y, hy, rfl⟩ := Option.map_eq_some_iff.mp hmap
      exact Or.inr ⟨l, hnext, hy, rfl⟩

/-- Each side of a joined run is a run of its machine. -/
theorem reachable_of_joined (h : (joined M N).Reachable x) :
    M.machine.recorded.Reachable x.1 ∧ N.machine.recorded.Reachable x.2 := by
  refine h.invariant (I := fun x => M.machine.recorded.Reachable x.1 ∧
    N.machine.recorded.Reachable x.2) ?_ ?_
  · rintro x ⟨hM, hN⟩
    exact ⟨.init hM, .init hN⟩
  · rintro x l x' - ⟨hM, hN⟩ - hstep
    rcases joined_step hstep with ⟨l', -, hmoved, hsame⟩ | ⟨l', -, hmoved, hsame⟩
    · rw [hsame]
      exact ⟨hM.step trivial hmoved, hN⟩
    · rw [hsame]
      exact ⟨hM, hN.step trivial hmoved⟩

omit [DecidableEq α] in
/-- What a node takes next continues what it has received. -/
theorem received_step {sent : List β} {y y' : List (Taken σ ι) × σ} {l : ι}
    (hreceived : M.received y.1 <+: sent) (hnext : M.TakesNext y.1 sent l)
    (hstep : M.machine.recorded.step y l = some y') : M.received y'.1 <+: sent := by
  obtain ⟨-, hsteps⟩ := of_recorded_step hstep
  rw [hsteps, received, List.filterMap_append]
  cases htakes : M.takes l with
  | none => simpa [htakes, received] using hreceived
  | some b =>
      obtain ⟨rest, hrest⟩ := hreceived
      have hhead : rest[0]? = some b := by
        have hget := hnext b htakes
        rw [← hrest, List.getElem?_append_right le_rfl, Nat.sub_self] at hget
        exact hget
      obtain ⟨rest', rfl⟩ : ∃ rest', rest = b :: rest' := by
        cases rest with
        | nil => cases hhead
        | cons b' rest' =>
            cases hhead
            exact ⟨rest', rfl⟩
      exact ⟨rest', by simp [← hrest, htakes, received]⟩

/-- **Messages arrive in order**: what each side has received is the beginning of what the
    other has sent. -/
theorem received_prefix (hM : M.Grows) (hN : N.Grows) (h : (joined M N).Reachable x) :
    M.received x.1.1 <+: N.sent x.2.2 ∧ N.received x.2.1 <+: M.sent x.1.2 := by
  refine h.invariant (I := fun x => M.received x.1.1 <+: N.sent x.2.2 ∧
    N.received x.2.1 <+: M.sent x.1.2) ?_ ?_
  · rintro ⟨⟨steps, s⟩, steps', t⟩ ⟨⟨rfl, -⟩, rfl, -⟩
    exact ⟨List.nil_prefix, List.nil_prefix⟩
  · rintro x l x' hreach ⟨hreceived, hreceived'⟩ - hstep
    obtain ⟨hleft, hright⟩ := reachable_of_joined hreach
    rcases joined_step hstep with ⟨l', hnext, hmoved, hsame⟩ | ⟨l', hnext, hmoved, hsame⟩
    · rw [hsame]
      refine ⟨received_step hreceived hnext hmoved, hreceived'.trans ?_⟩
      exact hM _ _ _ (hleft.of_recorded fun _ _ _ => trivial) (of_recorded_step hmoved).1
    · rw [hsame]
      refine ⟨hreceived.trans ?_, received_step hreceived' hnext hmoved⟩
      exact hN _ _ _ (hright.of_recorded fun _ _ _ => trivial) (of_recorded_step hmoved).1

end Node

end Machine
