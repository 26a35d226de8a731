import Anyclaw.Supervisor.Restarts

/-!
# The wiring between running managers

`boot_managers` connects the three managers: the channels manager's handle on the agents
manager, the agents manager's handle on the tools manager, and the pipe of channel events
from the agents to the channels manager.  A restart makes the ends of one manager anew
and tells no running peer, and it passes on neither end of the events pipe.

`boot_managers` is in `crates/anyclaw-supervisor/src/lib.rs`; the restart is in `health.rs`
and makes its manager with `create_manager` (`factory.rs`).

* `wired_booted`: the wiring after boot.
* `Checked.wired`: a restart keeps the wiring while the peers it would have to tell are
  not running.
* `Checked.unwired`: it breaks the wiring whenever such a peer is running.
-/

namespace Anyclaw

namespace Supervisor

variable {s s' : State} {name : ManagerName} {a : CheckAnswers} {restarts window : Nat}

def runningIn : Option JoinHandle → Option ManagerKind
  | some { manager := manager, result := none } => some manager
  | _ => none

/-- The manager that the slot's task runs. -/
def State.running (s : State) (name : ManagerName) : Option ManagerKind :=
  runningIn (s.slots name).joinHandle

/-- The channels between running managers connect them as after boot. -/
structure Wired (s : State) : Prop where
  commands : ∀ c a, s.running .channels = some (.channels c) → s.running .agents = some (.agents a) →
    c.agentsHandle = a.cmdRx
  tools : ∀ a t, s.running .agents = some (.agents a) → s.running .tools = some (.tools t) →
    a.toolsHandle = t.cmdRx
  events : ∀ a c, s.running .agents = some (.agents a) → s.running .channels = some (.channels c) →
    ∃ e, a.channelsSender = some e ∧ c.channelEventsRx = some e

/-- A restart of the one manager leaves the other with an end that leads nowhere. -/
def ManagerName.peer : ManagerName → ManagerName
  | .tools => .agents
  | .agents => .channels
  | .channels => .agents

/-- A manager is made anew and started only while its peer is not running. -/
def KeepsWiring (s : State) : Label → Prop
  | .checkNext a =>
      ∀ name ∈ s.checking.head?, s.Restarts name a → a.started = true →
        s.running name.peer = none
  | _ => True

instance (s : State) (l : Label) : Decidable (KeepsWiring s l) := by
  induction l using Label.casesOn with
  | checkNext a => exact Option.decidableForallMem ..
  | _ => exact isTrue trivial

/-! ### The manager in a slot -/

def ManagerKind.managerName : ManagerKind → ManagerName
  | .tools _ => .tools
  | .agents _ => .agents
  | .channels _ => .channels

/-- What holds in every run: a slot runs a manager of its own kind, and the supervisor
    holds the sender of the running tools manager. -/
structure Held (s : State) : Prop where
  kind : ∀ name m, s.running name = some m → m.managerName = name
  tools : ∀ t, s.running .tools = some (.tools t) → s.toolsTx = some t.cmdRx

/-- A running manager's handle on the tools manager is older than the next channel. -/
structure Older (s : State) : Prop where
  toolsTx : ∀ tx, s.toolsTx = some tx → tx < s.fresh
  toolsHandle : ∀ a, s.running .agents = some (.agents a) → a.toolsHandle < s.fresh

theorem running_congr (h : s'.slots name = s.slots name) : s'.running name = s.running name := by
  unfold State.running
  rw [h]

theorem running_modifySlot (s : State) (name : ManagerName) (f : ManagerSlot → ManagerSlot) :
    (s.modifySlot name f).running name = runningIn (f (s.slots name)).joinHandle := by
  unfold State.running
  rw [modifySlot_slots_same]

@[simp] theorem running_report (s : State) (r : Report) (name : ManagerName) :
    (s.report r).running name = s.running name := rfl

@[simp] theorem running_taken (s : State) (name : ManagerName) :
    (s.taken name).running name = none :=
  running_modifySlot s name _

@[simp] theorem running_counted (s : State) (name : ManagerName) (a : CheckAnswers) :
    (s.counted name a).running name = s.running name :=
  running_modifySlot s name _

@[simp] theorem running_supplied (s : State) (name name' : ManagerName) :
    (s.supplied name).running name' = s.running name' :=
  running_congr (congrFun (supplied_slots s name) name')

@[simp] theorem running_spawned (s : State) (name : ManagerName) (manager : ManagerKind) :
    (s.spawned name manager).running name = some manager :=
  running_modifySlot s name _

/-- Running managers that are still there afterwards keep their wiring. -/
theorem Wired.of_fewer (h : Wired s)
    (hfewer : ∀ name m, s'.running name = some m → s.running name = some m) : Wired s' where
  commands c a hc ha := h.commands c a (hfewer _ _ hc) (hfewer _ _ ha)
  tools a t ha ht := h.tools a t (hfewer _ _ ha) (hfewer _ _ ht)
  events a c ha hc := h.events a c (hfewer _ _ ha) (hfewer _ _ hc)

/-- Every wire has an end at the agents manager. -/
theorem Wired.of_no_agents (h : s.running .agents = none) : Wired s where
  commands c a _ ha := by
    rw [h] at ha
    cases ha
  tools a t ha _ := by
    rw [h] at ha
    cases ha
  events a c ha _ := by
    rw [h] at ha
    cases ha

theorem Held.of_fewer (h : Held s)
    (hfewer : ∀ name m, s'.running name = some m → s.running name = some m)
    (htools : s'.toolsTx = s.toolsTx ∨ s'.running .tools = none) : Held s' where
  kind name m hm := h.kind name m (hfewer name m hm)
  tools t ht := by
    rcases htools with htools | hnone
    · rw [htools]
      exact h.tools t (hfewer _ _ ht)
    · rw [hnone] at ht
      cases ht

section Check

variable {toolsTx agentsCmdTx : Channel}

/-- The slot whose task has ended runs nothing, and neither does it after its handle is
    taken. -/
theorem Checked.running (h : Checked s name a toolsTx agentsCmdTx s') :
    s'.running name = s.running name ∨ s'.running name = none ∨
      (s.Restarts name a ∧ a.started = true ∧
        s'.running name = some (s.remade name toolsTx agentsCmdTx) ∧
        (name = .tools → s'.toolsTx = some s.fresh)) := by
  have hcounted : ∀ r, (((s.taken name).report r).counted name a).running name = none := by
    intro r
    simp
  cases h with
  | alive _ => exact Or.inl rfl
  | exited _ =>
      refine Or.inr (Or.inl ?_)
      simp
  | looped r _ _ hs₁ =>
      refine Or.inr (Or.inl ?_)
      subst hs₁
      split
      · exact hcounted r
      · exact hcounted r
  | failed r _ _ hs₁ =>
      refine Or.inr (Or.inl ?_)
      subst hs₁
      simp
  | @restarted s₁ r hrestart hstarted hs₁ =>
      refine Or.inr (Or.inr ⟨hrestart, hstarted, ?_, ?_⟩)
      · subst hs₁
        rw [running_report, running_spawned]
        rfl
      · intro htools
        subst htools hs₁
        rfl

/-- The step lemma: a check keeps what the supervisor holds. -/
theorem Checked.held (h : Checked s name a toolsTx agentsCmdTx s') (hheld : Held s) : Held s' := by
  have hkeeps := h.keeps
  constructor
  · intro name' m hm
    by_cases hname : name' = name
    · subst hname
      rcases h.running with hsame | hnone | ⟨_, _, hremade, _⟩
      · exact hheld.kind name' m (hsame ▸ hm)
      · rw [hnone] at hm
        cases hm
      · rw [hremade] at hm
        cases Option.some.inj hm
        cases name' <;> rfl
    · rw [running_congr (hkeeps.others name' hname)] at hm
      exact hheld.kind name' m hm
  · intro t ht
    by_cases hname : name = .tools
    · subst hname
      rcases h.running with hsame | hnone | ⟨_, _, hremade, htools⟩
      · rw [hsame] at ht
        have hrunning : s.Ended .tools .failed ∨ s.Ended .tools .panicked → False := by
          rintro (⟨handle, hhandle, hr⟩ | ⟨handle, hhandle, hr⟩) <;>
          · unfold State.running at ht
            rw [hhandle] at ht
            obtain ⟨manager, result⟩ := handle
            cases hr
            cases ht
        cases h with
        | alive _ => exact hheld.tools t ht
        | exited _ => exact hheld.tools t ht
        | looped _ hended _ _ => exact (hrunning hended).elim
        | failed _ hrestart _ _ => exact (hrunning hrestart.1).elim
        | restarted _ hrestart _ _ => exact (hrunning hrestart.1).elim
      · rw [hnone] at ht
        cases ht
      · rw [hremade] at ht
        cases Option.some.inj ht
        exact htools rfl
    · rw [running_congr (hkeeps.others .tools (Ne.symm hname))] at ht
      rw [hkeeps.toolsTx hname]
      exact hheld.tools t ht

/-- The step lemma: a check that restarts a manager keeps the wiring if the manager's peer
    is not running. -/
theorem Checked.wired (h : Checked s name a toolsTx agentsCmdTx s') (htoolsTx : s.toolsTx = some toolsTx)
    (hheld : Held s) (hpeer : s.Restarts name a → a.started = true → s.running name.peer = none)
    (hwired : Wired s) : Wired s' := by
  have hothers : ∀ name', name' ≠ name → s'.running name' = s.running name' :=
    fun name' hname => running_congr (h.keeps.others name' hname)
  rcases h.running with hsame | hnone | ⟨hrestart, hstarted, hremade, _⟩
  · apply hwired.of_fewer
    intro name' m hm
    by_cases hname : name' = name
    · subst hname
      exact hsame ▸ hm
    · exact hothers name' hname ▸ hm
  · apply hwired.of_fewer
    intro name' m hm
    by_cases hname : name' = name
    · subst hname
      rw [hnone] at hm
      cases hm
    · exact hothers name' hname ▸ hm
  · have hdown := hpeer hrestart hstarted
    cases name with
    | tools =>
        exact .of_no_agents ((hothers .agents (by decide)).trans hdown)
    | agents =>
        have hchannels : s'.running .channels = none := (hothers .channels (by decide)).trans hdown
        constructor
        · intro c a' hc _
          rw [hchannels] at hc
          cases hc
        · intro a' t ha ht
          rw [hremade] at ha
          rw [hothers .tools (by decide)] at ht
          have hsender := hheld.tools t ht
          rw [htoolsTx] at hsender
          cases Option.some.inj ha
          exact Option.some.inj hsender
        · intro a' c _ hc
          rw [hchannels] at hc
          cases hc
    | channels =>
        exact .of_no_agents ((hothers .agents (by decide)).trans hdown)

/-- The converse: it breaks the wiring if the peer is running. -/
theorem Checked.unwired (h : Checked s name a toolsTx agentsCmdTx s') (hheld : Held s)
    (holder : Older s) (hrestart : s.Restarts name a) (hstarted : a.started = true)
    (hpeer : s.running name.peer ≠ none) : ¬ Wired s' := by
  have hothers : ∀ name', name' ≠ name → s'.running name' = s.running name' :=
    fun name' hname => running_congr (h.keeps.others name' hname)
  have hremade : s'.running name = some (s.remade name toolsTx agentsCmdTx) := by
    cases h with
    | alive hended =>
        rcases hrestart.1 with hfailed | hpanicked
        · exact absurd hfailed (hended _)
        · exact absurd hpanicked (hended _)
    | exited hended => exact (hended.unique hrestart.1).elim
    | looped _ _ hloop _ => exact absurd hloop hrestart.2
    | failed _ _ hfailed _ =>
        rw [hstarted] at hfailed
        cases hfailed
    | restarted _ _ _ hs₁ =>
        subst hs₁
        rw [running_report, running_spawned]
        rfl
  obtain ⟨m, hm⟩ := Option.ne_none_iff_exists'.mp hpeer
  have hkind := hheld.kind _ m hm
  intro hwired
  cases name with
  | tools =>
      obtain ⟨_⟩ | ⟨a'⟩ | ⟨_⟩ := m
      · cases hkind
      · have hsame := hwired.tools a' _ ((hothers .agents (by decide)).trans hm) hremade
        have hless := holder.toolsHandle a' hm
        rw [hsame] at hless
        exact Nat.lt_irrefl _ hless
      · cases hkind
  | agents =>
      obtain ⟨_⟩ | ⟨_⟩ | ⟨c⟩ := m
      · cases hkind
      · cases hkind
      · obtain ⟨e, he, _⟩ := hwired.events _ c hremade ((hothers .channels (by decide)).trans hm)
        cases he
  | channels =>
      obtain ⟨_⟩ | ⟨a'⟩ | ⟨_⟩ := m
      · cases hkind
      · obtain ⟨e, _, he⟩ := hwired.events a' _ ((hothers .agents (by decide)).trans hm) hremade
        cases he
      · cases hkind

/-- The step lemma: a check keeps handles older than the next channel. -/
theorem Checked.older (h : Checked s name a toolsTx agentsCmdTx s') (htoolsTx : s.toolsTx = some toolsTx)
    (holder : Older s) : Older s' := by
  have hfresh : s.fresh ≤ s'.fresh ∧ ∀ tx, s'.toolsTx = some tx → tx < s'.fresh := by
    have hsupplied : ∀ s₁ : State, s₁.fresh = s.fresh → s₁.toolsTx = s.toolsTx →
        s.fresh ≤ (s₁.supplied name).fresh ∧
          ∀ tx, (s₁.supplied name).toolsTx = some tx → tx < (s₁.supplied name).fresh := by
      intro s₁ hf ht
      unfold State.supplied
      split
      · refine ⟨Nat.le_trans (Nat.le_of_eq hf.symm) (Nat.le_add_right _ 2), ?_⟩
        intro tx htx
        cases htx
        exact Nat.lt_succ_of_lt (Nat.lt_succ_self _)
      · refine ⟨Nat.le_trans (Nat.le_of_eq hf.symm) (Nat.le_succ _), ?_⟩
        intro tx htx
        have hless : tx < s.fresh := holder.toolsTx tx (ht ▸ htx)
        rw [← hf] at hless
        exact Nat.lt_succ_of_lt hless
    cases h with
    | alive _ => exact ⟨Nat.le_refl _, holder.toolsTx⟩
    | exited _ => exact ⟨Nat.le_refl _, holder.toolsTx⟩
    | looped r _ _ hs₁ =>
        subst hs₁
        split
        · exact ⟨Nat.le_refl _, holder.toolsTx⟩
        · exact ⟨Nat.le_refl _, holder.toolsTx⟩
    | failed r _ _ hs₁ =>
        subst hs₁
        exact hsupplied _ rfl rfl
    | restarted r _ _ hs₁ =>
        subst hs₁
        exact hsupplied _ rfl rfl
  refine ⟨hfresh.2, ?_⟩
  intro a' ha
  have hold : ∀ a', s.running .agents = some (.agents a') → a'.toolsHandle < s'.fresh :=
    fun a' ha => Nat.lt_of_lt_of_le (holder.toolsHandle a' ha) hfresh.1
  by_cases hname : name = .agents
  · subst hname
    rcases h.running with hsame | hnone | ⟨_, _, hremade, _⟩
    · exact hold a' (hsame ▸ ha)
    · rw [hnone] at ha
      cases ha
    · rw [hremade] at ha
      cases Option.some.inj ha
      exact Nat.lt_of_lt_of_le (holder.toolsTx toolsTx htoolsTx) hfresh.1
  · exact hold a' ((running_congr (h.keeps.others .agents (Ne.symm hname))).symm.trans ha)

end Check

/-- When a task ends, one manager less is running. -/
theorem running_taskEnds (name : ManagerName) (r : TaskResult) (manager : ManagerKind)
    (name' : ManagerName) (m : ManagerKind)
    (hm : (s.modifySlot name fun slot =>
      { slot with joinHandle := some { manager := manager, result := some r } }).running name' =
        some m) : s.running name' = some m := by
  by_cases hname : name' = name
  · subst hname
    rw [running_modifySlot] at hm
    cases hm
  · rwa [running_congr (modifySlot_slots_other s _ hname)] at hm

theorem Turn.held {l : Label} (h : Turn s l s') (hheld : Held s) (holder : Older s) :
    Held s' ∧ Older s' := by
  have hfewer : ∀ {s' : State}, (∀ name m, s'.running name = some m → s.running name = some m) →
      s'.toolsTx = s.toolsTx → s'.fresh = s.fresh → Held s' ∧ Older s' := by
    intro s' hfewer htools hfresh
    refine ⟨hheld.of_fewer hfewer (Or.inl htools), ?_, ?_⟩
    · rw [htools, hfresh]
      exact holder.toolsTx
    · intro a ha
      rw [hfresh]
      exact holder.toolsHandle a (hfewer _ _ ha)
  cases h with
  | taskEnds name r manager hhandle => exact hfewer (running_taskEnds name r manager) rfl rfl
  | tick _ => exact hfewer (fun _ _ h => h) rfl rfl
  | checkNext name rest a _ _ _ htools _ hchecked =>
      have hbefore : Held { s with checking := rest } ∧ Older { s with checking := rest } :=
        hfewer (fun _ _ h => h) rfl rfl
      exact ⟨hchecked.held hbefore.1, hchecked.older htools hbefore.2⟩
  | cancel => exact hfewer (fun _ _ h => h) rfl rfl
  | shutdown _ => exact hfewer (fun _ _ h => nomatch h) rfl rfl

theorem Turn.wired {l : Label} (h : Turn s l s') (hkeeps : KeepsWiring s l) (hheld : Held s)
    (hwired : Wired s) : Wired s' := by
  cases h with
  | taskEnds name r manager hhandle => exact hwired.of_fewer (running_taskEnds name r manager)
  | tick _ => exact hwired.of_fewer fun _ _ h => h
  | checkNext name rest a toolsTx agentsCmdTx hchecking htools _ hchecked =>
      have hheld' : Held { s with checking := rest } := hheld.of_fewer (fun _ _ h => h) (Or.inl rfl)
      refine hchecked.wired htools hheld' ?_ (hwired.of_fewer fun _ _ h => h)
      intro hrestart hstarted
      refine hkeeps name ?_ hrestart hstarted
      rw [hchecking]
      rfl
  | cancel => exact hwired.of_fewer fun _ _ h => h
  | shutdown _ => exact hwired.of_fewer fun _ _ h => nomatch h

/-! ### Runs -/

theorem held_booted : Held (booted restarts window) := by
  constructor
  · intro name m hm
    cases name <;> cases Option.some.inj hm <;> rfl
  · intro t ht
    cases Option.some.inj ht
    rfl

/-- After boot all three managers run and are wired. -/
theorem wired_booted : Wired (booted restarts window) ∧
    ∀ name, (booted restarts window).running name ≠ none := by
  refine ⟨⟨?_, ?_, ?_⟩, ?_⟩
  · intro c a hc ha
    cases Option.some.inj hc
    cases Option.some.inj ha
    rfl
  · intro a t ha ht
    cases Option.some.inj ha
    cases Option.some.inj ht
    rfl
  · intro a c ha hc
    cases Option.some.inj ha
    cases Option.some.inj hc
    exact ⟨0, rfl, rfl⟩
  · intro name
    simp [State.running, booted, runningIn]

/-- What every run keeps besides the wiring. -/
theorem held_of_reachable {G : State → Label → Prop}
    (h : (machine restarts window).ReachableUnder G s) : Held s ∧ Older s := by
  apply h.invariant
  · intro s₀ hinit
    rw [init_iff.mp hinit]
    refine ⟨held_booted, ?_, ?_⟩
    · intro tx htx
      cases Option.some.inj htx
      exact (by decide : (1 : Nat) < 5)
    · intro a ha
      cases Option.some.inj ha
      exact (by decide : (1 : Nat) < 5)
  · rintro s l s' hreach ⟨hheld, holder⟩ _ hstep
    exact (turn_of_step (supplied_of_reachable hreach) hstep).2.held hheld holder

/-- **Restarts keep the wiring.**  In every run in which a manager is restarted only while
    its peer is not running, the running managers are wired as after boot. -/
theorem wired_of_keepsWiring (h : (machine restarts window).ReachableUnder KeepsWiring s) :
    Wired s := by
  apply h.invariant
  · intro s₀ hinit
    rw [init_iff.mp hinit]
    exact wired_booted.1
  · intro s l s' hreach hwired hG hstep
    exact (turn_of_step (supplied_of_reachable hreach) hstep).2.wired hG
      (held_of_reachable hreach).1 hwired

/-- In every run, a restart that succeeds in a wired state keeps the wiring exactly if the
    peer of the new manager is not running. -/
theorem wired_iff_of_restart {G : State → Label → Prop} {rest : List ManagerName}
    (h : (machine restarts window).ReachableUnder G s) (hwired : Wired s)
    (hchecking : s.checking = name :: rest) (hrestart : s.Restarts name a)
    (hstarted : a.started = true) (hstep : step s (.checkNext a) = some s') :
    Wired s' ↔ s.running name.peer = none := by
  obtain ⟨hheld, holder⟩ := held_of_reachable h
  constructor
  · intro hwired'
    by_contra hpeer
    cases (turn_of_step (supplied_of_reachable h) hstep).2 with
    | checkNext name' rest' _ _ _ hchecking' _ _ hchecked =>
        rw [hchecking] at hchecking'
        cases hchecking'
        exact hchecked.unwired (hheld.of_fewer (fun _ _ h => h) (Or.inl rfl))
          ⟨holder.toolsTx, holder.toolsHandle⟩ hrestart hstarted hpeer hwired'
  · intro hpeer
    refine (turn_of_step (supplied_of_reachable h) hstep).2.wired ?_ hheld hwired
    intro name' hname' _ _
    rw [hchecking] at hname'
    cases Option.some.inj hname'
    exact hpeer

/-- A wired restart of the tools manager, after the agents manager has gone. -/
theorem wired_of_keepsWiring_tools : ∃ s, (machine 5 60000).ReachableUnder KeepsWiring s ∧
    Report.restarted .tools ∈ s.reports ∧ Wired s := by
  have hrun : ∃ s ∈ (machine 5 60000).run KeepsWiring (booted 5 60000)
      [.taskEnds .agents .exited, .taskEnds .tools .failed, .tick, .checkNext ⟨10, 10, true⟩],
      Report.restarted .tools ∈ s.reports := by decide
  obtain ⟨s, hs, hrestarted⟩ := hrun
  have hreach : (machine 5 60000).ReachableUnder KeepsWiring s :=
    Machine.reachable_of_run _ (init_iff.mpr rfl) hs
  exact ⟨s, hreach, hrestarted, wired_of_keepsWiring hreach⟩

/-- The agents manager panics once and is restarted: the channels manager still holds the
    handle of the one that is gone, and no events reach it any more. -/
theorem unwired_after_restart : ∃ s, (machine 5 60000).Reachable s ∧
    Report.restarted .agents ∈ s.reports ∧ s.checking = [] ∧ ¬ Wired s := by
  have hrun : ∃ s ∈ (machine 5 60000).run (fun _ _ => True) (booted 5 60000)
      [.taskEnds .agents .panicked, .tick, .checkNext ⟨10, 10, true⟩, .checkNext ⟨20, 20, true⟩,
        .checkNext ⟨30, 30, true⟩],
      Report.restarted .agents ∈ s.reports ∧ s.checking = [] ∧
        s.running .agents =
          some (.agents { toolsHandle := 1, cmdRx := 5, channelsSender := none }) ∧
        s.running .channels =
          some (.channels { agentsHandle := 3, cmdRx := 4, channelEventsRx := some 0 }) := by
    decide
  obtain ⟨s, hs, hrestarted, hidle, hagents, hchannels⟩ := hrun
  refine ⟨s, Machine.reachable_of_run _ (init_iff.mpr rfl) hs, hrestarted, hidle, ?_⟩
  intro hwired
  have hsame := hwired.commands _ _ hchannels hagents
  cases hsame

end Supervisor

end Anyclaw
