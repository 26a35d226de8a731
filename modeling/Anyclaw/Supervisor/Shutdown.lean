import Mathlib.Data.Finset.Insert
import Mathlib.Data.Fintype.Defs
import Mathlib.Data.List.Infix
import Anyclaw.Supervisor.Restarts

/-!
# Ordered shutdown

`run_with_cancel` from its first line to the end of `shutdown_ordered`: the boot, the
loop of `Managers.lean` and the shutdown, slot by slot and with its timeouts.  The task
of a manager may observe its cancellation from the moment its token is cancelled.

The slots' tokens are child tokens of the root token.  Whatever cancels the root cancels
all of them at once, before `shutdown_ordered` has done anything.

`run_with_cancel` is in `crates/anyclaw-supervisor/src/lib.rs`, `shutdown_ordered` in
`shutdown.rs`.
-/

namespace Anyclaw

namespace Supervisor

def ManagerName.stopsAfter : ManagerName → Option ManagerName
  | .tools => some .agents
  | .agents => some .channels
  | .channels => none

instance : Fintype ManagerName where
  elems := {.tools, .agents, .channels}
  complete name := by cases name <;> decide

/-- `closing` holds the slot whose task `shutdown_ordered` waits for and the slots that it
    has not looked at. -/
inductive Phase where
  | booting (ends : BootEnds) (left : List ManagerName)
  | serving
  | closing (waiting : Option ManagerName) (left : List ManagerName)

/-- `cancelled` says that `shutdown_ordered` has cancelled the slot's token, `timedOut`
    that it has given up waiting for its task, which goes on: the handle was taken from
    the slot before, so that there is nothing left to abort. -/
structure Life where
  sup : State
  phase : Phase
  cancelled : ManagerName → Bool
  timedOut : ManagerName → Bool

/-- What the loop of `boot_managers` starts with. -/
def bootBegin (s : State) : State × BootEnds :=
  ({ s with
      toolsTx := some s.fresh
      channelEventsTx := none
      channelEventsRx := none
      fresh := s.fresh + 1 },
    { toolsTx := s.fresh
      toolsRx := some s.fresh
      channelEventsTx := s.channelEventsTx
      channelEventsRx := s.channelEventsRx })

theorem bootManagers_eq (starts : ManagerName → Bool) (s : State) :
    bootManagers starts s =
      (managerOrder.foldlM (fun x name => bootSlot starts x.1 x.2 name) (bootBegin s)).map
        Prod.fst := by
  unfold bootManagers bootBegin
  dsimp only
  cases managerOrder.foldlM (fun x name => bootSlot starts x.1 x.2 name) _ with
  | none => rfl
  | some x => rfl

inductive LifeLabel where
  /-- The next manager is made, and `start()` succeeds or fails. -/
  | bootNext (starts : Bool)
  | taskEnds (name : ManagerName) (result : TaskResult)
  | tick
  | checkNext (a : CheckAnswers)
  /-- The root token is cancelled from outside, at any time. -/
  | cancel
  | beginShutdown
  | cancelNext
  | joined
  | timesOut
  /-- The task of a manager sees that its token is cancelled. -/
  | observes (name : ManagerName)
deriving DecidableEq

namespace Life

variable (l : Life)

def isRunning (name : ManagerName) : Bool := (l.sup.slots name).isRunning

/-- The slot's token is cancelled: itself, or the root it was derived from. -/
def tokenCancelled (name : ManagerName) : Bool := l.sup.rootCancelled || l.cancelled name

/-- The managers that the boot under way has not made yet. -/
def toBoot : List ManagerName :=
  match l.phase with
  | .booting _ left => left
  | _ => []

def within (label : Label) : Option Life :=
  (Supervisor.step l.sup label).map fun sup => { l with sup := sup }

def step : LifeLabel → Option Life
  | .bootNext starts =>
      match l.phase with
      | .booting ends (name :: left) =>
          if starts then
            (bootSlot (fun _ => true) l.sup ends name).map fun (sup, ends) =>
              { l with
                sup := sup
                phase := if left.isEmpty then .serving else .booting ends left }
          else some { l with phase := .closing none managerOrder.reverse }
      | _ => none
  | .taskEnds name result => l.within (.taskEnds name result)
  | .tick =>
      match l.phase with
      | .serving => l.within .tick
      | _ => none
  | .checkNext a =>
      match l.phase with
      | .serving => l.within (.checkNext a)
      | _ => none
  | .cancel => l.within .cancel
  | .beginShutdown =>
      match l.phase with
      | .serving =>
          if l.sup.checking = [] ∧ l.sup.rootCancelled = true then
            some { l with phase := .closing none managerOrder.reverse }
          else none
      | _ => none
  | .cancelNext =>
      match l.phase with
      | .closing none (name :: left) =>
          let waiting := if (l.sup.slots name).joinHandle.isSome then some name else none
          some { l with
            cancelled := Function.update l.cancelled name true
            phase := .closing waiting left }
      | _ => none
  | .joined =>
      match l.phase with
      | .closing (some name) left =>
          if (l.sup.slots name).needsRestart then
            some { l with sup := l.sup.taken name, phase := .closing none left }
          else none
      | _ => none
  | .timesOut =>
      match l.phase with
      | .closing (some name) left =>
          if l.isRunning name then
            some { l with
              sup := l.sup.taken name
              timedOut := Function.update l.timedOut name true
              phase := .closing none left }
          else none
      | _ => none
  | .observes name =>
      if l.tokenCancelled name = true ∧ (l.isRunning name || l.timedOut name) = true then some l
      else none

/-- The manager has finished, or used up its timeout. -/
def Settled (name : ManagerName) : Prop :=
  l.timedOut name = true ∨ (l.isRunning name = false ∧ name ∉ l.toBoot)

/-- No manager runs above another that has still to stop before it. -/
def Calm : Prop :=
  ∀ name next, name.stopsAfter = some next → l.isRunning name = true → l.Settled next

/-- The manager can be started under a cancelled root. -/
def StartsInTurn (name : ManagerName) : Prop :=
  (∀ next, name.stopsAfter = some next → l.Settled next) ∧
    ∀ lower, lower.stopsAfter = some name → l.isRunning lower = false

/-- The root is cancelled only when no two neighbours in the order of shutdown run, and
    under a cancelled root no manager is started next to one that runs. -/
def InTurn : LifeLabel → Prop
  | .cancel => l.Calm
  | .bootNext starts =>
      starts = true → l.sup.rootCancelled = true → ∀ name ∈ l.toBoot.head?, l.StartsInTurn name
  | .checkNext a =>
      ∀ name ∈ l.sup.checking.head?,
        ((l.sup.Ended name .failed ∨ l.sup.Ended name .panicked) → l.sup.CrashLoops name a →
          name.isCritical = true → l.Calm) ∧
        (l.sup.Restarts name a → a.started = true → l.sup.rootCancelled = true →
          l.StartsInTurn name)
  | _ => True

instance (name : ManagerName) : Decidable (l.Settled name) :=
  inferInstanceAs (Decidable (_ ∨ _))

instance : Decidable l.Calm :=
  inferInstanceAs (Decidable (∀ _ _, _ → _ → _))

instance (name : ManagerName) : Decidable (l.StartsInTurn name) :=
  inferInstanceAs (Decidable (_ ∧ _))

instance (label : LifeLabel) : Decidable (l.InTurn label) := by
  cases label <;> unfold InTurn <;> infer_instance

/-- The state in which `run_with_cancel` makes its slots. -/
def start (maxRestarts restartWindow : Nat) : Life where
  sup := (bootBegin (new maxRestarts restartWindow)).1
  phase := .booting (bootBegin (new maxRestarts restartWindow)).2 managerOrder
  cancelled := fun _ => false
  timedOut := fun _ => false

end Life

/-- The supervisor from `run_with_cancel` on. -/
def lives (maxRestarts restartWindow : Nat) : Machine Life LifeLabel where
  init l := l = Life.start maxRestarts restartWindow
  step := Life.step

/-! ### What the supervisor's steps do to the managers -/

/-- Every manager that runs afterwards ran before. -/
def Dwindles (s s' : State) : Prop :=
  ∀ name, (s'.slots name).isRunning = true → (s.slots name).isRunning = true

theorem taken_dwindles (s : State) (name : ManagerName) : Dwindles s (s.taken name) := by
  intro name' hrunning
  by_cases hname : name' = name
  · subst hname
    simp [State.taken, ManagerSlot.isRunning] at hrunning
  · unfold State.taken at hrunning
    rwa [modifySlot_slots_other _ _ hname] at hrunning

inductive LoopEffect (s : State) : Label → State → Prop
  | dwindles {label : Label} {s' : State} (hdwindles : Dwindles s s')
      (hroot : s'.rootCancelled = s.rootCancelled) : LoopEffect s label s'
  | cancelled {s' : State} (hdwindles : Dwindles s s') : LoopEffect s .cancel s'
  | looped {name : ManagerName} {a : CheckAnswers} {s' : State}
      (hchecking : s.checking.head? = some name)
      (hended : s.Ended name .failed ∨ s.Ended name .panicked) (hloop : s.CrashLoops name a)
      (hcritical : name.isCritical = true) (hdwindles : Dwindles s s') :
      LoopEffect s (.checkNext a) s'
  | restarted {name : ManagerName} {a : CheckAnswers} {s' : State}
      (hchecking : s.checking.head? = some name)
      (hrestart : s.Restarts name a) (hstarted : a.started = true)
      (hothers : ∀ name', name' ≠ name → s'.slots name' = s.slots name')
      (hroot : s'.rootCancelled = s.rootCancelled) : LoopEffect s (.checkNext a) s'

theorem Checked.effect {s s' : State} {name : ManagerName} {a : CheckAnswers}
    {rest : List ManagerName} {toolsTx agentsCmdTx : Channel}
    (hchecking : s.checking = name :: rest)
    (h : Checked { s with checking := rest } name a toolsTx agentsCmdTx s') :
    LoopEffect s (.checkNext a) s' := by
  have hhead : s.checking.head? = some name := by rw [hchecking]; rfl
  have hkeeps := h.keeps
  have hothers : ∀ name', name' ≠ name → s'.slots name' = s.slots name' := hkeeps.others
  have hdwindles : (s'.slots name).isRunning = false → Dwindles s s' := by
    intro hstopped name' hrunning
    by_cases hname : name' = name
    · rw [hname, hstopped] at hrunning
      cases hrunning
    · rwa [hothers name' hname] at hrunning
  cases h with
  | alive _ => exact .dwindles (fun _ h => h) rfl
  | exited _ =>
      refine .dwindles (hdwindles ?_) rfl
      simp [State.taken, ManagerSlot.isRunning]
  | looped r hended hloop hs₁ =>
      by_cases hcritical : name.isCritical = true
      · rw [if_pos hcritical] at hdwindles ⊢
        refine .looped hhead hended hloop hcritical (hdwindles ?_)
        rw [hs₁]
        simp [State.taken, State.counted, ManagerSlot.isRunning]
      · rw [if_neg hcritical] at hdwindles ⊢
        refine .dwindles (hdwindles ?_) ?_
        · rw [hs₁]
          simp [State.taken, State.counted, ManagerSlot.isRunning]
        · rw [hs₁]
          rfl
  | failed r _ _ hs₁ =>
      refine .dwindles (hdwindles ?_) ?_
      · rw [hs₁]
        simp [State.taken, State.counted, ManagerSlot.isRunning]
      · rw [hs₁]
        unfold State.supplied
        split <;> rfl
  | restarted r hrestart hstarted hs₁ =>
      refine .restarted hhead hrestart hstarted hothers ?_
      rw [hs₁]
      unfold State.supplied
      split <;> rfl

theorem Turn.effect {s s' : State} {label : Label} (h : Turn s label s')
    (hlabel : label ≠ .shutdown) :
    LoopEffect s label s' := by
  cases h with
  | taskEnds name r manager hhandle =>
      refine .dwindles ?_ rfl
      intro name' hrunning
      by_cases hname : name' = name
      · rw [hname]
        unfold ManagerSlot.isRunning
        rw [hhandle]
        rfl
      · rwa [modifySlot_slots_other _ _ hname] at hrunning
  | tick _ => exact .dwindles (fun _ h => h) rfl
  | checkNext name rest a toolsTx agentsCmdTx hchecking _ _ hchecked =>
      exact hchecked.effect hchecking
  | cancel => exact .cancelled fun _ h => h
  | shutdown _ => exact absurd rfl hlabel

namespace Life

variable {restarts window : Nat}

/-! ### What a step does -/

inductive Moved (l : Life) : LifeLabel → Life → Prop
  | booted {ends ends' : BootEnds} {name : ManagerName} {left : List ManagerName} {sup : State}
      (hphase : l.phase = .booting ends (name :: left))
      (hboot : bootSlot (fun _ => true) l.sup ends name = some (sup, ends')) :
      Moved l (.bootNext true)
        { l with
          sup := sup
          phase := if left.isEmpty then .serving else .booting ends' left }
  | bootFailed {ends : BootEnds} {name : ManagerName} {left : List ManagerName}
      (hphase : l.phase = .booting ends (name :: left)) :
      Moved l (.bootNext false) { l with phase := .closing none managerOrder.reverse }
  | ends {name : ManagerName} {r : TaskResult} {sup : State}
      (hturn : Turn l.sup (.taskEnds name r) sup) : Moved l (.taskEnds name r) { l with sup := sup }
  | ticks {sup : State} (hphase : l.phase = .serving)
      (hstep : Supervisor.step l.sup .tick = some sup) : Moved l .tick { l with sup := sup }
  | checks {a : CheckAnswers} {sup : State} (hphase : l.phase = .serving)
      (hstep : Supervisor.step l.sup (.checkNext a) = some sup) :
      Moved l (.checkNext a) { l with sup := sup }
  | cancels : Moved l .cancel { l with sup := { l.sup with rootCancelled := true } }
  | begins (hphase : l.phase = .serving) (hroot : l.sup.rootCancelled = true) :
      Moved l .beginShutdown { l with phase := .closing none managerOrder.reverse }
  | cancelsNext {name : ManagerName} {left : List ManagerName}
      (hphase : l.phase = .closing none (name :: left)) :
      Moved l .cancelNext
        { l with
          cancelled := Function.update l.cancelled name true
          phase :=
            .closing (if (l.sup.slots name).joinHandle.isSome then some name else none) left }
  | joins {name : ManagerName} {left : List ManagerName}
      (hphase : l.phase = .closing (some name) left) :
      Moved l .joined { l with sup := l.sup.taken name, phase := .closing none left }
  | givesUp {name : ManagerName} {left : List ManagerName}
      (hphase : l.phase = .closing (some name) left) :
      Moved l .timesOut
        { l with
          sup := l.sup.taken name
          timedOut := Function.update l.timedOut name true
          phase := .closing none left }
  | observes {name : ManagerName} (htoken : l.tokenCancelled name = true)
      (halive : (l.isRunning name || l.timedOut name) = true) : Moved l (.observes name) l

theorem within_eq {l l' : Life} {label : Label} (h : l.within label = some l') :
    ∃ sup, Supervisor.step l.sup label = some sup ∧ l' = { l with sup := sup } := by
  obtain ⟨sup, hsup, rfl⟩ := Option.map_eq_some_iff.mp h
  exact ⟨sup, hsup, rfl⟩

theorem moved_of_step {l l' : Life} {label : LifeLabel} (h : l.step label = some l') :
    Moved l label l' := by
  cases label with
  | bootNext starts =>
      simp only [step] at h
      split at h
      · rename_i ends name left hphase
        cases starts with
        | true =>
            obtain ⟨⟨sup, ends'⟩, hboot, rfl⟩ := Option.map_eq_some_iff.mp h
            exact .booted hphase hboot
        | false =>
            cases h
            exact .bootFailed hphase
      · cases h
  | taskEnds name r =>
      obtain ⟨sup, hsup, rfl⟩ := within_eq h
      refine .ends ?_
      simp only [Supervisor.step] at hsup
      split at hsup
      · cases hsup
      · split at hsup
        · rename_i manager hhandle
          cases hsup
          exact .taskEnds name r manager hhandle
        · cases hsup
  | tick =>
      simp only [step] at h
      split at h
      · rename_i hphase
        obtain ⟨sup, hsup, rfl⟩ := within_eq h
        exact .ticks hphase hsup
      · cases h
  | checkNext a =>
      simp only [step] at h
      split at h
      · rename_i hphase
        obtain ⟨sup, hsup, rfl⟩ := within_eq h
        exact .checks hphase hsup
      · cases h
  | cancel =>
      obtain ⟨sup, hsup, rfl⟩ := within_eq h
      simp only [Supervisor.step] at hsup
      split at hsup
      · cases hsup
      · cases hsup
        exact .cancels
  | beginShutdown =>
      simp only [step] at h
      split at h
      · rename_i hphase
        obtain ⟨hcond, h⟩ := Option.ite_none_right_eq_some.mp h
        cases h
        exact .begins hphase hcond.2
      · cases h
  | cancelNext =>
      simp only [step] at h
      split at h
      · rename_i name left hphase
        cases h
        exact .cancelsNext hphase
      · cases h
  | joined =>
      simp only [step] at h
      split at h
      · rename_i name left hphase
        obtain ⟨_, h⟩ := Option.ite_none_right_eq_some.mp h
        cases h
        exact .joins hphase
      · cases h
  | timesOut =>
      simp only [step] at h
      split at h
      · rename_i name left hphase
        obtain ⟨_, h⟩ := Option.ite_none_right_eq_some.mp h
        cases h
        exact .givesUp hphase
      · cases h
  | observes name =>
      obtain ⟨⟨htoken, halive⟩, h⟩ := Option.ite_none_right_eq_some.mp h
      cases h
      exact .observes htoken halive

/-! ### What holds in every run -/

def Untouched (l : Life) : Prop := ∀ name, l.cancelled name = false ∧ l.timedOut name = false

/-- The boot has supplied the ends that the managers made so far have published. -/
structure Booting (l : Life) (left : List ManagerName) : Prop where
  toolsTx : ∃ tx, l.sup.toolsTx = some tx
  agentsCmdTx : .agents ∉ left → ∃ tx, l.sup.agentsCmdTx = some tx
  untouched : l.Untouched

/-- `shutdown_ordered` goes through the slots in reverse order and leaves none before its
    task has ended or used up its timeout. -/
structure Closing (l : Life) (waiting : Option ManagerName) (left : List ManagerName) :
    Prop where
  order : waiting.toList ++ left <:+ managerOrder.reverse
  taken : ∀ name, name ∉ waiting.toList ++ left → (l.sup.slots name).joinHandle = none
  ahead : ∀ name ∈ left, l.cancelled name = false
  timedOut : ∀ name, l.timedOut name = true → name ∉ waiting.toList ++ left

def Sound (l : Life) : Prop :=
  match l.phase with
  | .booting _ left => l.Booting left
  | .serving => Supplied l.sup ∧ l.Untouched
  | .closing waiting left => l.Closing waiting left

theorem Closing.begin {l : Life} (h : l.Untouched) : l.Closing none managerOrder.reverse where
  order := List.suffix_rfl
  taken name hname := by cases name <;> exact absurd (by decide) hname
  ahead name _ := (h name).1
  timedOut name htimed := by rw [(h name).2] at htimed; cases htimed

/-- A boot that goes on keeps the ends, and that of agents publishes theirs. -/
theorem bootSlot_ends {s sup : State} {ends ends' : BootEnds} {name : ManagerName}
    (h : bootSlot (fun _ => true) s ends name = some (sup, ends')) :
    sup.toolsTx = s.toolsTx ∧ (name = .agents → ∃ tx, sup.agentsCmdTx = some tx) ∧
      (name ≠ .agents → sup.agentsCmdTx = s.agentsCmdTx) ∧
      sup.rootCancelled = s.rootCancelled ∧
      ∀ name', name' ≠ name → sup.slots name' = s.slots name' := by
  cases name with
  | tools =>
      simp only [bootSlot, createManager, Option.bind_eq_bind, Option.bind_eq_some_iff] at h
      obtain ⟨manager, hmanager, h⟩ := h
      obtain ⟨rx, _, rfl⟩ := Option.map_eq_some_iff.mp hmanager
      cases h
      refine ⟨rfl, ?_, ?_, rfl, ?_⟩
      · intro hother
        cases hother
      · intro _
        rfl
      · intro name' hname
        simp [State.modifySlot, State.report, hname]
  | agents =>
      simp only [bootSlot, createManager, Option.bind_eq_bind, Option.bind_eq_some_iff] at h
      obtain ⟨manager, hmanager, h⟩ := h
      cases hmanager
      cases h
      refine ⟨rfl, ?_, ?_, rfl, ?_⟩
      · intro _
        exact ⟨_, rfl⟩
      · intro hother
        exact absurd rfl hother
      · intro name' hname
        simp [State.modifySlot, State.report, hname]
  | channels =>
      simp only [bootSlot, createManager, Option.bind_eq_bind, Option.bind_eq_some_iff] at h
      obtain ⟨manager, hmanager, h⟩ := h
      obtain ⟨tx, _, rfl⟩ := Option.map_eq_some_iff.mp hmanager
      cases h
      refine ⟨rfl, ?_, ?_, rfl, ?_⟩
      · intro hother
        cases hother
      · intro _
        rfl
      · intro name' hname
        simp [State.modifySlot, State.report, hname]

/-- The handle of the slot that was waited for is taken as well. -/
theorem taken_of_taken {s : State} {name : ManagerName} {left : List ManagerName}
    (h : ∀ name', name' ∉ name :: left → (s.slots name').joinHandle = none) :
    ∀ name', name' ∉ left → ((s.taken name).slots name').joinHandle = none := by
  intro name' hname'
  by_cases hname : name' = name
  · rw [hname]
    simp [State.taken]
  · unfold State.taken
    rw [modifySlot_slots_other _ _ hname]
    exact h name' fun hmem => (List.mem_cons.mp hmem).elim hname hname'

theorem Sound.step {l l' : Life} {label : LifeLabel} (hl : l.Sound) (h : Moved l label l') :
    l'.Sound := by
  cases h with
  | booted hphase hboot =>
      rename_i ends ends' name left sup
      rw [Sound, hphase] at hl
      obtain ⟨htools, hagents, hothers, _, _⟩ := bootSlot_ends hboot
      obtain ⟨tx, htx⟩ := hl.toolsTx
      have hcmd : .agents ∉ left → ∃ tx, sup.agentsCmdTx = some tx := by
        intro hleft
        by_cases hname : name = .agents
        · exact hagents hname
        · rw [hothers hname]
          refine hl.agentsCmdTx fun hmem => ?_
          rcases List.mem_cons.mp hmem with heq | hmem
          · exact hname heq.symm
          · exact hleft hmem
      cases left with
      | nil =>
          obtain ⟨tx', htx'⟩ := hcmd (by simp)
          exact ⟨⟨tx, tx', htools.trans htx, htx'⟩, hl.untouched⟩
      | cons next rest => exact ⟨⟨tx, htools.trans htx⟩, hcmd, hl.untouched⟩
  | bootFailed hphase =>
      rw [Sound, hphase] at hl
      exact Closing.begin (l := { l with phase := .closing none managerOrder.reverse })
        hl.untouched
  | ends hturn =>
      rename_i name r sup
      cases hturn with
      | taskEnds _ _ manager hhandle =>
          unfold Sound at hl ⊢
          dsimp only
          split at hl
          · rename_i hphase
            simp only [hphase]
            exact ⟨hl.toolsTx, hl.agentsCmdTx, hl.untouched⟩
          · rename_i hphase
            simp only [hphase]
            exact ⟨hl.1, hl.2⟩
          · rename_i waiting left hphase
            simp only [hphase]
            refine ⟨hl.order, ?_, hl.ahead, hl.timedOut⟩
            intro name' hname'
            have hnone := hl.taken name' hname'
            by_cases hname : name' = name
            · rw [hname, hhandle] at hnone
              cases hnone
            · simpa [State.modifySlot, hname] using hnone
  | ticks hphase hstep =>
      rw [Sound, hphase] at hl
      rw [Sound]
      simp only [hphase]
      exact ⟨(turn_of_step hl.1 hstep).2.supplied hl.1, hl.2⟩
  | checks hphase hstep =>
      rw [Sound, hphase] at hl
      rw [Sound]
      simp only [hphase]
      exact ⟨(turn_of_step hl.1 hstep).2.supplied hl.1, hl.2⟩
  | cancels =>
      unfold Sound at hl ⊢
      dsimp only
      split at hl
      · rename_i hphase
        simp only [hphase]
        exact ⟨hl.toolsTx, hl.agentsCmdTx, hl.untouched⟩
      · rename_i hphase
        simp only [hphase]
        exact ⟨hl.1, hl.2⟩
      · rename_i hphase
        simp only [hphase]
        exact ⟨hl.order, hl.taken, hl.ahead, hl.timedOut⟩
  | begins hphase _ =>
      rw [Sound, hphase] at hl
      exact Closing.begin (l := { l with phase := .closing none managerOrder.reverse }) hl.2
  | cancelsNext hphase =>
      rename_i name left
      rw [Sound, hphase] at hl
      have hnodup : (name :: left).Nodup := hl.order.sublist.nodup (by decide)
      have hahead : ∀ name' ∈ left, Function.update l.cancelled name true name' = false := by
        intro name' hmem
        have hne : name' ≠ name := fun heq => (List.nodup_cons.mp hnodup).1 (heq ▸ hmem)
        rw [Function.update_of_ne hne]
        exact hl.ahead name' (List.mem_cons_of_mem _ hmem)
      cases hhandle : (l.sup.slots name).joinHandle with
      | none =>
          -- nothing to wait for: the slot is skipped
          refine ⟨(List.suffix_cons name left).trans hl.order, ?_, hahead, ?_⟩
          · intro name' hname'
            by_cases hname : name' = name
            · rw [hname]
              exact hhandle
            · exact hl.taken name' fun hmem => (List.mem_cons.mp hmem).elim hname hname'
          · intro name' htimed hmem
            exact hl.timedOut name' htimed (List.mem_cons_of_mem _ hmem)
      | some handle => exact ⟨hl.order, hl.taken, hahead, hl.timedOut⟩
  | joins hphase =>
      rename_i name left
      rw [Sound, hphase] at hl
      refine ⟨(List.suffix_cons name left).trans hl.order, ?_, hl.ahead, ?_⟩
      · exact taken_of_taken hl.taken
      · intro name' htimed hmem
        exact hl.timedOut name' htimed (List.mem_cons_of_mem _ hmem)
  | givesUp hphase =>
      rename_i name left
      rw [Sound, hphase] at hl
      have hnodup : (name :: left).Nodup := hl.order.sublist.nodup (by decide)
      refine ⟨(List.suffix_cons name left).trans hl.order, ?_, hl.ahead, ?_⟩
      · exact taken_of_taken hl.taken
      · intro name' htimed hmem
        by_cases hname : name' = name
        · rw [hname] at hmem
          exact (List.nodup_cons.mp hnodup).1 hmem
        · simp only [Function.update_of_ne hname] at htimed
          exact hl.timedOut name' htimed (List.mem_cons_of_mem _ hmem)
  | observes _ _ => exact hl

theorem sound_of_reachable {G : Life → LifeLabel → Prop} {l : Life}
    (h : (lives restarts window).ReachableUnder G l) : l.Sound := by
  apply h.invariant
  · rintro _ rfl
    exact ⟨⟨_, rfl⟩, fun h => absurd (by decide) h, fun _ => ⟨rfl, rfl⟩⟩
  · intro l label l' _ hl _ hstep
    exact hl.step (moved_of_step hstep)

/-! ### The order of shutdown -/

theorem later_of_suffix {rest : List ManagerName} (h : rest <:+ managerOrder.reverse)
    {name next : ManagerName} (hnext : name.stopsAfter = some next) (hmem : next ∈ rest) :
    name ∈ rest.tail := by
  have htails : rest ∈ managerOrder.reverse.tails := (List.mem_tails _ _).mpr h
  simp only [managerOrder, List.reverse_cons, List.reverse_nil, List.nil_append,
    List.cons_append, List.tails, List.mem_cons, List.not_mem_nil, or_false] at htails
  rcases htails with rfl | rfl | rfl | rfl <;> cases name <;> cases hnext <;> revert hmem <;>
    decide

/-- A manager whose turn has come stops after its neighbour has settled. -/
theorem Closing.settled {l : Life} {waiting : Option ManagerName} {left : List ManagerName}
    (h : l.Closing waiting left) (hphase : l.phase = .closing waiting left)
    {name next : ManagerName} (hnext : name.stopsAfter = some next) (hturn : name ∉ left) :
    l.Settled next := by
  have hgone : next ∉ waiting.toList ++ left := by
    intro hmem
    have hlater := later_of_suffix h.order hnext hmem
    cases waiting with
    | none => exact hturn (List.mem_of_mem_tail hlater)
    | some first => exact hturn hlater
  refine Or.inr ⟨?_, ?_⟩
  · unfold isRunning ManagerSlot.isRunning
    rw [h.taken next hgone]
  · simp [toBoot, hphase]

theorem Calm.mono {l l' : Life} (h : l.Calm)
    (hrunning : ∀ name, l'.isRunning name = true → l.isRunning name = true)
    (hsettled : ∀ name, l.Settled name → l'.Settled name) : l'.Calm := by
  intro name next hnext hname
  exact hsettled next (h name next hnext (hrunning name hname))

/-- When managers only stop, they stay settled. -/
theorem Settled.mono {l l' : Life} {name : ManagerName} (h : l.Settled name)
    (hrunning : ∀ name, l'.isRunning name = true → l.isRunning name = true)
    (hboot : ∀ name ∈ l'.toBoot, name ∈ l.toBoot)
    (htimed : ∀ name, l.timedOut name = true → l'.timedOut name = true) : l'.Settled name := by
  rcases h with htime | ⟨hstopped, hmade⟩
  · exact Or.inl (htimed name htime)
  · refine Or.inr ⟨?_, fun hmem => hmade (hboot name hmem)⟩
    rw [Bool.eq_false_iff] at hstopped ⊢
    exact fun hname => hstopped (hrunning name hname)

theorem Calm.dwindles {l l' : Life} (h : l.Calm) (hrunning : Dwindles l.sup l'.sup)
    (hboot : ∀ name ∈ l'.toBoot, name ∈ l.toBoot)
    (htimed : ∀ name, l.timedOut name = true → l'.timedOut name = true) : l'.Calm :=
  h.mono hrunning fun _ hname => hname.mono hrunning hboot htimed

/-- Starting a manager in its turn keeps the calm. -/
theorem Calm.starts {l l' : Life} (h : l.Calm) {name : ManagerName} (hstart : l.StartsInTurn name)
    (hothers : ∀ name', name' ≠ name → l'.sup.slots name' = l.sup.slots name')
    (hboot : ∀ name ∈ l'.toBoot, name ∈ l.toBoot)
    (htimed : ∀ name, l.timedOut name = true → l'.timedOut name = true) : l'.Calm := by
  have hsame : ∀ name', name' ≠ name → l'.isRunning name' = l.isRunning name' := by
    intro name' hname
    unfold isRunning
    rw [hothers name' hname]
  have hother : ∀ next, next ≠ name → l.Settled next → l'.Settled next := by
    rintro next hne (htime | ⟨hstopped, hmade⟩)
    · exact Or.inl (htimed next htime)
    · exact Or.inr ⟨(hsame next hne).trans hstopped, fun hmem => hmade (hboot next hmem)⟩
  intro lower next hnext hlower
  have hself : ∀ x y : ManagerName, x.stopsAfter = some y → y ≠ x := by
    intro x y
    cases x <;> cases y <;> decide
  by_cases hname : lower = name
  · subst hname
    exact hother next (hself _ _ hnext) (hstart.1 next hnext)
  · rw [hsame lower hname] at hlower
    refine hother next ?_ (h lower next hnext hlower)
    rintro rfl
    rw [hstart.2 lower hnext] at hlower
    cases hlower

/-- What a step in turn preserves. -/
theorem calm_step {l l' : Life} {label : LifeLabel} (hsound : l.Sound)
    (hcalm : l.sup.rootCancelled = true → l.Calm) (hin : l.InTurn label)
    (h : Moved l label l') : l'.sup.rootCancelled = true → l'.Calm := by
  intro hroot
  cases h with
  | booted hphase hboot =>
      rename_i ends ends' name left sup
      obtain ⟨_, _, _, hsame, hothers⟩ := bootSlot_ends hboot
      have hcancelled : l.sup.rootCancelled = true := hsame ▸ hroot
      have hstart : l.StartsInTurn name := by
        refine hin rfl hcancelled name ?_
        simp [toBoot, hphase]
      refine (hcalm hcancelled).starts hstart hothers ?_ fun _ h => h
      intro name' hmem
      unfold toBoot at hmem ⊢
      rw [hphase]
      cases left with
      | nil => simp at hmem
      | cons next rest => exact List.mem_cons_of_mem _ hmem
  | bootFailed hphase =>
      exact (hcalm hroot).dwindles (fun _ h => h) (by simp [toBoot]) fun _ h => h
  | ends hturn =>
      have heffect := hturn.effect (by simp)
      cases heffect with
      | dwindles hdwindles hsame =>
          exact (hcalm (hsame ▸ hroot)).dwindles hdwindles (fun _ h => h) fun _ h => h
  | ticks hphase hstep =>
      rw [Sound, hphase] at hsound
      have heffect := (turn_of_step hsound.1 hstep).2.effect (by simp)
      cases heffect with
      | dwindles hdwindles hsame =>
          exact (hcalm (hsame ▸ hroot)).dwindles hdwindles (fun _ h => h) fun _ h => h
  | checks hphase hstep =>
      rw [Sound, hphase] at hsound
      have heffect := (turn_of_step hsound.1 hstep).2.effect (by simp)
      cases heffect with
      | dwindles hdwindles hsame =>
          exact (hcalm (hsame ▸ hroot)).dwindles hdwindles (fun _ h => h) fun _ h => h
      | looped hhead hended hloop hcritical hdwindles =>
          have hl := (hin _ hhead).1 hended hloop hcritical
          exact hl.dwindles hdwindles (fun _ h => h) fun _ h => h
      | restarted hhead hrestart hstarted hothers hsame =>
          have hcancelled : l.sup.rootCancelled = true := hsame ▸ hroot
          exact (hcalm hcancelled).starts ((hin _ hhead).2 hrestart hstarted hcancelled)
            hothers (fun _ h => h) fun _ h => h
  | cancels =>
      have hl : l.Calm := hin
      exact hl.dwindles (fun _ h => h) (fun _ h => h) fun _ h => h
  | begins hphase _ =>
      exact (hcalm hroot).dwindles (fun _ h => h) (by simp [toBoot]) fun _ h => h
  | cancelsNext hphase =>
      exact (hcalm hroot).dwindles (fun _ h => h) (by simp [toBoot]) fun _ h => h
  | joins hphase =>
      exact (hcalm hroot).dwindles (taken_dwindles _ _) (by simp [toBoot]) fun _ h => h
  | givesUp hphase =>
      rename_i name left
      refine (hcalm hroot).dwindles (taken_dwindles _ _) (by simp [toBoot]) ?_
      intro name' htimed
      dsimp only
      by_cases hname : name' = name
      · rw [hname, Function.update_self]
      · rw [Function.update_of_ne hname]
        exact htimed
  | observes _ _ => exact hcalm hroot

theorem calm_of_reachable {l : Life} (h : (lives restarts window).ReachableUnder InTurn l) :
    l.sup.rootCancelled = true → l.Calm := by
  apply h.invariant (I := fun l => l.sup.rootCancelled = true → l.Calm)
  · rintro _ rfl hroot
    cases hroot
  · intro l label l' hreach hcalm hturn hstep
    exact calm_step (sound_of_reachable hreach) hcalm hturn (moved_of_step hstep)

/-- **Shutdown is ordered** in every run in turn: a manager observes its cancellation
    only after the one that is to stop before it has finished or used up its timeout. -/
theorem observes_in_order {l l' : Life} (h : (lives restarts window).ReachableUnder InTurn l)
    {name next : ManagerName} (hnext : name.stopsAfter = some next)
    (hobserves : l.step (.observes name) = some l') : l.Settled next := by
  have hsound := sound_of_reachable h
  obtain ⟨⟨htoken, halive⟩, _⟩ := Option.ite_none_right_eq_some.mp hobserves
  -- a slot whose own token is cancelled, or whose task was given up, had its turn
  have howned : l.cancelled name = true ∨ l.timedOut name = true → l.Settled next := by
    intro hown
    unfold Sound at hsound
    split at hsound
    · rcases hown with hc | ht
      · rw [(hsound.untouched name).1] at hc
        cases hc
      · rw [(hsound.untouched name).2] at ht
        cases ht
    · rcases hown with hc | ht
      · rw [(hsound.2 name).1] at hc
        cases hc
      · rw [(hsound.2 name).2] at ht
        cases ht
    · rename_i waiting left hphase
      refine hsound.settled hphase hnext fun hmem => ?_
      rcases hown with hc | ht
      · rw [hsound.ahead name hmem] at hc
        cases hc
      · exact hsound.timedOut name ht (List.mem_append_right _ hmem)
  rw [Bool.or_eq_true] at halive
  unfold tokenCancelled at htoken
  rw [Bool.or_eq_true] at htoken
  rcases htoken with hroot | hcancelled
  · rcases halive with hrunning | htimed
    · exact calm_of_reachable h hroot name next hnext hrunning
    · exact howned (Or.inr htimed)
  · exact howned (Or.inl hcancelled)

/-- Channels and agents have ended when the signal comes, and tools observe it. -/
theorem observes_in_order_tools :
    ∃ l : Life, (lives 3 60).ReachableUnder InTurn l ∧ l.Settled .agents := by
  have hrun : ∃ l ∈ (lives 3 60).run InTurn (start 3 60)
      [.bootNext true, .bootNext true, .bootNext true, .taskEnds .channels .exited,
        .taskEnds .agents .exited, .cancel],
      (l.step (.observes .tools)).isSome = true := by decide
  obtain ⟨l, hl, hobserves⟩ := hrun
  obtain ⟨l', hl'⟩ := Option.isSome_iff_exists.mp hobserves
  have hreach := Machine.reachable_of_run _ rfl hl
  exact ⟨l, hreach, observes_in_order hreach rfl hl'⟩

/-- A signal reaches all managers at once: agents observe it while channels run. -/
theorem signal_reaches_agents : ¬ ∀ l : Life, (lives 3 60).Reachable l →
    ∀ name next l', name.stopsAfter = some next → l.step (.observes name) = some l' →
      l.Settled next := by
  intro hall
  have hrun : ∃ l ∈ (lives 3 60).run (fun _ _ => True) (start 3 60)
      [.bootNext true, .bootNext true, .bootNext true, .cancel],
      (l.step (.observes .agents)).isSome = true ∧ ¬ l.Settled .channels := by decide
  obtain ⟨l, hl, hobserves, hrunning⟩ := hrun
  obtain ⟨l', hl'⟩ := Option.isSome_iff_exists.mp hobserves
  exact hrunning (hall l (Machine.reachable_of_run _ rfl hl) _ _ l' rfl hl')

end Life

end Supervisor

end Anyclaw
