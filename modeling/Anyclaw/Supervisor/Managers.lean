import Anyclaw.Core.Lifecycle
import Anyclaw.Library.Transition

/-!
# The supervisor and the managers it runs

The supervisor boots three managers, hands each the channel ends it needs, and checks
on a timer whether their tasks have ended.  An mpsc channel is a number: its sender and
its receiver carry the same one, and a message sent on a channel reaches the task that
holds the receiver.

A manager task ends on its own (`Label.taskEnds`).  A check walks over the slots; the
body for one slot is one step, since during its awaits (the backoff delay, `start()`)
nothing but the end of another task can happen, which touches another slot only.

The source is `crates/anyclaw-supervisor/src/lib.rs` and `factory.rs`, and
`check_and_restart_managers` of `health.rs`.
-/

namespace Anyclaw

namespace Supervisor

/-! ### Managers -/

inductive ManagerName where
  | tools
  | agents
  | channels
deriving DecidableEq

/-- Boot order.  Shutdown is the reverse. -/
def managerOrder : List ManagerName := [.tools, .agents, .channels]

/-- The managers whose crash loop shuts the supervisor down. -/
def ManagerName.isCritical : ManagerName → Bool
  | .tools => false
  | .agents => true
  | .channels => true

abbrev Channel := Nat

structure ToolsEnds where
  cmdRx : Channel
deriving DecidableEq

/-- The ends an agents manager holds: its handle on the tools manager, its own command
    channel and, if it was given one, the sender of channel events. -/
structure AgentsEnds where
  toolsHandle : Channel
  cmdRx : Channel
  channelsSender : Option Channel
deriving DecidableEq

/-- The ends a channels manager holds: its handle on the agents manager, its own
    command channel and, if it was given one, the receiver of channel events. -/
structure ChannelsEnds where
  agentsHandle : Channel
  cmdRx : Channel
  channelEventsRx : Option Channel
deriving DecidableEq

inductive ManagerKind where
  | tools (m : ToolsEnds)
  | agents (m : AgentsEnds)
  | channels (m : ChannelsEnds)
deriving DecidableEq

/-- `own` is the command channel that the agents and the channels manager create for
    themselves.  The answer is `none` where the source panics on a missing end. -/
def createManager (name : ManagerName) (toolsTx : Channel) (toolsRx agentsCmdTx : Option Channel)
    (channelEventsTx channelEventsRx : Option Channel) (own : Channel) : Option ManagerKind :=
  match name with
  | .tools => toolsRx.map fun rx => .tools { cmdRx := rx }
  | .agents =>
      some (.agents
        { toolsHandle := toolsTx, cmdRx := own, channelsSender := channelEventsTx })
  | .channels =>
      agentsCmdTx.map fun tx =>
        .channels { agentsHandle := tx, cmdRx := own, channelEventsRx := channelEventsRx }

/-! ### Slots -/

/-- How the task of a manager ends. -/
inductive TaskResult where
  | exited
  | failed
  | panicked
deriving DecidableEq

/-- The handle of a manager's task: the manager it runs and its result once it ended. -/
structure JoinHandle where
  manager : ManagerKind
  result : Option TaskResult
deriving DecidableEq

structure ManagerSlot where
  joinHandle : Option JoinHandle
  lifecycle : SlotLifecycle
deriving DecidableEq

namespace ManagerSlot

/-- The slot has a task that has not ended. -/
def isRunning (slot : ManagerSlot) : Bool :=
  match slot.joinHandle with
  | some handle => handle.result.isNone
  | none => false

/-- The test with which a check recognises a dead manager. -/
def needsRestart (slot : ManagerSlot) : Bool :=
  match slot.joinHandle with
  | some handle => handle.result.isSome
  | none => false

end ManagerSlot

/-! ### The supervisor -/

inductive Report where
  | booted (name : ManagerName)
  | exitedCleanly (name : ManagerName)
  | crashed (name : ManagerName)
  | panicked (name : ManagerName)
  | crashLoop (name : ManagerName)
  | restartBootFailed (name : ManagerName)
  | restarted (name : ManagerName)
deriving DecidableEq

/-- `checking` holds the slots that the check under way has still to look at, `fresh`
    is the number of the next mpsc channel. -/
structure State where
  toolsTx : Option Channel
  agentsCmdTx : Option Channel
  channelsCmdTx : Option Channel
  channelEventsTx : Option Channel
  channelEventsRx : Option Channel
  slots : ManagerName → ManagerSlot
  rootCancelled : Bool
  checking : List ManagerName
  shutDown : Bool
  fresh : Channel
  reports : List Report

namespace State

def modifySlot (s : State) (name : ManagerName) (f : ManagerSlot → ManagerSlot) : State :=
  { s with slots := Function.update s.slots name (f (s.slots name)) }

def report (s : State) (r : Report) : State := { s with reports := s.reports ++ [r] }

end State

/-- `Supervisor::new` and the slots that `run_with_cancel` makes. -/
def new (maxRestarts restartWindow : Nat) : State where
  toolsTx := none
  agentsCmdTx := none
  channelsCmdTx := none
  channelEventsTx := some 0
  channelEventsRx := some 0
  slots := fun _ =>
    { joinHandle := none
      lifecycle := .new .default (.new maxRestarts restartWindow) }
  rootCancelled := false
  checking := []
  shutDown := false
  fresh := 1
  reports := []

/-! ### Boot -/

/-- The ends that the loop of `boot_managers` hands out as it goes. -/
structure BootEnds where
  toolsTx : Channel
  toolsRx : Option Channel
  channelEventsTx : Option Channel
  channelEventsRx : Option Channel

/-- One turn of the loop of `boot_managers`; `starts` is the outcome of `start()`. -/
def bootSlot (starts : ManagerName → Bool) (s : State) (ends : BootEnds) (name : ManagerName) :
    Option (State × BootEnds) := do
  let (ceTx, ends) :=
    if name = .agents then (ends.channelEventsTx, { ends with channelEventsTx := none })
    else (none, ends)
  let (ceRx, ends) :=
    if name = .channels then (ends.channelEventsRx, { ends with channelEventsRx := none })
    else (none, ends)
  let manager ← createManager name ends.toolsTx ends.toolsRx s.agentsCmdTx ceTx ceRx s.fresh
  let ends := { ends with toolsRx := none }
  let s := { s with fresh := s.fresh + 1 }
  let s :=
    match manager with
    | .agents m => { s with agentsCmdTx := some m.cmdRx }
    | _ => s
  if starts name then
    let s :=
      match manager with
      | .channels m => { s with channelsCmdTx := some m.cmdRx }
      | _ => s
    let s := s.modifySlot name fun slot =>
      { slot with joinHandle := some { manager := manager, result := none } }
    some (s.report (.booted name), ends)
  else none

/-- `boot_managers`; `none` when a manager fails to start, which ends the supervisor. -/
def bootManagers (starts : ManagerName → Bool) (s : State) : Option State := do
  let ends : BootEnds :=
    { toolsTx := s.fresh
      toolsRx := some s.fresh
      channelEventsTx := s.channelEventsTx
      channelEventsRx := s.channelEventsRx }
  let s :=
    { s with
      toolsTx := some s.fresh
      channelEventsTx := none
      channelEventsRx := none
      fresh := s.fresh + 1 }
  let (s, _) ← managerOrder.foldlM (fun (s, ends) name => bootSlot starts s ends name) (s, ends)
  some s

/-! ### `check_and_restart_managers` -/

/-- The two readings of the clock in `record_crash_and_check` and the outcome of
    `start()`. -/
structure CheckAnswers where
  recordedAt : Nat
  checkedAt : Nat
  started : Bool
deriving DecidableEq

/-- The part of the loop body that makes a new manager, starts it and spawns its task. -/
def restartManager (s : State) (name : ManagerName) (started : Bool) : Option State := do
  let (toolsTx, s) :=
    match s.toolsTx with
    | some tx => (tx, s)
    | none => (s.fresh, { s with fresh := s.fresh + 1 })
  let (toolsRx, s) :=
    if name = .tools then
      (some s.fresh, { s with toolsTx := some s.fresh, fresh := s.fresh + 1 })
    else (none, s)
  let manager ← createManager name toolsTx toolsRx s.agentsCmdTx none none s.fresh
  let s := { s with fresh := s.fresh + 1 }
  if started then
    let s := s.modifySlot name fun slot =>
      { slot with joinHandle := some { manager := manager, result := none } }
    some (s.report (.restarted name))
  else some (s.report (.restartBootFailed name))

/-- The part of the loop body that counts the crash and decides. -/
def recordCrash (s : State) (name : ManagerName) (a : CheckAnswers) : Option State :=
  let (action, lifecycle) :=
    (s.slots name).lifecycle.recordCrashAndCheck a.recordedAt a.checkedAt
  let s := s.modifySlot name fun slot => { slot with lifecycle := lifecycle }
  match action with
  | .disabled =>
      let s := s.report (.crashLoop name)
      some (if name.isCritical then { s with rootCancelled := true } else s)
  | .restartAfter _ => restartManager s name a.started

/-- The loop body of `check_and_restart_managers` for one slot. -/
def checkSlot (s : State) (name : ManagerName) (a : CheckAnswers) : Option State :=
  match (s.slots name).joinHandle with
  | some { result := some result, .. } =>
      let s := s.modifySlot name fun slot => { slot with joinHandle := none }
      match result with
      | .exited => some (s.report (.exitedCleanly name))
      | .failed => recordCrash (s.report (.crashed name)) name a
      | .panicked => recordCrash (s.report (.panicked name)) name a
  | _ => some s

/-! ### Runs -/

/-- What can happen next: a manager's task ends, the health timer starts a check, the
    check under way looks at its next slot, the root token is cancelled from outside,
    the cancelled supervisor shuts down. -/
inductive Label where
  | taskEnds (name : ManagerName) (result : TaskResult)
  | tick
  | checkNext (a : CheckAnswers)
  | cancel
  | shutdown
deriving DecidableEq

def step (s : State) (l : Label) : Option State :=
  if s.shutDown then none
  else match l with
  | .taskEnds name result =>
      match (s.slots name).joinHandle with
      | some { manager := manager, result := none } =>
          some (s.modifySlot name fun slot =>
            { slot with joinHandle := some { manager := manager, result := some result } })
      | _ => none
  | .tick =>
      match s.checking with
      | [] => some { s with checking := managerOrder }
      | _ => none
  | .checkNext a =>
      match s.checking with
      | name :: rest => checkSlot { s with checking := rest } name a
      | [] => none
  | .cancel => some { s with rootCancelled := true }
  | .shutdown =>
      match s.checking, s.rootCancelled with
      | [], true =>
          some { s with
            shutDown := true
            slots := fun name => { s.slots name with joinHandle := none } }
      | _, _ => none

/-- The loop of `run_with_cancel` after a boot in which every manager started. -/
def machine (maxRestarts restartWindow : Nat) : Machine State Label where
  init s := bootManagers (fun _ => true) (new maxRestarts restartWindow) = some s
  step := step

end Supervisor

end Anyclaw
