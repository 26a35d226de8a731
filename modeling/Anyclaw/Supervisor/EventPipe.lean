import Anyclaw.Library.Mpsc
import Anyclaw.Agents.EventCount

/-!
# The pipe of channel events

The agents manager and the channels manager exchange commands and events.  The channels
manager sends commands one way and awaits the reply to `CreateSession` and `EnqueueMessage`
in its run loop.  The agents manager sends events the other way, through a pipe with a
bounded number of places, and awaits room for each of them in its handlers.  Only the run
loop of the channels manager takes events from the pipe.

`not_deadlocked` is the room that the events need while a reply is awaited.

The pipe is the channel for `ChannelEvent` that `Supervisor::boot_managers`
(`crates/anyclaw-supervisor/src/lib.rs`) makes; the handlers are those of
`crates/anyclaw-agents/src` and `crates/anyclaw-channels/src/manager.rs`.
-/

namespace Anyclaw

def AgentsCommand.replyAwaited : AgentsCommand → Bool
  | .createSession _ _ => true
  | .enqueueMessage _ _ _ _ => true
  | _ => false

/-- The run loop of the channels manager, seen from the agents manager. -/
inductive ChannelsLoop where
  /-- The next event, message or command is taken. -/
  | selecting
  /-- A reply is awaited; the command waits for the agents manager. -/
  | asked (c : AgentsCommand)
  /-- A reply is awaited; the agents manager handles the command. -/
  | handled
  /-- The receiver of the events is dropped. -/
  | ended

namespace ChannelsLoop

def isSelecting : ChannelsLoop → Bool
  | .selecting => true
  | _ => false

def isHandled : ChannelsLoop → Bool
  | .handled => true
  | _ => false

def isEnded : ChannelsLoop → Bool
  | .ended => true
  | _ => false

def awaitsReply : ChannelsLoop → Bool
  | .asked _ => true
  | .handled => true
  | _ => false

def command : ChannelsLoop → Option AgentsCommand
  | .asked c => some c
  | _ => none

end ChannelsLoop

/-- The agents manager's run loop takes this label; the others are events of reader tasks
    and prompt tasks. -/
def Label.ofRunLoop {n : Nat} : Label n → Bool
  | .command _ _ => true
  | .recvIncoming _ => true
  | .recvCompletion => true
  | .drainIncoming _ => true
  | .finishCompletion _ => true
  | .cancelled => true
  | _ => false

/-! ### The machine -/

/-- Both managers and the pipe; `unsent` are the events of the agents manager's handler that
    are not in the pipe yet. -/
structure EventPipe (n : Nat) where
  agents : AgentsManager n
  unsent : List ChannelEvent
  events : Mpsc ChannelEvent eventChannelCapacity
  channels : ChannelsLoop

inductive PipeLabel (n : Nat) where
  /-- The agents manager, a reader task or a prompt task goes on. -/
  | agents (l : Label n)
  /-- The agents manager takes the command of the channels manager. -/
  | take (a : Answers)
  /-- The next event enters the pipe. -/
  | send
  | reply
  /-- The reply is dropped: the agents manager does not run any more. -/
  | replyDropped
  /-- The channels manager sends a command and awaits the reply. -/
  | ask (c : AgentsCommand)
  | recvEvent
  /-- The run loop of the channels manager ends. -/
  | endChannels

namespace EventPipe

variable {n : Nat} (cfg : AgentsManagerConfig n) (x : EventPipe n)

/-- The handler of the agents manager, if there was one, has returned. -/
def handlerDone : Bool := x.unsent.isEmpty && !x.channels.isHandled

/-- The agents manager comes to `m`, with events to send. -/
def advance (m : AgentsManager n) (channels : ChannelsLoop) : EventPipe n :=
  { x with agents := m, unsent := x.unsent ++ AgentsManager.sent x.agents m, channels := channels }

def step : PipeLabel n → Option (EventPipe n)
  | .agents l =>
      if l.ofRunLoop ∧ !x.handlerDone then none
      else (AgentsManager.step cfg x.agents l).map fun m => x.advance m x.channels
  | .take a =>
      match x.channels with
      | .asked c =>
          if x.handlerDone then
            (AgentsManager.step cfg x.agents (.command c a)).map fun m => x.advance m .handled
          else none
      | _ => none
  | .send =>
      match x.unsent with
      | [] => none
      | e :: rest =>
          -- without a receiver a send fails at once, and the failure is ignored
          if x.channels.isEnded then some { x with unsent := rest }
          else (x.events.send e).map fun q => { x with unsent := rest, events := q }
  | .reply =>
      if x.channels.isHandled ∧ x.unsent = [] then some { x with channels := .selecting } else none
  | .replyDropped =>
      if x.channels.awaitsReply ∧ x.unsent = [] ∧ !x.agents.running then
        some { x with channels := .selecting }
      else none
  | .ask c =>
      if x.channels.isSelecting ∧ c.replyAwaited then some { x with channels := .asked c } else none
  | .recvEvent =>
      if x.channels.isSelecting then x.events.recv.map fun r => { x with events := r.2 } else none
  | .endChannels => if x.channels.isSelecting then some { x with channels := .ended } else none

def booted (m : AgentsManager n) : EventPipe n where
  agents := m
  unsent := []
  events := .empty
  channels := .selecting

def life : Machine (EventPipe n) (PipeLabel n) where
  init x := ∃ m, (AgentsManager.life cfg).init m ∧ x = booted m
  step := step cfg

/-- The channels manager waits for a reply of the agents manager, which waits for room in
    the pipe. -/
def Deadlocked : Prop := x.channels.awaitsReply = true ∧ x.unsent ≠ [] ∧ x.events.Full

/-! ### The condition -/

/-- The number of events that are sent and not taken. -/
def pending : Nat := x.events.queue.length + x.unsent.length

/-- **While a reply is awaited, the events fit into the pipe**: those that are pending when
    the command is sent, and with every step of the agents manager the new ones. -/
def EventsFit : PipeLabel n → Prop
  | .agents l => x.channels.awaitsReply = true →
      x.pending + AgentsManager.eventCount cfg x.agents l ≤ eventChannelCapacity
  | .take a => ∀ c ∈ x.channels.command,
      x.pending + AgentsManager.eventCount cfg x.agents (.command c a) ≤ eventChannelCapacity
  | .ask _ => x.pending ≤ eventChannelCapacity
  | _ => True

instance : ∀ l : PipeLabel n, Decidable (EventsFit cfg x l)
  | .agents _ => inferInstanceAs (Decidable (_ → _))
  | .take _ => inferInstanceAs (Decidable (∀ c ∈ x.channels.command, _))
  | .ask _ => inferInstanceAs (Decidable (_ ≤ _))
  | .send | .reply | .replyDropped | .recvEvent | .endChannels => inferInstanceAs (Decidable True)

/-! ### Steps -/

inductive Moved : PipeLabel n → EventPipe n → Prop
  | agents {l : Label n} {m : AgentsManager n} (hstep : AgentsManager.step cfg x.agents l = some m) :
      Moved (.agents l) (x.advance m x.channels)
  | taken {c : AgentsCommand} {a : Answers} {m : AgentsManager n} (hasked : x.channels = .asked c)
      (hstep : AgentsManager.step cfg x.agents (.command c a) = some m) :
      Moved (.take a) (x.advance m .handled)
  | sent {e : ChannelEvent} {rest : List ChannelEvent}
      {q : Mpsc ChannelEvent eventChannelCapacity} (hunsent : x.unsent = e :: rest)
      (hsend : x.events.send e = some q) : Moved .send { x with unsent := rest, events := q }
  | dropped {e : ChannelEvent} {rest : List ChannelEvent} (hended : x.channels = .ended)
      (hunsent : x.unsent = e :: rest) : Moved .send { x with unsent := rest }
  | replied {l : PipeLabel n} : Moved l { x with channels := .selecting }
  | asked {c : AgentsCommand} (hselecting : x.channels = .selecting) :
      Moved (.ask c) { x with channels := .asked c }
  | received {r : ChannelEvent × Mpsc ChannelEvent eventChannelCapacity}
      (hselecting : x.channels = .selecting) : Moved .recvEvent { x with events := r.2 }
  | ended : Moved .endChannels { x with channels := .ended }

variable {cfg x} {x' : EventPipe n} {l : PipeLabel n}

theorem isSelecting_iff {c : ChannelsLoop} : c.isSelecting = true ↔ c = .selecting := by
  cases c <;> simp [ChannelsLoop.isSelecting]

theorem isEnded_iff {c : ChannelsLoop} : c.isEnded = true ↔ c = .ended := by
  cases c <;> simp [ChannelsLoop.isEnded]

theorem moved_of_step (h : step cfg x l = some x') : Moved cfg x l x' := by
  cases l with
  | agents l =>
      obtain ⟨_, hmap⟩ := Option.ite_none_left_eq_some.mp h
      obtain ⟨m, hm, rfl⟩ := Option.map_eq_some_iff.mp hmap
      exact .agents hm
  | take a =>
      rw [step] at h
      split at h
      · rename_i c hasked
        obtain ⟨_, hmap⟩ := Option.ite_none_right_eq_some.mp h
        obtain ⟨m, hm, rfl⟩ := Option.map_eq_some_iff.mp hmap
        exact .taken hasked hm
      · cases h
  | send =>
      rw [step] at h
      split at h
      · cases h
      · rename_i e rest hunsent
        split at h
        · rename_i hended
          cases h
          exact .dropped (isEnded_iff.mp hended) hunsent
        · obtain ⟨q, hsend, rfl⟩ := Option.map_eq_some_iff.mp h
          exact .sent hunsent hsend
  | reply =>
      obtain ⟨_, hx⟩ := Option.ite_none_right_eq_some.mp h
      cases hx
      exact .replied
  | replyDropped =>
      obtain ⟨_, hx⟩ := Option.ite_none_right_eq_some.mp h
      cases hx
      exact .replied
  | ask c =>
      obtain ⟨⟨hselecting, _⟩, hx⟩ := Option.ite_none_right_eq_some.mp h
      cases hx
      exact .asked (isSelecting_iff.mp hselecting)
  | recvEvent =>
      obtain ⟨hselecting, hmap⟩ := Option.ite_none_right_eq_some.mp h
      obtain ⟨r, _, rfl⟩ := Option.map_eq_some_iff.mp hmap
      exact .received (isSelecting_iff.mp hselecting)
  | endChannels =>
      obtain ⟨_, hx⟩ := Option.ite_none_right_eq_some.mp h
      cases hx
      exact .ended

/-! ### Runs -/

theorem agents_reachable {G : EventPipe n → PipeLabel n → Prop} (h : (life cfg).ReachableUnder G x) :
    (AgentsManager.life cfg).Reachable x.agents := by
  refine h.invariant (I := fun x => (AgentsManager.life cfg).Reachable x.agents) ?_ ?_
  · rintro x ⟨m, hinit, rfl⟩
    exact .init hinit
  · intro x l x' _ hI _ hstep
    cases moved_of_step hstep with
    | agents hm => exact hI.step trivial hm
    | @taken c a _ _ hm => exact hI.step (l := .command c a) trivial hm
    | _ => exact hI

/-- The pending events after a step of the agents manager. -/
theorem pending_advance {l : Label n} {m : AgentsManager n}
    (hreach : (AgentsManager.life cfg).Reachable x.agents)
    (hstep : AgentsManager.step cfg x.agents l = some m) (channels : ChannelsLoop) :
    (x.advance m channels).pending ≤ x.pending + AgentsManager.eventCount cfg x.agents l := by
  have hplain := (AgentsManager.orderly_of_reachable hreach).plain
  have hsent := (AgentsManager.sends_step hplain hstep).sent_length
  unfold pending advance
  rw [List.length_append, ← Nat.add_assoc]
  exact Nat.add_le_add_left hsent _

/-- The pending events find room. -/
def Roomy (x : EventPipe n) : Prop :=
  x.channels.awaitsReply = true → x.pending ≤ eventChannelCapacity

theorem Roomy.step (h : Roomy x) (hreach : (AgentsManager.life cfg).Reachable x.agents)
    (hguard : EventsFit cfg x l) (hstep : step cfg x l = some x') : Roomy x' := by
  intro hawaits
  cases moved_of_step hstep with
  | agents hm => exact (pending_advance hreach hm _).trans (hguard hawaits)
  | taken hasked hm =>
      refine (pending_advance hreach hm _).trans (hguard _ ?_)
      rw [hasked]
      rfl
  | sent hunsent hsend =>
      have hpending := h hawaits
      unfold pending at hpending ⊢
      rw [hunsent, List.length_cons] at hpending
      dsimp only
      rw [(Mpsc.send_eq_some hsend).2, List.length_append, List.length_singleton]
      omega
  | dropped hended _ =>
      have hawaits' : x.channels.awaitsReply = true := hawaits
      rw [hended] at hawaits'
      cases hawaits'
  | replied => cases hawaits
  | asked _ => exact hguard
  | received hselecting =>
      have hawaits' : x.channels.awaitsReply = true := hawaits
      rw [hselecting] at hawaits'
      cases hawaits'
  | ended => cases hawaits

theorem roomy_of_eventsFit (h : (life cfg).ReachableUnder (EventsFit cfg) x) : Roomy x := by
  refine h.invariant (I := Roomy) ?_ fun x l x' hreach hI hguard hstep =>
    hI.step (agents_reachable hreach) hguard hstep
  rintro x ⟨m, _, rfl⟩ _
  exact Nat.zero_le _

/-- **The managers do not deadlock on each other**, in every run in which the events fit
    into the pipe while a reply is awaited. -/
theorem not_deadlocked (h : (life cfg).ReachableUnder (EventsFit cfg) x) : ¬ x.Deadlocked := by
  rintro ⟨hawaits, hunsent, hfull⟩
  have hpending := roomy_of_eventsFit h hawaits
  have hpos := List.length_pos_iff.mpr hunsent
  unfold pending at hpending
  rw [show x.events.queue.length = eventChannelCapacity from hfull] at hpending
  omega

end EventPipe

/-! ### A stream while a message is enqueued -/

namespace Sample

/-- Execute labels on booted managers, all under the guard. -/
def executePipe (G : EventPipe 1 → PipeLabel 1 → Prop) [∀ x l, Decidable (G x l)]
    (ls : List (PipeLabel 1)) : Option (EventPipe 1) :=
  (AgentsManager.start cfg (AgentsManager.fresh cfg true ∅) boot).bind fun m =>
    (EventPipe.life cfg).run G (.booted m) ls

theorem reachable_of_executePipe {G : EventPipe 1 → PipeLabel 1 → Prop}
    [∀ x l, Decidable (G x l)] {ls : List (PipeLabel 1)} {x : EventPipe 1}
    (h : executePipe G ls = some x) : (EventPipe.life cfg).ReachableUnder G x := by
  obtain ⟨m, hstart, hrun⟩ := Option.bind_eq_some_iff.mp h
  exact Machine.reachable_of_run ls ⟨m, ⟨true, ∅, boot, hstart⟩, rfl⟩ hrun

/-- A session is created for `bob`. -/
def createPipe : List (PipeLabel 1) :=
  [.ask (.createSession "a" bob), .take (answers "one"), .reply]

/-- The agent writes a chunk of the session and the agents manager handles it. -/
def chunkPipe : List (PipeLabel 1) :=
  [.agents (.incoming (Fin.last 0) (.sessionUpdate ⟨"one", .agentMessageChunk, false⟩)),
    .agents (.recvIncoming (answers "two"))]

/-- While the channels manager awaits the reply for a message of `bob`, the agents manager
    handles chunks of his session; it sends this many, and one more is on its way. -/
def streamPipe (count : Nat) : List (PipeLabel 1) :=
  createPipe ++ .ask (.enqueueMessage "a" bob [.text "hi"] none) ::
    ((List.replicate count (chunkPipe ++ [.send])).flatten ++ chunkPipe)

end Sample

namespace EventPipe

/-- One chunk is in the pipe and another on its way while a reply is awaited. -/
theorem not_deadlocked_short :
    ∃ x : EventPipe 1, x.channels.awaitsReply = true ∧ x.unsent.length = 1 ∧ ¬ x.Deadlocked := by
  have hrun : ∃ x ∈ Sample.executePipe (EventsFit Sample.cfg) (Sample.streamPipe 1),
      x.channels.awaitsReply = true ∧ x.unsent.length = 1 := by
    decide +kernel
  obtain ⟨x, hx, hawaits, hunsent⟩ := hrun
  exact ⟨x, hawaits, hunsent, not_deadlocked (Sample.reachable_of_executePipe hx)⟩

/-- The pipe is full, and the chunk that the agents manager is sending waits for the channels
    manager, which waits for the agents manager. -/
theorem stream_deadlocks :
    ¬ ∀ x, (life Sample.cfg).Reachable x → ¬ x.Deadlocked := by
  intro hall
  have hrun : ∃ x ∈ Sample.executePipe (fun _ _ => True) (Sample.streamPipe 64),
      x.channels.awaitsReply = true ∧ x.unsent.length = 1 ∧ x.events.Full := by
    decide +kernel
  obtain ⟨x, hx, hawaits, hunsent, hfull⟩ := hrun
  refine hall x (Sample.reachable_of_executePipe hx) ⟨hawaits, ?_, hfull⟩
  intro hnil
  rw [hnil] at hunsent
  cases hunsent

end EventPipe

end Anyclaw
