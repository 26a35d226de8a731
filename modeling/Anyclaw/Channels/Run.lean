import Anyclaw.Library.Transition
import Anyclaw.Channels.Manager

/-!
# The channels manager as a machine

One label is one event: an event of the environment (a reader queues a message, a user
answers a permission request), or one turn of the run loop.

The loop is `ChannelsManager::run` of `crates/anyclaw-channels/src/manager.rs`.
-/

namespace Anyclaw

inductive ChannelsLabel (c : Nat) where
  | start (a : Fin c → ChannelAnswers)
  /-- The reader of slot `s` queues a message. -/
  | incoming (s : Fin c) (message : ChannelMessage)
  /-- The reader of slot `s` has come to the end of the output. -/
  | eof (s : Fin c)
  /-- The channel answers a permission request; `none` when the answer names no option. -/
  | permissionAnswered (i : Nat) (optionId : Option String)
  | permissionTimedOut (i : Nat)
  /-- The connection over which the answer was awaited has been dropped. -/
  | permissionClosed (i : Nat)
  /-- The run loop takes the next entry of the stream of slot `s`. -/
  | recvStream (s : Fin c) (a : ChannelAnswers)
  /-- The run loop takes an event of the agents manager, with its number. -/
  | recvEvent (event : Nat) (e : ChannelEvent) (a : ChannelAnswers)
  | recvCommand (event : Nat) (command : ChannelsCommand) (a : ChannelAnswers)
  | cancelled

/-- The wait that a label ends, and the option that is sent then. -/
def ChannelsLabel.endsWait {c : Nat} : ChannelsLabel c → Option (Nat × String)
  | .permissionAnswered i optionId => some (i, optionId.getD "once")
  | .permissionTimedOut i => some (i, "denied")
  | .permissionClosed i => some (i, "denied")
  | _ => none

namespace ChannelsManager

variable {c : Nat} (cfg : ChannelsManagerConfig c) (ch : ChannelsManager c)

def fresh (agentsHandle : Bool) : ChannelsManager c where
  slots := fun s => ChannelSlot.new (cfg.channels s)
  routingTable := ∅
  agentsHandle := agentsHandle
  ackedSessions := ∅
  waits := []
  started := false
  running := true
  nextConnection := 0
  trace := []

/-- Whether the run loop can take the next event. -/
def idle : Bool := ch.started && ch.running

/-- The wait `i` is over; its task tells the agents manager which option was chosen. -/
def endWait (i : Nat) (w : PermissionWait c) (optionId : String) : ChannelsManager c :=
  { ch with waits := ch.waits.eraseIdx i }.emit
    (.command (.respondPermission w.requestId optionId))

/-- The process that was asked still writes. -/
def canAnswer (w : PermissionWait c) : Bool :=
  (ch.slots w.slotIndex).connection = some ⟨w.connection⟩ &&
    (ch.slots w.slotIndex).stream.any fun stream => !stream.ended

def takeStream (s : Fin c) (a : ChannelAnswers) : Option (ChannelsManager c) :=
  match (ch.slots s).stream with
  | none => none
  | some stream =>
      match stream.messages with
      | message :: rest =>
          some (collectChannelMessage cfg (ch.setSlot s
            { ch.slots s with stream := some { stream with messages := rest } }) s a message)
      | [] => if stream.ended then some (ch.handleChannelCrash s a) else none

def step : ChannelsLabel c → Option (ChannelsManager c)
  | .start a => if ch.started then none else some (start cfg ch a)
  | .incoming s message =>
      match (ch.slots s).stream with
      | some stream =>
          if stream.ended then none
          else some (ch.setSlot s
            { ch.slots s with
              stream := some { stream with messages := stream.messages ++ [message] } })
      | none => none
  | .eof s =>
      match (ch.slots s).stream with
      | some stream =>
          if stream.ended then none
          else some (ch.setSlot s
            { ch.slots s with stream := some { stream with ended := true } })
      | none => none
  | .permissionAnswered i optionId =>
      match ch.waits[i]? with
      | some w => if ch.canAnswer w then some (ch.endWait i w (optionId.getD "once")) else none
      | none => none
  | .permissionTimedOut i =>
      match ch.waits[i]? with
      | some w => if cfg.permissionTimeoutSecs.isSome then some (ch.endWait i w "denied") else none
      | none => none
  | .permissionClosed i =>
      match ch.waits[i]? with
      | some w =>
          if (ch.slots w.slotIndex).connection ≠ some ⟨w.connection⟩ then
            some (ch.endWait i w "denied")
          else none
      | none => none
  | .recvStream s a => if ch.idle then takeStream cfg ch s a else none
  | .recvEvent event e a => if ch.idle then some (handleChannelEvent cfg ch event a e) else none
  | .recvCommand event command a =>
      if ch.idle then some (ch.handleCommand event a command) else none
  | .cancelled => if ch.idle then some ch.shutdown else none

def life : Machine (ChannelsManager c) (ChannelsLabel c) where
  init ch := ∃ agentsHandle, ch = fresh cfg agentsHandle
  step := step cfg

/-! ### What a label does -/

/-- The steps of the machine, one case for each way to take a label. -/
inductive Turn : ChannelsLabel c → ChannelsManager c → Prop
  | started {a : Fin c → ChannelAnswers} (hstarted : ch.started = false) :
      Turn (.start a) (start cfg ch a)
  | queued {s : Fin c} {message : ChannelMessage} {stream : ChannelStream}
      (hstream : (ch.slots s).stream = some stream) (hopen : stream.ended = false) :
      Turn (.incoming s message) (ch.setSlot s
        { ch.slots s with
          stream := some { stream with messages := stream.messages ++ [message] } })
  | eof {s : Fin c} {stream : ChannelStream} (hstream : (ch.slots s).stream = some stream)
      (hopen : stream.ended = false) :
      Turn (.eof s) (ch.setSlot s
        { ch.slots s with stream := some { stream with ended := true } })
  | waitEnded {l : ChannelsLabel c} {i : Nat} {w : PermissionWait c} {optionId : String}
      (hends : l.endsWait = some (i, optionId)) (hw : ch.waits[i]? = some w) :
      Turn l (ch.endWait i w optionId)
  | collected {s : Fin c} {a : ChannelAnswers} {stream : ChannelStream} {message : ChannelMessage}
      {rest : List ChannelMessage} (hidle : ch.idle = true)
      (hstream : (ch.slots s).stream = some stream) (hmessages : stream.messages = message :: rest) :
      Turn (.recvStream s a) (collectChannelMessage cfg (ch.setSlot s
        { ch.slots s with stream := some { stream with messages := rest } }) s a message)
  | crashed {s : Fin c} {a : ChannelAnswers} {stream : ChannelStream} (hidle : ch.idle = true)
      (hstream : (ch.slots s).stream = some stream) (hmessages : stream.messages = [])
      (hended : stream.ended = true) : Turn (.recvStream s a) (ch.handleChannelCrash s a)
  | event {event : Nat} {e : ChannelEvent} {a : ChannelAnswers} (hidle : ch.idle = true) :
      Turn (.recvEvent event e a) (handleChannelEvent cfg ch event a e)
  | command {event : Nat} {command : ChannelsCommand} {a : ChannelAnswers}
      (hidle : ch.idle = true) :
      Turn (.recvCommand event command a) (ch.handleCommand event a command)
  | cancelled (hidle : ch.idle = true) : Turn .cancelled ch.shutdown

variable {cfg ch} {ch' : ChannelsManager c}

theorem turn_of_step {l : ChannelsLabel c} (h : step cfg ch l = some ch') :
    Turn cfg ch l ch' := by
  cases l with
  | start a =>
      obtain ⟨hstarted, heq⟩ := Option.ite_none_left_eq_some.mp h
      cases heq
      exact .started (Bool.eq_false_iff.mpr hstarted)
  | incoming s message =>
      rw [step] at h
      split at h
      · rename_i stream hstream
        obtain ⟨hopen, heq⟩ := Option.ite_none_left_eq_some.mp h
        cases heq
        exact .queued hstream (Bool.eq_false_iff.mpr hopen)
      · cases h
  | eof s =>
      rw [step] at h
      split at h
      · rename_i stream hstream
        obtain ⟨hopen, heq⟩ := Option.ite_none_left_eq_some.mp h
        cases heq
        exact .eof hstream (Bool.eq_false_iff.mpr hopen)
      · cases h
  | permissionAnswered i optionId | permissionTimedOut i | permissionClosed i =>
      rw [step] at h
      split at h
      · rename_i w hw
        obtain ⟨_, heq⟩ := Option.ite_none_right_eq_some.mp h
        cases heq
        exact .waitEnded rfl hw
      · cases h
  | recvStream s a =>
      obtain ⟨hidle, htake⟩ := Option.ite_none_right_eq_some.mp h
      unfold takeStream at htake
      split at htake
      · cases htake
      · rename_i stream hstream
        split at htake
        · rename_i message rest hmessages
          cases htake
          exact .collected hidle hstream hmessages
        · rename_i hmessages
          obtain ⟨hended, heq⟩ := Option.ite_none_right_eq_some.mp htake
          cases heq
          exact .crashed hidle hstream hmessages hended
  | recvEvent event e a =>
      obtain ⟨hidle, heq⟩ := Option.ite_none_right_eq_some.mp h
      cases heq
      exact .event hidle
  | recvCommand event command a =>
      obtain ⟨hidle, heq⟩ := Option.ite_none_right_eq_some.mp h
      cases heq
      exact .command hidle
  | cancelled =>
      obtain ⟨hidle, heq⟩ := Option.ite_none_right_eq_some.mp h
      cases heq
      exact .cancelled hidle

end ChannelsManager

/-! ### A sample configuration -/

namespace Sample

def channels : ChannelsManagerConfig 1 where
  channels := fun _ => { name := "chat", agent := "a", backoff := none, crashTracker := none }
  permissionTimeoutSecs := some 60

def channelAnswers (newId : AcpSessionId) : ChannelAnswers where
  spawned := true
  initialized := true
  admitted := some ([.text "hello"], none)
  created := .replied newId
  enqueued := .replied ()
  firstSent := true
  sent := true
  crashRecordedAt := 0
  crashCheckedAt := 0

def channelCrash (a : ChannelAnswers) : List (ChannelsLabel 1) :=
  [.eof (Fin.last 0), .recvStream (Fin.last 0) a]

end Sample

end Anyclaw
