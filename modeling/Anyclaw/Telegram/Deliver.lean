import Anyclaw.Library.Transition
import Anyclaw.Sdk.ContentKind
import Anyclaw.Telegram.Formatting
import Anyclaw.Telegram.Outbox
import Anyclaw.Telegram.Turn

/-!
# Delivering to one chat

`deliver_to_chat` (`ext/channels/telegram/src/deliver.rs`) handles the updates of a chat one
after the other.  Beside it run the tasks it has spawned: a debounce task sends the first
message of a response, a finalization task sends what there is at the end and removes the
turn.  All of them share the turn under a lock that is held for a moment; a request to
Telegram is awaited without it.  A step here is what happens under the lock, a request that
ends, or time that passes, and the steps of the delivery and of the tasks come in any order.
A timer may run out at any time.

The number of the turn, with everything that was appended to the response of each turn, is
recorded beside what the program keeps.
-/

namespace Anyclaw.Telegram

/-- What the channel is configured with, and the conversion of an answer to HTML, which is
    written with regular expressions. -/
structure Settings where
  formatTelegramHtml : String → String
  responseEditCooldownMs : Nat

/-! ### The state -/

inductive Task where
  | debounceSleeping
  | debounceRead (turn : Nat) (accumulated : String)
  | debounceSending (posting : Nat)
  | finalizeSleeping
  | finalizePosting (posting : Option Nat)
  | over
deriving DecidableEq, Repr

def Task.posting : Task → Option Nat
  | .debounceSending n => some n
  | .finalizePosting p => p
  | _ => none

inductive Delivery where
  | idle
  | flushingForChunk (text : String) (messageId : Option String) (posting : Option Nat)
  | flushingForThought (messageId : Option String) (posting : Option Nat)
  | unsuppressed (messageId : Option String)
  | reflushing (messageId : Option String) (posting : Option Nat)
  | collapsing (isError : Bool) (text : String) (messageId : Option String)
  | resulting (isError : Bool) (text : String) (messageId : Option String)
  | finalizing (posting : Option Nat)
  | registeringFinalize (task : Nat)
  | tryingEdit (accumulated : String) (msgId : Nat)
  | editing (posting : Nat)
  | checkingDebounce
  | registeringDebounce (task : Nat)
deriving DecidableEq, Repr

def Delivery.posting : Delivery → Option Nat
  | .flushingForChunk _ _ p => p
  | .flushingForThought _ p => p
  | .reflushing _ p => p
  | .finalizing p => p
  | .editing n => some n
  | _ => none

/-- `turn` is `turns.get(&chat_id)` and `serial` its number, or that of the last turn; `texts`
    has what was appended to the response of each turn.  The tasks are numbered from 0 in the
    order in which they were spawned. -/
structure Chat where
  turn : Option ChatTurn
  serial : Nat
  texts : Nat → String
  tasks : Nat → Task
  spawned : Nat
  delivery : Delivery
  outbox : Outbox
  now : Nat

namespace Chat

def initial : Chat where
  turn := none
  serial := 0
  texts := fun _ => ""
  tasks := fun _ => .over
  spawned := 0
  delivery := .idle
  outbox := .empty
  now := 0

variable (tg : Settings) (s : Chat)

def setTask (i : Nat) (task : Task) : Chat :=
  { s with tasks := Function.update s.tasks i task }

/-- `tokio::spawn`; the new task has the number `s.spawned`. -/
def spawn (task : Task) : Chat :=
  { s with tasks := Function.update s.tasks s.spawned task, spawned := s.spawned + 1 }

/-- Send every part of a text, unless it is empty. -/
def postWhole (text : String) (msgId : Nat) : Chat × Option Nat :=
  if text = "" then (s, none)
  else
    ({ s with
        outbox := s.outbox.post s.serial text msgId
          (messageParts (tg.formatTelegramHtml text)) true },
      some s.outbox.posted)

/-- Send the first part of an unfinished text. -/
def postFirst (turn : Nat) (text : String) (msgId : Nat) : Chat :=
  let parts := messageParts (closeOpenTags (tg.formatTelegramHtml text))
  { s with outbox := s.outbox.post turn text msgId (parts.take 1) (parts.length ≤ 1) }

def abort (h : Nat) : Chat :=
  { s.setTask h .over with
    outbox := s.outbox.cutWhere fun n => (s.tasks h).posting = some n }

/-! ### Flushing a turn -/

/-- `flush_turn_data`, the removal of the turn, and `send_flush`. -/
def flushTurn (t : ChatTurn) : Chat × Option Nat :=
  let s' := { t.cleanupHandles.foldl abort s with turn := none }
  match t.takeResponseForFinalize with
  | some (text, msgId) => s'.postWhole tg text msgId
  | none => (s', none)

def flush : Option ChatTurn → Chat × Option Nat
  | some t => s.flushTurn tg t
  | none => (s, none)

/-- The turn, when the update has the id of another one. -/
def changedTurn (messageId : Option String) : Option ChatTurn :=
  match messageId, s.turn with
  | some mid, some t => if t.isDifferentTurn mid then some t else none
  | _, _ => none

def finalizingTurn : Option ChatTurn := s.turn.filter ChatTurn.isFinalizing

/-! ### What an update does to the turn -/

/-- The turn of the chat, or a new one, under the id of the update. -/
def entered (messageId : Option String) : ChatTurn :=
  (s.turn.getD (ChatTurn.new (messageId.getD ""))).rename (messageId.getD "")

def enteredSerial : Nat := if s.turn.isSome then s.serial else s.serial + 1

/-- `turns.entry(chat_id).or_insert_with(..)` and a change of the turn that appends `text` to
    its response. -/
def enter (t : ChatTurn) (text : String) : Chat :=
  { s with
    turn := some t
    serial := s.enteredSerial
    texts := Function.update s.texts s.enteredSerial (s.texts s.enteredSerial ++ text) }

/-- The text of a chunk is added to the response, and what follows is decided. -/
def appendChunk (text : String) (messageId : Option String) : Chat :=
  let t := (s.entered messageId).unsuppress
  let track := t.appendedTrack text 0 s.now
  let s' := s.enter (t.appendResponse text 0 s.now) text
  if track.buffer = "" then { s' with delivery := .idle }
  else if t.isFinalizing then
    if track.msgId = 0 then { s' with delivery := .finalizing none }
    else
      let (s'', p) := s'.postWhole tg track.buffer track.msgId
      { s'' with delivery := .finalizing p }
  else if track.msgId = 0 then { s' with delivery := .checkingDebounce }
  else { s' with delivery := .tryingEdit track.buffer track.msgId }

/-- What a result adds to the response. -/
def errorText (isError : Bool) (text : String) : String :=
  if isError ∧ text ≠ "" then "⚠️ " ++ text else ""

def appendResult (isError : Bool) (text : String) (messageId : Option String) : Chat :=
  let t := { s.entered messageId with lastResultWasError := isError }
  let t := if isError ∧ text ≠ "" then t.appendResponse (errorText isError text) 0 s.now else t
  { s.enter t.suppressThought (errorText isError text) with delivery := .finalizing none }

/-- `begin_finalizing` with the task that was spawned. -/
def registerFinalize (h : Nat) : Chat :=
  match s.turn with
  | some t =>
      { t.finalizeHandle.toList.foldl abort s with
        turn := some (t.beginFinalizing h)
        delivery := .idle }
  | none => { s with delivery := .idle }

/-- The edit of an active turn, if the cooldown lets it. -/
def tryEdit (accumulated : String) (msgId : Nat) : Chat :=
  match s.turn with
  | some t =>
      let (allowed, t') := t.canEditResponse tg.responseEditCooldownMs s.now
      if allowed then
        { ({ s with turn := some t' }).postFirst tg s.serial accumulated msgId with
          delivery := .editing s.outbox.posted }
      else { s with turn := some t', delivery := .idle }
  | none => { s with delivery := .idle }

def checkDebounce : Chat :=
  if (s.turn.bind ChatTurn.debounceHandle).isSome then { s with delivery := .idle }
  else { s.spawn .debounceSleeping with delivery := .registeringDebounce s.spawned }

def setDebounceHandle (h : Nat) (t : ChatTurn) : ChatTurn :=
  { t with response := t.response.map fun track => { track with debounceHandle := some h } }

/-- The message that a debounce task has sent. -/
def setMsgId (msgId : Nat) (t : ChatTurn) : ChatTurn :=
  { t with
    response := t.response.map fun track =>
      { track with msgId := msgId, debounceHandle := none } }

/-! ### The steps -/

/-- An update comes in; the first thing done for it under the lock. -/
def receive (kind : ContentKind) (messageId : Option String) : Chat :=
  match kind with
  | .messageChunk text =>
      let (s', p) := s.flush tg (s.changedTurn messageId)
      { s' with delivery := .flushingForChunk text messageId p }
  | .thought _ _ _ =>
      let (s', p) := s.flush tg (s.changedTurn messageId)
      { s' with delivery := .flushingForThought messageId p }
  | .result text isError =>
      if (s.changedTurn messageId).isSome then s
      else { s with delivery := .collapsing isError text messageId }
  | .toolCall _ _ _ =>
      match s.turn with
      | some t =>
          if t.isFinalizing then s
          else { s with turn := some (t.rename (messageId.getD "")).unsuppress }
      | none => s
  | _ => s

def deliver : Option Chat :=
  match s.delivery with
  | .idle => none
  | .flushingForChunk text messageId p =>
      if s.outbox.landed p then some (s.appendChunk tg text messageId) else none
  | .flushingForThought messageId p =>
      if s.outbox.landed p then
        if (s.turn.bind ChatTurn.thought).any ThoughtTrack.suppressed then
          some { s with delivery := .idle }
        else some { s with delivery := .unsuppressed messageId }
      else none
  | .unsuppressed messageId =>
      let (s', p) := s.flush tg s.finalizingTurn
      some { s' with delivery := .reflushing messageId p }
  | .reflushing messageId p =>
      if s.outbox.landed p then
        some { s.enter (s.entered messageId).appendThought "" with delivery := .idle }
      else none
  | .collapsing isError text messageId =>
      some { s with
        turn := s.turn.map ChatTurn.collapseThought
        delivery := .resulting isError text messageId }
  | .resulting isError text messageId => some (s.appendResult isError text messageId)
  | .finalizing p =>
      if s.outbox.landed p then
        some { s.spawn .finalizeSleeping with delivery := .registeringFinalize s.spawned }
      else none
  | .registeringFinalize h => some (s.registerFinalize h)
  | .tryingEdit accumulated msgId => some (s.tryEdit tg accumulated msgId)
  | .editing n => if s.outbox.landed (some n) then some { s with delivery := .idle } else none
  | .checkingDebounce => some s.checkDebounce
  | .registeringDebounce h =>
      some { s with turn := s.turn.map (setDebounceHandle h), delivery := .idle }

/-- What a debounce task finds when its timer runs out. -/
def readForDebounce : Task :=
  match s.turn.bind ChatTurn.response with
  | some track =>
      if track.buffer = "" then .over
      else if track.msgId ≠ 0 then .over
      else .debounceRead s.serial track.buffer
  | none => .over

/-- A debounce task claims the right to send, with the text it has read. -/
def claimForDebounce (i turn : Nat) (accumulated : String) : Chat :=
  match s.turn with
  | some t =>
      if t.tryFinalizeResponse.1 then
        (({ s with turn := some t.tryFinalizeResponse.2 }).postFirst tg turn accumulated 0).setTask i
          (.debounceSending s.outbox.posted)
      else s.setTask i .over
  | none => s.setTask i .over

/-- The timer of a finalization task runs out. -/
def claimForFinalize (i : Nat) : Chat :=
  match s.turn with
  | some t =>
      if t.tryFinalizeResponse.1 then
        let s' := { s with turn := some t.tryFinalizeResponse.2 }
        match t.takeResponseForFinalize with
        | some (text, msgId) =>
            let (s'', p) := s'.postWhole tg text msgId
            s''.setTask i (.finalizePosting p)
        | none => s'.setTask i (.finalizePosting none)
      else s.setTask i (.finalizePosting none)
  | none => s.setTask i (.finalizePosting none)

def fire (i : Nat) : Option Chat :=
  match s.tasks i with
  | .debounceSleeping => some (s.setTask i s.readForDebounce)
  | .debounceRead turn accumulated => some (s.claimForDebounce tg i turn accumulated)
  | .debounceSending n =>
      if s.outbox.landed (some n) then
        -- the request may have failed
        if (s.outbox.postings n).reply = 0 then some (s.setTask i .over)
        else
          some (({ s with
            turn := s.turn.map (setMsgId (s.outbox.postings n).reply) }).setTask i .over)
      else none
  | .finalizeSleeping => some (s.claimForFinalize tg i)
  | .finalizePosting p =>
      if s.outbox.landed p then some (({ s with turn := none }).setTask i .over) else none
  | .over => none

/-- `send_or_edit_final` waits for the posting; no other path falls back to a new message. -/
def sendsFinal (n : Nat) : Bool :=
  decide (∃ i < s.spawned, s.tasks i = .finalizePosting (some n))

end Chat

inductive ChatLabel where
  | receive (kind : ContentKind) (messageId : Option String)
  | deliver
  | fire (task : Nat)
  | land (posting : Nat)
  | fail (posting : Nat) (failure : Failure)
  | retry (posting : Nat)
  | wait (ms : Nat)
deriving DecidableEq

def chat (tg : Settings) : Machine Chat ChatLabel where
  init s := s = Chat.initial
  step s
    | .receive kind messageId =>
        if s.delivery = .idle then some (s.receive tg kind messageId) else none
    | .deliver => s.deliver tg
    | .fire i => s.fire tg i
    | .land n => (s.outbox.land n).map fun o => { s with outbox := o }
    | .fail n f => (s.outbox.fail n f (s.sendsFinal n)).map fun o => { s with outbox := o }
    | .retry n => (s.outbox.retry n).map fun o => { s with outbox := o }
    | .wait ms => some { s with now := s.now + ms }

end Anyclaw.Telegram
