import Mathlib.Logic.Function.Basic

/-!
# The turn of a chat

A chat has at most one turn: what the channel knows of the answer that is being shown.  The
timers of a turn are tasks of their own, known to it by their handles.  Kept here is what
the response needs; the messages that show thoughts and tool calls are others.

The struct is `ChatTurn` of `ext/channels/telegram/src/turn.rs`.
-/

namespace Anyclaw.Telegram

/-- The part of a `ThoughtTrack` that deliveries of the response read and write. -/
structure ThoughtTrack where
  suppressed : Bool
deriving DecidableEq, Repr

/-- `msgId` is 0 until the first message has been sent. -/
structure ResponseTrack where
  msgId : Nat
  buffer : String
  lastEdit : Nat
  debounceHandle : Option Nat
deriving DecidableEq, Repr

inductive TurnPhase where
  | active
  | finalizing (handle : Nat)
deriving DecidableEq, Repr

structure ChatTurn where
  messageId : String
  phase : TurnPhase
  thought : Option ThoughtTrack
  response : Option ResponseTrack
  lastResultWasError : Bool
  responseFinalized : Bool
deriving DecidableEq, Repr

namespace ChatTurn

def new (messageId : String) : ChatTurn where
  messageId := messageId
  phase := .active
  thought := none
  response := none
  lastResultWasError := false
  responseFinalized := false

variable (t : ChatTurn)

/-- `turn.message_id = mid`, unless `mid` is empty. -/
def rename (mid : String) : ChatTurn := if mid = "" then t else { t with messageId := mid }

/-- `track.suppressed = false`, if there is a thought. -/
def unsuppress : ChatTurn := { t with thought := t.thought.map fun _ => ⟨false⟩ }

/-- The response track after `append_response`, with the text added. -/
def appendedTrack (text : String) (msgId now : Nat) : ResponseTrack :=
  match t.response with
  | some track => { track with buffer := track.buffer ++ text }
  | none => ⟨msgId, text, now, none⟩

def appendResponse (text : String) (msgId now : Nat) : ChatTurn :=
  { t with response := some (t.appendedTrack text msgId now) }

/-- The edit is allowed when the cooldown has passed, and starts it again. -/
def canEditResponse (cooldown now : Nat) : Bool × ChatTurn :=
  match t.response with
  | some track =>
      if now - track.lastEdit < cooldown then (false, t)
      else (true, { t with response := some { track with lastEdit := now } })
  | none => (false, t)

/-- The thought track after `append_thought`. -/
def appendThought : ChatTurn := { t with thought := some (t.thought.getD ⟨false⟩) }

/-- The handle that `begin_finalizing` aborts. -/
def finalizeHandle : Option Nat :=
  match t.phase with
  | .active => none
  | .finalizing handle => some handle

/-- The phase after `begin_finalizing`. -/
def beginFinalizing (handle : Nat) : ChatTurn := { t with phase := .finalizing handle }

def takeResponseForFinalize : Option (String × Nat) :=
  t.response.map fun track => (track.buffer, track.msgId)

/-- The first call gets the right to send, later ones do not. -/
def tryFinalizeResponse : Bool × ChatTurn :=
  if t.responseFinalized then (false, t) else (true, { t with responseFinalized := true })

def isFinalizing : Bool := t.finalizeHandle.isSome

def isDifferentTurn (messageId : String) : Bool := t.messageId != messageId

def collapseThought : ChatTurn := { t with thought := none }

def debounceHandle : Option Nat := t.response.bind ResponseTrack.debounceHandle

/-- The handles that `cleanup` aborts.  The turn is removed from the chat right after, with
    all that `cleanup` resets. -/
def cleanupHandles : List Nat := t.finalizeHandle.toList ++ t.debounceHandle.toList

/-- `thought.suppressed = true`, with a new track when there is no thought. -/
def suppressThought : ChatTurn := { t with thought := some ⟨true⟩ }

/-! ### What the response depends on -/

/-- The id of the message that shows the response, 0 if there is none. -/
def msgId : Nat := (t.response.map ResponseTrack.msgId).getD 0

def buffer : String := (t.response.map ResponseTrack.buffer).getD ""

end ChatTurn

/-- The part of a turn that decides what is sent for the response. -/
structure TurnCore where
  msgId : Nat
  buffer : String
  phase : TurnPhase
  debounceHandle : Option Nat
  responseFinalized : Bool

namespace ChatTurn

variable (t : ChatTurn)

def core : TurnCore where
  msgId := t.msgId
  buffer := t.buffer
  phase := t.phase
  debounceHandle := t.debounceHandle
  responseFinalized := t.responseFinalized

theorem core_new (mid : String) : (new mid).core = ⟨0, "", .active, none, false⟩ := rfl

@[simp] theorem core_rename (mid : String) : (t.rename mid).core = t.core := by
  rw [rename]
  split
  · rfl
  · rfl

@[simp] theorem core_unsuppress : t.unsuppress.core = t.core := rfl

@[simp] theorem core_appendThought : t.appendThought.core = t.core := rfl

@[simp] theorem core_collapseThought : t.collapseThought.core = t.core := rfl

@[simp] theorem core_suppressThought : t.suppressThought.core = t.core := rfl

@[simp] theorem core_lastResultWasError (isError : Bool) :
    ({ t with lastResultWasError := isError }).core = t.core := rfl

theorem appendedTrack_msgId (text : String) (now : Nat) :
    (t.appendedTrack text 0 now).msgId = t.msgId := by
  rw [appendedTrack, msgId]
  cases t.response with
  | none => rfl
  | some track => rfl

theorem appendedTrack_buffer (text : String) (now : Nat) :
    (t.appendedTrack text 0 now).buffer = t.buffer ++ text := by
  rw [appendedTrack, buffer]
  cases t.response with
  | none => simp
  | some track => rfl

theorem core_appendResponse (text : String) (now : Nat) :
    (t.appendResponse text 0 now).core = { t.core with buffer := t.buffer ++ text } := by
  have hid := t.appendedTrack_msgId text now
  have hbuffer := t.appendedTrack_buffer text now
  have hhandle : (t.appendedTrack text 0 now).debounceHandle = t.debounceHandle := by
    rw [appendedTrack, debounceHandle]
    cases t.response with
    | none => rfl
    | some track => rfl
  simp only [core, TurnCore.mk.injEq]
  exact ⟨hid, hbuffer, rfl, hhandle, rfl⟩

theorem core_canEditResponse (cooldown now : Nat) :
    (t.canEditResponse cooldown now).2.core = t.core := by
  rw [canEditResponse]
  split
  · rename_i track htrack
    split
    · rfl
    · simp [core, msgId, buffer, debounceHandle, htrack]
  · rfl

theorem tryFinalizeResponse_fst : t.tryFinalizeResponse.1 = !t.responseFinalized := by
  rw [tryFinalizeResponse]
  cases t.responseFinalized with
  | false => rfl
  | true => rfl

theorem core_tryFinalizeResponse (h : t.responseFinalized = false) :
    t.tryFinalizeResponse.2.core = { t.core with responseFinalized := true } := by
  rw [tryFinalizeResponse, if_neg (by simp [h])]
  rfl

theorem takeResponseForFinalize_eq_none (h : t.takeResponseForFinalize = none) :
    t.buffer = "" := by
  rw [takeResponseForFinalize, Option.map_eq_none_iff] at h
  rw [buffer, h]
  rfl

theorem takeResponseForFinalize_eq_some {p : String × Nat}
    (h : t.takeResponseForFinalize = some p) : p = (t.buffer, t.msgId) := by
  obtain ⟨track, htrack, rfl⟩ := Option.map_eq_some_iff.mp h
  rw [buffer, msgId, htrack]
  rfl

theorem isFinalizing_iff : t.isFinalizing = true ↔ t.phase ≠ .active := by
  rw [isFinalizing, finalizeHandle]
  cases t.phase with
  | active => simp
  | finalizing h => simp

theorem mem_finalizeHandle {h : Nat} : t.finalizeHandle = some h ↔ t.phase = .finalizing h := by
  rw [finalizeHandle]
  cases t.phase with
  | active => simp
  | finalizing h' => simp

end ChatTurn

end Anyclaw.Telegram
