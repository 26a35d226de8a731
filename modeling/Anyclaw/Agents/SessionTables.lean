import Anyclaw.Agents.Frames

/-!
# Session tables

The part of a slot that says which sessions it has: the live map, its reverse and
the stale sessions.  The updates of a slot act on the tables as the functions of the
same names here.

`SessionChange` and `SessionsKept` describe what a handler does to the sessions of
all slots, to the store and to the set of session ids that the agents have named.

The fields are `session_map`, `reverse_map` and `stale_sessions` of `AgentSlot`
(`crates/anyclaw-agents/src/slot.rs`).
-/

namespace Anyclaw

structure SessionTables where
  sessionMap : KeyedMap SessionKey AcpSessionId
  reverseMap : KeyedMap AcpSessionId SessionKey
  staleSessions : KeyedMap SessionKey AcpSessionId

namespace SessionTables

variable (t : SessionTables)

@[simps] def register (k : SessionKey) (id : AcpSessionId) : SessionTables :=
  { t with sessionMap := t.sessionMap.set k id, reverseMap := t.reverseMap.set id k }

@[simps] def unmap (k : SessionKey) : SessionTables :=
  { t with
    sessionMap := t.sessionMap.remove k
    reverseMap := t.reverseMap.retain fun _ v => v != k }

@[simps] def forget (k : SessionKey) : SessionTables :=
  { t with staleSessions := t.staleSessions.remove k }

def expire (k : SessionKey) : SessionTables :=
  match t.sessionMap.get? k with
  | none => t
  | some id =>
      { sessionMap := t.sessionMap.remove k
        staleSessions := t.staleSessions.set k id
        reverseMap := t.reverseMap.remove id }

@[simps] def retire : SessionTables :=
  { t with sessionMap := ∅, staleSessions := t.staleSessions.extend t.sessionMap }

@[simps] def reinstate (firstAcpId returnedId : AcpSessionId) : SessionTables :=
  { t with
    sessionMap := t.sessionMap.extend
      (t.staleSessions.mapValues fun id => if id = firstAcpId then returnedId else id)
    staleSessions := ∅ }

def restart (name : String) (id : AcpSessionId) : SessionTables :=
  { t with reverseMap := ∅ }.register (AgentSlot.defaultKey name) id

end SessionTables

namespace AgentSlot

@[simps] def tables (slot : AgentSlot) : SessionTables where
  sessionMap := slot.sessionMap
  reverseMap := slot.reverseMap
  staleSessions := slot.staleSessions

variable (slot : AgentSlot) (k : SessionKey) (id : AcpSessionId)

@[simp] theorem tables_registerSession :
    (slot.registerSession k id).tables = slot.tables.register k id := rfl

@[simp] theorem tables_unmapSession : (slot.unmapSession k).tables = slot.tables.unmap k := rfl

@[simp] theorem tables_forgetStale : (slot.forgetStale k).tables = slot.tables.forget k := rfl

theorem connection_expireSession : (slot.expireSession k).connection = slot.connection := by
  unfold expireSession
  split <;> rfl

@[simp] theorem tables_expireSession : (slot.expireSession k).tables = slot.tables.expire k := by
  unfold expireSession SessionTables.expire
  cases h : slot.sessionMap.get? k <;> simp [tables, h]

@[simp] theorem tables_retireSessions : slot.retireSessions.tables = slot.tables.retire := rfl

@[simp] theorem tables_reinstateSessions (firstAcpId : AcpSessionId) :
    (slot.reinstateSessions firstAcpId id).tables = slot.tables.reinstate firstAcpId id := rfl

@[simp] theorem tables_restartSessions (name : String) :
    (slot.restartSessions name id).tables = slot.tables.restart name id := rfl

/-! ### What an answer makes possible -/

variable (a : Answers)

end AgentSlot

def RpcAnswer.result? {α : Type} : RpcAnswer α → Option α
  | .answered result => result
  | _ => none

namespace AgentSlot

/-- `session/new` succeeds. -/
def CanStart (slot : AgentSlot) (a : Answers) : Prop :=
  a.newMcpUrls ≠ .unavailable ∧ slot.connection.isSome ∧ a.sessionNew.result?.isSome

/-- The stale session of `k` is resumed or loaded. -/
def Recovers (slot : AgentSlot) (k : SessionKey) (a : Answers) : Prop :=
  slot.connection.isSome ∧ slot.staleSessions.contains k ∧
    (slot.supportsResume ∨ slot.supportsLoad) ∧ a.recovery.result?.isSome

def CanPrompt (slot : AgentSlot) (k : SessionKey) (a : Answers) : Prop :=
  slot.connection.isSome ∧ a.promptSent ∧
    (slot.sessionMap.contains k ∨ slot.Recovers k a ∨ slot.CanStart a)

instance (slot : AgentSlot) (a : Answers) : Decidable (slot.CanStart a) :=
  inferInstanceAs (Decidable (_ ∧ _))

instance (slot : AgentSlot) (k : SessionKey) (a : Answers) : Decidable (slot.Recovers k a) :=
  inferInstanceAs (Decidable (_ ∧ _))

instance (slot : AgentSlot) (k : SessionKey) (a : Answers) : Decidable (slot.CanPrompt k a) :=
  inferInstanceAs (Decidable (_ ∧ _))

end AgentSlot

/-! ### Named sessions -/

variable {n : Nat}

def Output.isNaming : Output n → Bool
  | .answered _ _ _ _ => true
  | .stored _ _ => true
  | _ => false

def Output.named (s : Fin n) : Output n → Option AcpSessionId
  | .answered s' _ _ id => if s' = s then some id else none
  | .stored s' id => if s' = s then some id else none
  | _ => none

def namedSessions (s : Fin n) (trace : List (Output n)) : List AcpSessionId :=
  trace.filterMap (Output.named s)

@[simp] theorem namedSessions_append (s : Fin n) (t os : List (Output n)) :
    namedSessions s (t ++ os) = namedSessions s t ++ namedSessions s os :=
  List.filterMap_append

end Anyclaw
