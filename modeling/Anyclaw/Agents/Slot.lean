import Mathlib.Data.Finset.Basic
import Mathlib.Data.Finset.Union
import Mathlib.Tactic.Simps.Basic
import Anyclaw.Library.KeyedMap
import Anyclaw.Core.Lifecycle
import Anyclaw.Jsonrpc.Types
import Anyclaw.Sdk.Content

/-!
# Agent slots

The runtime state of one configured agent, and the updates that the manager makes
to its session tables.  Each update is named once here; the handlers of the manager
compose them.

The struct is `AgentSlot` of `crates/anyclaw-agents/src/slot.rs`.
-/

namespace Anyclaw

/-! ### Configuration -/

structure BackoffConfig where
  baseDelayMs : Nat
  maxDelaySecs : Nat
deriving DecidableEq

structure CrashTrackerConfig where
  maxCrashes : Nat
  windowSecs : Nat
deriving DecidableEq

/-- Where an agent process runs.  Dropping the connection of a local process kills it; a
    container goes on running. -/
inductive Workspace where
  | localProcess
  | docker
deriving DecidableEq

structure AgentConfig where
  name : String
  workspace : Workspace
  cwd : String
  tools : List String
  acpTimeoutSecs : Option Nat
  backoff : Option BackoffConfig
  crashTracker : Option CrashTrackerConfig
deriving DecidableEq

/-- The configuration of a manager with `n` enabled agents.  Agents are the entries
    of a map, so that their names are distinct. -/
structure AgentsManagerConfig (n : Nat) where
  agents : Fin n → AgentConfig
  names_distinct : Function.Injective fun s => (agents s).name
  acpTimeoutSecs : Nat
  promptIdleTimeoutSecs : Nat
  sessionTtlSecs : Nat

/-! ### Slots -/

structure PendingPermission where
  rpcId : Option RequestId
  description : String
  options : List PermissionOption
deriving DecidableEq

structure SessionCapabilities where
  fork : Bool
  list : Bool
  resume : Bool
deriving DecidableEq

structure AgentCapabilities where
  loadSession : Bool
  sessionCapabilities : SessionCapabilities
deriving DecidableEq

structure InitializeResult where
  protocolVersion : Nat
  agentCapabilities : Option AgentCapabilities
deriving DecidableEq

/-- A connection to a running agent process; processes are numbered in the order in
    which they are spawned. -/
structure AgentConnection where
  no : Nat
deriving DecidableEq

/-- Per-agent runtime state.  `readerAlive` stands for the reader task of the process
    spawned last, which lives on when only the connection is dropped. -/
structure AgentSlot where
  connection : Option AgentConnection
  readerAlive : Bool
  lifecycle : SlotLifecycle
  agentCapabilities : Option InitializeResult
  protocolVersion : Nat
  sessionMap : KeyedMap SessionKey AcpSessionId
  reverseMap : KeyedMap AcpSessionId SessionKey
  pendingPermissions : KeyedMap String PendingPermission
  /-- Sessions that were active before a crash. -/
  staleSessions : KeyedMap SessionKey AcpSessionId
  /-- ACP session IDs loaded via `session/load` that haven't received a
      `session/prompt` yet. -/
  awaitingFirstPrompt : Finset AcpSessionId
  toolContext : Option String
  toolContextSent : Finset AcpSessionId
  /-- In-flight prompts, keyed by ACP session ID. -/
  activePrompts : KeyedMap AcpSessionId Nat

namespace AgentSlot

def new (config : AgentConfig) : AgentSlot where
  connection := none
  readerAlive := false
  lifecycle :=
    SlotLifecycle.new
      (match config.backoff with
        | some cfg => ExponentialBackoff.new cfg.baseDelayMs (cfg.maxDelaySecs * 1000)
        | none => ExponentialBackoff.default)
      (match config.crashTracker with
        | some cfg => CrashTracker.new cfg.maxCrashes (cfg.windowSecs * 1000)
        | none => CrashTracker.default)
  agentCapabilities := none
  protocolVersion := 0
  sessionMap := ∅
  reverseMap := ∅
  pendingPermissions := ∅
  staleSessions := ∅
  awaitingFirstPrompt := ∅
  toolContext := none
  toolContextSent := ∅
  activePrompts := ∅

variable (slot : AgentSlot)

def hasSessionCapability (check : SessionCapabilities → Bool) : Bool :=
  match slot.agentCapabilities.bind InitializeResult.agentCapabilities with
  | some c => check c.sessionCapabilities
  | none => false

def supportsResume : Bool := slot.hasSessionCapability SessionCapabilities.resume

def supportsLoad : Bool :=
  match slot.agentCapabilities.bind InitializeResult.agentCapabilities with
  | some c => c.loadSession
  | none => false

/-! ### Updates of the session tables -/

/-- Map `k` to `id` in both directions. -/
@[simps] def registerSession (k : SessionKey) (id : AcpSessionId) : AgentSlot :=
  { slot with
    sessionMap := slot.sessionMap.set k id
    reverseMap := slot.reverseMap.set id k }

/-- `/new`: drop the key from the live maps. -/
@[simps] def unmapSession (k : SessionKey) : AgentSlot :=
  { slot with
    sessionMap := slot.sessionMap.remove k
    reverseMap := slot.reverseMap.retain fun _ v => v != k }

@[simps] def forgetStale (k : SessionKey) : AgentSlot :=
  { slot with staleSessions := slot.staleSessions.remove k }

/-- The agent reported that the session of `k` is gone. -/
def expireSession (k : SessionKey) : AgentSlot :=
  match slot.sessionMap.get? k with
  | none => slot
  | some id =>
      { slot with
        sessionMap := slot.sessionMap.remove k
        staleSessions := slot.staleSessions.set k id
        reverseMap := slot.reverseMap.remove id
        toolContextSent := slot.toolContextSent.erase id }

@[simps] def awaitFirstPrompt (id : AcpSessionId) : AgentSlot :=
  { slot with awaitingFirstPrompt := insert id slot.awaitingFirstPrompt }

/-- After a crash: the live sessions become stale. -/
@[simps] def retireSessions : AgentSlot :=
  { slot with
    sessionMap := ∅
    staleSessions := slot.staleSessions.extend slot.sessionMap
    awaitingFirstPrompt := ∅
    toolContextSent := ∅ }

/-- One stale session was restored: all stale sessions become live, the restored id
    is replaced by the one the agent returned. -/
@[simps] def reinstateSessions (firstAcpId returnedId : AcpSessionId) : AgentSlot :=
  { slot with
    sessionMap := slot.sessionMap.extend
      (slot.staleSessions.mapValues fun id => if id = firstAcpId then returnedId else id)
    staleSessions := ∅
    lifecycle := slot.lifecycle.resetBackoff }

/-- Replay is expected on every live session. -/
@[simps] def awaitAllFirstPrompts : AgentSlot :=
  { slot with
    awaitingFirstPrompt := slot.awaitingFirstPrompt ∪ slot.sessionMap.values.toFinset }

def defaultKey (name : String) : SessionKey := SessionKey.new name "default" "default"

def registerDefaultSession (name : String) (id : AcpSessionId) : AgentSlot :=
  slot.registerSession (defaultKey name) id

/-- No session was restored: only the new default session is live. -/
def restartSessions (name : String) (id : AcpSessionId) : AgentSlot :=
  let cleared := { slot with reverseMap := ∅ }
  let registered := cleared.registerDefaultSession name id
  { registered with lifecycle := registered.lifecycle.resetBackoff }

end AgentSlot

end Anyclaw
