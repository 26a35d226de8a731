import Mathlib.Logic.Function.Basic
import Anyclaw.Core.SessionStore
import Anyclaw.Agents.PlatformCommands
import Anyclaw.Agents.Slot

/-!
# The agents manager: state and requests

The state holds what `AgentsManager` owns (slots, queue, store, the receiving ends of
its channels) and what runs beside it: the prompts whose answers are awaited, the
reader tasks (in the slots), and the trace of everything observable.

A handler runs to its end before the manager takes the next event, so a handler is a
function.  What it receives from outside while it runs (answers of the agent and of
the tools manager, whether a write was accepted, the time) is an argument of type
`Answers`; every handler uses each answer at most once.

The state is the struct of `crates/anyclaw-agents/src/manager.rs`; the requests are
`initialize_agent`, `start_session`, `fetch_mcp_servers` and `fetch_tool_context` there.
-/

namespace Anyclaw

/-! ### Errors, requests, answers -/

inductive AgentsError where
  | spawnFailed (message : String)
  | protocolMismatch (expected got : Nat)
  | timeout (secs : Nat)
  | connectionClosed
  | json
  | agentNotFound (name : String)
  | capabilityNotSupported (capability : String)
deriving DecidableEq

structure McpServerUrl where
  name : String
  url : String
deriving DecidableEq

structure McpServerInfo where
  name : String
  serverType : String
  url : String
deriving DecidableEq

structure ToolDescription where
  name : String
  description : String
deriving DecidableEq

inductive AcpRequest where
  | initializeAgent
  | sessionNew (cwd : String) (mcpServers : List McpServerInfo)
  | sessionLoad (sessionId : AcpSessionId) (cwd : String) (mcpServers : List McpServerInfo)
  | sessionResume (sessionId : AcpSessionId) (cwd : String) (mcpServers : List McpServerInfo)
  | sessionFork (sessionId : AcpSessionId)
  | sessionList
  | sessionPrompt (sessionId : AcpSessionId) (prompt : List ContentPart)
deriving DecidableEq

/-- How an agent process came to know a session. -/
inductive SessionOrigin where
  | created
  | forked
  | loaded
  | resumed
deriving DecidableEq

/-- What becomes of a request that is awaited inline. -/
inductive RpcAnswer (α : Type) where
  /-- The writer task has gone. -/
  | unsent
  | timedOut
  /-- The connection ended before the answer. -/
  | closed
  /-- An answer; `none` when its result does not have the expected form. -/
  | answered (result : Option α)
deriving DecidableEq

inductive ToolsReply (α : Type) where
  | unavailable
  | dropped
  | replied (value : α)
deriving DecidableEq

structure Answers where
  /-- For `fetch_mcp_servers`, before `session/load` and `session/resume`. -/
  mcpUrls : ToolsReply (List McpServerUrl)
  /-- For `start_session`, before `session/new`. -/
  newMcpUrls : ToolsReply (List McpServerUrl)
  toolDescriptions : ToolsReply (List ToolDescription)
  sessionNew : RpcAnswer AcpSessionId
  /-- To `session/load` or `session/resume`. -/
  recovery : RpcAnswer AcpSessionId
  /-- The session updates that the agent writes before its answer to `session/load`. -/
  replayed : List (AcpSessionId × SessionUpdateType)
  fork : RpcAnswer AcpSessionId
  list : RpcAnswer Unit
  /-- Whether the `session/prompt` request was accepted by the writer task. -/
  promptSent : Bool
  /-- Whether the `session/cancel` notification was accepted by the writer task. -/
  cancelSent : Bool
  storeOk : Bool
  /-- Whether a new agent process could be spawned. -/
  spawned : Bool
  initializeAnswer : RpcAnswer InitializeResult
  /-- The entry with which the iteration over the stale sessions begins. -/
  firstStale : SessionKey
  /-- The entry with which the iteration over the live sessions begins. -/
  firstLive : SessionKey
  crashRecordedAt : Nat
  crashCheckedAt : Nat
  now : Nat

/-! ### Incoming messages and completions -/

inductive AgentResponse where
  | permissionSelected (optionId : String)
  | permissionApproved (requestId optionId : String)
  /-- An empty result. -/
  | accepted
  | fileContent (text : String)
  | error (code : Int) (message : String)
deriving DecidableEq

structure PermissionRequest where
  rpcId : Option RequestId
  requestId : Option String
  sessionId : Option AcpSessionId
  description : Option String
  toolTitle : Option String
  /-- `none` when malformed or missing. -/
  options : Option (List PermissionOption)
deriving DecidableEq

inductive FsOutcome where
  | read (content : String)
  | written
  | failed (message : String)
deriving DecidableEq

inductive PushParams where
  | missing
  | invalid
  | valid (sessionId : AcpSessionId) (content : List ContentPart)
deriving DecidableEq

inductive IncomingMessage where
  | sessionUpdate (update : SessionUpdate)
  | malformedUpdate (sessionId : Option AcpSessionId) (error : String)
  | requestPermission (request : PermissionRequest)
  | sessionPush (rpcId : Option RequestId) (params : PushParams)
  /-- `fs/read_text_file` or `fs/write_text_file`, with what comes of it. -/
  | fsRequest (rpcId : Option RequestId) (outcome : FsOutcome)
  | otherMethod (rpcId : Option RequestId)
deriving DecidableEq

/-- An entry of the incoming queue; `msg = none` says that the connection ended. -/
structure SlotIncoming (n : Nat) where
  slotIdx : Fin n
  msg : Option IncomingMessage
deriving DecidableEq

/-- The end of a prompt.  `prompt` is its number, which the code does not carry. -/
structure PromptCompletion where
  sessionKey : SessionKey
  sessionExpired : Bool
  idleTimedOut : Bool
  errorMessage : Option String
  stopReason : StopReason
  prompt : Nat
deriving DecidableEq

/-- A `session/prompt` request that the agent has not answered.  `awaited` is false
    when no task waits for the answer any more. -/
structure OutstandingPrompt (n : Nat) where
  no : Nat
  slotIdx : Fin n
  connection : Nat
  sessionKey : SessionKey
  acpSessionId : AcpSessionId
  awaited : Bool
deriving DecidableEq

/-! ### What can be observed -/

inductive Output (n : Nat) where
  | event (e : ChannelEvent)
  | spawned (slotIdx : Fin n) (connection : Nat)
  | request (slotIdx : Fin n) (connection : Nat) (r : AcpRequest)
  /-- The process answered with the id of a session that it knows from now on. -/
  | answered (slotIdx : Fin n) (connection : Nat) (how : SessionOrigin) (id : AcpSessionId)
  /-- A prompt for a session key was handed to the process. -/
  | prompt (p : OutstandingPrompt n) (parts : List ContentPart) (origin : List MessageNo)
  | cancel (slotIdx : Fin n) (connection : Nat) (id : AcpSessionId)
  /-- A stored session was found for the agent at boot. -/
  | stored (slotIdx : Fin n) (id : AcpSessionId)
  | respond (slotIdx : Fin n) (connection : Nat) (rpcId : Option RequestId) (r : AgentResponse)
  /-- The reply to an `EnqueueMessage` command. -/
  | reply (message : MessageNo) (sessionKey : SessionKey) (plain : Bool)
      (result : Except AgentsError Unit)

/-! ### State -/

structure AgentsManager (n : Nat) where
  slots : Fin n → AgentSlot
  queue : SessionQueue
  /-- Whether a channels manager is connected. -/
  channelsSender : Bool
  streamingCompleted : Finset SessionKey
  sessionStore : SessionStore
  incoming : List (SlotIncoming n)
  completions : List PromptCompletion
  /-- The completion that is being handled while the incoming queue is drained. -/
  completing : Option PromptCompletion
  prompts : List (OutstandingPrompt n)
  running : Bool
  nextConnection : Nat
  nextPrompt : Nat
  nextMessage : MessageNo
  trace : List (Output n)

namespace AgentsManager

variable {n : Nat} (cfg : AgentsManagerConfig n) (m : AgentsManager n)

@[simps] def emit (o : Output n) : AgentsManager n := { m with trace := m.trace ++ [o] }

@[simps] def emitAll (os : List (Output n)) : AgentsManager n :=
  { m with trace := m.trace ++ os }

@[simps] def modifySlot (s : Fin n) (f : AgentSlot → AgentSlot) : AgentsManager n :=
  { m with slots := Function.update m.slots s (f (m.slots s)) }

@[simps] def withQueue (q : SessionQueue) : AgentsManager n := { m with queue := q }

@[simps] def receive (msgs : List (SlotIncoming n)) : AgentsManager n :=
  { m with incoming := m.incoming ++ msgs }

def sendEvents (es : List ChannelEvent) : AgentsManager n :=
  m.emitAll (if m.channelsSender then es.map Output.event else [])

/-- A store write; errors are logged only. -/
@[simps] def writeStore (a : Answers) (f : SessionStore → SessionStore) : AgentsManager n :=
  { m with sessionStore := if a.storeOk then f m.sessionStore else m.sessionStore }

def findSlotByName (name : String) : Option (Fin n) :=
  (List.finRange n).find? fun s => (cfg.agents s).name == name

def acpTimeoutFor (s : Fin n) : Nat := (cfg.agents s).acpTimeoutSecs.getD cfg.acpTimeoutSecs

/-! ### Requests -/

/-- Send a request and await the answer for at most the ACP timeout. -/
def request {α : Type} (s : Fin n) (conn : AgentConnection) (r : AcpRequest)
    (answer : RpcAnswer α) : Except AgentsError α × AgentsManager n :=
  match answer with
  | .unsent => (.error .connectionClosed, m)
  | .timedOut => (.error (.timeout (acpTimeoutFor cfg s)), m.emit (.request s conn.no r))
  | .closed => (.error .connectionClosed, m.emit (.request s conn.no r))
  | .answered none => (.error .json, m.emit (.request s conn.no r))
  | .answered (some result) => (.ok result, m.emit (.request s conn.no r))

/-- The servers of a reply of the tools manager, none when there is no reply. -/
def mcpServers : ToolsReply (List McpServerUrl) → List McpServerInfo
  | .replied urls => urls.map fun u => { name := u.name, serverType := "http", url := u.url }
  | _ => []

/-- `initialize`: negotiate the protocol version, store the capabilities. -/
def initializeAgent (s : Fin n) (a : Answers) : Except AgentsError Unit × AgentsManager n :=
  match (m.slots s).connection with
  | none => (.error .connectionClosed, m)
  | some conn =>
      match request cfg m s conn .initializeAgent a.initializeAnswer with
      | (.error e, m) => (.error e, m)
      | (.ok result, m) =>
          if result.protocolVersion ≠ 1 ∧ result.protocolVersion ≠ 2 then
            (.error (.protocolMismatch 2 result.protocolVersion), m)
          else
            (.ok (), m.modifySlot s fun slot =>
              { slot with
                protocolVersion := result.protocolVersion
                agentCapabilities := some result })

/-- `session/new`. -/
def startSession (s : Fin n) (a : Answers) : Except AgentsError AcpSessionId × AgentsManager n :=
  match a.newMcpUrls with
  | .unavailable => (.error (.spawnFailed "tools handle"), m)
  | urls =>
      match (m.slots s).connection with
      | none => (.error .connectionClosed, m)
      | some conn =>
          match request cfg m s conn (.sessionNew (cfg.agents s).cwd (mcpServers urls))
              a.sessionNew with
          | (.error e, m) => (.error e, m)
          | (.ok id, m) => (.ok id, m.emit (.answered s conn.no .created id))

/-- A compact context string from the tool descriptions; `none` without tools. -/
def fetchToolContext : ToolsReply (List ToolDescription) → Option String
  | .replied (d :: ds) =>
      some <|
        "[Platform context: You have the following MCP tools available. " ++
        "Use them when relevant instead of approximating with built-in tools.\n" ++
        String.join ((d :: ds).map fun desc =>
          "- " ++ desc.name ++
            (if desc.description.isEmpty then "" else ": " ++ desc.description) ++ "\n") ++
        "]"
  | _ => none

/-- The answer of a recovery request, if it names a session. -/
def requestRecovery (s : Fin n) (conn : AgentConnection) (r : AcpRequest) (how : SessionOrigin)
    (a : Answers) : Option AcpSessionId × AgentsManager n :=
  match request cfg m s conn r a.recovery with
  | (.error _, m) => (none, m)
  | (.ok id, m) => (some id, m.emit (.answered s conn.no how id))

/-- `session/resume` of a stale session. -/
def resumeSession (s : Fin n) (conn : AgentConnection) (staleId : AcpSessionId) (a : Answers) :
    Option AcpSessionId × AgentsManager n :=
  requestRecovery cfg m s conn
    (.sessionResume staleId (cfg.agents s).cwd (mcpServers a.mcpUrls)) .resumed a

/-- The updates that the reader, if it runs, puts into the incoming queue while a
    `session/load` that was sent is awaited. -/
def replays (s : Fin n) (a : Answers) : List (SlotIncoming n) :=
  if (m.slots s).readerAlive ∧ a.recovery ≠ .unsent then
    a.replayed.map fun u => { slotIdx := s, msg := some (.sessionUpdate ⟨u.1, u.2, true⟩) }
  else []

/-- `session/load` of a stale session.  The reader task handles the lines of the agent
    in order, so what precedes the answer is queued when the answer arrives. -/
def loadSession (s : Fin n) (conn : AgentConnection) (staleId : AcpSessionId) (a : Answers) :
    Option AcpSessionId × AgentsManager n :=
  requestRecovery cfg (m.receive (m.replays s a)) s conn
    (.sessionLoad staleId (cfg.agents s).cwd (mcpServers a.mcpUrls)) .loaded a

end AgentsManager

end Anyclaw
