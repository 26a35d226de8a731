import Anyclaw.Agents.Commands

/-!
# Incoming messages and prompt completions

What the run loop does with what it receives: `handle_incoming` sorts the messages of the
agents into session updates, permission requests and requests for files, and
`handle_prompt_completion` drains what a process has written before its prompt ended and then
tells the channels about the end.  All of them are in `crates/anyclaw-agents/src/incoming.rs`.
-/

namespace Anyclaw.AgentsManager

variable {n : Nat} (cfg : AgentsManagerConfig n) (m : AgentsManager n)

/-! ### Messages of the agent -/

/-- Forward a session update to the key that owns the session, unless the session
    awaits its first prompt. -/
def forwardSessionUpdate (s : Fin n) (u : SessionUpdate) : AgentsManager n :=
  if u.sessionId ∈ (m.slots s).awaitingFirstPrompt then m
  else
    match (m.slots s).reverseMap.get? u.sessionId, m.channelsSender with
    | some k, true =>
        let m := m.emit (.event (.deliverMessage k (.update u)))
        if u.update.isResult then
          { m with streamingCompleted := insert k m.streamingCompleted }
        else m
    | _, _ => m

def forwardMalformedUpdateError (s : Fin n) (sessionId : Option AcpSessionId) (error : String) :
    AgentsManager n :=
  match sessionId.bind (m.slots s).reverseMap.get? with
  | none => m
  | some k =>
      m.sendEvents [.deliverMessage k (.errorResult ("Agent sent malformed update: " ++ error))]

/-- The id under which a permission request is known: its `requestId`, else its
    JSON-RPC id. -/
def permissionId (r : PermissionRequest) : String :=
  match r.requestId.filter fun s => !s.isEmpty with
  | some id => id
  | none =>
      match r.rpcId with
      | some (.number i) => toString i
      | some (.string s) => s
      | none => ""

def permissionDescription (r : PermissionRequest) : String :=
  ((r.description.filter fun s => !s.isEmpty).or r.toolTitle).getD "Permission requested"

def handlePermissionRequest (s : Fin n) (r : PermissionRequest) : AgentsManager n :=
  let requestId := permissionId r
  let description := permissionDescription r
  let options := r.options.getD []
  match (m.slots s).reverseMap.get? (r.sessionId.getD ""), m.channelsSender with
  | some k, true =>
      (m.emit (.event (.routePermission k requestId description options))).modifySlot s
        fun slot =>
          { slot with
            pendingPermissions := slot.pendingPermissions.set requestId
              { rpcId := r.rpcId, description := description, options := options } }
  | _, _ =>
      -- not routable to a channel: auto-approve
      let autoOption := (options.head?.map PermissionOption.optionId).getD "once"
      match (m.slots s).connection with
      | some conn => m.emit (.respond s conn.no r.rpcId (.permissionApproved requestId autoOption))
      | none => m

/-- `send_error_response` and `send_raw`: dropped without a connection. -/
def respond (s : Fin n) (rpcId : Option RequestId) (r : AgentResponse) : AgentsManager n :=
  match (m.slots s).connection with
  | some conn => m.emit (.respond s conn.no rpcId r)
  | none => m

def handleSessionPush (s : Fin n) (rpcId : Option RequestId) : PushParams → AgentsManager n
  | .missing => m.respond s rpcId (.error (-32602) "Missing params")
  | .invalid => m.respond s rpcId (.error (-32602) "Invalid params")
  | .valid sessionId content =>
      match (m.slots s).reverseMap.get? sessionId with
      | none => m.respond s rpcId (.error (-32001) "Unknown session")
      | some k =>
          if m.channelsSender then
            (m.sendEvents (content.map fun part => .deliverMessage k (.pushed part))).respond
              s rpcId .accepted
          else m.respond s rpcId (.error (-32603) "Channels not available")

def fsResponse : FsOutcome → AgentResponse
  | .read content => .fileContent content
  | .written => .accepted
  | .failed message => .error (-32000) message

def handleIncoming (s : Fin n) : IncomingMessage → AgentsManager n
  | .sessionUpdate u => m.forwardSessionUpdate s u
  | .malformedUpdate sessionId error => m.forwardMalformedUpdateError s sessionId error
  | .requestPermission r => m.handlePermissionRequest s r
  | .sessionPush rpcId params => m.handleSessionPush s rpcId params
  | .fsRequest rpcId outcome => m.respond s rpcId (fsResponse outcome)
  | .otherMethod rpcId => m.respond s rpcId (.error (-32601) "Method not found")

/-! ### Prompt completions -/

def sessionOfKey (k : SessionKey) : Option AcpSessionId :=
  (m.slotOfKey k).bind fun s => (m.slots s).sessionMap.get? k

/-- The result for a completion whose prompt produced none while streaming. -/
def completionResult (c : PromptCompletion) : Delivered :=
  match c.errorMessage with
  | some message => .errorResult message
  | none => .syntheticResult ((m.sessionOfKey c.sessionKey).getD "") c.stopReason

def completionEvents (c : PromptCompletion) (alreadyGotResult : Bool) : List ChannelEvent :=
  (if alreadyGotResult then [] else [.deliverMessage c.sessionKey (m.completionResult c)]) ++
    [.sessionComplete c.sessionKey c.stopReason]

/-- Invalidate the mapping of a session that the agent does not know any more. -/
def expireSession (k : SessionKey) : AgentsManager n :=
  { m with slots := fun s => (m.slots s).expireSession k }

/-- Drain queued messages and dispatch the next batch. -/
def dispatchQueued (k : SessionKey) (a : Answers) : AgentsManager n :=
  match m.queue.markIdle k with
  | (none, q) => m.withQueue q
  | (some first, q) =>
      let (remaining, q) := q.drainQueued k
      let payload := SessionQueue.mergeRemaining first remaining
      let m := m.withQueue q
      let agentName := ((m.slotOfKey k).map fun s => (cfg.agents s).name).getD ""
      if agentName.isEmpty then m
      else (promptSession cfg (m.sendEvents [.dispatchStarted k]) agentName k payload a).2

/-- The first part of `handle_prompt_completion` after the drain: the session of an idle
    prompt is cancelled, an expired mapping is given up, and the channel is told. -/
def reportCompletion (c : PromptCompletion) (a : Answers) : AgentsManager n :=
  let alreadyGotResult : Bool := c.sessionKey ∈ m.streamingCompleted
  let m := { m with streamingCompleted := m.streamingCompleted.erase c.sessionKey }
  let m := if c.idleTimedOut then (m.cancelSessionByKey c.sessionKey a).2 else m
  let m := if c.sessionExpired then m.expireSession c.sessionKey else m
  m.sendEvents (m.completionEvents c alreadyGotResult)

/-- `handle_prompt_completion` after the incoming queue has been drained. -/
def finishPromptCompletion (c : PromptCompletion) (a : Answers) : AgentsManager n :=
  dispatchQueued cfg (m.reportCompletion c a) c.sessionKey a

end Anyclaw.AgentsManager
