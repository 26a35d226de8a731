import Anyclaw.Agents.SessionRecovery

/-!
# Commands

`handle_command` and what it calls: the dispatch of prompts, the platform commands,
forks and cancellations.

The functions are `handle_command`, `prompt_session`, `flush_and_dispatch`,
`handle_platform_command`, `fork_session`, `list_sessions` and the two cancellations of
`crates/anyclaw-agents/src/commands.rs`, in their order there.
-/

namespace Anyclaw

inductive AgentsCommand where
  | sendPrompt (message : String)
  | cancelOperation
  | respondPermission (requestId optionId : String)
  | shutdown
  | createSession (agentName : String) (sessionKey : SessionKey)
  | enqueueMessage (agentName : String) (sessionKey : SessionKey)
      (content : List ContentPart) (metadata : Option MessageMetadata)
  | forkSession (agentName : String) (sessionKey : SessionKey)
  | listSessions (agentName : String)
  | cancelSession (agentName : String) (sessionKey : SessionKey)

/-- The `[Context: ...]` block for a message that replies or belongs to a thread. -/
def buildReplyContext (meta' : MessageMetadata) : Option String :=
  let hasReply := meta'.replyToMessageId.isSome || meta'.replyToText.isSome ||
    meta'.replyToMediaType.isSome
  if !hasReply && meta'.threadId.isNone then none
  else
    let thread := match meta'.threadId with
      | some id => "[Context: thread " ++ id ++ "]\n"
      | none => ""
    let reply :=
      if hasReply then
        let isQuote := meta'.replyToIsQuote.getD false
        let tag := if isQuote then "Quoting" else "Replying to"
        let sender := meta'.replyToSender.getD "unknown sender"
        let idPart := match meta'.replyToMessageId with
          | some id => " id:" ++ id
          | none => ""
        let body := match meta'.replyToText, meta'.replyToMediaType with
          | some text, _ => if isQuote then "\"" ++ text ++ "\"\n" else text ++ "\n"
          | none, some media => "<media:" ++ media ++ ">\n"
          | none, none => ""
        let endTag := if isQuote then "Quoting" else "Replying"
        "[" ++ tag ++ " " ++ sender ++ idPart ++ "]\n" ++ body ++ "[/" ++ endTag ++ "]"
      else ""
    some (thread ++ reply).trimAscii.toString

namespace AgentsManager

variable {n : Nat} (cfg : AgentsManagerConfig n) (m : AgentsManager n)

/-! ### Cancellation -/

def sendCancel (s : Fin n) (id : AcpSessionId) (a : Answers) :
    Except AgentsError Unit × AgentsManager n :=
  match (m.slots s).connection with
  | none => (.error .connectionClosed, m)
  | some conn =>
      if a.cancelSent then (.ok (), m.emit (.cancel s conn.no id))
      else (.error .connectionClosed, m)

def cancelSession (agentName : String) (k : SessionKey) (a : Answers) :
    Except AgentsError Unit × AgentsManager n :=
  match findSlotByName cfg agentName with
  | none => (.error (.agentNotFound agentName), m)
  | some s =>
      match (m.slots s).sessionMap.get? k with
      | none => (.error .connectionClosed, m)
      | some id => m.sendCancel s id a

/-- The first slot in which the key is live. -/
def slotOfKey (k : SessionKey) : Option (Fin n) :=
  (List.finRange n).find? fun s => (m.slots s).sessionMap.contains k

def cancelSessionByKey (k : SessionKey) (a : Answers) :
    Except AgentsError Unit × AgentsManager n :=
  match m.slotOfKey k with
  | none => (.error .connectionClosed, m)
  | some s =>
      match (m.slots s).sessionMap.get? k with
      | none => (.error .connectionClosed, m)
      | some id => m.sendCancel s id a

/-! ### Platform commands -/

def syntheticChunk (k : SessionKey) (message : String) : List ChannelEvent :=
  [.dispatchStarted k, .deliverMessage k (.chunk message)]

def syntheticResponse (k : SessionKey) (message : String) (stopReason : StopReason) :
    List ChannelEvent :=
  syntheticChunk k message ++
    [.deliverMessage k (.commandResult ""), .sessionComplete k stopReason]

/-- `mark_idle` whose result is dropped. -/
def releaseKey (k : SessionKey) : AgentsManager n := m.withQueue (m.queue.markIdle k).2

def handlePlatformCommand (command : PlatformCommand) (s : Fin n) (agentName : String)
    (k : SessionKey) (a : Answers) : Except AgentsError Unit × AgentsManager n :=
  match command with
  | .new =>
      match createSession cfg (m.modifySlot s fun slot => slot.unmapSession k) agentName k a with
      | (.error e, m) => (.error e, m)
      | (.ok _, m) =>
          (.ok (), (m.sendEvents (syntheticChunk k "New conversation started.")).releaseKey k)
  | .cancel =>
      match cancelSession cfg m agentName k a with
      | (.ok (), m) =>
          (.ok (), (m.sendEvents (syntheticChunk k "Operation cancelled.")).releaseKey k)
      | (.error _, m) =>
          (.ok (), m.sendEvents (syntheticResponse k "No active operation to cancel." .cancelled))

/-! ### Dispatch -/

def ensureMapped (s : Fin n) (agentName : String) (k : SessionKey) (a : Answers) :
    Except AgentsError Unit × AgentsManager n :=
  if (m.slots s).sessionMap.contains k then (.ok (), m)
  else healSession cfg m s agentName k a

/-- The tool context, if the session has not received it. -/
def pendingToolContext (slot : AgentSlot) (id : AcpSessionId) : Option String :=
  if id ∈ slot.toolContextSent then none else slot.toolContext

/-- What a slot forgets and remembers when a prompt for `id` is built. -/
def preparePrompt (slot : AgentSlot) (id : AcpSessionId) : AgentSlot :=
  { slot with
    awaitingFirstPrompt := slot.awaitingFirstPrompt.erase id
    toolContextSent :=
      if (pendingToolContext slot id).isSome then insert id slot.toolContextSent
      else slot.toolContextSent }

def promptParts (slot : AgentSlot) (id : AcpSessionId) (payload : RichPayload) :
    List ContentPart :=
  ((pendingToolContext slot id).toList ++
    (payload.metadata.bind buildReplyContext).toList).map ContentPart.text ++ payload.content

/-- The prompt has been written: a task waits for the answer. -/
def trackPrompt (s : Fin n) (conn : AgentConnection) (k : SessionKey) (id : AcpSessionId)
    (parts : List ContentPart) (origin : List MessageNo) (a : Answers) : AgentsManager n :=
  let p : OutstandingPrompt n :=
    { no := m.nextPrompt, slotIdx := s, connection := conn.no, sessionKey := k
      acpSessionId := id, awaited := true }
  let m' := (m.writeStore a fun store => store.updateLastActive k.text a.now).modifySlot s
    fun slot => { slot with activePrompts := slot.activePrompts.set id p.no }
  { m' with prompts := m.prompts ++ [p], nextPrompt := m.nextPrompt + 1 }.emit
    (.prompt p parts origin)

def writePrompt (s : Fin n) (k : SessionKey) (id : AcpSessionId) (payload : RichPayload)
    (a : Answers) : Except AgentsError Unit × AgentsManager n :=
  let parts := promptParts (m.slots s) id payload
  let m := m.modifySlot s fun slot => preparePrompt slot id
  match (m.slots s).connection with
  | none => (.error .connectionClosed, m)
  | some conn =>
      if a.promptSent then (.ok (), m.trackPrompt s conn k id parts payload.origin a)
      else (.error .connectionClosed, m)

def promptSession (agentName : String) (k : SessionKey) (payload : RichPayload) (a : Answers) :
    Except AgentsError Unit × AgentsManager n :=
  match findSlotByName cfg agentName with
  | none => (.error (.agentNotFound agentName), m)
  | some s =>
      match platformCommandOf payload.content with
      | some command => handlePlatformCommand cfg m command s agentName k a
      | none =>
          match ensureMapped cfg m s agentName k a with
          | (.error e, m) => (.error e, m)
          | (.ok (), m) =>
              match (m.slots s).sessionMap.get? k with
              | none => (.error .connectionClosed, m)
              | some id => m.writePrompt s k id payload a

def flushAndDispatch (agentName : String) (k : SessionKey) (a : Answers) :
    Except AgentsError Unit × AgentsManager n :=
  match m.queue.flushPending k with
  | (none, q) => (.ok (), m.withQueue q)
  | (some payload, q) =>
      promptSession cfg ((m.withQueue q).sendEvents [.dispatchStarted k]) agentName k payload a

@[simps] def takeNumber : AgentsManager n := { m with nextMessage := m.nextMessage + 1 }

def enqueueMessage (agentName : String) (k : SessionKey) (content : List ContentPart)
    (metadata : Option MessageMetadata) (a : Answers) : AgentsManager n :=
  let no := m.nextMessage
  let m := m.takeNumber
  match platformCommandOf content with
  | some command =>
      match findSlotByName cfg agentName with
      | none => m.emit (.reply no k false (.error (.agentNotFound agentName)))
      | some s =>
          match handlePlatformCommand cfg m command s agentName k a with
          | (result, m) => m.emit (.reply no k false result)
  | none =>
      let payload : RichPayload := { content := content, metadata := metadata, origin := [no] }
      if m.queue.isActive k then
        (m.withQueue (m.queue.push k payload).2).emit (.reply no k true (.ok ()))
      else
        match flushAndDispatch cfg (m.withQueue (m.queue.pushOnly k payload).2) agentName k a with
        | (result, m) => m.emit (.reply no k true result)

/-! ### The other commands -/

/-- `CreateSession`: a stale session of the key is healed, else a session is created. -/
def createOrHeal (agentName : String) (k : SessionKey) (a : Answers) : AgentsManager n :=
  match findSlotByName cfg agentName with
  | some s =>
      if (m.slots s).staleSessions.contains k then (healSession cfg m s agentName k a).2
      else (createSession cfg m agentName k a).2
  | none => m

def forkSession (agentName : String) (k : SessionKey) (a : Answers) :
    Except AgentsError AcpSessionId × AgentsManager n :=
  match findSlotByName cfg agentName with
  | none => (.error (.agentNotFound agentName), m)
  | some s =>
      if !(m.slots s).hasSessionCapability SessionCapabilities.fork then
        (.error (.capabilityNotSupported "fork"), m)
      else
        match (m.slots s).sessionMap.get? k, (m.slots s).connection with
        | some parent, some conn =>
            match request cfg m s conn (.sessionFork parent) a.fork with
            | (.error e, m) => (.error e, m)
            | (.ok id, m) =>
                let forkKey := SessionKey.new k.channelName "fork" id
                (.ok id, (m.emit (.answered s conn.no .forked id)).modifySlot s fun slot =>
                  slot.registerSession forkKey id)
        | _, _ => (.error .connectionClosed, m)

def listSessions (agentName : String) (a : Answers) :
    Except AgentsError Unit × AgentsManager n :=
  match findSlotByName cfg agentName with
  | none => (.error (.agentNotFound agentName), m)
  | some s =>
      if !(m.slots s).hasSessionCapability SessionCapabilities.list then
        (.error (.capabilityNotSupported "list"), m)
      else
        match (m.slots s).connection with
        | none => (.error .connectionClosed, m)
        | some conn => request cfg m s conn .sessionList a.list

/-- The session that the iteration over the live sessions yields first. -/
def firstLiveSession (slot : AgentSlot) (a : Answers) : Option (SessionKey × AcpSessionId) :=
  match slot.sessionMap.get? a.firstLive with
  | some id => some (a.firstLive, id)
  | none => slot.sessionMap.entries.head?.map fun e => (e.1, e.2)

/-- The legacy path: a prompt for some session of the first slot.  Nobody waits for
    the answer. -/
def sendPromptToSlot (s : Fin n) (message : String) (a : Answers) : AgentsManager n :=
  match (m.slots s).connection, firstLiveSession (m.slots s) a with
  | some conn, some (k, id) =>
      if a.promptSent then
        let p : OutstandingPrompt n :=
          { no := m.nextPrompt, slotIdx := s, connection := conn.no, sessionKey := k
            acpSessionId := id, awaited := false }
        { m with prompts := m.prompts ++ [p], nextPrompt := m.nextPrompt + 1 }.emit
          (.request s conn.no (.sessionPrompt id [.text message]))
      else m
  | _, _ => m

/-- `session/cancel` for every live session of every connected slot. -/
def cancelOperation (a : Answers) : AgentsManager n :=
  m.emitAll <| (List.finRange n).flatMap fun s =>
    match (m.slots s).connection with
    | some conn =>
        if a.cancelSent then
          (m.slots s).sessionMap.values.map fun id => Output.cancel s conn.no id
        else []
    | none => []

/-- The answer goes to the first slot that has a pending permission of this id. -/
def respondPermission (requestId optionId : String) : AgentsManager n :=
  match (List.finRange n).find? fun s => (m.slots s).pendingPermissions.contains requestId with
  | none => m
  | some s =>
      let rpcId := ((m.slots s).pendingPermissions.get? requestId).bind PendingPermission.rpcId
      let m := m.modifySlot s fun slot =>
        { slot with pendingPermissions := slot.pendingPermissions.remove requestId }
      match (m.slots s).connection with
      | some conn => m.emit (.respond s conn.no rpcId (.permissionSelected optionId))
      | none => m

/-- `shutdown_all`, after which the run loop ends. -/
def shutdown : AgentsManager n :=
  { m with
    slots := fun s =>
      { m.slots s with
        connection := none
        readerAlive := (m.slots s).connection.isNone && (m.slots s).readerAlive }
    running := false }

def handleCommand (a : Answers) : AgentsCommand → AgentsManager n
  | .sendPrompt message => if h : 0 < n then m.sendPromptToSlot ⟨0, h⟩ message a else m
  | .cancelOperation => m.cancelOperation a
  | .respondPermission requestId optionId => m.respondPermission requestId optionId
  | .shutdown => m.shutdown
  | .createSession agentName k => createOrHeal cfg m agentName k a
  | .enqueueMessage agentName k content metadata =>
      enqueueMessage cfg m agentName k content metadata a
  | .forkSession agentName k => (forkSession cfg m agentName k a).2
  | .listSessions agentName => (listSessions cfg m agentName a).2
  | .cancelSession agentName k => (cancelSession cfg m agentName k a).2

end AgentsManager

end Anyclaw
