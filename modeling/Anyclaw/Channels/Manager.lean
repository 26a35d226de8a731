import Anyclaw.Agents.Commands

/-!
# The channels manager: state and handlers

The state holds what `ChannelsManager` owns (slots, streams of incoming messages, routing
table, acknowledged sessions) and the tasks it has spawned to wait for the answers of users
to permission requests.

As in the agents manager, a handler is a function of the state and of what it receives from
outside while it runs (`ChannelAnswers`).  What access control and the group context leave of
a message is such an answer here.

The struct and the handlers are those of `crates/anyclaw-channels/src/manager.rs`; a message
is written through a `ChannelConnection` (`connection.rs`).
-/

namespace Anyclaw

/-! ### Configuration -/

structure ChannelConfig where
  name : String
  /-- The agent that the messages of the channel go to. -/
  agent : String
  backoff : Option BackoffConfig
  crashTracker : Option CrashTrackerConfig
deriving DecidableEq

structure ChannelsManagerConfig (c : Nat) where
  channels : Fin c → ChannelConfig
  permissionTimeoutSecs : Option Nat

/-! ### Messages of the channel processes -/

structure ChannelSendMessage where
  peerInfo : PeerInfo
  content : List ContentPart
  metadata : Option MessageMetadata
deriving DecidableEq

inductive ChannelMessage where
  | sendMessage (message : ChannelSendMessage)
  | respondPermission (requestId optionId : String)
  /-- Parameters that do not parse, or another method. -/
  | unhandled
deriving DecidableEq

inductive ToChannel where
  | deliverMessage (sessionId : AcpSessionId) (content : Delivered)
  | responseStarted (sessionId : AcpSessionId)
  | responseCompleted (sessionId : AcpSessionId) (stopReason : StopReason)
  | ackMessage (sessionId : AcpSessionId) (channelName peerId : String)
  | typingIndicator (sessionId : AcpSessionId) (channelName : String)
  | sessionCreated (sessionId : AcpSessionId) (peerInfo : PeerInfo)
  | requestPermission (requestId : String) (sessionId : AcpSessionId) (description : String)
      (options : List PermissionOption)
deriving DecidableEq

inductive ChannelsCommand where
  | deliverToChannel (sessionKey : SessionKey) (content : Delivered)
  | routePermission (sessionKey : SessionKey) (requestId description : String)
      (options : List PermissionOption)
  | shutdown

/-! ### Answers -/

/-- What becomes of a command to the agents manager that asks for a reply. -/
inductive AgentsReply (α : Type) where
  | unsent
  | dropped
  /-- An error, as it is displayed. -/
  | failed (message : String)
  | replied (value : α)
deriving DecidableEq

structure ChannelAnswers where
  /-- Whether a new channel process could be spawned. -/
  spawned : Bool
  /-- Whether it answered `initialize` in time and in the expected form. -/
  initialized : Bool
  /-- What access control and the group context leave of a message. -/
  admitted : Option (List ContentPart × Option MessageMetadata)
  created : AgentsReply AcpSessionId
  enqueued : AgentsReply Unit
  /-- Whether the writer task accepted the message that a handler writes first. -/
  firstSent : Bool
  /-- Whether the writer task accepted the message that a handler writes last. -/
  sent : Bool
  crashRecordedAt : Nat
  crashCheckedAt : Nat

/-! ### State -/

/-- A connection to a running channel process; processes are numbered in the order in
    which they are spawned. -/
structure ChannelConnection where
  no : Nat
deriving DecidableEq

/-- An entry of the stream map: the messages that the reader of a process has queued. -/
structure ChannelStream where
  messages : List ChannelMessage
  /-- The reader has come to the end of the output. -/
  ended : Bool
deriving DecidableEq

structure ChannelSlot where
  connection : Option ChannelConnection
  stream : Option ChannelStream
  lifecycle : SlotLifecycle

structure RoutingEntry (c : Nat) where
  acpSessionId : AcpSessionId
  slotIndex : Fin c
deriving DecidableEq

/-- A task that waits for the answer to a permission request.  `event` is the number of the
    event that brought the request, which the code does not carry. -/
structure PermissionWait (c : Nat) where
  slotIndex : Fin c
  connection : Nat
  requestId : String
  event : Nat
deriving DecidableEq

inductive ChannelOutput (c : Nat) where
  | spawned (slotIndex : Fin c) (connection : Nat)
  | written (slotIndex : Fin c) (connection : Nat) (message : ToChannel)
  /-- A command to the agents manager. -/
  | command (command : AgentsCommand)

structure ChannelsManager (c : Nat) where
  slots : Fin c → ChannelSlot
  routingTable : KeyedMap SessionKey (RoutingEntry c)
  /-- Whether an agents manager is connected. -/
  agentsHandle : Bool
  ackedSessions : Finset SessionKey
  waits : List (PermissionWait c)
  started : Bool
  running : Bool
  nextConnection : Nat
  trace : List (ChannelOutput c)

/-- A slot before its process is spawned (`build_slot_lifecycle`). -/
def ChannelSlot.new (config : ChannelConfig) : ChannelSlot where
  connection := none
  stream := none
  lifecycle :=
    SlotLifecycle.new
      (match config.backoff with
        | some cfg => ExponentialBackoff.new cfg.baseDelayMs (cfg.maxDelaySecs * 1000)
        | none => ExponentialBackoff.default)
      (match config.crashTracker with
        | some cfg => CrashTracker.new cfg.maxCrashes (cfg.windowSecs * 1000)
        | none => CrashTracker.default)

namespace ChannelsManager

variable {c : Nat} (cfg : ChannelsManagerConfig c) (ch : ChannelsManager c)

@[simps] def emit (o : ChannelOutput c) : ChannelsManager c :=
  { ch with trace := ch.trace ++ [o] }

@[simps] def setSlot (s : Fin c) (slot : ChannelSlot) : ChannelsManager c :=
  { ch with slots := Function.update ch.slots s slot }

/-- Write a message to the channel process of slot `s`, if it is connected. -/
def write (s : Fin c) (accepted : Bool) (message : ToChannel) : ChannelsManager c :=
  match (ch.slots s).connection with
  | some conn => if accepted then ch.emit (.written s conn.no message) else ch
  | none => ch

/-! ### Channel processes -/

/-- Spawn a channel process; it is killed when it does not initialize. -/
def spawnAndInitialize (s : Fin c) (a : ChannelAnswers) :
    Option ChannelConnection × ChannelsManager c :=
  if a.spawned then
    let conn : ChannelConnection := ⟨ch.nextConnection⟩
    let ch := { ch with nextConnection := ch.nextConnection + 1 }.emit (.spawned s conn.no)
    (if a.initialized then some conn else none, ch)
  else (none, ch)

def freshStream (connection : Option ChannelConnection) : Option ChannelStream :=
  connection.map fun _ => { messages := [], ended := false }

/-- A channel that cannot be started is continued without. -/
def startChannelSlot (s : Fin c) (a : ChannelAnswers) : ChannelsManager c :=
  match ch.spawnAndInitialize s a with
  | (connection, ch) =>
      ch.setSlot s
        { ChannelSlot.new (cfg.channels s) with
          connection := connection
          stream := freshStream connection }

/-- `start`, and the registration of the streams at the begin of `run`. -/
def start (a : Fin c → ChannelAnswers) : ChannelsManager c :=
  { (List.finRange c).foldl (fun ch s => startChannelSlot cfg ch s (a s)) ch with
    started := true }

/-- The end of the stream of slot `s`: backoff, respawn, re-initialize. -/
def handleChannelCrash (s : Fin c) (a : ChannelAnswers) : ChannelsManager c :=
  match (ch.slots s).lifecycle.recordCrashAndCheck a.crashRecordedAt a.crashCheckedAt with
  | (.disabled, lifecycle) =>
      ch.setSlot s { connection := none, stream := none, lifecycle := lifecycle }
  | (.restartAfter _, lifecycle) =>
      match ch.spawnAndInitialize s a with
      | (some conn, ch) =>
          ch.setSlot s
            { connection := some conn
              stream := freshStream (some conn)
              lifecycle := lifecycle.resetBackoff }
      | (none, ch) =>
          ch.setSlot s { connection := none, stream := none, lifecycle := lifecycle }

/-! ### Events of the agents manager -/

def handleDeliverMessage (k : SessionKey) (content : Delivered) (a : ChannelAnswers) :
    ChannelsManager c :=
  match ch.routingTable.get? k with
  | none => ch
  | some entry =>
      let ch :=
        if k ∈ ch.ackedSessions then ch
        else
          { ch with ackedSessions := insert k ch.ackedSessions }.write entry.slotIndex
            a.firstSent (.responseStarted entry.acpSessionId)
      ch.write entry.slotIndex a.sent (.deliverMessage entry.acpSessionId content)

def handleSessionComplete (k : SessionKey) (stopReason : StopReason) (a : ChannelAnswers) :
    ChannelsManager c :=
  match ch.routingTable.get? k with
  | none => ch
  | some entry =>
      ch.write entry.slotIndex a.sent (.responseCompleted entry.acpSessionId stopReason)

/-- The peer of a session key, its third part. -/
def peerId (k : SessionKey) : String :=
  String.ofList ((k.text.toList.dropWhile (· != ':')).tail.dropWhile (· != ':')).tail

def handleDispatchStarted (k : SessionKey) (a : ChannelAnswers) : ChannelsManager c :=
  let ch := { ch with ackedSessions := ch.ackedSessions.erase k }
  match ch.routingTable.get? k with
  | none => ch
  | some entry =>
      (ch.write entry.slotIndex a.firstSent
        (.ackMessage entry.acpSessionId (cfg.channels entry.slotIndex).name (peerId k))).write
          entry.slotIndex a.sent
          (.typingIndicator entry.acpSessionId (cfg.channels entry.slotIndex).name)

/-- Ask the channel process for a permission; a task waits for the answer.  Events and
    commands are routed alike. -/
def routePermission (k : SessionKey) (requestId description : String)
    (options : List PermissionOption) (event : Nat) (a : ChannelAnswers) : ChannelsManager c :=
  match ch.routingTable.get? k with
  | none => ch
  | some entry =>
      match (ch.slots entry.slotIndex).connection with
      | none => ch
      | some conn =>
          if a.sent then
            let ch := ch.emit (.written entry.slotIndex conn.no
              (.requestPermission requestId entry.acpSessionId description options))
            if ch.agentsHandle then
              { ch with
                waits := ch.waits ++ [{
                  slotIndex := entry.slotIndex
                  connection := conn.no
                  requestId := requestId
                  event := event }] }
            else ch
          else ch

def handleChannelEvent (event : Nat) (a : ChannelAnswers) : ChannelEvent → ChannelsManager c
  | .deliverMessage k content => ch.handleDeliverMessage k content a
  | .sessionComplete k stopReason => ch.handleSessionComplete k stopReason a
  | .routePermission k requestId description options =>
      ch.routePermission k requestId description options event a
  | .ackMessage _ _ _ _ => ch
  | .dispatchStarted k => handleDispatchStarted cfg ch k a

/-! ### Messages of the channel processes -/

/-- Every process is given up, and the run loop ends. -/
def shutdown : ChannelsManager c :=
  { ch with
    slots := fun s => { ch.slots s with connection := none, stream := none }
    running := false }

def handleCommand (event : Nat) (a : ChannelAnswers) : ChannelsCommand → ChannelsManager c
  | .deliverToChannel k content =>
      match ch.routingTable.get? k with
      | none => ch
      | some entry =>
          ch.write entry.slotIndex a.sent (.deliverMessage entry.acpSessionId content)
  | .routePermission k requestId description options =>
      ch.routePermission k requestId description options event a
  | .shutdown => ch.shutdown

def buildSessionKey (message : ChannelSendMessage) : SessionKey :=
  SessionKey.new message.peerInfo.channelName message.peerInfo.kind message.peerInfo.peerId

/-- `false` when no session could be created. -/
def ensureSessionCreated (s : Fin c) (k : SessionKey) (peerInfo : PeerInfo) (a : ChannelAnswers) :
    Bool × ChannelsManager c :=
  if ch.routingTable.contains k then (true, ch)
  else
    let asked := ch.emit (.command (.createSession (cfg.channels s).agent k))
    match a.created with
    | .unsent => (false, ch)
    | .replied id =>
        (true, { asked with routingTable := asked.routingTable.set k ⟨id, s⟩ }.write s a.firstSent
          (.sessionCreated id peerInfo))
    | .failed message =>
        (false, asked.write s a.firstSent
          (.deliverMessage "" (.errorResult ("Failed to create session: " ++ message))))
    | .dropped =>
        (false, asked.write s a.firstSent (.deliverMessage ""
          (.errorResult "Failed to create session: internal error (reply dropped)")))

def enqueueToAgent (k : SessionKey) (content : List ContentPart)
    (metadata : Option MessageMetadata) (agentName : String) (a : ChannelAnswers) :
    ChannelsManager c :=
  let asked := ch.emit (.command (.enqueueMessage agentName k content metadata))
  match a.enqueued with
  | .unsent => ch
  | .failed message =>
      match asked.routingTable.get? k with
      | some entry =>
          asked.write entry.slotIndex a.sent (.deliverMessage entry.acpSessionId
            (.errorResult ("Session recovery failed: " ++ message)))
      | none => asked
  | _ => asked

def collectSendMessage (s : Fin c) (message : ChannelSendMessage) (a : ChannelAnswers) :
    ChannelsManager c :=
  match a.admitted with
  | none => ch
  | some (content, metadata) =>
      let k := buildSessionKey message
      if ch.agentsHandle then
        match ensureSessionCreated cfg ch s k message.peerInfo a with
        | (false, ch) => ch
        | (true, ch) => ch.enqueueToAgent k content metadata (cfg.channels s).agent a
      else ch

/-- Forward an answer that the channel sends on its own. -/
def handleRespondPermission (requestId optionId : String) : ChannelsManager c :=
  if ch.agentsHandle then ch.emit (.command (.respondPermission requestId optionId)) else ch

def collectChannelMessage (s : Fin c) (a : ChannelAnswers) : ChannelMessage → ChannelsManager c
  | .sendMessage message => collectSendMessage cfg ch s message a
  | .respondPermission requestId optionId => ch.handleRespondPermission requestId optionId
  | .unhandled => ch

end ChannelsManager

end Anyclaw
