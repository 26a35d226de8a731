import Anyclaw.Jsonrpc.Codec
import Anyclaw.Library.Transition
import Anyclaw.Sdk.Content

/-!
# The channel harness

`ChannelHarness::run` reads requests line by line, calls the channel for each of them, and
writes the responses and the messages that the channel sends on its own.  The response to a
permission request is written when the channel sends the answer of the user, which names
the request by its request id.

The harness numbers the requests that it receives, and each answer carries the number of the
request that it is given for.  The code has neither; they make it possible to say which
request a response belongs to.

The source is `crates/anyclaw-sdk-channel/src/harness.rs`, with the trait that a channel
implements in `trait_def.rs`.
-/

namespace Anyclaw

open Json (Reader Found readStruct)

/-! ### The parameters of the methods -/

structure ChannelAckConfig where
  reaction : Bool
  typing : Bool
  reactionEmoji : String
  reactionLifecycle : String
deriving DecidableEq

structure ChannelInitializeParams where
  protocolVersion : Nat
  channelId : String
  ack : Option ChannelAckConfig
  options : KeyedMap String JsonValue

structure DeliverMessage where
  sessionId : String
  content : JsonValue
  /-- `_meta`. -/
  metadata : Option JsonValue
deriving DecidableEq

structure SessionCreated where
  sessionId : String
  peerInfo : PeerInfo
deriving DecidableEq

structure ChannelRequestPermission where
  requestId : String
  sessionId : String
  description : String
  options : List PermissionOption
deriving DecidableEq

def readUInt32 : Reader Nat := fun j =>
  (Json.readUInt64 j).bind fun n => if n.toNat < 2 ^ 32 then some n.toNat else none

def readChannelAckConfig : Reader ChannelAckConfig :=
  readStruct ["reaction", "typing", "reactionEmoji", "reactionLifecycle"] fun field => do
    let reaction ← (field "reaction").required Json.readBool
    let typing ← (field "typing").required Json.readBool
    let reactionEmoji ← (field "reactionEmoji").required Json.readString
    let reactionLifecycle ← (field "reactionLifecycle").required Json.readString
    return ⟨reaction, typing, reactionEmoji, reactionLifecycle⟩

def readChannelInitializeParams : Reader ChannelInitializeParams :=
  readStruct ["protocolVersion", "channelId", "ack", "options"] fun field => do
    let protocolVersion ← (field "protocolVersion").required readUInt32
    let channelId ← (field "channelId").required Json.readString
    let ack ← (field "ack").defaulted (Json.readOption readChannelAckConfig) none
    let options ← (field "options").defaulted Json.readMap ∅
    return ⟨protocolVersion, channelId, ack, options⟩

def readDeliverMessage : Reader DeliverMessage :=
  readStruct ["sessionId", "content", "_meta"] fun field => do
    let sessionId ← (field "sessionId").required Json.readString
    let content ← (field "content").required Json.readValue
    let metadata ← (field "_meta").defaulted (Json.readOption Json.readValue) none
    return ⟨sessionId, content, metadata⟩

def readPeerInfo : Reader PeerInfo :=
  readStruct ["channelName", "peerId", "kind"] fun field => do
    let channelName ← (field "channelName").required Json.readString
    let peerId ← (field "peerId").required Json.readString
    let kind ← (field "kind").required Json.readString
    return ⟨channelName, peerId, kind⟩

def readSessionCreated : Reader SessionCreated :=
  readStruct ["sessionId", "peerInfo"] fun field => do
    let sessionId ← (field "sessionId").required Json.readString
    let peerInfo ← (field "peerInfo").required readPeerInfo
    return ⟨sessionId, peerInfo⟩

def renameLabel : Json → Json
  | .object fields =>
      .object (fields.map fun e => (if e.1 = "name" then "label" else e.1, e.2))
  | j => j

def readPermissionOption : Reader PermissionOption := fun j =>
  readStruct ["optionId", "label"] (fun field => do
    let optionId ← (field "optionId").required Json.readString
    let label ← (field "label").required Json.readString
    return ⟨optionId, label⟩) (renameLabel j)

def readChannelRequestPermission : Reader ChannelRequestPermission :=
  readStruct ["requestId", "sessionId", "description", "options"] fun field => do
    let requestId ← (field "requestId").required Json.readString
    let sessionId ← (field "sessionId").required Json.readString
    let description ← (field "description").required Json.readString
    let options ← (field "options").required (Json.readList readPermissionOption)
    return ⟨requestId, sessionId, description, options⟩

def PermissionResponse.toJson (r : PermissionResponse) : Json :=
  .object [("requestId", .string r.requestId), ("optionId", .string r.optionId)]

/-! ### State -/

/-- What ends the harness with an error: a callback of the channel, or the writer. -/
inductive HarnessFailure where
  | onInitialize
  | onReady
  | deliverMessage
  | onSessionCreated
  | showPermissionPrompt
  | write
deriving DecidableEq

inductive HarnessPhase where
  | serving
  /-- The input has ended, and permission requests are unanswered. -/
  | draining
  | finished
  | failed (failure : HarnessFailure)
deriving DecidableEq

structure ReceivedRequest where
  id : Option RequestId
  /-- The permission request that was shown for it. -/
  prompt : Option ChannelRequestPermission
  /-- The option of the first answer that the channel gave for it. -/
  given : Option String
deriving DecidableEq

structure WaitingPermission where
  id : RequestId
  /-- The number of the request. -/
  no : Nat
deriving DecidableEq

/-- An answer that the channel sends, and the number of the request that it is given for. -/
structure GivenResponse where
  response : PermissionResponse
  no : Option Nat
deriving DecidableEq

/-- A response that was written, and the number of the request that it answers. -/
structure HarnessResponse where
  no : Nat
  response : JsonRpcResponse
deriving DecidableEq

inductive HarnessOutput where
  | response (r : HarnessResponse)
  | notification (r : JsonRpcRequest)
deriving DecidableEq

structure ChannelHarness where
  phase : HarnessPhase
  /-- What is in `outbound_tx`. -/
  outbound : List JsonValue
  /-- What is in `permission_tx`. -/
  permissions : List GivenResponse
  /-- The permission requests that wait for an answer, by request id. -/
  pendingPermissions : KeyedMap String WaitingPermission
  requests : List ReceivedRequest
  output : List HarnessOutput

/-- What the channel and the writer do while a request is handled. -/
structure DispatchAnswers where
  /-- `on_initialize` returns without error. -/
  initialized : Bool
  /-- `on_ready` returns without error. -/
  ready : Bool
  /-- The capabilities and defaults of the channel, as JSON. -/
  reported : JsonValue
  /-- The callback of another method returns without error. -/
  called : Bool
  /-- What `handle_unknown` returns. -/
  unknown : Except String JsonValue
  written : Bool

inductive HarnessLabel where
  /-- The channel sends a message. -/
  | send (message : JsonValue)
  /-- The channel sends an answer, which is given for the request `no`. -/
  | respond (no : Option Nat) (response : PermissionResponse)
  | nextLine (line : List UInt8) (a : DispatchAnswers)
  /-- The input has ended, or cannot be read. -/
  | endOfInput
  | recvOutbound (written : Bool)
  | recvPermission (written : Bool)
  | finish

def outboundCapacity : Nat := 64

def permissionCapacity : Nat := 16

/-! ### Reading requests -/

/-- Nothing but white space.  Other white space than this is no JSON, either. -/
def isBlank (line : List UInt8) : Bool := line.all fun b => b = 32 || (9 ≤ b && b ≤ 13)

/-- The request on a line; blank lines and lines that are no request are skipped. -/
def readRequest (serde : SerdeJson) (line : List UInt8) : Option JsonRpcRequest :=
  if isBlank line then none else (serde.fromSlice line).bind readJsonRpcRequest

def JsonRpcRequest.paramsJson (req : JsonRpcRequest) : Json :=
  (req.params.map JsonValue.doc).getD .null

namespace ChannelHarness

variable (serde : SerdeJson) (x : ChannelHarness)

def fresh : ChannelHarness := ⟨.serving, [], [], ∅, [], []⟩

def responses : List HarnessResponse :=
  x.output.filterMap fun o =>
    match o with
    | .response r => some r
    | .notification _ => none

def running : Bool := x.phase = .serving || x.phase = .draining

/-! ### Writing -/

/-- An output that is written; one that is not ends the harness. -/
def write (o : HarnessOutput) (written : Bool) : ChannelHarness :=
  if written then { x with output := x.output ++ [o] }
  else { x with phase := .failed .write }

def writeResponse (r : HarnessResponse) (written : Bool) : ChannelHarness :=
  x.write (.response r) written

def writeOutbound (message : JsonValue) (written : Bool) : ChannelHarness :=
  x.write (.notification (.new "channel/sendMessage" none (some message))) written

def permissionResponse (e : WaitingPermission) (r : PermissionResponse) : HarnessResponse :=
  ⟨e.no, .success (some e.id) (.ofDoc r.toJson)⟩

def flushPermission (r : PermissionResponse) (written : Bool) : ChannelHarness :=
  match x.pendingPermissions.get? r.requestId with
  | some e =>
      { x with pendingPermissions := x.pendingPermissions.remove r.requestId }.writeResponse
        (permissionResponse e r) written
  | none => x

/-! ### Dispatching requests -/

/-- The request joins those that were received. -/
def receive (id : Option RequestId) (prompt : Option ChannelRequestPermission) :
    ChannelHarness :=
  { x with requests := x.requests ++ [⟨id, prompt, none⟩] }

def dispatchInitialize (req : JsonRpcRequest) (a : DispatchAnswers) :
    Except HarnessFailure (Option JsonRpcResponse) :=
  if (readChannelInitializeParams req.paramsJson).isSome && !a.initialized then
    .error .onInitialize
  else if !a.ready then .error .onReady
  else .ok (req.id.map fun id => .success (some id) a.reported)

def dispatchUnknown (req : JsonRpcRequest) (a : DispatchAnswers) : Option JsonRpcResponse :=
  req.id.map fun id =>
    match a.unknown with
    | .ok value => .success (some id) value
    | .error message => .ofError (some id) ⟨-32601, message, none⟩

/-- The permission request is shown; a request with an id waits for its answer. -/
def showPermission (id : Option RequestId) (p : ChannelRequestPermission) : ChannelHarness :=
  match id with
  | some id =>
      { x.receive (some id) (some p) with
        pendingPermissions := x.pendingPermissions.set p.requestId ⟨id, x.requests.length⟩ }
  | none => x.receive none (some p)

def dispatch (req : JsonRpcRequest) (a : DispatchAnswers) :
    ChannelHarness × Except HarnessFailure (Option JsonRpcResponse) :=
  let called (failure : HarnessFailure) : Except HarnessFailure (Option JsonRpcResponse) :=
    if a.called then .ok none else .error failure
  if req.method = "initialize" then (x.receive req.id none, dispatchInitialize req a)
  else if req.method = "channel/deliverMessage" then
    match readDeliverMessage req.paramsJson with
    | some _ => (x.receive req.id none, called .deliverMessage)
    | none => (x.receive req.id none, .ok none)
  else if req.method = "channel/sessionCreated" then
    match readSessionCreated req.paramsJson with
    | some _ => (x.receive req.id none, called .onSessionCreated)
    | none => (x.receive req.id none, .ok none)
  else if req.method = "channel/requestPermission" then
    match readChannelRequestPermission req.paramsJson with
    | some p => (x.showPermission req.id p, called .showPermissionPrompt)
    | none => (x.receive req.id none, .ok none)
  else (x.receive req.id none, .ok (dispatchUnknown req a))

/-- The error of a callback ends the harness. -/
def handleRequest (req : JsonRpcRequest) (a : DispatchAnswers) : ChannelHarness :=
  match x.dispatch req a with
  | (y, .error failure) => { y with phase := .failed failure }
  | (y, .ok none) => y
  | (y, .ok (some r)) => y.writeResponse ⟨x.requests.length, r⟩ a.written

/-! ### The run -/

/-- The channel sends an answer; the first one for a request is kept. -/
def respond (no : Option Nat) (r : PermissionResponse) : ChannelHarness :=
  { x with
    permissions := x.permissions ++ [⟨r, no⟩]
    requests :=
      match no with
      | none => x.requests
      | some n => x.requests.modify n fun q => { q with given := q.given.or (some r.optionId) } }

/-- The answer is given for a permission request that was shown, and carries its request id. -/
def GivenFor (r : PermissionResponse) (no : Option Nat) : Prop :=
  ∀ n ∈ no, ∃ q ∈ x.requests[n]?, ∃ p ∈ q.prompt, p.requestId = r.requestId

instance (r : PermissionResponse) (no : Option Nat) : Decidable (x.GivenFor r no) :=
  inferInstanceAs (Decidable (∀ n ∈ no, _))

/-- The input has ended, and no permission request waits. -/
def drained : Bool := x.phase = .draining && x.pendingPermissions.entries.isEmpty

def listens : Bool := x.running && !x.drained

def step : HarnessLabel → Option ChannelHarness
  | .send message =>
      if x.running && x.outbound.length < outboundCapacity then
        some { x with outbound := x.outbound ++ [message] }
      else none
  | .respond no r =>
      if x.running && x.permissions.length < permissionCapacity then
        if x.GivenFor r no then some (x.respond no r) else none
      else none
  | .nextLine line a =>
      if x.phase = .serving then
        match readRequest serde line with
        | some req => some (x.handleRequest req a)
        | none => some x
      else none
  | .endOfInput => if x.phase = .serving then some { x with phase := .draining } else none
  | .recvOutbound written =>
      match x.outbound with
      | message :: rest =>
          if x.listens then some ({ x with outbound := rest }.writeOutbound message written)
          else none
      | [] => none
  | .recvPermission written =>
      match x.permissions with
      | g :: rest =>
          if x.listens then
            some ({ x with permissions := rest }.flushPermission g.response written)
          else none
      | [] => none
  | .finish => if x.drained then some { x with phase := .finished } else none

def life : Machine ChannelHarness HarnessLabel where
  init x := x = fresh
  step := step serde

end ChannelHarness

end Anyclaw
