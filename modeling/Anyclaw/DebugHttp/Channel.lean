import Anyclaw.Channels.Wire
import Anyclaw.Sdk.HarnessAnswers
import Anyclaw.Telegram.TypedCommands

/-!
# The debug channel

A channel that is used over HTTP: messages are posted, and the permission requests that are
pending can be listed and answered.  Each HTTP request has a handler of its own, which takes
the locks of the shared state one after the other, beside the loop of the harness.  So the
handlers and the loop interleave at every lock, a handler waits when a queue of the harness is
full, and it is dropped where it waits when its client goes away.

`on_ready` starts a server with a state of its own; a second `initialize` starts a second one,
and the first keeps running.  The stream of `/events` is left out.

The source is `ext/channels/debug-http/src/main.rs`, with the broker of
`crates/anyclaw-sdk-channel/src/broker.rs`.
-/

namespace Anyclaw

/-! ### Requests -/

/-- Where a request is routed to, with what the extractors take from it. -/
inductive Endpoint where
  | health
  | message (text : String)
  | events
  | cancel
  | permissionsPending
  | permissionRespond (id optionId : String)
  /-- No such route, another method, or a body that is rejected. -/
  | rejected (onHealth : Bool)
deriving DecidableEq

/-- The path is `/health`. -/
def Endpoint.isHealth : Endpoint → Bool
  | .health => true
  | .rejected onHealth => onHealth
  | _ => false

structure HttpRequest where
  /-- The server that it is sent to. -/
  server : Nat
  /-- The `Authorization` header, if it is text. -/
  authorization : Option String
  endpoint : Endpoint
deriving DecidableEq

inductive HttpAnswer where
  | ok (body : Json)
  | unauthorized (body : Json)
  /-- The stream of events. -/
  | stream
  /-- The router or an extractor answers. -/
  | rejected

inductive Handler where
  /-- To send a message to the harness, and then answer. -/
  | send (text : String) (body : Json)
  /-- To take a permission request off the list, to resolve it, and to answer the harness. -/
  | retain (id optionId : String)
  | resolve (id optionId : String)
  | respond (id optionId : String)
  | listPending
  | answered (answer : HttpAnswer)
  /-- The client has gone. -/
  | dropped

def Endpoint.handler : Endpoint → Handler
  | .health => .answered (.ok (.object [("status", .string "ok")]))
  | .message text =>
      .send text (.object [("status", .string "queued"),
        ("message", .string "Message received and queued for processing")])
  | .events => .answered .stream
  | .cancel => .send "__cancel__" (.object [("status", .string "cancelled")])
  | .permissionsPending => .listPending
  | .permissionRespond id optionId => .retain id optionId
  | .rejected _ => .answered .rejected

/-- A request that was let in, and its handler. -/
structure HttpTask where
  request : HttpRequest
  handler : Handler

/-! ### State -/

/-- `PermissionBroker`.  The channel drops the receivers at once, so a sender stands for
    nothing but itself. -/
structure PermissionBroker where
  resolvers : KeyedMap String Unit

namespace PermissionBroker

variable (b : PermissionBroker)

def register (requestId : String) : PermissionBroker := ⟨b.resolvers.set requestId ()⟩

def resolve (requestId : String) : Bool × PermissionBroker :=
  (b.resolvers.contains requestId, ⟨b.resolvers.remove requestId⟩)

end PermissionBroker

/-- `SharedState`.  A pending permission has the fields of the request. -/
structure DebugServer where
  apiKey : Option String
  pendingPermissions : List ChannelRequestPermission
  permissionBroker : PermissionBroker

def DebugServer.fresh (apiKey : Option String) : DebugServer := ⟨apiKey, [], ⟨∅⟩⟩

structure DebugHttpChannel where
  harness : ChannelHarness
  /-- The key for the servers that are started from now on. -/
  apiKey : Option String
  /-- The first one is that of `main`, which serves nothing; the last one is `self.state`. -/
  servers : List DebugServer
  /-- The request id that `show_permission_prompt` is still to register.  The loop of the
      harness waits for it. -/
  registering : Option String
  tasks : List HttpTask
  /-- What `auth_middleware` has answered by itself. -/
  refused : List (HttpRequest × HttpAnswer)

inductive DebugHttpLabel where
  /-- The loop of the harness goes on with something else than a line. -/
  | harness (l : HarnessLabel)
  | nextLine (line : List UInt8) (bound written : Bool)
  | register
  | request (r : HttpRequest)
  | proceed (no : Nat)
  /-- The client of a request goes away. -/
  | disconnect (no : Nat)

/-! ### Authorization -/

def bearer : List Char := "Bearer ".toList

/-- `auth_middleware`. -/
def DebugServer.lets (s : DebugServer) (r : HttpRequest) : Bool :=
  match s.apiKey with
  | none => true
  | some expectedKey =>
      r.endpoint.isHealth ||
        match r.authorization with
        | some h => bearer.isPrefixOf h.toList && h.toList.drop 7 = expectedKey.toList
        | none => false

def unauthorized : HttpAnswer := .unauthorized (.object [("error", .string "unauthorized")])

/-! ### The channel -/

def debugHttpReported : JsonValue :=
  .ofDoc (.object [
    ("protocolVersion", .number (.posInt 1)),
    ("capabilities", .object [("streaming", .bool true), ("richText", .bool false),
      ("media", .bool true)]),
    ("defaults", .object [("host", .string "127.0.0.1"), ("port", .number (.posInt 0)),
      ("ack", .object [("reaction", .bool false), ("typing", .bool false),
        ("reaction_emoji", .string "👀"), ("reaction_lifecycle", .string "remove")])])])

/-- What the callbacks return; `bound` says whether a server could be bound. -/
def debugHttpAnswers (method : String) (bound written : Bool) : DispatchAnswers where
  initialized := true
  ready := bound
  reported := debugHttpReported
  called := true
  unknown := .error ("Protocol error: unknown method: " ++ method)
  written := written

def ChannelRequestPermission.toJson (p : ChannelRequestPermission) : Json :=
  .object [("requestId", .string p.requestId), ("sessionId", .string p.sessionId),
    ("description", .string p.description),
    ("options", .array (p.options.map PermissionOption.toJson))]

def HarnessLabel.ofLoop : HarnessLabel → Bool
  | .endOfInput => true
  | .recvOutbound _ => true
  | .recvPermission _ => true
  | .finish => true
  | _ => false

namespace DebugHttpChannel

variable (serde : SerdeJson) (x : DebugHttpChannel)

def fresh : DebugHttpChannel := ⟨.fresh, none, [.fresh none], none, [], []⟩

def modifyServer (n : Nat) (f : DebugServer → DebugServer) : DebugHttpChannel :=
  { x with servers := x.servers.modify n f }

def modifyState (f : DebugServer → DebugServer) : DebugHttpChannel :=
  x.modifyServer (x.servers.length - 1) f

/-- What a callback does to the channel; that of a permission request stops before the second
    lock. -/
def called (bound : Bool) : ChannelCall → DebugHttpChannel
  | .onInitialize params =>
      let key := ((params.bind fun p => p.options.get? "api_key").bind fun v => v.doc.asStr).or
        x.apiKey
      { x with
        apiKey := key
        servers := if bound then x.servers ++ [.fresh key] else x.servers }
  | .showPermissionPrompt p =>
      { x.modifyState fun s => { s with pendingPermissions := s.pendingPermissions ++ [p] } with
        registering := some p.requestId }
  | _ => x

def readLine (line : List UInt8) (bound written : Bool) : Option DebugHttpChannel :=
  match readRequest serde line with
  | some req =>
      (x.harness.step serde
        (.nextLine line (debugHttpAnswers req.method bound written))).map fun harness =>
          match req.call with
          | some call => { x with harness := harness }.called bound call
          | none => { x with harness := harness }
  | none =>
      (x.harness.step serde (.nextLine line (debugHttpAnswers "" bound written))).map
        fun harness => { x with harness := harness }

def route (r : HttpRequest) : Option DebugHttpChannel :=
  if r.server = 0 then none
  else x.servers[r.server]?.map fun s =>
    if s.lets r then { x with tasks := x.tasks ++ [⟨r, r.endpoint.handler⟩] }
    else { x with refused := x.refused ++ [(r, unauthorized)] }

def setHandler (no : Nat) (handler : Handler) : DebugHttpChannel :=
  { x with tasks := x.tasks.modify no fun t => { t with handler := handler } }

/-- Something is sent to the harness, which waits for room; nobody hears of it once the harness
    has ended. -/
def sendToHarness (l : HarnessLabel) : Option DebugHttpChannel :=
  if x.harness.running then
    (x.harness.step serde l).map fun harness => { x with harness := harness }
  else some x

def responded : Json := .object [("status", .string "responded")]

def proceed (no : Nat) (t : HttpTask) : Option DebugHttpChannel :=
  match t.handler with
  | .send text body =>
      (x.sendToHarness serde (.send (ChannelHarness.document (debugHttpSent text, none)))).map
        fun y => y.setHandler no (.answered (.ok body))
  | .retain id optionId =>
      some ((x.modifyServer t.request.server fun s =>
        { s with pendingPermissions := s.pendingPermissions.filter (·.requestId ≠ id) }).setHandler
          no (.resolve id optionId))
  | .resolve id optionId =>
      some ((x.modifyServer t.request.server fun s =>
        { s with permissionBroker := (s.permissionBroker.resolve id).2 }).setHandler
          no (.respond id optionId))
  | .respond id optionId =>
      (x.sendToHarness serde (.respond none ⟨id, optionId⟩)).map fun y =>
        y.setHandler no (.answered (.ok responded))
  | .listPending =>
      x.servers[t.request.server]?.map fun s =>
        x.setHandler no (.answered (.ok (.array (s.pendingPermissions.map (·.toJson)))))
  | .answered _ => none
  | .dropped => none

def step : DebugHttpLabel → Option DebugHttpChannel
  | .harness l =>
      if x.registering.isNone && l.ofLoop then
        (x.harness.step serde l).map fun harness => { x with harness := harness }
      else none
  | .nextLine line bound written =>
      if x.registering.isNone then x.readLine serde line bound written else none
  | .register =>
      x.registering.map fun id =>
        { x.modifyState fun s =>
            { s with permissionBroker := s.permissionBroker.register id } with
          registering := none }
  | .request r => x.route r
  | .proceed no => x.tasks[no]?.bind fun t => x.proceed serde no t
  | .disconnect no =>
      x.tasks[no]?.bind fun t =>
        match t.handler with
        | .answered _ => none
        | _ => some (x.setHandler no .dropped)

def life : Machine DebugHttpChannel DebugHttpLabel where
  init x := x = fresh
  step := step serde

end DebugHttpChannel

end Anyclaw
