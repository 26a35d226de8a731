import Anyclaw.Channels.Admission
import Anyclaw.Jsonrpc.Stream
import Anyclaw.Sdk.HarnessProtocol
import Anyclaw.Sdk.UpdateRoundTrip

/-!
# The wire between the manager and a channel

The channels manager and the harness of a channel are two programs.  Each builds its
messages as documents of its own and reads those of the other with its own types, one
message to a line.

The manager's side is `crates/anyclaw-channels/src/manager.rs` with `connection.rs`, the other
one `crates/anyclaw-sdk-channel/src/harness.rs`; the documents are those of
`crates/anyclaw-sdk-types/src/channel.rs`.

* `calls_written`: the harness calls the channel once for each message that the manager
  writes, in order and with the same data.
* `collected_of_reachable`: the manager collects the messages that the channel sends, in
  order and unchanged, however the output of the harness is cut into chunks.
* `answer_returns`: the answer to a permission request completes the request that the
  manager has sent, with the option that was chosen.
-/

namespace Anyclaw

open Json (Reader Found readStruct Restores)

/-! ### The messages of a channel -/

def PeerInfo.toJson (p : PeerInfo) : Json :=
  .object [("channelName", .string p.channelName), ("peerId", .string p.peerId),
    ("kind", .string p.kind)]

def SenderInfo.toJson (i : SenderInfo) : Json :=
  .object (optionalField "senderId" (i.senderId.map .string) ++
    optionalField "senderName" (i.senderName.map .string))

def MessageMetadata.toJson (m : MessageMetadata) : Json :=
  .object (optionalField "replyToMessageId" (m.replyToMessageId.map .string) ++
    optionalField "replyToText" (m.replyToText.map .string) ++
    optionalField "replyToSender" (m.replyToSender.map .string) ++
    optionalField "replyToSenderId" (m.replyToSenderId.map .string) ++
    optionalField "replyToIsQuote" (m.replyToIsQuote.map .bool) ++
    optionalField "replyToMediaType" (m.replyToMediaType.map .string) ++
    optionalField "threadId" (m.threadId.map .string))

/-- A `ChannelSendMessage` as the channel writes it; `extension` is its `_meta`, which the
    manager does not use. -/
def SentMessage.toJson (m : SentMessage) (extension : Option JsonValue) : Json :=
  .object ([("peerInfo", m.peerInfo.toJson),
      ("content", .array (m.content.map ContentPart.toJson))] ++
    optionalField "metadata" (m.metadata.map MessageMetadata.toJson) ++
    optionalField "_meta" (extension.map JsonValue.doc) ++
    optionalField "senderInfo" (m.senderInfo.map SenderInfo.toJson) ++
    optionalField "wasMentioned" (m.wasMentioned.map .bool))

def readSenderInfo : Reader SenderInfo :=
  readStruct ["senderId", "senderName"] fun field => do
    return ⟨← defaultedOption Json.readString (field "senderId"),
      ← defaultedOption Json.readString (field "senderName")⟩

def readMessageMetadata : Reader MessageMetadata :=
  readStruct ["replyToMessageId", "replyToText", "replyToSender", "replyToSenderId",
      "replyToIsQuote", "replyToMediaType", "threadId"] fun field => do
    let replyToMessageId ← (field "replyToMessageId").optional Json.readString
    let replyToText ← (field "replyToText").optional Json.readString
    let replyToSender ← (field "replyToSender").optional Json.readString
    let replyToSenderId ← (field "replyToSenderId").optional Json.readString
    let replyToIsQuote ← (field "replyToIsQuote").optional Json.readBool
    let replyToMediaType ← (field "replyToMediaType").optional Json.readString
    let threadId ← (field "threadId").optional Json.readString
    return ⟨replyToMessageId, replyToText, replyToSender, replyToSenderId, replyToIsQuote,
      replyToMediaType, threadId⟩

/-- A part of a message, whose tag is read from the value itself. -/
def readMessagePart : Reader ContentPart :=
  Json.readTagged "type" (Json.variantName contentPartNames) readContentPartFields

def readChannelSendMessage : Reader SentMessage :=
  readStruct ["peerInfo", "content", "metadata", "_meta", "senderInfo", "wasMentioned"]
    fun field => do
      let peerInfo ← (field "peerInfo").required readPeerInfo
      let content ← (field "content").required (Json.readList readMessagePart)
      let metadata ← defaultedOption readMessageMetadata (field "metadata")
      let _extension ← defaultedOption Json.readValue (field "_meta")
      let senderInfo ← defaultedOption readSenderInfo (field "senderInfo")
      let wasMentioned ← defaultedOption Json.readBool (field "wasMentioned")
      return ⟨⟨peerInfo, content, metadata⟩, senderInfo, wasMentioned⟩

def readChannelRespondPermission : Reader PermissionResponse :=
  readStruct ["requestId", "optionId"] fun field => do
    let requestId ← (field "requestId").required Json.readString
    let optionId ← (field "optionId").required Json.readString
    return ⟨requestId, optionId⟩

/-! ### What the manager makes of a message -/

/-- What `collect_channel_message` goes on with. -/
inductive Collected where
  | sendMessage (message : SentMessage)
  | respondPermission (response : PermissionResponse)
  /-- Parameters that do not parse, or another method. -/
  | unhandled
deriving DecidableEq

def JsonRpcRequest.collected (req : JsonRpcRequest) : Collected :=
  if req.method = "channel/sendMessage" then
    match readChannelSendMessage req.paramsJson with
    | some m => .sendMessage m
    | none => .unhandled
  else if req.method = "channel/respondPermission" then
    match readChannelRespondPermission req.paramsJson with
    | some r => .respondPermission r
    | none => .unhandled
  else .unhandled

/-- The number of the pending request that a response completes. -/
def JsonRpcResponse.pendingId (r : JsonRpcResponse) : UInt64 :=
  match r.id with
  | some (.number n) => n.toUInt64
  | _ => 0

/-- The option that the manager forwards when a permission request is answered. -/
def JsonRpcResponse.chosenOption (r : JsonRpcResponse) : String :=
  ((r.result.bind fun v => v.doc.get? "optionId").bind Json.asStr).getD "once"

/-! ### The messages of the manager -/

/-- How the payloads are written that the manager passes on without reading them. -/
structure Rendering where
  content : Delivered → JsonValue
  stopReason : StopReason → JsonValue

def PermissionOption.toJson (o : PermissionOption) : Json :=
  .object [("optionId", .string o.optionId), ("label", .string o.label)]

namespace ToChannel

def method : ToChannel → String
  | .deliverMessage _ _ => "channel/deliverMessage"
  | .responseStarted _ => "channel/ackLifecycle"
  | .responseCompleted _ _ => "channel/ackLifecycle"
  | .ackMessage _ _ _ => "channel/ackMessage"
  | .typingIndicator _ _ => "channel/typingIndicator"
  | .sessionCreated _ _ => "channel/sessionCreated"
  | .requestPermission _ _ _ _ => "channel/requestPermission"

variable (R : Rendering)

def fields : ToChannel → List (String × Json)
  | .deliverMessage sessionId content =>
      [("sessionId", .string sessionId), ("content", (R.content content).doc)]
  | .responseStarted sessionId =>
      [("sessionId", .string sessionId), ("action", .string "response_started")]
  | .responseCompleted sessionId stopReason =>
      [("sessionId", .string sessionId), ("action", .string "response_completed"),
        ("stopReason", (R.stopReason stopReason).doc)]
  | .ackMessage sessionId channelName peerId =>
      [("sessionId", .string sessionId), ("channelName", .string channelName),
        ("peerId", .string peerId), ("messageId", .null)]
  | .typingIndicator sessionId channelName =>
      [("sessionId", .string sessionId), ("channelName", .string channelName)]
  | .sessionCreated sessionId peerInfo =>
      [("sessionId", .string sessionId), ("peerInfo", peerInfo.toJson)]
  | .requestPermission requestId sessionId description options =>
      [("requestId", .string requestId), ("sessionId", .string sessionId),
        ("description", .string description),
        ("options", .array (options.map PermissionOption.toJson))]

def params (m : ToChannel) : JsonValue := .ofDoc (.object (m.fields R))

/-- A permission request is sent with an id, and everything else as a notification. -/
def rpcId (id : UInt64) : ToChannel → Option RequestId
  | .requestPermission _ _ _ _ => some (.number id.toInt64)
  | _ => none

/-- The message, when `id` is the next id of the connection. -/
def request (id : UInt64) (m : ToChannel) : JsonRpcRequest :=
  .new m.method (m.rpcId id) (some (m.params R))

end ToChannel

/-! ### What the harness makes of a message -/

inductive ChannelCall where
  /-- `on_initialize`, when the parameters parse, and `on_ready`. -/
  | onInitialize (params : Option ChannelInitializeParams)
  | deliverMessage (message : DeliverMessage)
  | onSessionCreated (message : SessionCreated)
  | showPermissionPrompt (request : ChannelRequestPermission)
  | handleUnknown (method : String) (params : Json)

/-- The call that `dispatch` makes; none when the parameters do not parse. -/
def JsonRpcRequest.call (req : JsonRpcRequest) : Option ChannelCall :=
  if req.method = "initialize" then
    some (.onInitialize (readChannelInitializeParams req.paramsJson))
  else if req.method = "channel/deliverMessage" then
    (readDeliverMessage req.paramsJson).map .deliverMessage
  else if req.method = "channel/sessionCreated" then
    (readSessionCreated req.paramsJson).map .onSessionCreated
  else if req.method = "channel/requestPermission" then
    (readChannelRequestPermission req.paramsJson).map .showPermissionPrompt
  else some (.handleUnknown req.method req.paramsJson)

/-- What the manager writes to a new channel process first, and then. -/
inductive ToHarness where
  | handshake (channelId : String) (ack : ChannelAckConfig) (options : KeyedMap String JsonValue)
  | message (m : ToChannel)

def ChannelAckConfig.toJson (a : ChannelAckConfig) : Json :=
  .object [("reaction", .bool a.reaction), ("typing", .bool a.typing),
    ("reactionEmoji", .string a.reactionEmoji), ("reactionLifecycle", .string a.reactionLifecycle)]

def initializeFields (channelId : String) (ack : ChannelAckConfig)
    (options : KeyedMap String JsonValue) : List (String × Json) :=
  [("protocolVersion", .number (.posInt 1)), ("channelId", .string channelId),
    ("ack", ack.toJson), ("options", .object (Json.mapFields options))]

def ToHarness.request (R : Rendering) (id : UInt64) : ToHarness → JsonRpcRequest
  | .handshake channelId ack options =>
      .new "initialize" (some (.number id.toInt64))
        (some (.ofDoc (.object (initializeFields channelId ack options))))
  | .message m => m.request R id

def ToChannel.call (R : Rendering) : ToChannel → ChannelCall
  | .deliverMessage sessionId content => .deliverMessage ⟨sessionId, R.content content, none⟩
  | .sessionCreated sessionId peerInfo => .onSessionCreated ⟨sessionId, peerInfo⟩
  | .requestPermission requestId sessionId description options =>
      .showPermissionPrompt ⟨requestId, sessionId, description, options⟩
  | m => .handleUnknown m.method (m.params R).doc

/-- The call has what the manager wrote. -/
def ToHarness.CalledBy (R : Rendering) : ToHarness → Option ChannelCall → Prop
  | .handshake channelId ack options, some (.onInitialize (some p)) =>
      p.protocolVersion = 1 ∧ p.channelId = channelId ∧ p.ack = some ack ∧
        ∀ k, p.options.get? k = options.get? k
  | .handshake _ _ _, _ => False
  | .message m, call => call = some (m.call R)

/-- A line of `BufReader::lines`, without the carriage return at its end. -/
def withoutReturn (line : List UInt8) : List UInt8 :=
  if line.getLast? = some 13 then line.dropLast else line

/-- The lines of an input whose last line is ended. -/
def harnessLines (src : List UInt8) : List (List UInt8) :=
  (NdJsonCodec.lines src).1.map withoutReturn

namespace ChannelHarness

def linesRead (steps : List (Machine.Taken ChannelHarness HarnessLabel)) : List (List UInt8) :=
  steps.filterMap fun s =>
    match s.label with
    | .nextLine line _ => some line
    | _ => none

def dispatched (serde : SerdeJson) (steps : List (Machine.Taken ChannelHarness HarnessLabel)) :
    List JsonRpcRequest :=
  (linesRead steps).filterMap (readRequest serde)

end ChannelHarness

/-- No callback fails, and what is written is written. -/
def HarnessLabel.succeeds : HarnessLabel → Bool
  | .nextLine _ a => a.initialized && a.ready && a.called && a.written
  | .recvOutbound written => written
  | .recvPermission written => written
  | _ => true

/-! ### Reading back -/

theorem restores_peerInfo : Restores readPeerInfo PeerInfo.toJson := by
  intro p
  rw [readPeerInfo, PeerInfo.toJson, Json.readStruct_normalize]
  simp [Json.readString]

theorem restores_senderInfo : Restores readSenderInfo SenderInfo.toJson := by
  intro i
  have hstring : ∀ o : Option String, defaultedOption Json.readString
      (Found.ofKey ((o.map Json.string).map Json.normalize)) = some o :=
    Json.restores_string.defaulted nofun
  rw [readSenderInfo, SenderInfo.toJson, Json.readStruct_normalize]
  simp [Json.entries_append, -Option.map_map, hstring]

theorem restores_messageMetadata : Restores readMessageMetadata MessageMetadata.toJson := by
  intro m
  rw [readMessageMetadata, MessageMetadata.toJson, Json.readStruct_normalize]
  simp [Json.entries_append, -Option.map_map, Json.written_string, Json.written_bool]

theorem restores_messagePart : Restores readMessagePart ContentPart.toJson :=
  restores_part fun _ hname => if_pos hname

/-- What the manager reads of a message is the message. -/
theorem readChannelSendMessage_toJson (m : SentMessage) (extension : Option JsonValue) :
    readChannelSendMessage (m.toJson extension).normalize = some m := by
  have hmetadata : ∀ o : Option MessageMetadata, defaultedOption readMessageMetadata
      (Found.ofKey ((o.map MessageMetadata.toJson).map Json.normalize)) = some o :=
    restores_messageMetadata.defaulted nofun
  have hsender : ∀ o : Option SenderInfo, defaultedOption readSenderInfo
      (Found.ofKey ((o.map SenderInfo.toJson).map Json.normalize)) = some o :=
    restores_senderInfo.defaulted nofun
  have hmentioned : ∀ o : Option Bool, defaultedOption Json.readBool
      (Found.ofKey ((o.map Json.bool).map Json.normalize)) = some o :=
    Json.restores_bool.defaulted nofun
  -- an extension of null is read as none at all
  obtain ⟨extension', hextension⟩ : ∃ extension', defaultedOption Json.readValue
      (Found.ofKey ((extension.map JsonValue.doc).map Json.normalize)) = some extension' := by
    apply Option.isSome_iff_exists.mp
    cases extension with
    | none => rfl
    | some v => exact Json.reads_option_value _
  rw [readChannelSendMessage, SentMessage.toJson, Json.readStruct_normalize]
  simp only [Json.entries_append, entries_optionalField, Json.entries_cons, Json.entries_nil]
  simp [-Option.map_map, hmetadata, hsender, hmentioned, hextension, restores_peerInfo m.peerInfo,
    restores_messagePart.list m.content]

theorem readPermissionOption_toJson : Restores readPermissionOption PermissionOption.toJson := by
  intro o
  have hnormal : o.toJson.normalize =
      .object [("label", .string o.label), ("optionId", .string o.optionId)] := by
    have hlt : ¬ "optionId" < "label" := by decide
    simp [PermissionOption.toJson, Json.normalize, Json.normalizeFields, Json.addField, hlt]
  rw [hnormal]
  simp [readPermissionOption, renameLabel, Json.readStruct_object, Json.readString]

theorem restores_ackConfig : Restores readChannelAckConfig ChannelAckConfig.toJson := by
  intro a
  rw [readChannelAckConfig, ChannelAckConfig.toJson, Json.readStruct_normalize]
  simp [Json.readString, Json.readBool]

/-! ### From the manager to the channel -/

section ToChannel

variable {serde : SerdeJson} {R : Rendering}

theorem call_message (id : UInt64) (m : ToChannel) : (m.request R id).call = some (m.call R) := by
  have hvalue : ∀ v : JsonValue, v.doc.readValue = some v := by simp [Json.readValue]
  cases m with
  | deliverMessage sessionId content =>
      have hread : readDeliverMessage
          (Json.normalize (.object (ToChannel.fields R (.deliverMessage sessionId content)))) =
            some ⟨sessionId, R.content content, none⟩ := by
        rw [readDeliverMessage, ToChannel.fields, Json.readStruct_normalize]
        simp [Json.readString, hvalue]
      exact congrArg (Option.map ChannelCall.deliverMessage) hread
  | sessionCreated sessionId peerInfo =>
      have hread : readSessionCreated
          (Json.normalize (.object (ToChannel.fields R (.sessionCreated sessionId peerInfo)))) =
            some ⟨sessionId, peerInfo⟩ := by
        rw [readSessionCreated, ToChannel.fields, Json.readStruct_normalize]
        simp [Json.readString, restores_peerInfo peerInfo]
      exact congrArg (Option.map ChannelCall.onSessionCreated) hread
  | requestPermission requestId sessionId description options =>
      have hread : readChannelRequestPermission (Json.normalize (.object
          (ToChannel.fields R (.requestPermission requestId sessionId description options)))) =
            some ⟨requestId, sessionId, description, options⟩ := by
        rw [readChannelRequestPermission, ToChannel.fields, Json.readStruct_normalize]
        simp [Json.readString, readPermissionOption_toJson.list options]
      exact congrArg (Option.map ChannelCall.showPermissionPrompt) hread
  | responseStarted sessionId => rfl
  | responseCompleted sessionId stopReason => rfl
  | ackMessage sessionId channelName peerId => rfl
  | typingIndicator sessionId channelName => rfl

theorem calledBy_request (id : UInt64) (m : ToHarness) : m.CalledBy R (m.request R id).call := by
  cases m with
  | message m => exact call_message id m
  | handshake channelId ack options =>
      obtain ⟨options', hoptions, hget⟩ := Json.restores_map options
      have hread : readChannelInitializeParams
          (Json.normalize (.object (initializeFields channelId ack options))) =
            some ⟨1, channelId, some ack, options'⟩ := by
        have hone : readUInt32 (.number (.posInt 1)) = some 1 := by decide
        have hack : Json.readOption readChannelAckConfig ack.toJson.normalize = some (some ack) :=
          restores_ackConfig.option nofun
        rw [readChannelInitializeParams, initializeFields, Json.readStruct_normalize]
        simp [Json.readString, hone, hack, hoptions]
      have hcall : ((ToHarness.handshake channelId ack options).request R id).call =
          some (.onInitialize (some ⟨1, channelId, some ack, options'⟩)) :=
        congrArg (fun params => some (ChannelCall.onInitialize params)) hread
      rw [hcall]
      exact ⟨rfl, rfl, rfl, hget⟩

/-- The request that the harness reads from the line of a request. -/
theorem readRequest_line {r : JsonRpcRequest} (h : serde.Faithful r.toJson)
    (hparams : Substantial r.params) :
    readRequest serde (serde.toBytes r.toJson) = some r := by
  have hblank : isBlank (serde.toBytes r.toJson) = false := by
    have hmem : closingBrace ∈ serde.toBytes r.toJson := List.mem_of_getLast? h.closed
    rw [isBlank, List.all_eq_false]
    exact ⟨closingBrace, hmem, by decide⟩
  rw [readRequest, hblank, if_neg (by simp), h.parses, Option.bind_some,
    readJsonRpcRequest_toJson, dropNull_eq_iff.mpr hparams]

/-- The lines of what the manager writes. -/
theorem harnessLines_written {written : List (UInt64 × ToHarness)}
    (h : ∀ w ∈ written, serde.Faithful (w.2.request R w.1).toJson) :
    harnessLines (written.flatMap fun w =>
      NdJsonCodec.encode serde (.request (w.2.request R w.1))) =
        written.map fun w => serde.toBytes (w.2.request R w.1).toJson := by
  have hstream : (written.flatMap fun w =>
      NdJsonCodec.encode serde (.request (w.2.request R w.1))) =
        (written.map fun w => JsonRpcMessage.request (w.2.request R w.1)).flatMap
          (NdJsonCodec.encode serde) := by
    rw [List.flatMap_map]
  have hline : ∀ m ∈ written.map fun w => JsonRpcMessage.request (w.2.request R w.1),
      newline ∉ serde.toBytes m.toJson := by
    intro m hm
    obtain ⟨w, hw, rfl⟩ := List.mem_map.mp hm
    exact (h w hw).oneLine
  rw [harnessLines, hstream, NdJsonCodec.lines_encoded hline, List.map_map, List.map_map]
  refine List.map_congr_left fun w hw => ?_
  -- the line ends in a brace
  change withoutReturn (serde.toBytes (w.2.request R w.1).toJson) = _
  rw [withoutReturn, (h w hw).closed, if_neg (by decide)]

theorem request_substantial (id : UInt64) (m : ToHarness) :
    Substantial (m.request R id).params := by
  intro v hv
  cases m with
  | handshake channelId ack options =>
      cases Option.some.inj hv
      exact nofun
  | message m =>
      cases Option.some.inj hv
      exact nofun

end ToChannel

/-! ### From the channel to the manager -/

def HarnessOutput.message : HarnessOutput → JsonRpcMessage
  | .response r => .response r.response
  | .notification r => .request r

def HarnessOutput.notification? : HarnessOutput → Option JsonRpcRequest
  | .response _ => none
  | .notification r => some r

/-- What the manager collects from the messages that its decoder gives. -/
def collectedFrom (ms : List JsonRpcMessage) : List Collected :=
  ms.filterMap fun m =>
    match m with
    | .request r => some r.collected
    | .response _ => none

def HarnessLabel.sent : HarnessLabel → Option JsonValue
  | .send message => some message
  | _ => none

/-- The answer of a user completes the request that the manager has sent with this id, with
    the option that was chosen. -/
theorem answer_returns (id : UInt64) (p : ChannelRequestPermission) (optionId : String) :
    (p.answer (some (.number id.toInt64)) optionId).pendingId = id ∧
      (p.answer (some (.number id.toInt64)) optionId).chosenOption = optionId := by
  have hvalue : (PermissionResponse.toJson ⟨p.requestId, optionId⟩).normalize.get? "optionId" =
      some (.string optionId) := by
    rw [PermissionResponse.toJson, Json.normalize, Json.get?, Json.lookup_normalizeFields]
    simp
  refine ⟨by simp [ChannelRequestPermission.answer, JsonRpcResponse.success,
    JsonRpcResponse.pendingId], ?_⟩
  have hchosen : (p.answer (some (.number id.toInt64)) optionId).chosenOption =
      (((PermissionResponse.toJson ⟨p.requestId, optionId⟩).normalize.get? "optionId").bind
        Json.asStr).getD "once" := rfl
  rw [hchosen, hvalue]
  rfl

namespace ChannelHarness

variable {serde : SerdeJson} {x y : ChannelHarness}

def written (serde : SerdeJson) (x : ChannelHarness) : List UInt8 :=
  x.output.flatMap fun o => NdJsonCodec.encode serde o.message

def notifications (x : ChannelHarness) : List JsonRpcRequest :=
  x.output.filterMap HarnessOutput.notification?

def notificationOf (message : JsonValue) : JsonRpcRequest :=
  .new "channel/sendMessage" none (some message)

/-! #### What a step does to the messages -/

/-- The messages of the channel are left alone. -/
structure SameMessages (x y : ChannelHarness) : Prop where
  notifications : y.notifications = x.notifications
  outbound : y.outbound = x.outbound

theorem SameMessages.trans {z : ChannelHarness} (h : SameMessages x y) (h' : SameMessages y z) :
    SameMessages x z :=
  ⟨h'.notifications.trans h.notifications, h'.outbound.trans h.outbound⟩

theorem sameMessages_writeResponse (x : ChannelHarness) (r : HarnessResponse) (written : Bool) :
    SameMessages x (x.writeResponse r written) := by
  cases written with
  | false => exact ⟨rfl, rfl⟩
  | true =>
      refine ⟨?_, rfl⟩
      simp [writeResponse, write, ChannelHarness.notifications, HarnessOutput.notification?]

theorem sameMessages_flushPermission (x : ChannelHarness) (r : PermissionResponse)
    (written : Bool) : SameMessages x (x.flushPermission r written) := by
  unfold flushPermission
  split
  · obtain ⟨hn, hq⟩ := sameMessages_writeResponse { x with pendingPermissions := _ } _ written
    exact ⟨hn, hq⟩
  · exact ⟨rfl, rfl⟩

theorem sameMessages_dispatch (x : ChannelHarness) (req : JsonRpcRequest) (a : DispatchAnswers) :
    SameMessages x (x.dispatch req a).1 := by
  rcases dispatch_cases x req a with ⟨result, hdispatch, -⟩ | ⟨p, -, hdispatch⟩
  · rw [hdispatch]
    exact ⟨rfl, rfl⟩
  · rw [hdispatch]
    unfold showPermission
    split <;> exact ⟨rfl, rfl⟩

theorem sameMessages_handleRequest (x : ChannelHarness) (req : JsonRpcRequest)
    (a : DispatchAnswers) : SameMessages x (x.handleRequest req a) := by
  have hdispatch := sameMessages_dispatch x req a
  unfold handleRequest
  split <;> rename_i heq <;> rw [heq] at hdispatch
  · exact ⟨hdispatch.notifications, hdispatch.outbound⟩
  · exact hdispatch
  · exact hdispatch.trans (sameMessages_writeResponse _ _ _)

/-- What a step does to the messages of the channel: nothing, or one is sent, written or
    lost with the writer. -/
inductive Passes (x : ChannelHarness) : HarnessLabel → ChannelHarness → Prop where
  | nothing {l : HarnessLabel} {y : ChannelHarness} (hsent : l.sent = none)
      (h : SameMessages x y) : Passes x l y
  | sent {v : JsonValue} {y : ChannelHarness} (hn : y.notifications = x.notifications)
      (hq : y.outbound = x.outbound ++ [v]) : Passes x (.send v) y
  | written {v : JsonValue} {rest : List JsonValue} {y : ChannelHarness}
      (hx : x.outbound = v :: rest)
      (hn : y.notifications = x.notifications ++ [notificationOf v]) (hq : y.outbound = rest) :
      Passes x (.recvOutbound true) y
  | lost {v : JsonValue} {rest : List JsonValue} {y : ChannelHarness}
      (hx : x.outbound = v :: rest) (hn : y.notifications = x.notifications)
      (hq : y.outbound = rest) (hended : y.running = false) : Passes x (.recvOutbound false) y

theorem step_passes {l : HarnessLabel} (h : step serde x l = some y) :
    x.running = true ∧ Passes x l y := by
  cases l with
  | send message =>
      obtain ⟨hroom, heq⟩ := Option.ite_none_right_eq_some.mp h
      cases Option.some.inj heq
      exact ⟨(Bool.and_eq_true_iff.mp hroom).1, .sent rfl rfl⟩
  | respond no r =>
      obtain ⟨hroom, h⟩ := Option.ite_none_right_eq_some.mp h
      obtain ⟨-, heq⟩ := Option.ite_none_right_eq_some.mp h
      cases Option.some.inj heq
      exact ⟨(Bool.and_eq_true_iff.mp hroom).1, .nothing rfl ⟨rfl, rfl⟩⟩
  | nextLine line a =>
      obtain ⟨hphase, h⟩ := Option.ite_none_right_eq_some.mp h
      refine ⟨by simp [running, hphase], .nothing rfl ?_⟩
      split at h
      · cases Option.some.inj h
        exact sameMessages_handleRequest x _ a
      · cases Option.some.inj h
        exact ⟨rfl, rfl⟩
  | endOfInput =>
      obtain ⟨hphase, heq⟩ := Option.ite_none_right_eq_some.mp h
      cases Option.some.inj heq
      exact ⟨by simp [running, hphase], .nothing rfl ⟨rfl, rfl⟩⟩
  | recvOutbound written =>
      rw [step] at h
      split at h
      · rename_i message rest hqueue
        obtain ⟨hlistens, heq⟩ := Option.ite_none_right_eq_some.mp h
        cases Option.some.inj heq
        refine ⟨running_of_listens hlistens, ?_⟩
        cases written with
        | false => exact .lost hqueue rfl rfl rfl
        | true =>
            refine .written hqueue ?_ rfl
            simp [writeOutbound, write, ChannelHarness.notifications,
              HarnessOutput.notification?, notificationOf]
      · cases h
  | recvPermission written =>
      rw [step] at h
      split at h
      · obtain ⟨hlistens, heq⟩ := Option.ite_none_right_eq_some.mp h
        cases Option.some.inj heq
        obtain ⟨hn, hq⟩ := sameMessages_flushPermission { x with permissions := _ } _ written
        exact ⟨running_of_listens hlistens, .nothing rfl ⟨hn, hq⟩⟩
      · cases h
  | finish =>
      obtain ⟨hdrained, heq⟩ := Option.ite_none_right_eq_some.mp h
      cases Option.some.inj heq
      exact ⟨by simp [running, phase_of_drained hdrained], .nothing rfl ⟨rfl, rfl⟩⟩

/-! #### The run -/

/-- The messages that the channel has sent, as the documents that it sends. -/
def said (steps : List (Machine.Taken ChannelHarness HarnessLabel)) : List JsonValue :=
  steps.filterMap fun t => t.label.sent

theorem said_append (steps : List (Machine.Taken ChannelHarness HarnessLabel))
    (t : Machine.Taken ChannelHarness HarnessLabel) :
    said (steps ++ [t]) = said steps ++ t.label.sent.toList := by
  cases hsent : t.label.sent <;> simp [said, List.filterMap_append, hsent]

/-- The messages that were sent are those that are written, one that was lost with the
    writer, and those that wait. -/
structure Accounts (sent : List JsonValue) (x : ChannelHarness) (first lost : List JsonValue) :
    Prop where
  notifications : x.notifications = first.map notificationOf
  sent : sent = first ++ lost ++ x.outbound
  ended : lost ≠ [] → x.running = false

theorem Accounts.step {sent first lost : List JsonValue} {l : HarnessLabel}
    (hx : Accounts sent x first lost) (h : ChannelHarness.step serde x l = some y) :
    ∃ first' lost', Accounts (sent ++ l.sent.toList) y first' lost' := by
  obtain ⟨hrunning, hpasses⟩ := step_passes h
  -- the harness runs before the step, so nothing was lost
  have hlost : lost = [] := by
    by_contra hne
    have hended := hx.ended hne
    simp [hrunning] at hended
  have hsent := hx.sent
  rw [hlost, List.append_nil] at hsent
  cases hpasses with
  | nothing hnone hsame =>
      refine ⟨first, [], ⟨hsame.notifications.trans hx.notifications, ?_, nofun⟩⟩
      simp [hnone, hsent, hsame.outbound]
  | sent hn hq =>
      refine ⟨first, [], ⟨hn.trans hx.notifications, ?_, nofun⟩⟩
      simp [HarnessLabel.sent, hsent, hq]
  | @written v rest y hhead hn hq =>
      refine ⟨first ++ [v], [], ⟨?_, ?_, nofun⟩⟩
      · simp [hn, hx.notifications]
      · simp [HarnessLabel.sent, hsent, hhead, hq]
  | @lost v rest y hhead hn hq hended =>
      refine ⟨first, [v], ⟨hn.trans hx.notifications, ?_, fun _ => hended⟩⟩
      simp [HarnessLabel.sent, hsent, hhead, hq]

theorem accounts_of_reachable
    {x : List (Machine.Taken ChannelHarness HarnessLabel) × ChannelHarness}
    (h : (life serde).recorded.Reachable x) :
    ∃ first lost, Accounts (said x.1) x.2 first lost := by
  refine h.invariant (I := fun x => ∃ first lost, Accounts (said x.1) x.2 first lost) ?_ ?_
  · rintro x ⟨hnil, hfresh⟩
    rw [hnil, hfresh]
    exact ⟨[], [], ⟨rfl, rfl, nofun⟩⟩
  · rintro x l x' - ⟨first, lost, hx⟩ - hs
    obtain ⟨hstep, hsteps⟩ := Machine.of_recorded_step hs
    rw [hsteps, said_append]
    exact hx.step hstep

/-! #### What the manager collects -/

def document (m : SentMessage × Option JsonValue) : JsonValue := .ofDoc (m.1.toJson m.2)

theorem collected_notificationOf (m : SentMessage × Option JsonValue) :
    (notificationOf (document m)).collected = .sendMessage m.1 := by
  have hread : readChannelSendMessage (notificationOf (document m)).paramsJson = some m.1 :=
    readChannelSendMessage_toJson m.1 m.2
  have hcollected : (notificationOf (document m)).collected =
      match readChannelSendMessage (notificationOf (document m)).paramsJson with
      | some m => .sendMessage m
      | none => .unhandled := rfl
  rw [hcollected, hread]

theorem collectedFrom_append (ms ms' : List JsonRpcMessage) :
    collectedFrom (ms ++ ms') = collectedFrom ms ++ collectedFrom ms' :=
  List.filterMap_append ..

/-- Parameters of null are no parameters. -/
theorem collected_dropNull (r : JsonRpcRequest) :
    ({ r with params := dropNull r.params } : JsonRpcRequest).collected = r.collected := by
  have hparams : ({ r with params := dropNull r.params } : JsonRpcRequest).paramsJson =
      r.paramsJson := by
    unfold JsonRpcRequest.paramsJson dropNull
    rcases r.params with - | v
    · rfl
    · by_cases hv : v.doc = .null <;> simp [hv]
  unfold JsonRpcRequest.collected
  rw [hparams]

/-- What is collected from the output are its notifications. -/
theorem collectedFrom_output (x : ChannelHarness) :
    collectedFrom (x.output.map fun o => o.message.dropNulls) =
      x.notifications.map JsonRpcRequest.collected := by
  unfold collectedFrom ChannelHarness.notifications
  rw [List.filterMap_map, List.map_filterMap]
  refine List.filterMap_congr fun o _ => ?_
  cases o with
  | response r => rfl
  | notification r => exact congrArg some (collected_dropNull r)

/-- **What the channel sends is collected.**  However the bytes that have come from the
    harness are cut into chunks, the manager collects the messages that the channel has sent,
    unchanged, in order and without a gap; and all of them when all bytes have come from a
    harness that runs and whose queue is empty. -/
theorem collected_of_reachable (serde : SerdeJson)
    {x : List (Machine.Taken ChannelHarness HarnessLabel) × ChannelHarness}
    (h : (life serde).recorded.Reachable x) (messages : List (SentMessage × Option JsonValue))
    (hsent : said x.1 = messages.map document)
    (htravels : ∀ o ∈ x.2.output, NdJsonCodec.Travels serde o.message)
    (chunks : List (List UInt8)) (hchunks : chunks.flatten <+: x.2.written serde) :
    ∃ ms, NdJsonCodec.decodeChunks serde [] chunks = (ms, .ok ()) ∧
      collectedFrom ms <+: messages.map (fun m => .sendMessage m.1) ∧
      (chunks.flatten = x.2.written serde → x.2.running → x.2.outbound = [] →
        collectedFrom ms = messages.map fun m => .sendMessage m.1) := by
  obtain ⟨first, lost, hx⟩ := accounts_of_reachable h
  have hwritten : x.2.written serde =
      (x.2.output.map HarnessOutput.message).flatMap (NdJsonCodec.encode serde) := by
    rw [List.flatMap_map]
    rfl
  rw [hwritten] at hchunks ⊢
  obtain ⟨come, later, hoff, -, hdecoded, hall⟩ :=
    NdJsonCodec.decodeChunks_of_isPrefix (by simpa using htravels) hchunks
  have hcollected : collectedFrom (come.map JsonRpcMessage.dropNulls) ++
      collectedFrom (later.map JsonRpcMessage.dropNulls) = first.map fun v =>
        (notificationOf v).collected := by
    rw [← collectedFrom_append, ← List.map_append, ← hoff, List.map_map]
    refine (collectedFrom_output x.2).trans ?_
    rw [hx.notifications, List.map_map]
    rfl
  have hmessages : (said x.1).map (fun v => (notificationOf v).collected) =
      messages.map fun m => .sendMessage m.1 := by
    rw [hsent, List.map_map]
    exact List.map_congr_left fun m _ => collected_notificationOf m
  refine ⟨_, hdecoded, ?_, ?_⟩
  · rw [← hmessages, hx.sent, List.map_append, List.map_append, ← hcollected]
    simp
  · intro hwhole hrunning hqueue
    have hlost : lost = [] := by
      by_contra hne
      have hended := hx.ended hne
      simp [hrunning] at hended
    rw [← hmessages, hx.sent, hlost, hqueue, List.append_nil, List.append_nil, ← hcollected,
      hall hwhole]
    simp [collectedFrom]

end ChannelHarness

/-! ### The calls of the channel -/

namespace ChannelHarness

variable {serde : SerdeJson} {x y : ChannelHarness}

theorem phase_flushPermission (x : ChannelHarness) (r : PermissionResponse) :
    (x.flushPermission r true).phase = x.phase := by
  unfold flushPermission
  split
  · rfl
  · rfl

theorem phase_showPermission (x : ChannelHarness) (id : Option RequestId)
    (p : ChannelRequestPermission) : (x.showPermission id p).phase = x.phase := by
  cases id <;> rfl

theorem dispatchInitialize_ok (req : JsonRpcRequest) {a : DispatchAnswers}
    (hinitialized : a.initialized = true) (hready : a.ready = true) :
    dispatchInitialize req a = .ok (req.id.map fun id => .success (some id) a.reported) := by
  simp [dispatchInitialize, hinitialized, hready]

/-- A request is dispatched without an error, when the callbacks succeed. -/
theorem dispatch_ok (x : ChannelHarness) (req : JsonRpcRequest) {a : DispatchAnswers}
    (hinitialized : a.initialized = true) (hready : a.ready = true) (hcalled : a.called = true) :
    ∃ y r, x.dispatch req a = (y, .ok r) ∧ y.phase = x.phase := by
  unfold dispatch
  simp only [hcalled, if_true, dispatchInitialize_ok req hinitialized hready]
  split
  · exact ⟨_, _, rfl, rfl⟩
  · split
    · split <;> exact ⟨_, _, rfl, rfl⟩
    · split
      · split <;> exact ⟨_, _, rfl, rfl⟩
      · split
        · split
          · exact ⟨_, _, rfl, phase_showPermission x req.id _⟩
          · exact ⟨_, _, rfl, rfl⟩
        · exact ⟨_, _, rfl, rfl⟩

/-- A step whose callbacks and writes succeed does not fail. -/
theorem not_failed_of_succeeds {l : HarnessLabel} (hl : l.succeeds = true)
    (h : x.step serde l = some y) : ¬y.Failed := by
  have hok : ¬x.Failed := not_failed_of_running (step_passes h).1
  have hsame : y.phase = x.phase → ¬y.Failed := by
    rintro hphase ⟨failure, hfailed⟩
    exact hok ⟨failure, hphase ▸ hfailed⟩
  cases l with
  | send message =>
      obtain ⟨-, heq⟩ := Option.ite_none_right_eq_some.mp h
      cases Option.some.inj heq
      exact hsame rfl
  | respond no r =>
      obtain ⟨-, h⟩ := Option.ite_none_right_eq_some.mp h
      obtain ⟨-, heq⟩ := Option.ite_none_right_eq_some.mp h
      cases Option.some.inj heq
      exact hsame rfl
  | nextLine line a =>
      obtain ⟨-, h⟩ := Option.ite_none_right_eq_some.mp h
      simp only [HarnessLabel.succeeds, Bool.and_eq_true] at hl
      obtain ⟨⟨⟨hinitialized, hready⟩, hcalled⟩, hwritten⟩ := hl
      split at h
      · rename_i req _
        cases Option.some.inj h
        obtain ⟨z, r, hdispatch, hphase⟩ := x.dispatch_ok req hinitialized hready hcalled
        refine hsame ?_
        rw [handleRequest, hdispatch]
        cases r with
        | none => exact hphase
        | some r =>
            dsimp only
            rw [hwritten]
            exact hphase
      · cases Option.some.inj h
        exact hsame rfl
  | endOfInput =>
      obtain ⟨-, heq⟩ := Option.ite_none_right_eq_some.mp h
      cases Option.some.inj heq
      rintro ⟨failure, hfailed⟩
      cases hfailed
  | recvOutbound written =>
      have hwritten : written = true := hl
      subst hwritten
      simp only [step] at h
      split at h
      · obtain ⟨-, heq⟩ := Option.ite_none_right_eq_some.mp h
        cases Option.some.inj heq
        exact hsame rfl
      · cases h
  | recvPermission written =>
      have hwritten : written = true := hl
      subst hwritten
      simp only [step] at h
      split at h
      · obtain ⟨-, heq⟩ := Option.ite_none_right_eq_some.mp h
        cases Option.some.inj heq
        exact hsame (phase_flushPermission _ _)
      · cases h
  | finish =>
      obtain ⟨-, heq⟩ := Option.ite_none_right_eq_some.mp h
      cases Option.some.inj heq
      rintro ⟨failure, hfailed⟩
      cases hfailed

/-- A harness that has failed takes no step. -/
theorem not_failed_of_step {l : HarnessLabel} (h : x.step serde l = some y) : ¬x.Failed :=
  not_failed_of_running (step_passes h).1

/-- A step that fails is the last one of its run. -/
theorem last_of_failed {x : List (Machine.Taken ChannelHarness HarnessLabel) × ChannelHarness}
    (h : (life serde).recorded.Reachable x) :
    (∀ s ∈ x.1, s.after.Failed → x.2.Failed) ∧
      ∀ steps s rest, x.1 = steps ++ s :: rest → s.after.Failed → rest = [] := by
  refine h.invariant (I := fun x => (∀ s ∈ x.1, s.after.Failed → x.2.Failed) ∧
    ∀ steps s rest, x.1 = steps ++ s :: rest → s.after.Failed → rest = []) ?_ ?_
  · rintro x ⟨hnil, -⟩
    rw [hnil]
    refine ⟨fun s hs => absurd hs List.not_mem_nil, fun steps s rest hsplit => ?_⟩
    simp at hsplit
  · rintro x l x' - ⟨hfailed, hlast⟩ - hs
    obtain ⟨hstep, hsteps⟩ := Machine.of_recorded_step hs
    have hgoes : ∀ s ∈ x.1, ¬s.after.Failed := fun s hs h =>
      not_failed_of_step hstep (hfailed s hs h)
    rw [hsteps]
    refine ⟨fun s hs hafter => ?_, fun steps s rest hsplit hafter => ?_⟩
    · rcases List.mem_append.mp hs with hs | hs
      · exact absurd hafter (hgoes s hs)
      · rw [List.mem_singleton.mp hs] at hafter
        exact hafter
    · by_contra hrest
      obtain ⟨rest', t, rfl⟩ := (List.eq_nil_or_concat rest).resolve_left hrest
      rw [List.concat_eq_append, ← List.cons_append, ← List.append_assoc] at hsplit
      have hinit := (List.append_inj' hsplit rfl).1
      refine hgoes s ?_ hafter
      rw [hinit]
      simp

end ChannelHarness

/-! #### A permission request -/

namespace Sample

def rendering : Rendering := ⟨fun _ => .null, fun _ => .null⟩

def askPermission : UInt64 × ToHarness :=
  (7, .message (.requestPermission "p1" "s1" "Run ls?" [⟨"once", "Once"⟩]))

def askPermissionText : String :=
  "\x7b\"jsonrpc\":\"2.0\",\"id\":7,\"method\":\"channel/requestPermission\",\"params\":" ++
    "\x7b\"description\":\"Run ls?\",\"options\":[\x7b\"label\":\"Once\"," ++
    "\"optionId\":\"once\"\x7d]," ++
    "\"requestId\":\"p1\",\"sessionId\":\"s1\"\x7d\x7d"

def permissionSerde : SerdeJson :=
  serde [((askPermission.2.request rendering askPermission.1).toJson, askPermissionText)]

theorem askPermission_faithful :
    permissionSerde.Faithful (askPermission.2.request rendering askPermission.1).toJson := by
  have hobject : oneObject (bytes askPermissionText) = true := by decide +kernel
  exact (travels_of_oneObject (m := .request (askPermission.2.request rendering 7)) hobject).faithful

end Sample

section Ask

open ChannelHarness

theorem Sample.askPermissions_faithful : ∀ w ∈ [Sample.askPermission],
    Sample.permissionSerde.Faithful (w.2.request Sample.rendering w.1).toJson := by
  intro w hw
  cases List.mem_singleton.mp hw
  exact Sample.askPermission_faithful

theorem Sample.toBytes_askPermission :
    Sample.permissionSerde.toBytes
      (Sample.askPermission.2.request Sample.rendering Sample.askPermission.1).toJson =
        Sample.bytes Sample.askPermissionText := by
  simp [Sample.permissionSerde, Sample.serde]

end Ask

/-! #### A message that comes in two chunks -/

section Hello

open ChannelHarness

namespace Sample

def hello : SentMessage × Option JsonValue :=
  (⟨⟨⟨"web", "u1", "user"⟩, [.text "Hi"], none⟩, none, some true⟩, none)

def helloText : String :=
  "\x7b\"jsonrpc\":\"2.0\",\"method\":\"channel/sendMessage\",\"params\":" ++
    "\x7b\"content\":[\x7b\"text\":\"Hi\",\"type\":\"text\"\x7d]," ++
    "\"peerInfo\":\x7b\"channelName\":\"web\",\"kind\":\"user\",\"peerId\":\"u1\"\x7d," ++
    "\"wasMentioned\":true\x7d\x7d"

def helloSerde : SerdeJson := serde [((notificationOf (document hello)).toJson, helloText)]

/-- The harness when it has taken the message, and when it has written it. -/
def queued : ChannelHarness := { fresh with outbound := [document hello] }

def wrote : ChannelHarness :=
  { fresh with output := [.notification (notificationOf (document hello))] }

def spoken : List (Machine.Taken ChannelHarness HarnessLabel) :=
  [⟨fresh, .send (document hello), queued⟩, ⟨queued, .recvOutbound true, wrote⟩]

theorem spoken_reachable : (life helloSerde).recorded.Reachable (spoken, wrote) :=
  ⟨([], fresh), ⟨rfl, rfl⟩,
    Machine.runUnder_of_run [.send (document hello), .recvOutbound true] _ rfl⟩

theorem hello_travels : ∀ o ∈ wrote.output, NdJsonCodec.Travels helloSerde o.message := by
  intro o ho
  cases List.mem_singleton.mp ho
  exact travels_of_oneObject (m := .request (notificationOf (document hello)))
    (by decide +kernel : oneObject (bytes helloText) = true)

end Sample

theorem collected_of_reachable_hello :
    ∃ ms, NdJsonCodec.decodeChunks Sample.helloSerde []
        [(Sample.wrote.written Sample.helloSerde).take 20,
          (Sample.wrote.written Sample.helloSerde).drop 20] = (ms, .ok ()) ∧
      collectedFrom ms = [.sendMessage Sample.hello.1] := by
  have hwhole : [(Sample.wrote.written Sample.helloSerde).take 20,
      (Sample.wrote.written Sample.helloSerde).drop 20].flatten =
        Sample.wrote.written Sample.helloSerde := by
    simp
  obtain ⟨ms, hdecoded, -, hall⟩ := collected_of_reachable Sample.helloSerde
    Sample.spoken_reachable [Sample.hello] rfl Sample.hello_travels _
    ⟨[], by rw [hwhole, List.append_nil]⟩
  exact ⟨ms, hdecoded, hall hwhole rfl rfl⟩

end Hello

end Anyclaw
