import Anyclaw.Agents.ForwardedContent
import Anyclaw.Jsonrpc.Stream

/-!
# Updates from an agent to a channel

An agent that is built on the typed form writes its updates with the derived serializer, one
notification to a line.  The agents manager decodes and reads them and passes their content
on, and a channel classifies it by hand.

The way leads from the derived serializer of `crates/anyclaw-sdk-types/src/acp.rs` through
`decode` (`crates/anyclaw-jsonrpc/src/codec.rs`) and `handle_session_update`
(`crates/anyclaw-agents/src/incoming.rs`) to `ContentKind::from_content`
(`crates/anyclaw-sdk-types/src/channel.rs`).

* `updates_shown`: the channel is shown what the agent has written, update by update, with
  two exceptions: the error flag of a result and the list of commands are written under keys
  that the channels do not look for.
-/

namespace Anyclaw

open NdJsonCodec (Travels encode decodeChunks)

def ContentPart.textOrEmpty : ContentPart → String
  | .text t => t
  | _ => ""

/-- What a channel is shown of an update that an agent writes with the typed form.  A result is
    never an error, and no commands are listed. -/
def UpdateFields.shown : UpdateFields → ContentKind
  | .agentMessageChunk content _ => content.kind
  | .agentThoughtChunk content _ => .thought "" "agent_thought_chunk" content.textOrEmpty
  | .toolCall toolCallId name input =>
      .toolCall (name.getD "") (toolCallId.getD "")
        (some ((input.map entriesJson).getD .null).normalize)
  | .toolCallUpdate toolCallId name status input output =>
      .toolCallUpdate (name.getD "") toolCallId ((status.map ToolCallStatus.name).getD "") output
        ((input.map entriesJson).map Json.normalize) none
  | .usageUpdate _ _ _ _ => .usageUpdate
  | .result content _ => .result (content.getD "") false
  | .userMessageChunk content _ => .userMessageChunk content.textOrEmpty
  | .availableCommandsUpdate _ => .availableCommandsUpdate (.array [])
  | .plan _ => .unknown
  | .currentModeUpdate _ => .unknown
  | .configOptionUpdate _ => .unknown
  | .sessionInfoUpdate _ => .unknown

def SessionUpdateEvent.notification (e : SessionUpdateEvent) : JsonRpcRequest :=
  .new "session/update" none (some (.ofDoc e.toJson))

/-! ### What is written -/

namespace ContentKind

theorem extractContentText_part {update : Json} {part : ContentPart}
    (h : update.get? "content" = some part.toJson.normalize) :
    extractContentText update = part.textOrEmpty := by
  have hnotString : part.toJson.normalize.asStr = none := by cases part <;> rfl
  unfold extractContentText
  rw [h]
  dsimp only
  rw [hnotString]
  cases part with
  | text t => simp [ContentPart.toJson, get?_normalize, Json.asStr, ContentPart.textOrEmpty]
  | image url => simp [ContentPart.toJson, get?_normalize, ContentPart.textOrEmpty]
  | file url filename mimeType =>
      simp [ContentPart.toJson, get?_normalize, Json.entries_append, entries_partField,
        ContentPart.textOrEmpty]
  | audio url mimeType =>
      simp [ContentPart.toJson, get?_normalize, entries_partField, ContentPart.textOrEmpty]

theorem ofMessageChunk_part {update : Json} {part : ContentPart}
    (h : update.get? "content" = some part.toJson.normalize) :
    ofMessageChunk update = part.kind := by
  have htext := extractContentText_part h
  unfold ofMessageChunk
  rw [h]
  cases part with
  | text t =>
      simp [ContentPart.toJson, get?_normalize, Json.asStr, ContentPart.kind, htext,
        ContentPart.textOrEmpty]
  | image url =>
      simp [ContentPart.toJson, get?_normalize, Json.asStr, ContentPart.kind, strOrEmpty]
  | file url filename mimeType =>
      cases filename <;> cases mimeType <;>
        simp [ContentPart.toJson, get?_normalize, Json.entries_append, entries_partField,
          Json.asStr, ContentPart.kind, strOrEmpty]
  | audio url mimeType =>
      cases mimeType <;>
        simp [ContentPart.toJson, get?_normalize, entries_partField, Json.asStr,
          ContentPart.kind, strOrEmpty]

end ContentKind

/-- What the update of an agent reports. -/
theorem ofReported_toJson (u : UpdateFields) :
    ContentKind.ofReported u.toJson.normalize u.kind.tag = u.shown := by
  have hget : ∀ k, u.toJson.normalize.get? k = (Json.entries k
      (("sessionUpdate", Json.string u.kind.tag) :: u.fields)).getLast?.map Json.normalize :=
    fun k => get?_normalize k _
  cases u with
  | agentMessageChunk content messageId =>
      exact ContentKind.ofMessageChunk_part (by
        simp [hget, UpdateFields.fields, UpdateFields.chunkFields, nullableField])
  | agentThoughtChunk content messageId =>
      exact congrArg (ContentKind.thought "" "agent_thought_chunk")
        (ContentKind.extractContentText_part (by
          simp [hget, UpdateFields.fields, UpdateFields.chunkFields, nullableField]))
  | userMessageChunk content messageId =>
      exact congrArg ContentKind.userMessageChunk (ContentKind.extractContentText_part (by
        simp [hget, UpdateFields.fields, UpdateFields.chunkFields, nullableField]))
  | toolCall toolCallId name input =>
      cases toolCallId <;> cases name <;>
        simp [ContentKind.ofReported, ContentKind.toolName, ContentKind.toolInput, hget,
          UpdateFields.kind, SessionUpdateType.tag, UpdateFields.fields, nullableField,
          UpdateFields.shown, ContentKind.strOrEmpty, Json.asStr]
  | toolCallUpdate toolCallId name status input output =>
      cases name <;> cases status <;> cases output <;>
        simp [ContentKind.ofReported, ContentKind.toolName, ContentKind.toolInput,
          ContentKind.toolOutput, hget, UpdateFields.kind, SessionUpdateType.tag,
          UpdateFields.fields, nullableField, Json.entries_append, UpdateFields.shown,
          ContentKind.strOrEmpty, Json.asStr, ToolCallStatus.toJson]
  | result content isError =>
      have hstring : ∀ s, (Json.string s).get? "text" = none := fun _ => rfl
      cases content <;>
        simp [ContentKind.ofReported, ContentKind.ofUpdate, ContentKind.extractContentText, hget,
          UpdateFields.kind, SessionUpdateType.tag, UpdateFields.fields, Json.entries_append,
          UpdateFields.shown, Json.asStr, hstring]
  | availableCommandsUpdate commands =>
      simp [ContentKind.ofReported, hget, UpdateFields.kind, SessionUpdateType.tag,
        UpdateFields.fields, UpdateFields.shown]
  | _ => rfl

/-- What the notification of an agent reports. -/
theorem fromReported_written (e : SessionUpdateEvent) (h : e.update.Restorable) :
    ContentKind.fromReported e.toJson.normalize = e.update.shown := by
  have hupdate : e.toJson.normalize.get? "update" = some e.update.toJson.normalize := by
    rw [SessionUpdateEvent.toJson, get?_normalize]
    simp
  have htag : e.update.toJson.normalize.get? "sessionUpdate" =
      some (.string e.update.kind.tag) := by
    rw [UpdateFields.toJson, get?_normalize, Json.entries_cons, if_pos rfl,
      (UpdateFields.restorable_iff e.update).mp h]
    rfl
  rw [ContentKind.fromReported, hupdate]
  dsimp only
  rw [htag]
  exact ofReported_toJson e.update

/-! ### From the agent to the channel -/

theorem dropNulls_notification (e : SessionUpdateEvent) :
    (JsonRpcMessage.request e.notification).dropNulls = .request e.notification := by
  apply JsonRpcMessage.dropNulls_eq_iff.mpr
  intro v hv
  cases Option.some.inj hv
  simp [JsonValue.ofDoc, SessionUpdateEvent.toJson, Json.normalize]

/-- **A channel is shown what the agent has written.**  However the output of an agent is cut
    into chunks, the manager decodes the updates whose lines have come whole, in order; it
    reads each as the event that the agent has written, and the content that it passes on is
    shown by a channel as that update. -/
theorem updates_shown (serde : SerdeJson) (events : List SessionUpdateEvent)
    (chunks : List (List UInt8)) (hrest : ∀ e ∈ events, e.update.Restorable)
    (htravels : ∀ e ∈ events, Travels serde (.request e.notification))
    (hchunks : chunks.flatten <+: events.flatMap fun e => encode serde (.request e.notification)) :
    ∃ come later, events = come ++ later ∧
      (NdJsonCodec.lines chunks.flatten).1 =
        (come.map fun e => serde.toBytes (JsonRpcMessage.request e.notification).toJson) ∧
      decodeChunks serde [] chunks =
        (come.map fun e => JsonRpcMessage.request e.notification, .ok ()) ∧
      (chunks.flatten = (events.flatMap fun e => encode serde (.request e.notification)) →
        later = []) ∧
      ∀ e ∈ come, ∃ event, readSessionUpdateEvent e.toJson.normalize = some event ∧
        e.Same event ∧ ∀ nowMs,
          ContentKind.fromContent
            (forwardedContent event.update.kind nowMs (.ofDoc e.toJson)).doc = e.update.shown := by
  have hstream : (events.flatMap fun e => encode serde (.request e.notification)) =
      (events.map fun e => JsonRpcMessage.request e.notification).flatMap (encode serde) := by
    rw [List.flatMap_map]
  rw [hstream] at hchunks ⊢
  have hmessages : ∀ m ∈ events.map fun e => JsonRpcMessage.request e.notification,
      Travels serde m := by
    intro m hm
    obtain ⟨e, he, rfl⟩ := List.mem_map.mp hm
    exact htravels e he
  obtain ⟨ms, ms', hms, hlines, hdecoded, hall⟩ :=
    NdJsonCodec.decodeChunks_of_isPrefix hmessages hchunks
  obtain ⟨come, later, rfl, rfl, rfl⟩ := List.map_eq_append_iff.mp hms
  refine ⟨come, later, rfl, ?_, ?_, fun hwhole => List.map_eq_nil_iff.mp (hall hwhole), ?_⟩
  · rw [hlines, List.map_map]
    rfl
  · rw [hdecoded, List.map_map]
    exact congrArg (·, Except.ok ()) (List.map_congr_left fun e _ => dropNulls_notification e)
  · intro e he
    have hrestorable := hrest e (List.mem_append_left later he)
    obtain ⟨u, hu, hsame⟩ := UpdateFields.exists_readUpdate hrestorable
    have hread : readSessionUpdateEvent e.toJson.normalize = some ⟨e.sessionId, u⟩ := by
      rw [readSessionUpdateEvent_toJson, hu]
      rfl
    refine ⟨⟨e.sessionId, u⟩, hread, ⟨rfl, hsame⟩, fun nowMs => ?_⟩
    have hevent : readSessionUpdateEvent (JsonValue.ofDoc e.toJson).doc =
        some ⟨e.sessionId, u⟩ := hread
    have hshown := fromContent_forwardedContent hevent nowMs
    exact hshown.trans (fromReported_written e hrestorable)

namespace Sample

def failed : SessionUpdateEvent := ⟨"s1", .result (some "Out of memory") true⟩

def failedText : String :=
  "\x7b\"jsonrpc\":\"2.0\",\"method\":\"session/update\",\"params\":" ++
    "\x7b\"sessionId\":\"s1\",\"update\":\x7b\"content\":\"Out of memory\"," ++
    "\"is_error\":true,\"sessionUpdate\":\"result\"\x7d\x7d\x7d"

def failedSerde : SerdeJson :=
  serde [((JsonRpcMessage.request failed.notification).toJson, failedText)]

theorem failed_travels : NdJsonCodec.Travels failedSerde (.request failed.notification) :=
  travels_of_oneObject (m := .request failed.notification)
    (by decide +kernel : oneObject (bytes failedText) = true)

end Sample

theorem updates_shown_failed : ∃ event,
    readSessionUpdateEvent Sample.failed.toJson.normalize = some event ∧
      ContentKind.fromContent
        (forwardedContent event.update.kind 5 (.ofDoc Sample.failed.toJson)).doc =
          .result "Out of memory" false := by
  have hwhole : [encode Sample.failedSerde (.request Sample.failed.notification)].flatten =
      [Sample.failed].flatMap fun e => encode Sample.failedSerde (.request e.notification) := by
    simp
  obtain ⟨come, later, hevents, -, -, hall, hshown⟩ :=
    updates_shown Sample.failedSerde [Sample.failed]
      [encode Sample.failedSerde (.request Sample.failed.notification)]
      (fun e he => by cases List.mem_singleton.mp he; trivial)
      (fun e he => by cases List.mem_singleton.mp he; exact Sample.failed_travels)
      ⟨[], by rw [hwhole, List.append_nil]⟩
  cases hall hwhole
  rw [List.append_nil] at hevents
  obtain ⟨event, hread, -, hkind⟩ := hshown Sample.failed (by simp [← hevents])
  exact ⟨event, hread, hkind 5⟩

end Anyclaw
