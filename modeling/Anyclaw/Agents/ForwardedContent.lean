import Anyclaw.Agents.UpdateParsing
import Anyclaw.Library.JsonEdit
import Anyclaw.Sdk.UpdateRoundTrip

/-!
# What the manager makes of an update

The agents manager reads an update into a typed event and passes on the content that the
agent wrote, after some edits: a time stamp, the field names that the channels look for,
and its own commands beside those of the agent.

The edits are `add_received_timestamp`, `normalize_tool_event_fields` and the command list of
`forward_session_update`, all of `crates/anyclaw-agents/src/incoming.rs`.

* `forwarded_as_reported`: a channel sees in the edited content what the agent reported,
  under whichever of the field names, and nothing else has changed.
* `result_as_counted`: a channel takes a delivery for a result when the manager does, unless
  the agent has written its update by position.
-/

namespace Anyclaw

open Json (setField fillField removeField onFields modifyField)

/-! ### The edits -/

def sessionUpdateTypeName : SessionUpdateType → String
  | .agentThoughtChunk => "agent_thought_chunk"
  | .agentMessageChunk => "agent_message_chunk"
  | .result _ => "result"
  | .toolCall => "tool_call"
  | .toolCallUpdate => "tool_call_update"
  | .plan => "plan"
  | .usageUpdate => "usage_update"
  | .userMessageChunk => "user_message_chunk"
  | .availableCommandsUpdate => "available_commands_update"
  | .currentModeUpdate => "extension:current_mode"
  | .configOptionUpdate => "extension:config_option"
  | .sessionInfoUpdate => "extension:session_info"

def platformCommandsJson : List Json :=
  platformCommands.map fun c =>
    (JsonValue.ofDoc (.object
      [("name", .string c.name), ("description", .string c.description)])).doc

def addReceivedTimestamp (nowMs : UInt64) : Json → Json :=
  onFields (setField "_received_at_ms" (.number (.posInt nowMs)))

def nameFromTitle (fields : List (String × Json)) : List (String × Json) :=
  if (fields.lookup "name").isSome then fields
  else fillField "name" (fields.lookup "title") (removeField "title" fields)

def isFilledObject : Json → Bool
  | .object (_ :: _) => true
  | _ => false

def promoteRawInput (fields : List (String × Json)) : List (String × Json) :=
  fillField "input" ((fields.lookup "rawInput").filter isFilledObject) fields

def promoteRawOutput (fields : List (String × Json)) : List (String × Json) :=
  fillField "output" ((fields.lookup "rawOutput").bind (Json.get? "output")) fields

def normalizeToolEventFields (updateType : String) (content : Json) : Json :=
  if updateType = "tool_call" then
    content.modifyField "update" (onFields fun fields => promoteRawInput (nameFromTitle fields))
  else if updateType = "tool_call_update" then
    content.modifyField "update" (onFields fun fields =>
      promoteRawOutput (promoteRawInput (nameFromTitle fields)))
  else content

def withPlatformCommands : Json → Json
  | .array commands => .array (commands ++ platformCommandsJson)
  | other => other

/-- The edits of `forward_session_update`. -/
def forwardedJson (kind : SessionUpdateType) (nowMs : UInt64) (content : Json) : Json :=
  let content := normalizeToolEventFields (sessionUpdateTypeName kind)
    (addReceivedTimestamp nowMs content)
  if sessionUpdateTypeName kind = "available_commands_update" then
    content.modifyField "update" (modifyField "availableCommands" withPlatformCommands)
  else content

/-! ### Values stay values -/

theorem normal_nameFromTitle {fields : List (String × Json)} (h : Json.NormalFields fields) :
    Json.NormalFields (nameFromTitle fields) := by
  unfold nameFromTitle
  split
  · exact h
  · exact Json.normalFields_fillField (fun _ hj => Json.normal_of_mem h (Json.mem_of_lookup hj))
      (Json.normalFields_removeField h)

theorem normal_promoteRawInput {fields : List (String × Json)} (h : Json.NormalFields fields) :
    Json.NormalFields (promoteRawInput fields) := by
  refine Json.normalFields_fillField (fun j hj => ?_) h
  obtain ⟨hraw, -⟩ := Option.mem_filter_iff.mp hj
  exact Json.normal_of_mem h (Json.mem_of_lookup hraw)

theorem normal_promoteRawOutput {fields : List (String × Json)} (h : Json.NormalFields fields) :
    Json.NormalFields (promoteRawOutput fields) := by
  refine Json.normalFields_fillField (fun j hj => ?_) h
  obtain ⟨raw, hraw, houtput⟩ := Option.bind_eq_some_iff.mp hj
  exact Json.normal_of_get? (Json.normal_of_mem h (Json.mem_of_lookup hraw)) _ houtput

theorem normalItems_append {items items' : List Json} (h : Json.NormalItems items)
    (h' : Json.NormalItems items') : Json.NormalItems (items ++ items') := by
  induction items with
  | nil => exact h'
  | cons j rest ih => exact ⟨h.1, ih h.2⟩

theorem normal_withPlatformCommands {j : Json} (h : j.Normal) :
    (withPlatformCommands j).Normal := by
  have hplatform : Json.NormalItems platformCommandsJson :=
    ⟨(JsonValue.ofDoc _).normal, (JsonValue.ofDoc _).normal, trivial⟩
  cases j with
  | array commands => exact normalItems_append h hplatform
  | _ => exact h

theorem normal_normalizeToolEventFields {content : Json} (h : content.Normal) (name : String) :
    (normalizeToolEventFields name content).Normal := by
  unfold normalizeToolEventFields
  split
  · exact Json.normal_modifyField (fun _ => Json.normal_onFields fun _ hfields =>
      normal_promoteRawInput (normal_nameFromTitle hfields)) h
  · split
    · exact Json.normal_modifyField (fun _ => Json.normal_onFields fun _ hfields =>
        normal_promoteRawOutput (normal_promoteRawInput (normal_nameFromTitle hfields))) h
    · exact h

theorem normal_addReceivedTimestamp {content : Json} (h : content.Normal) (nowMs : UInt64) :
    (addReceivedTimestamp nowMs content).Normal :=
  Json.normal_onFields (fun _ hfields => Json.normalFields_setField trivial hfields) h

theorem normal_forwardedJson (kind : SessionUpdateType) (nowMs : UInt64) {content : Json}
    (h : content.Normal) : (forwardedJson kind nowMs content).Normal := by
  have hnormal := normal_normalizeToolEventFields (normal_addReceivedTimestamp h nowMs)
    (sessionUpdateTypeName kind)
  unfold forwardedJson
  dsimp only
  split
  · exact Json.normal_modifyField (fun _ => Json.normal_modifyField fun _ =>
      normal_withPlatformCommands) hnormal
  · exact hnormal

def forwardedContent (kind : SessionUpdateType) (nowMs : UInt64) (content : JsonValue) :
    JsonValue :=
  ⟨forwardedJson kind nowMs content.doc, normal_forwardedJson kind nowMs content.normal⟩

/-! ### What the agent reports -/

namespace ContentKind

def toolName (update : Json) : String :=
  strOrEmpty ((update.get? "name").or (update.get? "title"))

def toolInput (update : Json) : Option Json :=
  (update.get? "input").or ((update.get? "rawInput").filter isFilledObject)

def toolOutput (update : Json) : Option String :=
  ((update.get? "output").or ((update.get? "rawOutput").bind (Json.get? "output"))).bind
    Json.asStr

/-- An update by its kind, when every key that an agent may use is known. -/
def ofReported (update : Json) : String → ContentKind
  | "tool_call" =>
      .toolCall (toolName update) (strOrEmpty (update.get? "toolCallId")) (toolInput update)
  | "tool_call_update" =>
      .toolCallUpdate (toolName update) (strOrEmpty (update.get? "toolCallId"))
        (strOrEmpty (update.get? "status")) (toolOutput update) (toolInput update)
        ((((update.get? "rawOutput").bind (Json.get? "metadata")).bind (Json.get? "exit")).bind
          Json.asInt64)
  | "available_commands_update" =>
      .availableCommandsUpdate
        (((update.get? "availableCommands").map withPlatformCommands).getD (.array []))
  | name => ofUpdate update name

def fromReported (content : Json) : ContentKind :=
  match content.get? "update" with
  | none => .unknown
  | some update =>
      match (update.get? "sessionUpdate").bind Json.asStr with
      | none => .unknown
      | some kind => ofReported update kind

end ContentKind

/-! ### The update after the edits -/

def editedUpdate : SessionUpdateType → Json → Json
  | .toolCall => onFields fun fields => promoteRawInput (nameFromTitle fields)
  | .toolCallUpdate => onFields fun fields =>
      promoteRawOutput (promoteRawInput (nameFromTitle fields))
  | .availableCommandsUpdate => modifyField "availableCommands" withPlatformCommands
  | _ => id

theorem get?_addReceivedTimestamp {content : Json} (h : content.Normal) (nowMs : UInt64)
    {k : String} (hk : k ≠ "_received_at_ms") :
    (addReceivedTimestamp nowMs content).get? k = content.get? k := by
  cases content with
  | object fields =>
      refine (Json.lookup_setField h _ _ _).trans ?_
      rw [if_neg hk]
      rfl
  | _ => rfl

theorem get?_forwardedJson {content : Json} (h : content.Normal) (kind : SessionUpdateType)
    (nowMs : UInt64) {k : String} (hk : k ≠ "_received_at_ms") :
    (forwardedJson kind nowMs content).get? k =
      if k = "update" then (content.get? "update").map (editedUpdate kind) else content.get? k := by
  have hnormal := normal_addReceivedTimestamp h nowMs
  have hstamp : (addReceivedTimestamp nowMs content).get? k = content.get? k :=
    get?_addReceivedTimestamp h nowMs hk
  have hupdate : (addReceivedTimestamp nowMs content).get? "update" = content.get? "update" :=
    get?_addReceivedTimestamp h nowMs (by decide)
  have hother : content.get? k =
      if k = "update" then (content.get? "update").map id else content.get? k := by
    split
    · rename_i hk'
      rw [hk', Option.map_id]
      rfl
    · rfl
  cases kind with
  | toolCall => exact (Json.get?_modifyField hnormal _ _ _).trans (by rw [hstamp, hupdate]; rfl)
  | toolCallUpdate =>
      exact (Json.get?_modifyField hnormal _ _ _).trans (by rw [hstamp, hupdate]; rfl)
  | availableCommandsUpdate =>
      exact (Json.get?_modifyField hnormal _ _ _).trans (by rw [hstamp, hupdate]; rfl)
  | _ => exact hstamp.trans hother

theorem lookup_nameFromTitle {fields : List (String × Json)} (h : Json.NormalFields fields)
    {k : String} (hk : k ≠ "title") :
    (nameFromTitle fields).lookup k =
      if k = "name" then (fields.lookup "name").or (fields.lookup "title")
      else fields.lookup k := by
  unfold nameFromTitle
  split
  · rename_i hname
    obtain ⟨name, hname⟩ := Option.isSome_iff_exists.mp hname
    split
    · rename_i hk'
      rw [hk', hname]
      rfl
    · rfl
  · rw [Json.lookup_fillField (Json.normalFields_removeField h),
      Json.lookup_removeField "title" "name", if_neg (show "name" ≠ "title" by decide),
      Json.lookup_removeField "title" k, if_neg hk]

theorem lookup_promoteRawInput {fields : List (String × Json)} (h : Json.NormalFields fields)
    (k : String) :
    (promoteRawInput fields).lookup k =
      if k = "input" then
        (fields.lookup "input").or ((fields.lookup "rawInput").filter isFilledObject)
      else fields.lookup k :=
  Json.lookup_fillField h _ _ _

theorem lookup_promoteRawOutput {fields : List (String × Json)} (h : Json.NormalFields fields)
    (k : String) :
    (promoteRawOutput fields).lookup k =
      if k = "output" then
        (fields.lookup "output").or ((fields.lookup "rawOutput").bind (Json.get? "output"))
      else fields.lookup k :=
  Json.lookup_fillField h _ _ _

/-- The update is classified as it was reported. -/
theorem ofUpdate_editedUpdate {fields : List (String × Json)} (h : Json.NormalFields fields)
    (kind : SessionUpdateType) :
    ContentKind.ofUpdate (editedUpdate kind (.object fields)) kind.tag =
      ContentKind.ofReported (.object fields) kind.tag := by
  have hname := fun k (hk : k ≠ "title") => lookup_nameFromTitle h hk
  have hinput := lookup_promoteRawInput (normal_nameFromTitle h)
  cases kind with
  | toolCall =>
      simp [SessionUpdateType.tag, editedUpdate, onFields, ContentKind.ofUpdate,
        ContentKind.ofReported, ContentKind.toolName, ContentKind.toolInput, Json.get?, hinput,
        hname]
  | toolCallUpdate =>
      have houtput := lookup_promoteRawOutput (normal_promoteRawInput (normal_nameFromTitle h))
      simp [SessionUpdateType.tag, editedUpdate, onFields, ContentKind.ofUpdate,
        ContentKind.ofReported, ContentKind.toolName, ContentKind.toolInput,
        ContentKind.toolOutput, Json.get?, hinput, houtput, hname]
  | availableCommandsUpdate =>
      have hcommands := Json.get?_modifyField (j := .object fields) h withPlatformCommands
        "availableCommands" "availableCommands"
      rw [if_pos rfl] at hcommands
      exact congrArg (fun o => ContentKind.availableCommandsUpdate (o.getD (.array []))) hcommands
  | _ => rfl

/-- The edits leave the tag alone. -/
theorem tag_editedUpdate {fields : List (String × Json)} (h : Json.NormalFields fields)
    (kind : SessionUpdateType) :
    (editedUpdate kind (.object fields)).get? "sessionUpdate" = fields.lookup "sessionUpdate" := by
  have hname := lookup_nameFromTitle h (k := "sessionUpdate") (by decide)
  have hinput := lookup_promoteRawInput (normal_nameFromTitle h) "sessionUpdate"
  cases kind with
  | toolCall => exact hinput.trans hname
  | toolCallUpdate =>
      exact (lookup_promoteRawOutput (normal_promoteRawInput (normal_nameFromTitle h)) _).trans
        (hinput.trans hname)
  | availableCommandsUpdate =>
      exact Json.get?_modifyField (j := .object fields) h _ _ _
  | _ => rfl

/-! ### From the agent to the channels -/

theorem string_of_variantName {names : List String} {t : Json} {name : String}
    (h : Json.variantName names t = some name) : t = .string name := by
  cases t with
  | string s =>
      obtain ⟨-, hs⟩ := Option.ite_none_right_eq_some.mp h
      exact congrArg Json.string (Option.some.inj hs)
  | _ => cases h

/-- An update that is an object has the tag of its kind. -/
theorem tag_of_event {params : JsonValue} {event : SessionUpdateEvent}
    {fields : List (String × Json)} (h : readSessionUpdateEvent params.doc = some event)
    (hupdate : params.doc.get? "update" = some (.object fields)) :
    fields.lookup "sessionUpdate" = some (.string event.update.kind.tag) := by
  obtain ⟨doc, hnormal⟩ := params
  cases doc with
  | object outer =>
      have hu : outer.lookup "update" = some (.object fields) := hupdate
      have hfields : Json.NormalFields fields := normal_of_lookup hnormal _ hu
      have hentries : ∀ k, Json.entries k outer = (outer.lookup k).toList := fun _ =>
        Json.entries_of_normal hnormal
      rw [readSessionUpdateEvent, Json.readStruct_object (by simp [hentries])] at h
      simp only [hentries, hu, Option.bind_eq_bind, Option.bind_eq_some_iff, Option.pure_def,
        Option.some.injEq] at h
      obtain ⟨sessionId, -, u, hread, rfl⟩ := h
      have hread : readUpdate (.object fields) = some u := hread
      cases ht : fields.lookup "sessionUpdate" with
      | none =>
          have hsplit : Json.splitTag "sessionUpdate" (.object fields) = none := by
            simp [Json.splitTag, Json.entries_of_normal hfields, ht]
          simp [readUpdate, Json.readTagged, hsplit] at hread
      | some t =>
          rw [readUpdate, Json.readTagged, Json.splitTag_object hfields ht] at hread
          obtain ⟨_, hsplit, hread⟩ := Option.bind_eq_some_iff.mp hread
          cases hsplit
          obtain ⟨name, hname, hbuilt⟩ := Option.bind_eq_some_iff.mp hread
          rw [string_of_variantName hname, tag_of_readUpdateFields hbuilt]
  | _ => cases hupdate

/-- What is reported of an update that is an object. -/
theorem fromReported_object {params : JsonValue} {event : SessionUpdateEvent}
    {fields : List (String × Json)} (h : readSessionUpdateEvent params.doc = some event)
    (hupdate : params.doc.get? "update" = some (.object fields)) :
    ContentKind.fromReported params.doc =
      ContentKind.ofReported (.object fields) event.update.kind.tag := by
  have htag : ((Json.object fields).get? "sessionUpdate").bind Json.asStr =
      some event.update.kind.tag := congrArg (Option.bind · Json.asStr) (tag_of_event h hupdate)
  unfold ContentKind.fromReported
  rw [hupdate]
  dsimp only
  rw [htag]

/-- Nothing is reported by an update that is no object. -/
theorem fromReported_unknown {content : Json}
    (h : ∀ fields, content.get? "update" ≠ some (.object fields)) :
    ContentKind.fromReported content = .unknown := by
  unfold ContentKind.fromReported
  cases hupdate : content.get? "update" with
  | none => rfl
  | some update =>
      cases update with
      | object fields => exact absurd hupdate (h fields)
      | _ => rfl

/-- A channel that knows one key for each thing sees what the agent reported. -/
theorem fromContent_forwardedContent {params : JsonValue} {event : SessionUpdateEvent}
    (h : readSessionUpdateEvent params.doc = some event) (nowMs : UInt64) :
    ContentKind.fromContent (forwardedContent event.update.kind nowMs params).doc =
      ContentKind.fromReported params.doc := by
  have hget : (forwardedContent event.update.kind nowMs params).doc.get? "update" =
      (params.doc.get? "update").map (editedUpdate event.update.kind) :=
    (get?_forwardedJson params.normal _ nowMs (by decide)).trans (if_pos rfl)
  cases hupdate : params.doc.get? "update" with
  | none =>
      rw [hupdate] at hget
      rw [fromReported_unknown (by simp [hupdate]), ContentKind.fromContent, hget]
      rfl
  | some update =>
      have hnormal : update.Normal := Json.normal_of_get? params.normal _ hupdate
      rw [hupdate, Option.map_some] at hget
      rw [ContentKind.fromContent, hget]
      dsimp only
      cases update with
      | object fields =>
          have htag : ((editedUpdate event.update.kind (.object fields)).get?
              "sessionUpdate").bind Json.asStr = some event.update.kind.tag := by
            rw [tag_editedUpdate hnormal, tag_of_event h hupdate]
            rfl
          rw [htag, fromReported_object h hupdate]
          exact ofUpdate_editedUpdate hnormal event.update.kind
      | _ =>
          rw [fromReported_unknown (by simp [hupdate])]
          cases event.update.kind <;> rfl

/-- **A channel sees what the agent reported.**  The content of every update that the
    manager accepts is passed on so that a channel finds in it what the agent reported, with
    the commands of the manager behind those of the agent; outside the update only the time
    stamp is new, and the update itself is changed for tool calls and commands only. -/
theorem forwarded_as_reported (params : JsonValue) (event : SessionUpdateEvent) (nowMs : UInt64)
    (h : readSessionUpdateEvent params.doc = some event) :
    ContentKind.fromContent (forwardedContent event.update.kind nowMs params).doc =
        ContentKind.fromReported params.doc ∧
      (∀ k, k ≠ "_received_at_ms" → k ≠ "update" →
        (forwardedContent event.update.kind nowMs params).doc.get? k = params.doc.get? k) ∧
      (event.update.kind ∉
          [SessionUpdateType.toolCall, .toolCallUpdate, .availableCommandsUpdate] →
        (forwardedContent event.update.kind nowMs params).doc.get? "update" =
          params.doc.get? "update") := by
  refine ⟨fromContent_forwardedContent h nowMs, fun k hk hk' => ?_, fun hkind => ?_⟩
  · exact (get?_forwardedJson params.normal _ nowMs hk).trans (if_neg hk')
  · refine (get?_forwardedJson params.normal _ nowMs (by decide)).trans ?_
    rw [if_pos rfl]
    have hid : editedUpdate event.update.kind = id := by
      cases hk : event.update.kind <;> first | rfl | simp [hk] at hkind
    rw [hid, Option.map_id]
    rfl

namespace Sample

/-- A tool call whose name is its title. -/
def titledCall : JsonValue :=
  .ofDoc (.object [("sessionId", .string "s"), ("update", .object [
    ("sessionUpdate", .string "tool_call"), ("toolCallId", .string "t1"),
    ("title", .string "Read file")])])

end Sample

theorem forwarded_as_reported_titled :
    ContentKind.fromContent (forwardedContent .toolCall 5 Sample.titledCall).doc =
      .toolCall "Read file" "t1" none := by
  have h := forwarded_as_reported Sample.titledCall ⟨"s", .toolCall (some "t1") none none⟩ 5 rfl
  exact h.1.trans (by decide)

/-! ### Results -/

def ContentKind.isResult : ContentKind → Bool
  | .result _ _ => true
  | _ => false

def StopReason.text : StopReason → String
  | .endTurn => "end_turn"
  | .maxTokens => "max_tokens"
  | .maxTurnRequests => "max_turn_requests"
  | .refusal => "refusal"
  | .cancelled => "cancelled"
  | .other => "unknown"

/-- The content of a delivery.  An update is made from the parameters `params` of the agent at
    the time `nowMs`. -/
def Delivered.content (params : JsonValue) (nowMs : UInt64) : Delivered → JsonValue
  | .update u => forwardedContent u.update nowMs params
  | .chunk text => .ofDoc (.object [("update", .object
      [("sessionUpdate", .string "agent_message_chunk"), ("content", .string text)])])
  | .pushed part => .ofDoc (pushedContent part)
  | .errorResult content => .ofDoc (.object [("update", .object
      [("sessionUpdate", .string "result"), ("isError", .bool true),
        ("content", .string content)])])
  | .commandResult content => .ofDoc (.object [("update", .object
      [("sessionUpdate", .string "result"), ("content", .string content)])])
  | .syntheticResult sessionId stopReason => .ofDoc (.object [("sessionId", .string sessionId),
      ("update", .object [("sessionUpdate", .string "result"),
        ("stopReason", .string stopReason.text)])])

theorem get?_normalize (k : String) (fields : List (String × Json)) :
    (Json.normalize (.object fields)).get? k =
      (Json.entries k fields).getLast?.map Json.normalize :=
  Json.lookup_normalizeFields k fields

/-- The classification of an update that a program has written. -/
theorem fromContent_written {fields outer : List (String × Json)} {tag : String}
    (hupdate : (Json.entries "update" outer).getLast? =
      some (.object (("sessionUpdate", .string tag) :: fields)))
    (htag : Json.entries "sessionUpdate" fields = []) :
    ContentKind.fromContent (JsonValue.ofDoc (.object outer)).doc =
      ContentKind.ofUpdate
        (Json.normalize (.object (("sessionUpdate", .string tag) :: fields))) tag := by
  have hget : (JsonValue.ofDoc (.object outer)).doc.get? "update" =
      some (Json.normalize (.object (("sessionUpdate", .string tag) :: fields))) := by
    rw [JsonValue.ofDoc, get?_normalize, hupdate]
    rfl
  have hname : (Json.normalize (.object (("sessionUpdate", .string tag) :: fields))).get?
      "sessionUpdate" = some (.string tag) := by
    rw [get?_normalize, Json.entries_cons, if_pos rfl, htag]
    rfl
  rw [ContentKind.fromContent, hget]
  dsimp only
  rw [hname]
  rfl

theorem isResult_ofMessageChunk (update : Json) :
    (ContentKind.ofMessageChunk update).isResult = false := by
  unfold ContentKind.ofMessageChunk
  dsimp only
  split <;> rfl

theorem isResult_ofReported (update : Json) (kind : SessionUpdateType) :
    (ContentKind.ofReported update kind.tag).isResult = kind.isResult := by
  cases kind with
  | agentMessageChunk => exact isResult_ofMessageChunk update
  | _ => rfl

def Delivered.TakenFrom (params : JsonValue) (d : Delivered) : Prop :=
  ∀ u, d = .update u →
    ∃ event, readSessionUpdateEvent params.doc = some event ∧ event.update.kind = u.update

/-- **What ends a turn for the manager ends it for the channel.**  A channel takes a delivery
    for a result exactly when the manager counts it as one, unless it is an update that the
    agent has written by position, which the manager reads and the channel does not. -/
theorem result_as_counted (params : JsonValue) (nowMs : UInt64) (d : Delivered)
    (h : d.TakenFrom params) :
    (ContentKind.fromContent (d.content params nowMs).doc).isResult = true ↔
      d.isResult = true ∧ ∀ u, d = .update u →
        ∃ fields, params.doc.get? "update" = some (.object fields) := by
  cases d with
  | update u =>
      obtain ⟨event, hevent, hkind⟩ := h u rfl
      rw [Delivered.content, ← hkind, fromContent_forwardedContent hevent]
      by_cases hobject : ∃ fields, params.doc.get? "update" = some (.object fields)
      · obtain ⟨fields, hupdate⟩ := hobject
        rw [fromReported_object hevent hupdate, isResult_ofReported, hkind]
        exact (and_iff_left fun _ _ => ⟨fields, hupdate⟩).symm
      · rw [fromReported_unknown fun fields hupdate => hobject ⟨fields, hupdate⟩]
        exact iff_of_false (by simp [ContentKind.isResult]) fun hboth => hobject (hboth.2 u rfl)
  | chunk text =>
      rw [Delivered.content, fromContent_written rfl rfl]
      simp [ContentKind.ofUpdate, isResult_ofMessageChunk, Delivered.isResult]
  | pushed part =>
      rw [Delivered.content, pushedContent, fromContent_written rfl rfl]
      simp [ContentKind.ofUpdate, isResult_ofMessageChunk, Delivered.isResult]
  | errorResult content =>
      rw [Delivered.content, fromContent_written rfl rfl]
      simp [ContentKind.ofUpdate, ContentKind.isResult, Delivered.isResult]
  | commandResult content =>
      rw [Delivered.content, fromContent_written rfl rfl]
      simp [ContentKind.ofUpdate, ContentKind.isResult, Delivered.isResult]
  | syntheticResult sessionId stopReason =>
      rw [Delivered.content, fromContent_written rfl rfl]
      simp [ContentKind.ofUpdate, ContentKind.isResult, Delivered.isResult]

namespace Sample

def resultParams : JsonValue :=
  .ofDoc (.object [("sessionId", .string "s"), ("update", .object [
    ("sessionUpdate", .string "result"), ("content", .string "done")])])

end Sample

theorem result_as_counted_done :
    (ContentKind.fromContent (Delivered.content Sample.resultParams 5
      (.update ⟨"s", .result false, false⟩)).doc).isResult = true := by
  refine (result_as_counted Sample.resultParams 5 _ fun u hu => ?_).mpr ⟨rfl, fun _ _ => ⟨_, rfl⟩⟩
  cases hu
  exact ⟨⟨"s", .result (some "done") false⟩, rfl, rfl⟩

end Anyclaw
