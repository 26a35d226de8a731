import Anyclaw.Jsonrpc.Types
import Anyclaw.Library.SerdeRoundTrip
import Anyclaw.Sdk.ContentBlocks
import Anyclaw.Sdk.SessionUpdate

/-!
# Session updates as an agent writes them

An agent that builds its updates with the typed form writes them with the derived
serializer.  Of the fields without a value, some are left out and others are written as
null.  Two kinds of update have no fields of their own: the entries of a map stand beside
the tag.

The serializer is the derived one of `SessionUpdateEvent` and `SessionUpdateType`
(`crates/anyclaw-sdk-types/src/acp.rs`).

* `update_restored_iff`: an update is read back as it was written, unless such a map has an
  entry under the name of the tag.
-/

namespace Anyclaw

open Json (Found Reader Restores RestoresUpTo SameEntries)

/-! ### Writing -/

def ToolCallStatus.name : ToolCallStatus → String
  | .pending => "pending"
  | .inProgress => "in_progress"
  | .completed => "completed"
  | .failed => "failed"

def ToolCallStatus.toJson (s : ToolCallStatus) : Json := .string s.name

def SessionUpdateType.tag : SessionUpdateType → String
  | .agentMessageChunk => "agent_message_chunk"
  | .agentThoughtChunk => "agent_thought_chunk"
  | .toolCall => "tool_call"
  | .toolCallUpdate => "tool_call_update"
  | .plan => "plan"
  | .usageUpdate => "usage_update"
  | .result _ => "result"
  | .userMessageChunk => "user_message_chunk"
  | .availableCommandsUpdate => "available_commands_update"
  | .currentModeUpdate => "current_mode_update"
  | .configOptionUpdate => "config_option_update"
  | .sessionInfoUpdate => "session_info_update"

/-- A field that is null when there is nothing to write. -/
def nullableField (k : String) (j : Option Json) : String × Json := (k, j.getD .null)

def tokens (n : UInt64) : Json := .number (.posInt n)

def entriesJson (m : KeyedMap String JsonValue) : Json := .object (Json.mapFields m)

namespace UpdateFields

def chunkFields (content : ContentPart) (messageId : Option String) : List (String × Json) :=
  [("content", content.toJson), nullableField "messageId" (messageId.map .string)]

/-- The fields beside the tag. -/
def fields : UpdateFields → List (String × Json)
  | .agentMessageChunk content messageId => chunkFields content messageId
  | .agentThoughtChunk content messageId => chunkFields content messageId
  | .toolCall toolCallId name input =>
      [nullableField "toolCallId" (toolCallId.map .string),
        nullableField "name" (name.map .string), nullableField "input" (input.map entriesJson)]
  | .toolCallUpdate toolCallId name status input output =>
      [("toolCallId", .string toolCallId)] ++ optionalField "name" (name.map .string) ++
        [nullableField "status" (status.map ToolCallStatus.toJson)] ++
        optionalField "input" (input.map entriesJson) ++
        optionalField "output" (output.map .string)
  | .plan content => [("content", content.toJson)]
  | .usageUpdate inputTokens outputTokens cacheReadTokens cacheWriteTokens =>
      optionalField "inputTokens" (inputTokens.map tokens) ++
        optionalField "outputTokens" (outputTokens.map tokens) ++
        optionalField "cacheReadTokens" (cacheReadTokens.map tokens) ++
        optionalField "cacheWriteTokens" (cacheWriteTokens.map tokens)
  | .result content isError =>
      optionalField "content" (content.map .string) ++ [("is_error", .bool isError)]
  | .userMessageChunk content messageId => chunkFields content messageId
  | .availableCommandsUpdate commands => [("commands", .array (commands.map JsonValue.doc))]
  | .currentModeUpdate mode => [nullableField "mode" (mode.map .string)]
  | .configOptionUpdate extra => Json.mapFields extra
  | .sessionInfoUpdate extra => Json.mapFields extra

def toJson (u : UpdateFields) : Json :=
  .object (("sessionUpdate", .string u.kind.tag) :: u.fields)

/-- The same update; maps may list their entries in another order. -/
def Same : UpdateFields → UpdateFields → Prop
  | .toolCall toolCallId name input, .toolCall toolCallId' name' input' =>
      toolCallId' = toolCallId ∧ name' = name ∧ Option.Rel SameEntries input input'
  | .toolCallUpdate toolCallId name status input output,
      .toolCallUpdate toolCallId' name' status' input' output' =>
      toolCallId' = toolCallId ∧ name' = name ∧ status' = status ∧
        Option.Rel SameEntries input input' ∧ output' = output
  | .configOptionUpdate extra, .configOptionUpdate extra' => SameEntries extra extra'
  | .sessionInfoUpdate extra, .sessionInfoUpdate extra' => SameEntries extra extra'
  | u, u' => u' = u

/-- No entry beside the tag has its name. -/
def Restorable : UpdateFields → Prop
  | .configOptionUpdate extra => extra.get? "sessionUpdate" = none
  | .sessionInfoUpdate extra => extra.get? "sessionUpdate" = none
  | _ => True

end UpdateFields

namespace SessionUpdateEvent

def toJson (e : SessionUpdateEvent) : Json :=
  .object [("sessionId", .string e.sessionId), ("update", e.update.toJson)]

def Same (e e' : SessionUpdateEvent) : Prop :=
  e'.sessionId = e.sessionId ∧ e.update.Same e'.update

end SessionUpdateEvent

/-! ### Content parts -/

theorem entries_partField (k k' : String) (o : Option String) :
    Json.entries k (ContentPart.optionalField k' o) =
      if k' = k then (o.map Json.string).toList else [] := by
  cases o <;> simp [ContentPart.optionalField]

section ContentPart

variable {variant : Json → Option String}

theorem readPart_tagged (hvariant : ∀ name ∈ contentPartNames, variant (.string name) = some name)
    (name : String) {fields : List (String × Json)} (hname : name ∈ contentPartNames)
    (htag : (Json.entries "type" fields).getLast? = some (.string name)) :
    Json.readTagged "type" variant readContentPartFields (Json.normalize (.object fields)) =
      readContentPartFields name
        (.object ((Json.normalizeFields fields).filter fun e => e.1 ≠ "type")) := by
  rw [Json.readTagged_normalize htag, Json.normalize_string, hvariant name hname,
    Option.bind_some]

/-- A content part is read back by its name. -/
theorem restores_part
    (hvariant : ∀ name ∈ contentPartNames, variant (.string name) = some name) :
    Restores (Json.readTagged "type" variant readContentPartFields) ContentPart.toJson := by
  intro part
  cases part with
  | text t =>
      rw [ContentPart.toJson, readPart_tagged hvariant "text" (by decide) (by simp),
        readContentPartFields, Json.readStruct_normalize_rest]
      simp [Json.readString]
  | image url =>
      rw [ContentPart.toJson, readPart_tagged hvariant "image" (by decide) (by simp),
        readContentPartFields, Json.readStruct_normalize_rest]
      simp [Json.readString]
  | file url filename mimeType =>
      rw [ContentPart.toJson, readPart_tagged hvariant "file" (by decide)
          (by simp [Json.entries_append, entries_partField]),
        readContentPartFields, Json.readStruct_normalize_rest]
      simp [Json.entries_append, entries_partField, Json.readString, -Option.map_map,
        Json.written_string]
  | audio url mimeType =>
      rw [ContentPart.toJson, readPart_tagged hvariant "audio" (by decide)
          (by simp [entries_partField]),
        readContentPartFields, Json.readStruct_normalize_rest]
      simp [entries_partField, Json.readString, -Option.map_map, Json.written_string]

end ContentPart

theorem restores_contentPart : Restores readContentPart ContentPart.toJson :=
  restores_part fun _ hname => if_pos hname

/-! ### The fields of an update -/

theorem restores_status : Restores readToolCallStatus ToolCallStatus.toJson := by
  intro s
  cases s <;> decide

theorem status_ne_null (s : ToolCallStatus) : s.toJson ≠ .null := by
  simp [ToolCallStatus.toJson]

theorem tokens_ne_null (n : UInt64) : tokens n ≠ .null := by
  simp [tokens]

theorem entriesJson_ne_null (m : KeyedMap String JsonValue) : entriesJson m ≠ .null := by
  simp [entriesJson]

theorem restores_entries : RestoresUpTo SameEntries Json.readMap entriesJson := Json.restores_map

namespace UpdateFields

theorem restorable_iff (u : UpdateFields) :
    u.Restorable ↔ Json.entries "sessionUpdate" u.fields = [] := by
  cases u <;> simp [Restorable, fields, chunkFields, nullableField, Json.entries_append]

/-- A restorable update is read by its tag, from its fields. -/
theorem readUpdate_toJson {u : UpdateFields} (h : u.Restorable) :
    readUpdate u.toJson.normalize = readUpdateFields u.kind.tag
      (.object ((Json.normalizeFields (("sessionUpdate", .string u.kind.tag) :: u.fields)).filter
        fun e => e.1 ≠ "sessionUpdate")) := by
  have hmem : u.kind.tag ∈ updateNames := by
    cases u <;> simp [kind, SessionUpdateType.tag, updateNames]
  have htag : (Json.entries "sessionUpdate"
      (("sessionUpdate", Json.string u.kind.tag) :: u.fields)).getLast? =
        some (.string u.kind.tag) := by
    rw [Json.entries_cons, if_pos rfl, (restorable_iff u).mp h]
    rfl
  rw [readUpdate, toJson, Json.readTagged_normalize htag, Json.normalize_string,
    Json.variantName, if_pos hmem, Option.bind_some]

theorem readChunk_fields (build : ContentPart → Option String → UpdateFields) (tag : String)
    (content : ContentPart) (messageId : Option String) :
    readChunk build (.object
      ((Json.normalizeFields (("sessionUpdate", .string tag) ::
        chunkFields content messageId)).filter fun e => e.1 ≠ "sessionUpdate")) =
      some (build content messageId) := by
  rw [readChunk, Json.readStruct_normalize_rest]
  simp [chunkFields, nullableField, defaultedOption, restores_contentPart content,
    Json.nullable_string]

/-- The entries beside the tag are read into a map. -/
theorem readMap_rest (extra : KeyedMap String JsonValue) (tag : String) :
    ∃ extra', Json.readMap (.object
        ((Json.normalizeFields (("sessionUpdate", .string tag) :: Json.mapFields extra)).filter
          fun e => e.1 ≠ "sessionUpdate")) = some extra' ∧
      ∀ k, extra'.get? k = if k = "sessionUpdate" then none else extra.get? k := by
  refine ⟨_, rfl, fun k => ?_⟩
  rw [Json.get?_foldl_set, Json.entries_filter, KeyedMap.get?_empty, Option.or_none]
  by_cases hk : k = "sessionUpdate"
  · rw [if_pos hk, if_pos hk]
    rfl
  · rw [if_neg hk, if_neg hk, Json.entries_of_normal (Json.normal_normalizeFields _),
      Json.lookup_normalizeFields, Json.entries_cons, if_neg (Ne.symm hk), Json.entries_mapFields]
    cases extra.get? k <;> simp

theorem sameEntries_rest {extra extra' : KeyedMap String JsonValue}
    (h : extra.get? "sessionUpdate" = none)
    (hget : ∀ k, extra'.get? k = if k = "sessionUpdate" then none else extra.get? k) :
    SameEntries extra extra' := by
  intro k
  rw [hget]
  split
  · rename_i hk
    rw [hk, h]
  · rfl

/-- **A restorable update is read back.** -/
theorem exists_readUpdate {u : UpdateFields} (h : u.Restorable) :
    ∃ u', readUpdate u.toJson.normalize = some u' ∧ u.Same u' := by
  rw [readUpdate_toJson h]
  cases u with
  | agentMessageChunk content messageId => exact ⟨_, readChunk_fields _ _ _ _, rfl⟩
  | agentThoughtChunk content messageId => exact ⟨_, readChunk_fields _ _ _ _, rfl⟩
  | userMessageChunk content messageId => exact ⟨_, readChunk_fields _ _ _ _, rfl⟩
  | toolCall toolCallId name input =>
      obtain ⟨input', hinput, hsame⟩ := restores_entries.nullable entriesJson_ne_null input
      refine ⟨.toolCall toolCallId name input', ?_, rfl, rfl, hsame⟩
      simp only [kind, SessionUpdateType.tag, readUpdateFields, Json.readStruct_normalize_rest]
      simp [fields, nullableField, defaultedOption, hinput,
        Json.nullable_string]
  | toolCallUpdate toolCallId name status input output =>
      obtain ⟨input', hinput, hsame⟩ := restores_entries.optional entriesJson_ne_null input
      refine ⟨.toolCallUpdate toolCallId name status input' output, ?_, rfl, rfl, rfl, hsame, rfl⟩
      simp only [kind, SessionUpdateType.tag, readUpdateFields, Json.readStruct_normalize_rest]
      simp [fields, nullableField, defaultedOption, Json.entries_append, Json.readString, hinput,
        -Option.map_map, Json.written_string, restores_status.nullable status_ne_null status]
  | plan content =>
      refine ⟨.plan content, ?_, rfl⟩
      simp only [kind, SessionUpdateType.tag, readUpdateFields, Json.readStruct_normalize_rest]
      simp [fields, restores_contentPart content]
  | usageUpdate inputTokens outputTokens cacheReadTokens cacheWriteTokens =>
      refine ⟨.usageUpdate inputTokens outputTokens cacheReadTokens cacheWriteTokens, ?_, rfl⟩
      have htokens : ∀ o : Option UInt64, (Found.ofKey
          ((o.map tokens).map Json.normalize)).optional Json.readUInt64 = some o :=
        Json.restores_uint64.optional tokens_ne_null
      simp only [kind, SessionUpdateType.tag, readUpdateFields, Json.readStruct_normalize_rest]
      simp [fields, Json.entries_append, -Option.map_map, htokens]
  | result content isError =>
      refine ⟨.result content isError, ?_, rfl⟩
      simp only [kind, SessionUpdateType.tag, readUpdateFields, Json.readStruct_normalize_rest]
      simp [fields, Json.entries_append, Json.readBool, -Option.map_map, Json.written_string]
  | availableCommandsUpdate commands =>
      refine ⟨.availableCommandsUpdate commands, ?_, rfl⟩
      simp only [kind, SessionUpdateType.tag, readUpdateFields, Json.readStruct_normalize_rest]
      simp [fields, Json.restores_value.list commands]
  | currentModeUpdate mode =>
      refine ⟨.currentModeUpdate mode, ?_, rfl⟩
      simp only [kind, SessionUpdateType.tag, readUpdateFields, Json.readStruct_normalize_rest]
      simp [fields, nullableField, defaultedOption, Json.nullable_string]
  | configOptionUpdate extra =>
      obtain ⟨extra', hread, hget⟩ := readMap_rest extra "config_option_update"
      refine ⟨.configOptionUpdate extra', ?_, sameEntries_rest h hget⟩
      exact congrArg (Option.map UpdateFields.configOptionUpdate) hread
  | sessionInfoUpdate extra =>
      obtain ⟨extra', hread, hget⟩ := readMap_rest extra "session_info_update"
      refine ⟨.sessionInfoUpdate extra', ?_, sameEntries_rest h hget⟩
      exact congrArg (Option.map UpdateFields.sessionInfoUpdate) hread

end UpdateFields

/-! ### What is read -/

/-- A record is built last: what holds of every record built holds of the one read. -/
theorem of_bind {α β : Type} {p : β → Prop} {o : Option α} {f : α → Option β}
    (hf : ∀ a b, f a = some b → p b) (b : β) (h : (do f (← o)) = some b) : p b := by
  obtain ⟨a, -, hb⟩ := Option.bind_eq_some_iff.mp h
  exact hf a b hb

theorem of_pure {β : Type} {p : β → Prop} {b₀ : β} (hp : p b₀) (b : β) (h : pure b₀ = some b) :
    p b := by
  cases h
  exact hp

theorem exists_of_readChunk {build : ContentPart → Option String → UpdateFields} {j : Json}
    {u : UpdateFields} (h : readChunk build j = some u) :
    ∃ content messageId, u = build content messageId :=
  Json.of_readStruct (p := fun u => ∃ content messageId, u = build content messageId)
    (fun _ => of_bind fun content => of_bind fun messageId => of_pure ⟨content, messageId, rfl⟩) h

theorem tag_of_readUpdateFields {name : String} {j : Json} {u : UpdateFields}
    (h : readUpdateFields name j = some u) : u.kind.tag = name := by
  unfold readUpdateFields at h
  split at h
  · obtain ⟨content, messageId, rfl⟩ := exists_of_readChunk h
    rfl
  · obtain ⟨content, messageId, rfl⟩ := exists_of_readChunk h
    rfl
  · exact Json.of_readStruct (p := fun u => u.kind.tag = "tool_call")
      (fun _ => of_bind fun _ => of_bind fun _ => of_bind fun _ => of_pure rfl) h
  · exact Json.of_readStruct (p := fun u => u.kind.tag = "tool_call_update")
      (fun _ => of_bind fun _ => of_bind fun _ => of_bind fun _ => of_bind fun _ =>
        of_bind fun _ => of_pure rfl) h
  · exact Json.of_readStruct (p := fun u => u.kind.tag = "plan")
      (fun _ => of_bind fun _ => of_pure rfl) h
  · exact Json.of_readStruct (p := fun u => u.kind.tag = "usage_update")
      (fun _ => of_bind fun _ => of_bind fun _ => of_bind fun _ => of_bind fun _ => of_pure rfl) h
  · exact Json.of_readStruct (p := fun u => u.kind.tag = "result")
      (fun _ => of_bind fun _ => of_bind fun _ => of_pure rfl) h
  · obtain ⟨content, messageId, rfl⟩ := exists_of_readChunk h
    rfl
  · exact Json.of_readStruct (p := fun u => u.kind.tag = "available_commands_update")
      (fun _ => of_bind fun _ => of_pure rfl) h
  · exact Json.of_readStruct (p := fun u => u.kind.tag = "current_mode_update")
      (fun _ => of_bind fun _ => of_pure rfl) h
  · obtain ⟨extra, -, rfl⟩ := Option.map_eq_some_iff.mp h
    rfl
  · obtain ⟨extra, -, rfl⟩ := Option.map_eq_some_iff.mp h
    rfl
  · cases h

/-! ### The round trip -/

namespace UpdateFields

/-- What is read beside a tag has no entry under its name. -/
theorem get?_of_readUpdate (extra : KeyedMap String JsonValue) {u u' : UpdateFields}
    {extra' : KeyedMap String JsonValue}
    {flattened : KeyedMap String JsonValue → UpdateFields}
    (hfields : u.fields = Json.mapFields extra) (hu' : u' = flattened extra')
    (hflattened : ∀ j, readUpdateFields u'.kind.tag j = (Json.readMap j).map flattened)
    (hinj : ∀ m m', flattened m = flattened m' → m = m')
    (h : readUpdate u.toJson.normalize = some u') : extra'.get? "sessionUpdate" = none := by
  obtain ⟨t, ht⟩ : ∃ t, (Json.entries "sessionUpdate"
      (("sessionUpdate", Json.string u.kind.tag) :: u.fields)).getLast? = some t := by
    rw [Json.entries_cons, if_pos rfl, List.getLast?_cons]
    exact ⟨_, rfl⟩
  rw [readUpdate, toJson, Json.readTagged_normalize ht] at h
  obtain ⟨name, -, hread⟩ := Option.bind_eq_some_iff.mp h
  rw [← tag_of_readUpdateFields hread, hflattened, hfields] at hread
  obtain ⟨extra'', hmap, hget⟩ := readMap_rest extra u.kind.tag
  rw [hmap, hu'] at hread
  rw [← hinj _ _ (Option.some.inj hread), hget, if_pos rfl]

theorem restorable_of_same {u u' : UpdateFields} (h : readUpdate u.toJson.normalize = some u')
    (hsame : u.Same u') : u.Restorable := by
  cases u with
  | configOptionUpdate extra =>
      cases u' with
      | configOptionUpdate extra' =>
          have hnone := get?_of_readUpdate extra rfl rfl (fun _ => rfl)
            (fun _ _ => UpdateFields.configOptionUpdate.inj) h
          exact (hsame "sessionUpdate").symm.trans hnone
      | _ => cases hsame
  | sessionInfoUpdate extra =>
      cases u' with
      | sessionInfoUpdate extra' =>
          have hnone := get?_of_readUpdate extra rfl rfl (fun _ => rfl)
            (fun _ _ => UpdateFields.sessionInfoUpdate.inj) h
          exact (hsame "sessionUpdate").symm.trans hnone
      | _ => cases hsame
  | _ => trivial

end UpdateFields

theorem readSessionUpdateEvent_toJson (e : SessionUpdateEvent) :
    readSessionUpdateEvent e.toJson.normalize =
      (readUpdate e.update.toJson.normalize).map fun u => ⟨e.sessionId, u⟩ := by
  rw [readSessionUpdateEvent, SessionUpdateEvent.toJson, Json.readStruct_normalize]
  cases hread : readUpdate e.update.toJson.normalize <;> simp [hread, Json.readString]

/-- **An update is read back as it was written, exactly when no entry of its map has the name
    of the tag.** -/
theorem update_restored_iff (e : SessionUpdateEvent) :
    (∃ e', readSessionUpdateEvent e.toJson.normalize = some e' ∧ e.Same e') ↔
      e.update.Restorable := by
  rw [readSessionUpdateEvent_toJson]
  constructor
  · rintro ⟨e', hread, -, hsame⟩
    obtain ⟨u', hu', rfl⟩ := Option.map_eq_some_iff.mp hread
    exact UpdateFields.restorable_of_same hu' hsame
  · intro hrest
    obtain ⟨u', hu', hsame⟩ := UpdateFields.exists_readUpdate hrest
    exact ⟨⟨e.sessionId, u'⟩, by rw [hu']; rfl, rfl, hsame⟩

end Anyclaw
