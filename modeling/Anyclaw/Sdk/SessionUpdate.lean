import Anyclaw.Library.Serde
import Anyclaw.Sdk.Content

/-!
# Session updates as the agents manager reads them

The typed form of `session/update` and its reader.  Every field that the type knows must
have the type it wants, or the whole update is refused.

The types are `SessionUpdateEvent` and `SessionUpdateType` of
`crates/anyclaw-sdk-types/src/acp.rs`, with the readers that serde derives.

* `WellTyped`: the condition on the fields of an update, kind by kind.
* `reads_update_iff`: an update of a known kind is read exactly when it is well typed.
-/

namespace Anyclaw

open Json (Reader Found readStruct readOption readString Reads)

/-! ### The typed form -/

inductive ToolCallStatus where
  | pending
  | inProgress
  | completed
  | failed
deriving DecidableEq

/-- A `session/update` with its fields. -/
inductive UpdateFields where
  | agentMessageChunk (content : ContentPart) (messageId : Option String)
  | agentThoughtChunk (content : ContentPart) (messageId : Option String)
  | toolCall (toolCallId name : Option String) (input : Option (KeyedMap String JsonValue))
  | toolCallUpdate (toolCallId : String) (name : Option String) (status : Option ToolCallStatus)
      (input : Option (KeyedMap String JsonValue)) (output : Option String)
  | plan (content : ContentPart)
  | usageUpdate (inputTokens outputTokens cacheReadTokens cacheWriteTokens : Option UInt64)
  | result (content : Option String) (isError : Bool)
  | userMessageChunk (content : ContentPart) (messageId : Option String)
  | availableCommandsUpdate (commands : List JsonValue)
  | currentModeUpdate (mode : Option String)
  | configOptionUpdate (extra : KeyedMap String JsonValue)
  | sessionInfoUpdate (extra : KeyedMap String JsonValue)

def UpdateFields.kind : UpdateFields → SessionUpdateType
  | .agentMessageChunk _ _ => .agentMessageChunk
  | .agentThoughtChunk _ _ => .agentThoughtChunk
  | .toolCall _ _ _ => .toolCall
  | .toolCallUpdate _ _ _ _ _ => .toolCallUpdate
  | .plan _ => .plan
  | .usageUpdate _ _ _ _ => .usageUpdate
  | .result _ isError => .result isError
  | .userMessageChunk _ _ => .userMessageChunk
  | .availableCommandsUpdate _ => .availableCommandsUpdate
  | .currentModeUpdate _ => .currentModeUpdate
  | .configOptionUpdate _ => .configOptionUpdate
  | .sessionInfoUpdate _ => .sessionInfoUpdate

structure SessionUpdateEvent where
  sessionId : AcpSessionId
  update : UpdateFields

/-! ### Reading -/

def contentPartNames : List String := ["text", "image", "file", "audio"]

def readContentPartFields : String → Reader ContentPart
  | "text" => readStruct ["text"] fun field => do
      return .text (← (field "text").required readString)
  | "image" => readStruct ["url"] fun field => do
      return .image (← (field "url").required readString)
  | "file" => readStruct ["url", "filename", "mimeType"] fun field => do
      return .file (← (field "url").required readString)
        (← (field "filename").optional readString) (← (field "mimeType").optional readString)
  | "audio" => readStruct ["url", "mimeType"] fun field => do
      return .audio (← (field "url").required readString)
        (← (field "mimeType").optional readString)
  | _ => fun _ => none

/-- A content part inside an update, which has been buffered to look for its tag. -/
def readContentPart : Reader ContentPart :=
  Json.readTagged "type" (Json.bufferedVariantName contentPartNames) readContentPartFields

def toolCallStatusNames : List String := ["pending", "in_progress", "completed", "failed"]

def toolCallStatusOfName : String → Option ToolCallStatus
  | "pending" => some .pending
  | "in_progress" => some .inProgress
  | "completed" => some .completed
  | "failed" => some .failed
  | _ => none

def readToolCallStatus : Reader ToolCallStatus := fun j =>
  (Json.readUnitVariant toolCallStatusNames j).bind toolCallStatusOfName

/-- An optional field that is marked as having a default. -/
def defaultedOption {α : Type} (r : Reader α) (f : Found) : Option (Option α) :=
  f.defaulted (readOption r) none

/-- A chunk: its content, by default empty text, and the id of its message. -/
def readChunk (build : ContentPart → Option String → UpdateFields) : Reader UpdateFields :=
  readStruct ["content", "messageId"] fun field => do
    return build (← (field "content").defaulted readContentPart (.text ""))
      (← defaultedOption readString (field "messageId"))

/-- A variant whose fields are all collected into one map. -/
def readFlattened (build : KeyedMap String JsonValue → UpdateFields) : Reader UpdateFields :=
  fun j => (Json.readMap j).map build

def updateNames : List String :=
  ["agent_message_chunk", "agent_thought_chunk", "tool_call", "tool_call_update", "plan",
    "usage_update", "result", "user_message_chunk", "available_commands_update",
    "current_mode_update", "config_option_update", "session_info_update"]

def readUpdateFields : String → Reader UpdateFields
  | "agent_message_chunk" => readChunk .agentMessageChunk
  | "agent_thought_chunk" => readChunk .agentThoughtChunk
  | "tool_call" => readStruct ["toolCallId", "name", "input"] fun field => do
      return .toolCall (← defaultedOption readString (field "toolCallId"))
        (← defaultedOption readString (field "name"))
        (← defaultedOption Json.readMap (field "input"))
  | "tool_call_update" =>
      readStruct ["toolCallId", "name", "status", "input", "output"] fun field => do
        return .toolCallUpdate (← (field "toolCallId").required readString)
          (← (field "name").optional readString)
          (← defaultedOption readToolCallStatus (field "status"))
          (← (field "input").optional Json.readMap)
          (← (field "output").optional readString)
  | "plan" => readStruct ["content"] fun field => do
      return .plan (← (field "content").defaulted readContentPart (.text ""))
  | "usage_update" =>
      readStruct ["inputTokens", "outputTokens", "cacheReadTokens", "cacheWriteTokens"]
        fun field => do
          return .usageUpdate (← (field "inputTokens").optional Json.readUInt64)
            (← (field "outputTokens").optional Json.readUInt64)
            (← (field "cacheReadTokens").optional Json.readUInt64)
            (← (field "cacheWriteTokens").optional Json.readUInt64)
  | "result" => readStruct ["content", "is_error"] fun field => do
      return .result (← (field "content").optional readString)
        (← (field "is_error").defaulted Json.readBool false)
  | "user_message_chunk" => readChunk .userMessageChunk
  | "available_commands_update" => readStruct ["commands"] fun field => do
      return .availableCommandsUpdate
        (← (field "commands").defaulted (Json.readList Json.readValue) [])
  | "current_mode_update" => readStruct ["mode"] fun field => do
      return .currentModeUpdate (← defaultedOption readString (field "mode"))
  | "config_option_update" => readFlattened .configOptionUpdate
  | "session_info_update" => readFlattened .sessionInfoUpdate
  | _ => fun _ => none

def readUpdate : Reader UpdateFields :=
  Json.readTagged "sessionUpdate" (Json.variantName updateNames) readUpdateFields

def readSessionUpdateEvent : Reader SessionUpdateEvent :=
  readStruct ["sessionId", "update"] fun field => do
    return ⟨← (field "sessionId").required readString, ← (field "update").required readUpdate⟩

/-! ### The types that the fields must have -/

open Json (Required Optional Defaulted)

def IsString (j : Json) : Prop := ∃ s, j = .string s

def IsBool (j : Json) : Prop := ∃ b, j = .bool b

def IsUnsigned (j : Json) : Prop := ∃ n, j = .number n ∧ n.asUInt64.isSome

def IsObject (j : Json) : Prop := ∃ fields, j = .object fields

def IsArray (j : Json) : Prop := ∃ items, j = .array items

/-- The name of a status, or an object that leads from the name to nothing. -/
def IsStatus (j : Json) : Prop :=
  ∃ name ∈ toolCallStatusNames,
    j = .string name ∨ j = .object [(name, .null)] ∨ j = .object [(name, .object [])]

/-- The type of a content part: its name, or its number. -/
def PartType (t : Json) (name : String) : Prop :=
  (t = .string name ∧ name ∈ contentPartNames) ∨
    ∃ n i, t = .number n ∧ n.asUInt64 = some i ∧ contentPartNames[i.toNat]? = some name

def PartFields (field : String → Option Json) : String → Prop
  | "text" => Required IsString (field "text")
  | "image" => Required IsString (field "url")
  | "file" =>
      Required IsString (field "url") ∧ Optional IsString (field "filename") ∧
        Optional IsString (field "mimeType")
  | "audio" => Required IsString (field "url") ∧ Optional IsString (field "mimeType")
  | _ => False

/-- The fields of a content part of the given type, by position. -/
def PartItems : List Json → String → Prop
  | [text], "text" => IsString text
  | [url], "image" => IsString url
  | [url, filename, mimeType], "file" =>
      IsString url ∧ (filename = .null ∨ IsString filename) ∧
        (mimeType = .null ∨ IsString mimeType)
  | [url, mimeType], "audio" => IsString url ∧ (mimeType = .null ∨ IsString mimeType)
  | _, _ => False

/-- A content part: an object, or an array whose first element is the type. -/
def IsContentPart : Json → Prop
  | .object fields =>
      ∃ t name, fields.lookup "type" = some t ∧ PartType t name ∧
        PartFields (fun k => fields.lookup k) name
  | .array (t :: rest) => ∃ name, PartType t name ∧ PartItems rest name
  | _ => False

/-- The fields of an update of the given kind. -/
def WellTyped (field : String → Option Json) : String → Prop
  | "agent_message_chunk" =>
      Defaulted IsContentPart (field "content") ∧ Optional IsString (field "messageId")
  | "agent_thought_chunk" =>
      Defaulted IsContentPart (field "content") ∧ Optional IsString (field "messageId")
  | "user_message_chunk" =>
      Defaulted IsContentPart (field "content") ∧ Optional IsString (field "messageId")
  | "tool_call" =>
      Optional IsString (field "toolCallId") ∧ Optional IsString (field "name") ∧
        Optional IsObject (field "input")
  | "tool_call_update" =>
      Required IsString (field "toolCallId") ∧ Optional IsString (field "name") ∧
        Optional IsStatus (field "status") ∧ Optional IsObject (field "input") ∧
          Optional IsString (field "output")
  | "plan" => Defaulted IsContentPart (field "content")
  | "usage_update" =>
      Optional IsUnsigned (field "inputTokens") ∧ Optional IsUnsigned (field "outputTokens") ∧
        Optional IsUnsigned (field "cacheReadTokens") ∧
          Optional IsUnsigned (field "cacheWriteTokens")
  | "result" => Optional IsString (field "content") ∧ Defaulted IsBool (field "is_error")
  | "available_commands_update" => Defaulted IsArray (field "commands")
  | "current_mode_update" => Optional IsString (field "mode")
  | "config_option_update" => True
  | "session_info_update" => True
  | _ => False

/-! ### What is read -/

theorem reads_status {j : Json} : Reads readToolCallStatus j ↔ IsStatus j := by
  have hname : ∀ name, (toolCallStatusOfName name).isSome ↔ name ∈ toolCallStatusNames := by
    intro name
    unfold toolCallStatusOfName
    split <;> simp_all [toolCallStatusNames]
  have hread : Reads readToolCallStatus j ↔
      ∃ name, Json.readUnitVariant toolCallStatusNames j = some name ∧
        name ∈ toolCallStatusNames := by
    unfold Reads readToolCallStatus
    cases Json.readUnitVariant toolCallStatusNames j with
    | none => simp
    | some name => simp [hname]
  rw [hread, IsStatus]
  constructor
  · rintro ⟨name, hvariant, hmem⟩
    refine ⟨name, hmem, ?_⟩
    unfold Json.readUnitVariant at hvariant
    split at hvariant
    · obtain ⟨-, heq⟩ := Option.ite_none_right_eq_some.mp hvariant
      cases heq
      exact .inl rfl
    · obtain ⟨⟨-, hnothing⟩, heq⟩ := Option.ite_none_right_eq_some.mp hvariant
      cases heq
      rcases hnothing with rfl | rfl
      · exact .inr (.inl rfl)
      · exact .inr (.inr rfl)
    · cases hvariant
  · rintro ⟨name, hmem, rfl | rfl | rfl⟩
    · exact ⟨name, by simp [Json.readUnitVariant, hmem], hmem⟩
    · exact ⟨name, by simp [Json.readUnitVariant, hmem], hmem⟩
    · exact ⟨name, by simp [Json.readUnitVariant, hmem], hmem⟩

theorem bufferedVariantName_eq_some {t : Json} {name : String} :
    Json.bufferedVariantName contentPartNames t = some name ↔ PartType t name := by
  cases t with
  | string s =>
      simp only [Json.bufferedVariantName, PartType]
      constructor
      · intro h
        obtain ⟨hmem, heq⟩ := Option.ite_none_right_eq_some.mp h
        cases heq
        exact .inl ⟨rfl, hmem⟩
      · rintro (⟨heq, hmem⟩ | ⟨n, i, heq, -⟩)
        · cases heq
          exact if_pos hmem
        · cases heq
  | number n => simp [Json.bufferedVariantName, PartType, Option.bind_eq_some_iff]
  | null => simp [Json.bufferedVariantName, PartType]
  | bool b => simp [Json.bufferedVariantName, PartType]
  | array items => simp [Json.bufferedVariantName, PartType]
  | object fields => simp [Json.bufferedVariantName, PartType]

/-- What a struct reads from the fields of a tagged object, when the tag is none of them. -/
theorem reads_tagged_iff {α : Type} {tag : String} {names : List String}
    {build : (String → Found) → Option α} {fields : List (String × Json)}
    (h : Json.NormalFields fields) :
    Reads (readStruct names build) (.object (fields.filter fun e => e.1 ≠ tag)) ↔
      (build fun k => .ofKey (if k = tag then none else fields.lookup k)).isSome := by
  rw [Reads, Json.readStruct_tagged h]

theorem required_string {o : Option Json} :
    ((Found.ofKey o).required readString).isSome ↔ Required IsString o :=
  Json.required_ofKey_isSome.trans (Required.congr fun _ => Json.reads_string)

theorem optional_string {o : Option Json} :
    ((Found.ofKey o).optional readString).isSome ↔ Optional IsString o :=
  Json.optional_ofKey_isSome.trans (Optional.congr fun _ => Json.reads_string)

theorem defaultedOption_iff {α : Type} {r : Reader α} {o : Option Json} :
    (defaultedOption r (.ofKey o)).isSome ↔ Optional (Reads r) o :=
  Json.defaulted_option_isSome

theorem reads_partFields {fields : List (String × Json)} (h : Json.NormalFields fields)
    (name : String) :
    Reads (readContentPartFields name) (.object (fields.filter fun e => e.1 ≠ "type")) ↔
      PartFields (fun k => fields.lookup k) name := by
  unfold readContentPartFields PartFields
  split
  · rw [reads_tagged_iff h]
    exact Json.isSome_bind_pure.trans required_string
  · rw [reads_tagged_iff h]
    exact Json.isSome_bind_pure.trans required_string
  · rw [reads_tagged_iff h]
    refine (Json.isSome_bind_iff fun _ => Json.isSome_bind_iff fun _ =>
      Json.isSome_bind_pure).trans ?_
    exact and_congr required_string (and_congr optional_string optional_string)
  · rw [reads_tagged_iff h]
    refine (Json.isSome_bind_iff fun _ => Json.isSome_bind_pure).trans ?_
    exact and_congr required_string optional_string
  · simp [Reads]

theorem readString_isSome {j : Json} : j.readString.isSome ↔ IsString j := Json.reads_string

theorem readOption_string {j : Json} :
    (readOption readString j).isSome ↔ j = .null ∨ IsString j :=
  Json.reads_option.trans (or_congr Iff.rfl Json.reads_string)

theorem reads_partItems (rest : List Json) (name : String) :
    Reads (readContentPartFields name) (.array rest) ↔ PartItems rest name := by
  unfold readContentPartFields
  split
  · rw [Json.reads_struct_array]
    match rest with
    | [] => simp [PartItems]
    | [_] =>
        refine (and_iff_right (by simp)).trans ?_
        exact Json.isSome_bind_pure.trans readString_isSome
    | _ :: _ :: _ => simp [PartItems]
  · rw [Json.reads_struct_array]
    match rest with
    | [] => simp [PartItems]
    | [_] =>
        refine (and_iff_right (by simp)).trans ?_
        exact Json.isSome_bind_pure.trans readString_isSome
    | _ :: _ :: _ => simp [PartItems]
  · rw [Json.reads_struct_array]
    match rest with
    | [] => simp [PartItems]
    | [_] => simp [PartItems, List.lookup_cons]
    | [_, _] => simp [PartItems, List.lookup_cons]
    | [_, _, _] =>
        refine (and_iff_right (by simp)).trans ?_
        refine (Json.isSome_bind_iff fun _ => Json.isSome_bind_iff fun _ =>
          Json.isSome_bind_pure).trans ?_
        exact and_congr readString_isSome (and_congr readOption_string readOption_string)
    | _ :: _ :: _ :: _ :: _ => simp [PartItems]
  · rw [Json.reads_struct_array]
    match rest with
    | [] => simp [PartItems]
    | [_] => simp [PartItems, List.lookup_cons]
    | [_, _] =>
        refine (and_iff_right (by simp)).trans ?_
        refine (Json.isSome_bind_iff fun _ => Json.isSome_bind_pure).trans ?_
        exact and_congr readString_isSome readOption_string
    | _ :: _ :: _ :: _ => simp [PartItems]
  · have hnone : ¬ PartItems rest name := by
      unfold PartItems
      split <;> simp_all
    simpa [Reads] using hnone

/-- **The content parts that are read.** -/
theorem reads_contentPart_iff {j : Json} (h : j.Normal) :
    Reads readContentPart j ↔ IsContentPart j := by
  cases j with
  | object fields =>
      have hread : ∀ t, fields.lookup "type" = some t →
          (Reads readContentPart (.object fields) ↔
            ∃ name, PartType t name ∧ PartFields (fun k => fields.lookup k) name) := by
        intro t ht
        rw [readContentPart, Json.reads_readTagged (Json.splitTag_object h ht)]
        simp only [← bufferedVariantName_eq_some, ← reads_partFields h]
      cases ht : fields.lookup "type" with
      | none =>
          have hsplit : Json.splitTag "type" (.object fields) = none := by
            simp [Json.splitTag, Json.entries_of_normal h, ht]
          simp [Reads, readContentPart, Json.readTagged, hsplit, IsContentPart, ht]
      | some t => simp [hread t ht, IsContentPart, ht]
  | array items =>
      cases items with
      | nil => simp [Reads, readContentPart, Json.readTagged, Json.splitTag, IsContentPart]
      | cons t rest =>
          have hsplit : Json.splitTag "type" (.array (t :: rest)) = some (t, .array rest) := rfl
          rw [readContentPart, Json.reads_readTagged hsplit]
          simp only [← bufferedVariantName_eq_some, ← reads_partItems, IsContentPart]
  | null => simp [Reads, readContentPart, Json.readTagged, Json.splitTag, IsContentPart]
  | bool b => simp [Reads, readContentPart, Json.readTagged, Json.splitTag, IsContentPart]
  | number n => simp [Reads, readContentPart, Json.readTagged, Json.splitTag, IsContentPart]
  | string s => simp [Reads, readContentPart, Json.readTagged, Json.splitTag, IsContentPart]

theorem normal_of_lookup {k : String} {fields : List (String × Json)}
    (h : Json.NormalFields fields) : ∀ j ∈ fields.lookup k, j.Normal :=
  fun _ hj => Json.normal_of_mem h (Json.mem_of_lookup hj)

theorem defaulted_content {fields : List (String × Json)} (h : Json.NormalFields fields)
    {d : ContentPart} :
    ((Found.ofKey (fields.lookup "content")).defaulted readContentPart d).isSome ↔
      Defaulted IsContentPart (fields.lookup "content") :=
  Json.defaulted_ofKey_isSome.trans
    (Defaulted.congr_normal (fun _ => reads_contentPart_iff) (normal_of_lookup h))

theorem reads_chunk {build : ContentPart → Option String → UpdateFields}
    {fields : List (String × Json)} (h : Json.NormalFields fields) :
    Reads (readChunk build) (.object (fields.filter fun e => e.1 ≠ "sessionUpdate")) ↔
      Defaulted IsContentPart (fields.lookup "content") ∧
        Optional IsString (fields.lookup "messageId") := by
  rw [readChunk, reads_tagged_iff h]
  refine (Json.isSome_bind_iff fun _ => Json.isSome_bind_pure).trans ?_
  exact and_congr (defaulted_content h)
    (defaultedOption_iff.trans (Optional.congr fun _ => Json.reads_string))

theorem reads_flattened {build : KeyedMap String JsonValue → UpdateFields}
    (fields : List (String × Json)) : Reads (readFlattened build) (.object fields) := by
  simp [Reads, readFlattened, Json.readMap]

/-- The fields of each kind. -/
theorem reads_updateFields {fields : List (String × Json)} (h : Json.NormalFields fields)
    (name : String) :
    Reads (readUpdateFields name) (.object (fields.filter fun e => e.1 ≠ "sessionUpdate")) ↔
      WellTyped (fun k => fields.lookup k) name := by
  have hstring : ∀ k, (defaultedOption readString (.ofKey (fields.lookup k))).isSome ↔
      Optional IsString (fields.lookup k) := fun _ =>
    defaultedOption_iff.trans (Optional.congr fun _ => Json.reads_string)
  have hobject : ∀ k, Optional (Reads Json.readMap) (fields.lookup k) ↔
      Optional IsObject (fields.lookup k) := fun _ => Optional.congr fun _ => Json.reads_map
  have hunsigned : ∀ k, ((Found.ofKey (fields.lookup k)).optional Json.readUInt64).isSome ↔
      Optional IsUnsigned (fields.lookup k) := fun _ =>
    Json.optional_ofKey_isSome.trans (Optional.congr fun _ => Json.reads_uint64)
  unfold readUpdateFields
  split
  · exact reads_chunk h
  · exact reads_chunk h
  · rw [reads_tagged_iff h]
    refine (Json.isSome_bind_iff fun _ => Json.isSome_bind_iff fun _ =>
      Json.isSome_bind_pure).trans ?_
    exact and_congr (hstring _) (and_congr (hstring _) (defaultedOption_iff.trans (hobject _)))
  · rw [reads_tagged_iff h]
    refine (Json.isSome_bind_iff fun _ => Json.isSome_bind_iff fun _ =>
      Json.isSome_bind_iff fun _ => Json.isSome_bind_iff fun _ =>
        Json.isSome_bind_pure).trans ?_
    exact and_congr required_string (and_congr optional_string
      (and_congr (defaultedOption_iff.trans (Optional.congr fun _ => reads_status))
        (and_congr (Json.optional_ofKey_isSome.trans (hobject _)) optional_string)))
  · rw [reads_tagged_iff h]
    exact Json.isSome_bind_pure.trans (defaulted_content h)
  · rw [reads_tagged_iff h]
    refine (Json.isSome_bind_iff fun _ => Json.isSome_bind_iff fun _ =>
      Json.isSome_bind_iff fun _ => Json.isSome_bind_pure).trans ?_
    exact and_congr (hunsigned _) (and_congr (hunsigned _)
      (and_congr (hunsigned _) (hunsigned _)))
  · rw [reads_tagged_iff h]
    refine (Json.isSome_bind_iff fun _ => Json.isSome_bind_pure).trans ?_
    exact and_congr optional_string
      (Json.defaulted_ofKey_isSome.trans (Defaulted.congr fun _ => Json.reads_bool))
  · exact reads_chunk h
  · rw [reads_tagged_iff h]
    exact Json.isSome_bind_pure.trans
      (Json.defaulted_ofKey_isSome.trans (Defaulted.congr fun _ => Json.reads_values))
  · rw [reads_tagged_iff h]
    exact Json.isSome_bind_pure.trans (hstring _)
  · exact iff_of_true (reads_flattened _) trivial
  · exact iff_of_true (reads_flattened _) trivial
  · have hnone : ¬ WellTyped (fun k => fields.lookup k) name := by
      unfold WellTyped
      split <;> simp_all
    simpa [Reads] using hnone

theorem mem_updateNames {field : String → Option Json} {name : String}
    (h : WellTyped field name) : name ∈ updateNames := by
  unfold WellTyped at h
  split at h <;> simp_all [updateNames]

/-- **An update is read exactly when its fields have the types that its kind wants.** -/
theorem reads_update_iff {fields : List (String × Json)} {name : String}
    (h : Json.NormalFields fields) (hname : fields.lookup "sessionUpdate" = some (.string name)) :
    Reads readUpdate (.object fields) ↔ WellTyped (fun k => fields.lookup k) name := by
  rw [readUpdate, Json.reads_readTagged (Json.splitTag_object h hname)]
  simp only [reads_updateFields h, Json.variantName]
  constructor
  · rintro ⟨name', hname', htyped⟩
    obtain ⟨-, heq⟩ := Option.ite_none_right_eq_some.mp hname'
    cases heq
    exact htyped
  · intro htyped
    exact ⟨name, if_pos (mem_updateNames htyped), htyped⟩

end Anyclaw
