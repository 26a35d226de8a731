import Anyclaw.Library.Serde

/-!
# JSON-RPC messages

The messages exchanged with agent and channel processes, how they are written as JSON and
how they are read from it.  Which of the two forms a line has is written nowhere: a message
is a request if it can be read as one, and otherwise a response if it can be read as one.

The source is `crates/anyclaw-jsonrpc/src/types.rs`; the readers and the writers are those
that serde derives for its types.

* `readMessage_toJson`: what is read from a written message is the message without the
  payloads that are null.
-/

namespace Anyclaw

open Json (Reader Found readStruct)

/-! ### Messages -/

inductive RequestId where
  | number (n : Int64)
  | string (s : String)
deriving DecidableEq

/-- A request, or a notification if it has no id. -/
structure JsonRpcRequest where
  jsonrpc : String
  id : Option RequestId
  method : String
  params : Option JsonValue
deriving DecidableEq

structure JsonRpcError where
  code : Int64
  message : String
  data : Option JsonValue
deriving DecidableEq

structure JsonRpcResponse where
  jsonrpc : String
  id : Option RequestId
  result : Option JsonValue
  error : Option JsonRpcError
deriving DecidableEq

inductive JsonRpcMessage where
  | request (r : JsonRpcRequest)
  | response (r : JsonRpcResponse)
deriving DecidableEq

def JsonRpcRequest.new (method : String) (id : Option RequestId) (params : Option JsonValue) :
    JsonRpcRequest :=
  ⟨"2.0", id, method, params⟩

def JsonRpcResponse.success (id : Option RequestId) (result : JsonValue) : JsonRpcResponse :=
  ⟨"2.0", id, some result, none⟩

def JsonRpcResponse.ofError (id : Option RequestId) (error : JsonRpcError) : JsonRpcResponse :=
  ⟨"2.0", id, none, some error⟩

/-! ### Writing -/

def RequestId.toJson : RequestId → Json
  | .number n => .number (.ofInt64 n)
  | .string s => .string s

/-- An optional field is left out when there is nothing to write. -/
def optionalField (k : String) : Option Json → List (String × Json)
  | some j => [(k, j)]
  | none => []

def JsonRpcRequest.fields (r : JsonRpcRequest) : List (String × Json) :=
  [("jsonrpc", .string r.jsonrpc)] ++ optionalField "id" (r.id.map RequestId.toJson) ++
    [("method", .string r.method)] ++ optionalField "params" (r.params.map JsonValue.doc)

def JsonRpcRequest.toJson (r : JsonRpcRequest) : Json := .object r.fields

def JsonRpcError.fields (e : JsonRpcError) : List (String × Json) :=
  [("code", .number (.ofInt64 e.code)), ("message", .string e.message)] ++
    optionalField "data" (e.data.map JsonValue.doc)

def JsonRpcError.toJson (e : JsonRpcError) : Json := .object e.fields

def JsonRpcResponse.fields (r : JsonRpcResponse) : List (String × Json) :=
  [("jsonrpc", .string r.jsonrpc)] ++ optionalField "id" (r.id.map RequestId.toJson) ++
    optionalField "result" (r.result.map JsonValue.doc) ++
    optionalField "error" (r.error.map JsonRpcError.toJson)

def JsonRpcResponse.toJson (r : JsonRpcResponse) : Json := .object r.fields

def JsonRpcMessage.toJson : JsonRpcMessage → Json
  | .request r => r.toJson
  | .response r => r.toJson

/-! ### Reading -/

def readRequestId : Reader RequestId := fun j =>
  (Json.readInt64 j).map RequestId.number <|> (Json.readString j).map RequestId.string

def JsonRpcRequest.ofFields (field : String → Found) : Option JsonRpcRequest := do
  let jsonrpc ← (field "jsonrpc").required Json.readString
  let id ← (field "id").optional readRequestId
  let method ← (field "method").required Json.readString
  let params ← (field "params").optional Json.readValue
  return ⟨jsonrpc, id, method, params⟩

def readJsonRpcRequest : Reader JsonRpcRequest :=
  readStruct ["jsonrpc", "id", "method", "params"] JsonRpcRequest.ofFields

def JsonRpcError.ofFields (field : String → Found) : Option JsonRpcError := do
  let code ← (field "code").required Json.readInt64
  let message ← (field "message").required Json.readString
  let data ← (field "data").optional Json.readValue
  return ⟨code, message, data⟩

def readJsonRpcError : Reader JsonRpcError :=
  readStruct ["code", "message", "data"] JsonRpcError.ofFields

def JsonRpcResponse.ofFields (field : String → Found) : Option JsonRpcResponse := do
  let jsonrpc ← (field "jsonrpc").required Json.readString
  let id ← (field "id").optional readRequestId
  let result ← (field "result").optional Json.readValue
  let error ← (field "error").optional readJsonRpcError
  return ⟨jsonrpc, id, result, error⟩

def readJsonRpcResponse : Reader JsonRpcResponse :=
  readStruct ["jsonrpc", "id", "result", "error"] JsonRpcResponse.ofFields

/-- The two forms carry no tag: the first that can be read is taken. -/
def readJsonRpcMessage : Reader JsonRpcMessage := fun j =>
  (readJsonRpcRequest j).map JsonRpcMessage.request <|>
    (readJsonRpcResponse j).map JsonRpcMessage.response

/-! ### What is read from a written message -/

/-- A payload that is null is read as if it were missing. -/
def dropNull (payload : Option JsonValue) : Option JsonValue :=
  payload.bind fun v => if v.doc = .null then none else some v

def JsonRpcError.dropNulls (e : JsonRpcError) : JsonRpcError :=
  { e with data := dropNull e.data }

def JsonRpcMessage.dropNulls : JsonRpcMessage → JsonRpcMessage
  | .request r => .request { r with params := dropNull r.params }
  | .response r =>
      .response { r with
        result := dropNull r.result
        error := r.error.map JsonRpcError.dropNulls }

@[simp] theorem readRequestId_toJson (id : RequestId) : readRequestId id.toJson = some id := by
  cases id with
  | number n => simp [readRequestId, RequestId.toJson, Json.readInt64]
  | string s => simp [readRequestId, RequestId.toJson, Json.readInt64, Json.readString]

theorem RequestId.toJson_ne_null (id : RequestId) : id.toJson ≠ .null := by
  cases id <;> simp [RequestId.toJson]

theorem readOption_toJson (id : RequestId) :
    Json.readOption readRequestId id.toJson = some (some id) := by
  simp [Json.readOption_of_ne_null id.toJson_ne_null]

theorem readOption_doc (v : JsonValue) :
    Json.readOption Json.readValue v.doc = some (dropNull (some v)) := by
  by_cases h : v.doc = .null
  · simp [dropNull, h, Json.readOption]
  · simp [Json.readOption_of_ne_null h, dropNull, h, Json.readValue]

/-- The field of an optional payload. -/
theorem optional_payload (payload : Option JsonValue) :
    (Found.ofKey (payload.map JsonValue.doc)).optional Json.readValue =
      some (dropNull payload) := by
  cases payload with
  | none => rfl
  | some v => simpa using readOption_doc v

/-- The field of an optional id. -/
theorem optional_id (id : Option RequestId) :
    (Found.ofKey (id.map RequestId.toJson)).optional readRequestId = some id := by
  cases id with
  | none => rfl
  | some id => simpa using readOption_toJson id

@[simp] theorem entries_optionalField (k k' : String) (j : Option Json) :
    Json.entries k (optionalField k' j) = if k' = k then j.toList else [] := by
  cases j <;> simp [optionalField]

theorem readJsonRpcError_toJson (e : JsonRpcError) :
    readJsonRpcError e.toJson = some e.dropNulls := by
  rw [readJsonRpcError, JsonRpcError.toJson,
    Json.readStruct_object (by simp [JsonRpcError.fields])]
  simp [JsonRpcError.ofFields, JsonRpcError.fields, optional_payload, Json.readInt64,
    Json.readString, JsonRpcError.dropNulls]

theorem JsonRpcError.toJson_ne_null (e : JsonRpcError) : e.toJson ≠ .null := nofun

/-- The field of an optional error. -/
theorem optional_error (error : Option JsonRpcError) :
    (Found.ofKey (error.map JsonRpcError.toJson)).optional readJsonRpcError =
      some (error.map JsonRpcError.dropNulls) := by
  cases error with
  | none => rfl
  | some e => simp [Json.readOption_of_ne_null e.toJson_ne_null, readJsonRpcError_toJson]

theorem readJsonRpcRequest_toJson (r : JsonRpcRequest) :
    readJsonRpcRequest r.toJson = some { r with params := dropNull r.params } := by
  rw [readJsonRpcRequest, JsonRpcRequest.toJson,
    Json.readStruct_object (by simp [JsonRpcRequest.fields, Json.entries_append])]
  simp [JsonRpcRequest.ofFields, JsonRpcRequest.fields, Json.entries_append, optional_payload,
    optional_id, Json.readString]

theorem readJsonRpcResponse_toJson (r : JsonRpcResponse) :
    readJsonRpcResponse r.toJson =
      some { r with
        result := dropNull r.result
        error := r.error.map JsonRpcError.dropNulls } := by
  rw [readJsonRpcResponse, JsonRpcResponse.toJson,
    Json.readStruct_object (by simp [JsonRpcResponse.fields, Json.entries_append])]
  simp [JsonRpcResponse.ofFields, JsonRpcResponse.fields, Json.entries_append,
    optional_payload, optional_id, optional_error, Json.readString]

/-- A response has no method, and is not read as a request. -/
theorem readJsonRpcRequest_response (r : JsonRpcResponse) :
    readJsonRpcRequest r.toJson = none := by
  rw [readJsonRpcRequest, JsonRpcResponse.toJson,
    Json.readStruct_object (by simp [JsonRpcResponse.fields, Json.entries_append])]
  simp [JsonRpcRequest.ofFields, JsonRpcResponse.fields, Json.entries_append]

/-- **What is read from a written message is the message without its null payloads.** -/
theorem readJsonRpcMessage_toJson (m : JsonRpcMessage) :
    readJsonRpcMessage m.toJson = some m.dropNulls := by
  cases m with
  | request r =>
      simp [readJsonRpcMessage, JsonRpcMessage.toJson, readJsonRpcRequest_toJson,
        JsonRpcMessage.dropNulls]
  | response r =>
      simp [readJsonRpcMessage, JsonRpcMessage.toJson, readJsonRpcRequest_response,
        readJsonRpcResponse_toJson, JsonRpcMessage.dropNulls]

/-! ### Messages that are read as they were written -/

/-- A payload that is there is not null. -/
def Substantial (payload : Option JsonValue) : Prop := ∀ v ∈ payload, v.doc ≠ .null

/-- No payload of the message is null. -/
def JsonRpcMessage.Substantial : JsonRpcMessage → Prop
  | .request r => Anyclaw.Substantial r.params
  | .response r =>
      Anyclaw.Substantial r.result ∧ ∀ e ∈ r.error, Anyclaw.Substantial e.data

theorem dropNull_eq_iff {payload : Option JsonValue} :
    dropNull payload = payload ↔ Substantial payload := by
  cases payload with
  | none => simp [dropNull, Substantial]
  | some v => by_cases h : v.doc = .null <;> simp [dropNull, Substantial, h]

theorem JsonRpcMessage.dropNulls_eq_iff {m : JsonRpcMessage} :
    m.dropNulls = m ↔ m.Substantial := by
  cases m with
  | request r =>
      cases r
      simp [dropNulls, JsonRpcMessage.Substantial, dropNull_eq_iff]
  | response r =>
      obtain ⟨_, _, result, error⟩ := r
      cases error with
      | none => simp [dropNulls, JsonRpcMessage.Substantial, dropNull_eq_iff]
      | some e =>
          cases e
          simp [dropNulls, JsonRpcMessage.Substantial, dropNull_eq_iff,
            JsonRpcError.dropNulls]

end Anyclaw
