import Anyclaw.Jsonrpc.Connection

/-!
# What the decoder accepts

The two forms of a message are told apart by which of them can be read, and every field of a
response but the version may be missing.  This file derives, form by form, which documents
are read as requests and which as responses, and compares them with what a request and a
response are.

The forms are the variants of the untagged enum `JsonRpcMessage`
(`crates/anyclaw-jsonrpc/src/types.rs`), which `decode` (`codec.rs`) tries in their order.

* `readsRequest_iff`, `readsResponse_iff`: the documents that are read as one and the other.
* `acceptsExactly_iff`: a line is accepted as it should be exactly when it is not one of the
  lines that are misread.
-/

namespace Anyclaw

open Json (entries Reads)

/-! ### What is read as a request or a response -/

/-- A request id, or null. -/
def IsId (j : Json) : Prop :=
  j = .null ∨ (∃ n, j = .number n ∧ n.asInt64.isSome) ∨ ∃ s, j = .string s

/-- An error object, or an array of its fields. -/
def IsError : Json → Prop
  | .object fields =>
      (∃ n, entries "code" fields = [.number n] ∧ n.asInt64.isSome) ∧
        (∃ s, entries "message" fields = [.string s]) ∧ (entries "data" fields).length ≤ 1
  | .array [code, message, _] =>
      (∃ n, code = .number n ∧ n.asInt64.isSome) ∧ ∃ s, message = .string s
  | _ => False

/-- The fields that a request and a response have in common. -/
structure HeaderFields (fields : List (String × Json)) : Prop where
  jsonrpc : ∃ s, entries "jsonrpc" fields = [.string s]
  id : entries "id" fields = [] ∨ ∃ j, entries "id" fields = [j] ∧ IsId j

/-- One method, which is a string, and at most one value of parameters. -/
structure CallFields (fields : List (String × Json)) : Prop where
  method : ∃ s, entries "method" fields = [.string s]
  params : (entries "params" fields).length ≤ 1

/-- At most one result and at most one error. -/
structure OutcomeFields (fields : List (String × Json)) : Prop where
  result : (entries "result" fields).length ≤ 1
  error : entries "error" fields = [] ∨
    ∃ j, entries "error" fields = [j] ∧ (j = .null ∨ IsError j)

def ReadsAsRequest : Json → Prop
  | .object fields => HeaderFields fields ∧ CallFields fields
  | .array [jsonrpc, id, method, _] =>
      (∃ s, jsonrpc = .string s) ∧ IsId id ∧ ∃ s, method = .string s
  | _ => False

def ReadsAsResponse : Json → Prop
  | .object fields => HeaderFields fields ∧ OutcomeFields fields
  | .array [jsonrpc, id, _, error] =>
      (∃ s, jsonrpc = .string s) ∧ IsId id ∧ (error = .null ∨ IsError error)
  | _ => False

theorem reads_requestId {j : Json} :
    Reads readRequestId j ↔
      (∃ n, j = .number n ∧ n.asInt64.isSome) ∨ ∃ s, j = .string s := by
  cases j <;> simp [Reads, readRequestId, Json.readInt64, Json.readString]

theorem readsOptional_id_iff {fields : List (String × Json)}
    (h : (entries "id" fields).length ≤ 1) :
    Json.ReadsOptional readRequestId (.ofKey (entries "id" fields).head?) ↔
      entries "id" fields = [] ∨ ∃ j, entries "id" fields = [j] ∧ IsId j := by
  simp only [Json.readsOptional_ofKey_iff h, reads_requestId, IsId]

theorem required_string_iff {k : String} {fields : List (String × Json)}
    (h : (entries k fields).length ≤ 1) :
    ((Json.Found.ofKey (entries k fields).head?).required Json.readString).isSome ↔
      ∃ s, entries k fields = [.string s] := by
  simp only [Json.required_isSome, Json.given_ofKey_iff h, Json.reads_string]
  constructor
  · rintro ⟨_, hentries, s, rfl⟩
    exact ⟨s, hentries⟩
  · rintro ⟨s, hentries⟩
    exact ⟨_, hentries, s, rfl⟩

theorem required_int64_iff {k : String} {fields : List (String × Json)}
    (h : (entries k fields).length ≤ 1) :
    ((Json.Found.ofKey (entries k fields).head?).required Json.readInt64).isSome ↔
      ∃ n, entries k fields = [.number n] ∧ n.asInt64.isSome := by
  simp only [Json.required_isSome, Json.given_ofKey_iff h, Json.reads_int64]
  constructor
  · rintro ⟨_, hentries, n, rfl, hn⟩
    exact ⟨n, hentries, hn⟩
  · rintro ⟨n, hentries, hn⟩
    exact ⟨_, hentries, n, rfl, hn⟩

theorem length_le_one_of_eq {α : Type} {p : α → Prop} {l : List α} (h : ∃ a, l = [a] ∧ p a) :
    l.length ≤ 1 := by
  obtain ⟨a, rfl, -⟩ := h
  exact le_refl 1

theorem length_le_one_of_nil_or {α : Type} {p : α → Prop} {l : List α}
    (h : l = [] ∨ ∃ a, l = [a] ∧ p a) : l.length ≤ 1 := by
  rcases h with rfl | h
  · exact Nat.zero_le 1
  · exact length_le_one_of_eq h

theorem JsonRpcError.ofFields_isSome {field : String → Json.Found} :
    (JsonRpcError.ofFields field).isSome ↔
      ((field "code").required Json.readInt64).isSome ∧
        ((field "message").required Json.readString).isSome ∧
          ((field "data").optional Json.readValue).isSome :=
  Json.isSome_bind_iff fun _ => Json.isSome_bind_iff fun _ => Json.isSome_bind_pure

theorem readsError_iff {j : Json} : Reads readJsonRpcError j ↔ IsError j := by
  cases j with
  | object fields =>
      rw [readJsonRpcError, Json.reads_struct_object, JsonRpcError.ofFields_isSome]
      constructor
      · rintro ⟨hlength, hcode, hmessage, -⟩
        have hcode' := (required_int64_iff (hlength "code" (by simp))).mp hcode
        have hmessage' := (required_string_iff (hlength "message" (by simp))).mp hmessage
        exact ⟨hcode', hmessage', hlength "data" (by simp)⟩
      · rintro ⟨⟨n, hn⟩, ⟨s, hs⟩, hdata⟩
        have hcode : (entries "code" fields).length ≤ 1 := by simp [hn.1]
        have hmessage : (entries "message" fields).length ≤ 1 := by simp [hs]
        exact ⟨by simp [hcode, hmessage, hdata], (required_int64_iff hcode).mpr ⟨n, hn⟩,
          (required_string_iff hmessage).mpr ⟨s, hs⟩, Json.optional_value_isSome _⟩
  | array items =>
      rw [readJsonRpcError, Json.reads_struct_array, JsonRpcError.ofFields_isSome]
      rcases items with _ | ⟨code, _ | ⟨message, _ | ⟨data, _ | _⟩⟩⟩
      · simp [IsError]
      · simp [IsError, List.lookup_cons]
      · simp [IsError, List.lookup_cons]
      · have hcode : code.readInt64.isSome ↔ _ := Json.reads_int64
        have hmessage : message.readString.isSome ↔ _ := Json.reads_string
        simp [IsError, List.lookup_cons, hcode, hmessage, Json.reads_option_value data]
      · simp [IsError]
  | null => simp [readJsonRpcError, IsError]
  | bool b => simp [readJsonRpcError, IsError]
  | number n => simp [readJsonRpcError, IsError]
  | string s => simp [readJsonRpcError, IsError]

theorem JsonRpcRequest.ofFields_isSome {field : String → Json.Found} :
    (JsonRpcRequest.ofFields field).isSome ↔
      ((field "jsonrpc").required Json.readString).isSome ∧
        ((field "id").optional readRequestId).isSome ∧
          ((field "method").required Json.readString).isSome ∧
            ((field "params").optional Json.readValue).isSome :=
  Json.isSome_bind_iff fun _ => Json.isSome_bind_iff fun _ => Json.isSome_bind_iff fun _ =>
    Json.isSome_bind_pure

theorem JsonRpcResponse.ofFields_isSome {field : String → Json.Found} :
    (JsonRpcResponse.ofFields field).isSome ↔
      ((field "jsonrpc").required Json.readString).isSome ∧
        ((field "id").optional readRequestId).isSome ∧
          ((field "result").optional Json.readValue).isSome ∧
            ((field "error").optional readJsonRpcError).isSome :=
  Json.isSome_bind_iff fun _ => Json.isSome_bind_iff fun _ => Json.isSome_bind_iff fun _ =>
    Json.isSome_bind_pure

theorem HeaderFields.lengths {fields : List (String × Json)} (h : HeaderFields fields) :
    (entries "jsonrpc" fields).length ≤ 1 ∧ (entries "id" fields).length ≤ 1 := by
  obtain ⟨s, hs⟩ := h.jsonrpc
  exact ⟨by simp [hs], length_le_one_of_nil_or h.id⟩

theorem readsId_option {j : Json} : (Json.readOption readRequestId j).isSome ↔ IsId j := by
  have hread : (Json.readOption readRequestId j).isSome ↔ j = .null ∨ Reads readRequestId j :=
    Json.reads_option
  rw [hread, reads_requestId, IsId]

theorem readsError_option {j : Json} :
    (Json.readOption readJsonRpcError j).isSome ↔ j = .null ∨ IsError j := by
  have hread : (Json.readOption readJsonRpcError j).isSome ↔
      j = .null ∨ Reads readJsonRpcError j := Json.reads_option
  rw [hread, readsError_iff]

/-- **The documents that are read as requests.** -/
theorem readsRequest_iff {j : Json} : Reads readJsonRpcRequest j ↔ ReadsAsRequest j := by
  cases j with
  | object fields =>
      rw [readJsonRpcRequest, Json.reads_struct_object, JsonRpcRequest.ofFields_isSome,
        Json.optional_isSome]
      constructor
      · rintro ⟨hlength, hversion, hid, hmethod, -⟩
        have hversion' := (required_string_iff (hlength "jsonrpc" (by simp))).mp hversion
        have hid' := (readsOptional_id_iff (hlength "id" (by simp))).mp hid
        have hmethod' := (required_string_iff (hlength "method" (by simp))).mp hmethod
        exact ⟨⟨hversion', hid'⟩, ⟨hmethod', hlength "params" (by simp)⟩⟩
      · rintro ⟨hheader, hcall⟩
        obtain ⟨hversion, hid⟩ := hheader.lengths
        obtain ⟨s, hs⟩ := hcall.method
        have hmethod : (entries "method" fields).length ≤ 1 := by simp [hs]
        exact ⟨by simp [hversion, hid, hmethod, hcall.params],
          (required_string_iff hversion).mpr hheader.jsonrpc,
          (readsOptional_id_iff hid).mpr hheader.id,
          (required_string_iff hmethod).mpr hcall.method, Json.optional_value_isSome _⟩
  | array items =>
      rw [readJsonRpcRequest, Json.reads_struct_array, JsonRpcRequest.ofFields_isSome]
      rcases items with _ | ⟨version, _ | ⟨id, _ | ⟨method, _ | ⟨params, _ | _⟩⟩⟩⟩
      · simp [ReadsAsRequest]
      · simp [ReadsAsRequest, List.lookup_cons]
      · simp [ReadsAsRequest, List.lookup_cons]
      · simp [ReadsAsRequest, List.lookup_cons]
      · have hversion : version.readString.isSome ↔ _ := Json.reads_string
        have hmethod : method.readString.isSome ↔ _ := Json.reads_string
        simp [ReadsAsRequest, List.lookup_cons, hversion, hmethod, readsId_option,
          Json.reads_option_value params]
      · simp [ReadsAsRequest]
  | null => simp [readJsonRpcRequest, ReadsAsRequest]
  | bool b => simp [readJsonRpcRequest, ReadsAsRequest]
  | number n => simp [readJsonRpcRequest, ReadsAsRequest]
  | string s => simp [readJsonRpcRequest, ReadsAsRequest]

/-- **The documents that can be read as responses.** -/
theorem readsResponse_iff {j : Json} : Reads readJsonRpcResponse j ↔ ReadsAsResponse j := by
  cases j with
  | object fields =>
      rw [readJsonRpcResponse, Json.reads_struct_object, JsonRpcResponse.ofFields_isSome,
        Json.optional_isSome, Json.optional_isSome (r := readJsonRpcError)]
      constructor
      · rintro ⟨hlength, hversion, hid, -, herror⟩
        have hversion' := (required_string_iff (hlength "jsonrpc" (by simp))).mp hversion
        have hid' := (readsOptional_id_iff (hlength "id" (by simp))).mp hid
        rw [Json.readsOptional_ofKey_iff (hlength "error" (by simp))] at herror
        simp only [readsError_iff] at herror
        exact ⟨⟨hversion', hid'⟩, ⟨hlength "result" (by simp), herror⟩⟩
      · rintro ⟨hheader, houtcome⟩
        obtain ⟨hversion, hid⟩ := hheader.lengths
        have herror : (entries "error" fields).length ≤ 1 :=
          length_le_one_of_nil_or houtcome.error
        refine ⟨by simp [hversion, hid, houtcome.result, herror],
          (required_string_iff hversion).mpr hheader.jsonrpc,
          (readsOptional_id_iff hid).mpr hheader.id, Json.optional_value_isSome _, ?_⟩
        rw [Json.readsOptional_ofKey_iff herror]
        simpa only [readsError_iff] using houtcome.error
  | array items =>
      rw [readJsonRpcResponse, Json.reads_struct_array, JsonRpcResponse.ofFields_isSome]
      rcases items with _ | ⟨version, _ | ⟨id, _ | ⟨result, _ | ⟨error, _ | _⟩⟩⟩⟩
      · simp [ReadsAsResponse]
      · simp [ReadsAsResponse, List.lookup_cons]
      · simp [ReadsAsResponse, List.lookup_cons]
      · simp [ReadsAsResponse, List.lookup_cons]
      · have hversion : version.readString.isSome ↔ _ := Json.reads_string
        simp [ReadsAsResponse, List.lookup_cons, hversion, readsId_option, readsError_option,
          Json.reads_option_value result]
      · simp [ReadsAsResponse]
  | null => simp [readJsonRpcResponse, ReadsAsResponse]
  | bool b => simp [readJsonRpcResponse, ReadsAsResponse]
  | number n => simp [readJsonRpcResponse, ReadsAsResponse]
  | string s => simp [readJsonRpcResponse, ReadsAsResponse]

theorem readsAs_request_iff {j : Json} :
    (∃ r, readJsonRpcMessage j = some (.request r)) ↔ ReadsAsRequest j := by
  rw [← readsRequest_iff]
  cases hrequest : readJsonRpcRequest j with
  | none =>
      cases hresponse : readJsonRpcResponse j <;>
        simp [readJsonRpcMessage, Reads, hrequest, hresponse]
  | some r => simp [readJsonRpcMessage, Reads, hrequest]

theorem readsAs_response_iff {j : Json} :
    (∃ r, readJsonRpcMessage j = some (.response r)) ↔
      ¬ ReadsAsRequest j ∧ ReadsAsResponse j := by
  rw [← readsRequest_iff, ← readsResponse_iff]
  cases hrequest : readJsonRpcRequest j with
  | none =>
      cases hresponse : readJsonRpcResponse j <;>
        simp [readJsonRpcMessage, Reads, hrequest, hresponse]
  | some r => simp [readJsonRpcMessage, Reads, hrequest]

/-! ### What should be read -/

/-- An object with a string method. -/
def IsRequest (j : Json) : Prop :=
  ∃ fields s, j = .object fields ∧ .string s ∈ entries "method" fields

/-- An object with a result or an error, and no method. -/
def IsResponse (j : Json) : Prop :=
  ∃ fields, j = .object fields ∧
    (entries "result" fields ≠ [] ∨ entries "error" fields ≠ []) ∧
      entries "method" fields = []

/-- Documents that are read as something that they are not: objects that would be responses
    if they had a result or an error, or are responses but for a method that is no request,
    and arrays of four elements that fit the fields. -/
def Misread : Json → Prop
  | .object fields =>
      HeaderFields fields ∧ OutcomeFields fields ∧
        (entries "method" fields = [] ∧ entries "result" fields = [] ∧
            entries "error" fields = [] ∨
          entries "method" fields ≠ [] ∧ ¬ CallFields fields)
  | .array items => ReadsAsRequest (.array items) ∨ ReadsAsResponse (.array items)
  | _ => False

theorem isRequest_object {fields : List (String × Json)} (h : CallFields fields) :
    IsRequest (.object fields) := by
  obtain ⟨s, hs⟩ := h.method
  exact ⟨fields, s, rfl, by simp [hs]⟩

theorem isResponse_object {fields : List (String × Json)} :
    IsResponse (.object fields) ↔
      (entries "result" fields ≠ [] ∨ entries "error" fields ≠ []) ∧
        entries "method" fields = [] := by
  constructor
  · rintro ⟨_, ⟨⟩, h⟩
    exact h
  · intro h
    exact ⟨fields, rfl, h⟩

theorem not_misread_request {j : Json} (h : ¬ Misread j) (hread : ReadsAsRequest j) :
    IsRequest j := by
  cases j with
  | object fields => exact isRequest_object hread.2
  | array items => exact absurd (.inl hread) h
  | null => exact hread.elim
  | bool _ => exact hread.elim
  | number _ => exact hread.elim
  | string _ => exact hread.elim

theorem not_misread_response {j : Json} (h : ¬ Misread j) (hother : ¬ ReadsAsRequest j)
    (hread : ReadsAsResponse j) : IsResponse j := by
  cases j with
  | object fields =>
      rw [isResponse_object]
      have hcall : ¬ CallFields fields := fun hcall => hother ⟨hread.1, hcall⟩
      have hmethod : entries "method" fields = [] := by
        by_contra hmethod
        exact h ⟨hread.1, hread.2, .inr ⟨hmethod, hcall⟩⟩
      refine ⟨?_, hmethod⟩
      by_contra hnone
      push Not at hnone
      exact h ⟨hread.1, hread.2, .inl ⟨hmethod, hnone⟩⟩
  | array items => exact absurd (.inr hread) h
  | null => exact hread.elim
  | bool _ => exact hread.elim
  | number _ => exact hread.elim
  | string _ => exact hread.elim

/-- A misread document is read, and not as what it is. -/
theorem Misread.wrong {j : Json} (h : Misread j) :
    ReadsAsRequest j ∧ ¬ IsRequest j ∨
      (¬ ReadsAsRequest j ∧ ReadsAsResponse j) ∧ ¬ IsResponse j := by
  cases j with
  | object fields =>
      obtain ⟨hheader, houtcome, hwrong⟩ := h
      have hother : ¬ CallFields fields := by
        rcases hwrong with ⟨hmethod, -⟩ | ⟨-, hcall⟩
        · rintro ⟨⟨s, hs⟩, -⟩
          rw [hmethod] at hs
          cases hs
        · exact hcall
      refine .inr ⟨⟨fun hread => hother hread.2, hheader, houtcome⟩, ?_⟩
      rw [isResponse_object]
      rintro ⟨hpayload, hmethod⟩
      rcases hwrong with ⟨-, hresult, herror⟩ | ⟨hmethod', -⟩
      · exact hpayload.elim (absurd hresult) (absurd herror)
      · exact hmethod' hmethod
  | array items =>
      by_cases hread : ReadsAsRequest (.array items)
      · exact .inl ⟨hread, fun ⟨_, _, hobject, _⟩ => nomatch hobject⟩
      · have hresponse := h.resolve_left hread
        exact .inr ⟨⟨hread, hresponse⟩, fun ⟨_, hobject, _⟩ => nomatch hobject⟩
  | null => exact h.elim
  | bool _ => exact h.elim
  | number _ => exact h.elim
  | string _ => exact h.elim

/-! ### Lines -/

/-- A line of the input, without its end. -/
structure Line where
  bytes : List UInt8
  whole : newline ∉ bytes

namespace Line

variable (serde : SerdeJson) (line : Line)

def text : List UInt8 := NdJsonCodec.trim line.bytes

def document : Option Json := serde.fromSlice line.text

/-- The decoder takes the message off a buffer that begins with the line. -/
def Yields (m : JsonRpcMessage) : Prop :=
  ∀ rest, NdJsonCodec.decode serde (line.bytes ++ newline :: rest) = (.ok (some m), rest)

/-- The decoder goes on with the next line. -/
def Skipped : Prop :=
  ∀ rest, NdJsonCodec.decode serde (line.bytes ++ newline :: rest) =
    NdJsonCodec.decode serde rest

end Line

def Connection.receiveLine (serde : SerdeJson) (line : Line) (c : Connection) : Connection :=
  match NdJsonCodec.decodeLine serde line.text with
  | .ok (some (.response r)) => (c.handlePendingResponse r).record r
  | _ => c

/-- A line gives a request or a response only if it is one, and is skipped otherwise; what
    is no response leaves the pending requests of a connection alone. -/
structure AcceptsExactly (serde : SerdeJson) (line : Line) : Prop where
  request : ∀ r, line.Yields serde (.request r) → ∃ j ∈ line.document serde, IsRequest j
  response : ∀ r, line.Yields serde (.response r) → ∃ j ∈ line.document serde, IsResponse j
  skipped : (∀ j ∈ line.document serde, ¬ IsRequest j ∧ ¬ IsResponse j) → line.Skipped serde
  pending : (∀ j ∈ line.document serde, ¬ IsResponse j) →
    ∀ c : Connection, c.receiveLine serde line = c

/-- The line is empty, or it is within the limit and not misread, or it is too long and
    is a request or a response. -/
def ReadRight (serde : SerdeJson) (line : Line) : Prop :=
  line.text = [] ∨
    (line.text.length ≤ maxLineSize ∧ ∀ j ∈ line.document serde, ¬ Misread j) ∨
      (maxLineSize < line.text.length ∧ ∃ j ∈ line.document serde, IsRequest j ∨ IsResponse j)

variable {serde : SerdeJson} {line : Line}

theorem decode_of_error {e : String} (h : NdJsonCodec.decodeLine serde line.text = .error e)
    (rest : List UInt8) :
    NdJsonCodec.decode serde (line.bytes ++ newline :: rest) = (.error e, rest) := by
  rw [Line.text] at h
  rw [NdJsonCodec.decode_line line.whole, h]

theorem decode_of_message {m : JsonRpcMessage}
    (h : NdJsonCodec.decodeLine serde line.text = .ok (some m)) : line.Yields serde m := by
  intro rest
  rw [Line.text] at h
  rw [NdJsonCodec.decode_line line.whole, h]

theorem decode_of_nothing (h : NdJsonCodec.decodeLine serde line.text = .ok none) :
    line.Skipped serde := by
  intro rest
  rw [Line.text] at h
  rw [NdJsonCodec.decode_line line.whole, h]

theorem yields_iff {m : JsonRpcMessage} :
    line.Yields serde m ↔ NdJsonCodec.decodeLine serde line.text = .ok (some m) := by
  refine ⟨fun h => ?_, decode_of_message⟩
  have hline := h []
  cases hdecode : NdJsonCodec.decodeLine serde line.text with
  | error e =>
      rw [decode_of_error hdecode] at hline
      cases hline
  | ok out =>
      cases out with
      | none =>
          rw [decode_of_nothing hdecode, NdJsonCodec.decode_nil] at hline
          cases hline
      | some m' =>
          rw [decode_of_message hdecode] at hline
          cases hline
          rfl

theorem skipped_iff :
    line.Skipped serde ↔ NdJsonCodec.decodeLine serde line.text = .ok none := by
  refine ⟨fun h => ?_, decode_of_nothing⟩
  have hline := h []
  rw [NdJsonCodec.decode_nil] at hline
  cases hdecode : NdJsonCodec.decodeLine serde line.text with
  | error e =>
      rw [decode_of_error hdecode] at hline
      cases hline
  | ok out =>
      cases out with
      | none => rfl
      | some m =>
          rw [decode_of_message hdecode] at hline
          cases hline

/-- What a line that is not empty and fits the limit gives. -/
theorem decodeLine_of_fits (hne : line.text ≠ []) (hfits : line.text.length ≤ maxLineSize) :
    NdJsonCodec.decodeLine serde line.text =
      .ok ((line.document serde).bind readJsonRpcMessage) := by
  rw [NdJsonCodec.decodeLine, if_neg hne, if_neg (not_lt.mpr hfits)]
  rfl

/-- Only a line that fits the limit gives a message. -/
theorem document_of_message {m : JsonRpcMessage}
    (h : NdJsonCodec.decodeLine serde line.text = .ok (some m)) :
    line.text ≠ [] ∧ line.text.length ≤ maxLineSize ∧
      ∃ j ∈ line.document serde, readJsonRpcMessage j = some m := by
  unfold NdJsonCodec.decodeLine at h
  split at h
  · cases h
  · rename_i hne
    split at h
    · cases h
    · rename_i hfits
      obtain ⟨j, hj, hread⟩ := Option.bind_eq_some_iff.mp (Except.ok.inj h)
      exact ⟨hne, not_lt.mp hfits, j, hj, hread⟩

theorem skipped_of_empty (h : line.text = []) :
    NdJsonCodec.decodeLine serde line.text = .ok none := by
  rw [NdJsonCodec.decodeLine, if_pos h]

/-- **A line that is not misread is accepted as it should be.** -/
theorem acceptsExactly_of_readRight (h : ReadRight serde line) : AcceptsExactly serde line := by
  -- Only a line of the second kind gives a message, which is then what it is read as.
  have hright : ∀ {m}, NdJsonCodec.decodeLine serde line.text = .ok (some m) →
      ∃ j ∈ line.document serde, ¬ Misread j ∧ readJsonRpcMessage j = some m := by
    intro m hm
    obtain ⟨hne, hfits, j, hj, hread⟩ := document_of_message hm
    rcases h with hnil | ⟨-, hmisread⟩ | ⟨hlong, -⟩
    · exact absurd hnil hne
    · exact ⟨j, hj, hmisread j hj, hread⟩
    · exact absurd hlong (not_lt.mpr hfits)
  have hresponse : ∀ r, NdJsonCodec.decodeLine serde line.text = .ok (some (.response r)) →
      ∃ j ∈ line.document serde, IsResponse j := by
    intro r hr
    obtain ⟨j, hj, hmisread, hread⟩ := hright hr
    obtain ⟨hother, hreads⟩ := readsAs_response_iff.mp ⟨r, hread⟩
    exact ⟨j, hj, not_misread_response hmisread hother hreads⟩
  constructor
  · intro r hr
    obtain ⟨j, hj, hmisread, hread⟩ := hright (yields_iff.mp hr)
    exact ⟨j, hj, not_misread_request hmisread (readsAs_request_iff.mp ⟨r, hread⟩)⟩
  · intro r hr
    exact hresponse r (yields_iff.mp hr)
  · intro hneither
    rw [skipped_iff]
    by_cases hne : line.text = []
    · exact skipped_of_empty hne
    · rcases h with hnil | ⟨hfits, hmisread⟩ | ⟨-, j, hj, hkind⟩
      · exact absurd hnil hne
      · rw [decodeLine_of_fits hne hfits]
        cases hdocument : line.document serde with
        | none => rfl
        | some j =>
            have hj : j ∈ line.document serde := hdocument
            obtain ⟨hrequest, hresponse⟩ := hneither j hj
            rw [Option.bind_some]
            cases hread : readJsonRpcMessage j with
            | none => rfl
            | some m =>
                cases m with
                | request r =>
                    have hreads := readsAs_request_iff.mp ⟨r, hread⟩
                    exact absurd (not_misread_request (hmisread j hj) hreads) hrequest
                | response r =>
                    obtain ⟨hother, hreads⟩ := readsAs_response_iff.mp ⟨r, hread⟩
                    exact absurd (not_misread_response (hmisread j hj) hother hreads) hresponse
      · exact absurd hkind (not_or.mpr (hneither j hj))
  · intro hno c
    unfold Connection.receiveLine
    split
    · rename_i r hdecode
      obtain ⟨j, hj, hkind⟩ := hresponse r hdecode
      exact absurd hkind (hno j hj)
    · rfl

/-- **A line is accepted as it should be exactly when it is not misread**: a request or a
    response is too long, or a line within the limit is not one of the misread documents. -/
theorem acceptsExactly_iff (serde : SerdeJson) (line : Line) :
    AcceptsExactly serde line ↔ ReadRight serde line := by
  refine ⟨fun h => ?_, acceptsExactly_of_readRight⟩
  by_cases hne : line.text = []
  · exact .inl hne
  by_cases hfits : line.text.length ≤ maxLineSize
  · refine .inr (.inl ⟨hfits, fun j hj hmisread => ?_⟩)
    have hdecode : NdJsonCodec.decodeLine serde line.text = .ok (readJsonRpcMessage j) := by
      have hdocument : line.document serde = some j := hj
      rw [decodeLine_of_fits hne hfits, hdocument, Option.bind_some]
    rcases hmisread.wrong with ⟨hreads, hwrong⟩ | ⟨hreads, hwrong⟩
    · obtain ⟨r, hread⟩ := readsAs_request_iff.mpr hreads
      rw [hread] at hdecode
      obtain ⟨j', hj', hkind⟩ := h.request r (yields_iff.mpr hdecode)
      cases hj.symm.trans hj'
      exact hwrong hkind
    · obtain ⟨r, hread⟩ := readsAs_response_iff.mpr hreads
      rw [hread] at hdecode
      obtain ⟨j', hj', hkind⟩ := h.response r (yields_iff.mpr hdecode)
      cases hj.symm.trans hj'
      exact hwrong hkind
  · refine .inr (.inr ⟨not_le.mp hfits, ?_⟩)
    by_contra hnone
    push Not at hnone
    have hskip := skipped_iff.mp (h.skipped hnone)
    rw [NdJsonCodec.decodeLine, if_neg hne, if_pos (not_le.mp hfits)] at hskip
    cases hskip

/-! ### A sample line -/

namespace Sample

/-- A bare object with an id. -/
def bareId : Json := .object [("jsonrpc", .string "2.0"), ("id", .number (.ofInt64 1))]

def bareIdText : String := "\x7b\"jsonrpc\":\"2.0\",\"id\":1\x7d"

def bareIdLine : Line := ⟨bytes bareIdText, by decide⟩

end Sample

/-- A bare object with an id is read as a response and takes the request with this id out of
    the table. -/
theorem bareId_misread : ∃ serde line, line.document serde = some Sample.bareId ∧
    ¬ IsResponse Sample.bareId ∧ ¬ AcceptsExactly serde line ∧
    ∃ c, Connection.life.Reachable c ∧ c.pendingRequests.contains 1 = true ∧
      (Connection.receiveLine serde line c).pendingRequests.contains 1 = false ∧
      (Connection.receiveLine serde line c).resolved = [⟨0, 0⟩] := by
  let serde := Sample.serde [(Sample.bareId, Sample.bareIdText)]
  have hdocument : Sample.bareIdLine.document serde = some Sample.bareId := by decide
  have hkind : ¬ IsResponse Sample.bareId := by
    rw [Sample.bareId, isResponse_object]
    simp
  have hs : ((Connection.life.run (fun _ _ => True) Connection.spawned
      [.number, .enter 0, .send 0]).any
      fun c => c.pendingRequests.contains 1 = true ∧
        (Connection.receiveLine serde Sample.bareIdLine c).pendingRequests.contains 1 = false ∧
        (Connection.receiveLine serde Sample.bareIdLine c).resolved = [⟨0, 0⟩]) = true := by
    decide
  obtain ⟨c, hrun, hc⟩ := (Option.any_eq_true _ _).mp hs
  obtain ⟨hpending, hgone, hresolved⟩ := of_decide_eq_true hc
  refine ⟨serde, Sample.bareIdLine, hdocument, hkind, fun hexact => ?_, c,
    Machine.reachable_of_run _ rfl hrun, hpending, hgone, hresolved⟩
  have hsame : Connection.receiveLine serde Sample.bareIdLine c = c := by
    refine hexact.pending (fun j hj => ?_) c
    cases hdocument.symm.trans hj
    exact hkind
  rw [hsame, hpending] at hgone
  cases hgone

end Anyclaw
