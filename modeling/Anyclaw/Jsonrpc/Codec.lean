import Anyclaw.Jsonrpc.Types
import Anyclaw.Library.Delimited

/-!
# The line codec

Messages travel one to a line.  The decoder takes lines off a buffer until one of them is
read as a message; it skips empty lines and lines that are no message, and gives up on a
line, or on an unfinished line, that is longer than the limit.

The text format itself is a parameter (`SerdeJson`): how a document is printed and what is
parsed from a line.  Statements about it name what they need of it, for the documents they
speak about.

The source is `crates/anyclaw-jsonrpc/src/codec.rs`.

* `decodeAll_encoded`: the encodings of messages, one after the other, are decoded into the
  messages without their null payloads, and nothing is left over.
* `decodeAll_encoded_iff`: they are decoded into the messages themselves exactly when no
  payload is null.
-/

namespace Anyclaw

/-! ### The text format -/

/-- The text format of documents: `serde_json`. -/
structure SerdeJson where
  toBytes : Json → List UInt8
  fromSlice : List UInt8 → Option Json

def newline : UInt8 := 10

def carriageReturn : UInt8 := 13

def closingBrace : UInt8 := 125

/-- The text of an object is parsed back; it stands on one line and ends with its closing
    brace. -/
structure SerdeJson.Faithful (serde : SerdeJson) (j : Json) : Prop where
  parses : serde.fromSlice (serde.toBytes j) = some j
  oneLine : newline ∉ serde.toBytes j
  closed : (serde.toBytes j).getLast? = some closingBrace

/-! ### The codec -/

def maxLineSize : Nat := 32 * 1024 * 1024

namespace NdJsonCodec

variable (serde : SerdeJson)

def encode (m : JsonRpcMessage) : List UInt8 := serde.toBytes m.toJson ++ [newline]

/-- A line without the carriage return at its end. -/
def trim (line : List UInt8) : List UInt8 :=
  if line.getLast? = some carriageReturn then line.dropLast else line

/-- What a line gives: a message, nothing, or the error that ends the stream. -/
def decodeLine (trimmed : List UInt8) : Except String (Option JsonRpcMessage) :=
  if trimmed = [] then .ok none
  else if trimmed.length > maxLineSize then
    .error s!"line of {trimmed.length} bytes exceeds {maxLineSize} byte limit"
  else .ok ((serde.fromSlice trimmed).bind readJsonRpcMessage)

theorem length_lt_of_dropWhile {b : UInt8} {src rest : List UInt8}
    (h : src.dropWhile (· != newline) = b :: rest) : rest.length < src.length := by
  have hle : (src.dropWhile (· != newline)).length ≤ src.length :=
    (List.dropWhile_sublist _).length_le
  rw [h] at hle
  exact hle

/-- Take lines off the buffer until one gives a message. -/
def decode (src : List UInt8) : Except String (Option JsonRpcMessage) × List UInt8 :=
  match _h : src.dropWhile (· != newline) with
  | [] =>
      if src.length > maxLineSize then
        (.error s!"accumulated {src.length} bytes without newline, exceeds {maxLineSize} byte limit",
          src)
      else (.ok none, src)
  | _ :: rest =>
      match decodeLine serde (trim (src.takeWhile (· != newline))) with
      | .error e => (.error e, rest)
      | .ok (some m) => (.ok (some m), rest)
      | .ok none => decode rest
termination_by src.length
decreasing_by exact length_lt_of_dropWhile _h

/-! ### One line at a time -/

variable {serde}

/-- The first line of a buffer gives its message, or is skipped, or ends the stream. -/
theorem decode_line {line rest : List UInt8} (h : newline ∉ line) :
    decode serde (line ++ newline :: rest) =
      match decodeLine serde (trim line) with
      | .error e => (.error e, rest)
      | .ok (some m) => (.ok (some m), rest)
      | .ok none => decode serde rest := by
  rw [decode]
  split
  · rename_i hdrop
    rw [Delimited.dropWhile_join h] at hdrop
    cases hdrop
  · rename_i hdrop
    rw [Delimited.dropWhile_join h] at hdrop
    cases hdrop
    rw [Delimited.takeWhile_join h]

theorem decode_nil : decode serde [] = (.ok none, []) := by
  rw [decode]
  simp [maxLineSize]

/-- A message takes at least the end of its line off the buffer. -/
theorem decode_shorter {m : JsonRpcMessage} {src rest : List UInt8}
    (h : decode serde src = (.ok (some m), rest)) : rest.length < src.length := by
  induction hn : src.length using Nat.strong_induction_on generalizing src with
  | _ n ih =>
      rw [decode] at h
      split at h
      · split at h <;> simp at h
      · rename_i hdrop
        have hlt := length_lt_of_dropWhile hdrop
        split at h
        · simp at h
        · cases h
          omega
        · have hrest := ih _ (by omega) h rfl
          omega

/-! ### The whole stream -/

variable (serde)

/-- Decode until nothing more can be taken off the buffer: the messages, how the decoding
    ended, and what is left. -/
def decodeAll (src : List UInt8) : List JsonRpcMessage × Except String Unit × List UInt8 :=
  match _h : decode serde src with
  | (.ok (some m), rest) =>
      let (ms, last) := decodeAll rest
      (m :: ms, last)
  | (.ok none, rest) => ([], .ok (), rest)
  | (.error e, rest) => ([], .error e, rest)
termination_by src.length
decreasing_by exact decode_shorter _h

variable {serde}

theorem decodeAll_of_message {m : JsonRpcMessage} {src rest : List UInt8}
    (h : decode serde src = (.ok (some m), rest)) :
    decodeAll serde src = (m :: (decodeAll serde rest).1, (decodeAll serde rest).2) := by
  rw [decodeAll]
  split <;> rename_i hdecode <;> rw [h] at hdecode <;> cases hdecode
  rfl

theorem decodeAll_nil : decodeAll serde [] = ([], .ok (), []) := by
  rw [decodeAll]
  split <;> rename_i hdecode <;> rw [decode_nil] at hdecode <;> cases hdecode
  rfl

theorem trim_of_closed {line : List UInt8} (h : line.getLast? = some closingBrace) :
    trim line = line := by
  have hne : line.getLast? ≠ some carriageReturn := by simp [h, closingBrace, carriageReturn]
  exact if_neg hne

/-- A message that is written and fits the limit is read without its null payloads. -/
theorem decode_encode {m : JsonRpcMessage} {rest : List UInt8}
    (hserde : serde.Faithful m.toJson) (hfits : (serde.toBytes m.toJson).length ≤ maxLineSize) :
    decode serde (encode serde m ++ rest) = (.ok (some m.dropNulls), rest) := by
  have hne : serde.toBytes m.toJson ≠ [] := by
    intro hnil
    have hclosed := hserde.closed
    simp [hnil] at hclosed
  have hline : decodeLine serde (trim (serde.toBytes m.toJson)) = .ok (some m.dropNulls) := by
    rw [trim_of_closed hserde.closed, decodeLine, if_neg hne, if_neg (not_lt.mpr hfits),
      hserde.parses]
    exact congrArg Except.ok (readJsonRpcMessage_toJson m)
  have hsplit : encode serde m ++ rest = serde.toBytes m.toJson ++ newline :: rest := by
    simp [encode]
  rw [hsplit, decode_line hserde.oneLine, hline]

/-- **The encodings of messages are decoded into the messages without their null payloads.** -/
theorem decodeAll_encoded {ms : List JsonRpcMessage} (hserde : ∀ m ∈ ms, serde.Faithful m.toJson)
    (hfits : ∀ m ∈ ms, (serde.toBytes m.toJson).length ≤ maxLineSize) :
    decodeAll serde (ms.flatMap (encode serde)) =
      (ms.map JsonRpcMessage.dropNulls, .ok (), []) := by
  induction ms with
  | nil => exact decodeAll_nil
  | cons m ms ih =>
      have hrest := ih (fun m' h => hserde m' (by simp [h])) (fun m' h => hfits m' (by simp [h]))
      have hfirst : decode serde (encode serde m ++ ms.flatMap (encode serde)) =
          (.ok (some m.dropNulls), ms.flatMap (encode serde)) :=
        decode_encode (hserde m (by simp)) (hfits m (by simp))
      rw [List.flatMap_cons, decodeAll_of_message hfirst, hrest]
      rfl

/-- **The encodings of messages are decoded into these messages exactly when no payload of
    theirs is null.** -/
theorem decodeAll_encoded_iff (serde : SerdeJson) (ms : List JsonRpcMessage)
    (hserde : ∀ m ∈ ms, serde.Faithful m.toJson)
    (hfits : ∀ m ∈ ms, (serde.toBytes m.toJson).length ≤ maxLineSize) :
    decodeAll serde (ms.flatMap (encode serde)) = (ms, .ok (), []) ↔
      ∀ m ∈ ms, m.Substantial := by
  rw [decodeAll_encoded hserde hfits, Prod.mk.injEq, and_iff_left rfl]
  have hmap : ms.map JsonRpcMessage.dropNulls = ms ↔ ∀ m ∈ ms, m.dropNulls = m := by
    simpa using List.map_inj_left (f := JsonRpcMessage.dropNulls) (g := id) (l := ms)
  rw [hmap]
  constructor
  · intro hsame m hm
    exact JsonRpcMessage.dropNulls_eq_iff.mp (hsame m hm)
  · intro hsubstantial m hm
    exact JsonRpcMessage.dropNulls_eq_iff.mpr (hsubstantial m hm)

end NdJsonCodec

/-! ### Sample messages -/

namespace Sample

def bytes (text : String) : List UInt8 := text.toList.map fun c => c.toNat.toUInt8

def serde (table : List (Json × String)) : SerdeJson where
  toBytes j := bytes ((table.lookup j).getD "")
  fromSlice line := (table.find? fun e => bytes e.2 = line).map Prod.fst

def nullResult : JsonRpcMessage := .response (.success (some (.number 1)) .null)

def nullResultText : String :=
  "\x7b\"jsonrpc\":\"2.0\",\"id\":1,\"result\":null\x7d"

def ping : JsonRpcMessage := .request (.new "ping" none none)

def pingText : String := "\x7b\"jsonrpc\":\"2.0\",\"method\":\"ping\"\x7d"

def messages : SerdeJson := serde [(nullResult.toJson, nullResultText), (ping.toJson, pingText)]

theorem messages_faithful :
    messages.Faithful nullResult.toJson ∧ messages.Faithful ping.toJson := by
  refine ⟨⟨?_, ?_, ?_⟩, ⟨?_, ?_, ?_⟩⟩ <;> decide

end Sample

/-- Two notifications. -/
theorem decodeAll_encoded_iff_ping :
    NdJsonCodec.decodeAll Sample.messages
        ([Sample.ping, Sample.ping].flatMap (NdJsonCodec.encode Sample.messages)) =
      ([Sample.ping, Sample.ping], .ok (), []) := by
  have hfaithful : ∀ m ∈ [Sample.ping, Sample.ping], Sample.messages.Faithful m.toJson := by
    intro m hm
    obtain rfl | rfl : m = Sample.ping ∨ m = Sample.ping := by simpa using hm
    all_goals exact Sample.messages_faithful.2
  refine (NdJsonCodec.decodeAll_encoded_iff Sample.messages _ hfaithful ?_).mpr ?_
  · intro m hm
    obtain rfl | rfl : m = Sample.ping ∨ m = Sample.ping := by simpa using hm
    all_goals decide
  · intro m hm
    obtain rfl | rfl : m = Sample.ping ∨ m = Sample.ping := by simpa using hm
    all_goals exact nofun

/-- A result that is null is written and is not read back: what is decoded is a response
    with neither a result nor an error. -/
theorem nullResult_not_decoded :
    Sample.nullResult = .response (.success (some (.number 1)) .null) ∧
      Sample.messages.Faithful Sample.nullResult.toJson ∧
      (Sample.messages.toBytes Sample.nullResult.toJson).length ≤ maxLineSize ∧
      NdJsonCodec.decodeAll Sample.messages
          ([Sample.nullResult].flatMap (NdJsonCodec.encode Sample.messages)) ≠
        ([Sample.nullResult], .ok (), []) := by
  have hfaithful : ∀ m ∈ [Sample.nullResult], Sample.messages.Faithful m.toJson := by
    intro m hm
    rw [List.mem_singleton.mp hm]
    exact Sample.messages_faithful.1
  have hfits : ∀ m ∈ [Sample.nullResult],
      (Sample.messages.toBytes m.toJson).length ≤ maxLineSize := by
    intro m hm
    rw [List.mem_singleton.mp hm]
    decide
  refine ⟨rfl, Sample.messages_faithful.1, hfits _ (by simp), ?_⟩
  rw [NdJsonCodec.decodeAll_encoded hfaithful hfits]
  decide

end Anyclaw
