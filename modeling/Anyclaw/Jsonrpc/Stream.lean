import Anyclaw.Jsonrpc.Chunking

/-!
# The stream of a writer

A writer encodes its messages one after the other.  Its reader receives the bytes in chunks,
and at any time only a first part of them.

Both ends use the codec of `crates/anyclaw-jsonrpc/src/codec.rs`.

* `decodeChunks_of_isPrefix`: the reader has decoded the messages whose lines have come
  whole.
-/

namespace Anyclaw

namespace NdJsonCodec

variable {serde : SerdeJson} {ms : List JsonRpcMessage} {src : List UInt8}

/-- A message that is read back and fits the limit of the decoder. -/
structure Travels (serde : SerdeJson) (m : JsonRpcMessage) : Prop where
  faithful : serde.Faithful m.toJson
  fits : (serde.toBytes m.toJson).length ≤ maxLineSize

theorem flatMap_encode_cons (serde : SerdeJson) (m : JsonRpcMessage) (ms : List JsonRpcMessage) :
    (m :: ms).flatMap (encode serde) =
      serde.toBytes m.toJson ++ newline :: ms.flatMap (encode serde) := by
  simp [encode]

/-- The lines of encoded messages are the messages. -/
theorem lines_encoded (h : ∀ m ∈ ms, newline ∉ serde.toBytes m.toJson) :
    lines (ms.flatMap (encode serde)) = (ms.map fun m => serde.toBytes m.toJson, []) := by
  induction ms with
  | nil => rfl
  | cons m ms ih =>
      have hrest := ih fun m' hm' => h m' (List.mem_cons_of_mem m hm')
      rw [flatMap_encode_cons, lines_line (h m List.mem_cons_self), hrest]
      rfl

/-- The lines of a first part are those of the first messages, and what is left is shorter
    than a line. -/
theorem lines_of_isPrefix {n : Nat} (hline : ∀ m ∈ ms, newline ∉ serde.toBytes m.toJson)
    (hfits : ∀ m ∈ ms, (serde.toBytes m.toJson).length ≤ n)
    (h : src <+: ms.flatMap (encode serde)) :
    ∃ come later, ms = come ++ later ∧
      (lines src).1 = (come.map fun m => serde.toBytes m.toJson) ∧ (lines src).2.length ≤ n := by
  induction ms generalizing src with
  | nil =>
      have hnil : src = [] := List.prefix_nil.mp h
      exact ⟨[], [], rfl, by simp [hnil, lines], by simp [hnil, lines]⟩
  | cons m ms ih =>
      have hfirst := hline m List.mem_cons_self
      rw [flatMap_encode_cons, List.append_cons] at h
      by_cases hshort : src.length ≤ (serde.toBytes m.toJson).length
      · -- the first line has not come whole
        have hpart : src <+: serde.toBytes m.toJson := by
          apply List.prefix_of_prefix_length_le h _ hshort
          rw [List.append_assoc]
          exact List.prefix_append _ _
        have hunfinished : newline ∉ src := fun hmem => hfirst (hpart.subset hmem)
        rw [lines_of_not_mem hunfinished]
        exact ⟨[], m :: ms, rfl, rfl, hshort.trans (hfits m List.mem_cons_self)⟩
      · have hwhole : serde.toBytes m.toJson ++ [newline] <+: src := by
          apply List.prefix_of_prefix_length_le (List.prefix_append _ _) h
          simp
          omega
        obtain ⟨rest, rfl⟩ := hwhole
        have hrest : rest <+: ms.flatMap (encode serde) :=
          (List.prefix_append_right_inj _).mp h
        obtain ⟨come, later, hms, hlines, hlength⟩ :=
          ih (fun m' hm' => hline m' (List.mem_cons_of_mem m hm'))
            (fun m' hm' => hfits m' (List.mem_cons_of_mem m hm')) hrest
        rw [← List.append_cons, lines_line hfirst]
        exact ⟨m :: come, later, by simp [hms], by simp [hlines], hlength⟩

/-! ### Decoding -/

/-- The line of a message that travels gives the message. -/
theorem lineMessage_of_travels {m : JsonRpcMessage} (h : Travels serde m) :
    ¬TooLong (serde.toBytes m.toJson) ∧
      lineMessage serde (serde.toBytes m.toJson) = some m.dropNulls := by
  have hne : serde.toBytes m.toJson ≠ [] := by
    intro hnil
    have hclosed := h.faithful.closed
    simp [hnil] at hclosed
  have htrim := trim_of_closed h.faithful.closed
  refine ⟨by simpa [TooLong, htrim] using h.fits, ?_⟩
  rw [lineMessage, htrim, if_neg hne, h.faithful.parses]
  exact readJsonRpcMessage_toJson m

theorem decoded_of_isPrefix (h : ∀ m ∈ ms, Travels serde m)
    (hsrc : src <+: ms.flatMap (encode serde)) :
    ∃ come later, ms = come ++ later ∧
      (lines src).1 = (come.map fun m => serde.toBytes m.toJson) ∧
      decoded serde src = (come.map JsonRpcMessage.dropNulls, .ok ()) := by
  obtain ⟨come, later, rfl, hlines, hlength⟩ :=
    lines_of_isPrefix (fun m hm => (h m hm).faithful.oneLine) (fun m hm => (h m hm).fits) hsrc
  refine ⟨come, later, rfl, hlines, ?_⟩
  have hcome : ∀ m ∈ come, Travels serde m := fun m hm => h m (List.mem_append_left later hm)
  have hshort : ∀ line ∈ (lines src).1, ¬TooLong line := by
    rw [hlines]
    intro line hline
    obtain ⟨m, hm, rfl⟩ := List.mem_map.mp hline
    exact (lineMessage_of_travels (hcome m hm)).1
  have hmessages : messages serde (lines src).1 = come.map JsonRpcMessage.dropNulls := by
    rw [hlines, messages, List.filterMap_map, ← List.filterMap_eq_map]
    exact List.filterMap_congr fun m hm => (lineMessage_of_travels (hcome m hm)).2
  rw [(decoded_eq src).1, readLines_within hshort, hmessages, readLines,
    if_neg (not_lt.mpr hlength)]
  simp [Decoded.after]

/-- **The messages that have come are decoded.**  However a first part of the stream is cut
    into chunks, the reader has decoded the messages whose lines have come whole, and finds
    no error. -/
theorem decodeChunks_of_isPrefix {chunks : List (List UInt8)} (h : ∀ m ∈ ms, Travels serde m)
    (hchunks : chunks.flatten <+: ms.flatMap (encode serde)) :
    ∃ come later, ms = come ++ later ∧
      (lines chunks.flatten).1 = (come.map fun m => serde.toBytes m.toJson) ∧
      decodeChunks serde [] chunks = (come.map JsonRpcMessage.dropNulls, .ok ()) ∧
      (chunks.flatten = ms.flatMap (encode serde) → later = []) := by
  obtain ⟨come, later, hms, hlines, hdecoded⟩ := decoded_of_isPrefix h hchunks
  have hsame : decodeChunks serde [] chunks = decoded serde chunks.flatten := by
    refine (decodeChunks_eq_iff serde chunks).mpr fun before rest hsplit hover => ?_
    -- an unfinished line never exceeds the limit, since its message fits
    have hbefore : before.flatten <+: ms.flatMap (encode serde) := by
      refine List.IsPrefix.trans ?_ hchunks
      simp [hsplit]
    obtain ⟨-, -, -, -, hlength⟩ :=
      lines_of_isPrefix (fun m hm => (h m hm).faithful.oneLine) (fun m hm => (h m hm).fits) hbefore
    exact absurd hover.exceeds (not_lt.mpr hlength)
  refine ⟨come, later, hms, hlines, hsame.trans hdecoded, fun hwhole => ?_⟩
  have hall : lines (ms.flatMap (encode serde)) = (ms.map fun m => serde.toBytes m.toJson, []) :=
    lines_encoded fun m hm => (h m hm).faithful.oneLine
  rw [hwhole, hall] at hlines
  have hlength := congrArg List.length hlines
  rw [hms] at hlength
  simpa using hlength

end NdJsonCodec

/-! ### Sample lines -/

namespace Sample

/-- The text of one object: a line within the limit that its closing brace ends. -/
def oneObject (line : List UInt8) : Bool :=
  line.all (· != newline) && (line.getLast? = some closingBrace && line.length ≤ maxLineSize)

theorem travels_of_oneObject {m : JsonRpcMessage} {text : String}
    (h : oneObject (bytes text) = true) :
    NdJsonCodec.Travels (serde [(m.toJson, text)]) m := by
  have htext : (serde [(m.toJson, text)]).toBytes m.toJson = bytes text := by simp [serde]
  obtain ⟨hall, hlast, hlength⟩ : (∀ b ∈ bytes text, b ≠ newline) ∧
      (bytes text).getLast? = some closingBrace ∧ (bytes text).length ≤ maxLineSize := by
    simpa [oneObject] using h
  refine ⟨⟨?_, ?_, ?_⟩, ?_⟩ <;> rw [htext]
  · simp [serde]
  · exact fun hmem => hall newline hmem rfl
  · exact hlast
  · exact hlength

end Sample

end Anyclaw
