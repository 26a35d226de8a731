import Anyclaw.Agents.Incoming
import Anyclaw.Sdk.ContentKind
import Anyclaw.Sdk.SessionUpdate

/-!
# Two parsers of one wire format

The agents manager reads the parameters of `session/update` into a typed event and forwards
the raw parameters, which the channels classify by hand.  An update that the typed event
refuses is dropped, and the channel is sent an error result in its place, also when the
channel could have shown it.

The manager's side is `handle_session_update` of `crates/anyclaw-agents/src/incoming.rs`, with
the derived reader of `SessionUpdateEvent` (`crates/anyclaw-sdk-types/src/acp.rs`); the
channels' side is `ContentKind::from_content` (`channel.rs` there).

* `forwarded_iff_wellTyped`: an update that the channels can classify is forwarded exactly
  when its fields have the types that the event wants.
-/

namespace Anyclaw

open Json (Reads)

/-- The message that the parameters of `session/update` make.  `error` is the text of the
    deserialization error. -/
def updateMessage (params : JsonValue) (replay : Bool) (error : String) : IncomingMessage :=
  match readSessionUpdateEvent params.doc with
  | some event => .sessionUpdate ⟨event.sessionId, event.update.kind, replay⟩
  | none => .malformedUpdate ((params.doc.get? "sessionId").bind Json.asStr) error

def AgentsManager.handleSessionUpdate {n : Nat} (m : AgentsManager n) (s : Fin n)
    (params : JsonValue) (replay : Bool) (error : String) : AgentsManager n :=
  m.handleIncoming s (updateMessage params replay error)

/-- The update is forwarded as an update, for the session that it names. -/
def Forwarded (params : JsonValue) (sessionId : AcpSessionId) : Prop :=
  ∃ kind, ∀ (replay : Bool) (error : String),
    updateMessage params replay error = .sessionUpdate ⟨sessionId, kind, replay⟩ ∧
      ∀ {n : Nat} (m : AgentsManager n) (s : Fin n),
        m.handleSessionUpdate s params replay error =
          m.forwardSessionUpdate s ⟨sessionId, kind, replay⟩

def WellTypedUpdate (params : JsonValue) : Prop :=
  ∃ fields name, params.doc.get? "update" = some (.object fields) ∧
    fields.lookup "sessionUpdate" = some (.string name) ∧
      WellTyped (fun k => fields.lookup k) name

variable {params : JsonValue} {sessionId : AcpSessionId}

/-- The parameters are an event when their update is. -/
theorem readSessionUpdateEvent_eq {update : Json}
    (hsession : params.doc.get? "sessionId" = some (.string sessionId))
    (hupdate : params.doc.get? "update" = some update) :
    readSessionUpdateEvent params.doc =
      (readUpdate update).map fun u => ⟨sessionId, u⟩ := by
  obtain ⟨doc, hnormal⟩ := params
  cases doc with
  | object fields =>
      have hs : fields.lookup "sessionId" = some (.string sessionId) := hsession
      have hu : fields.lookup "update" = some update := hupdate
      have hentries : ∀ k, Json.entries k fields = (fields.lookup k).toList := fun _ =>
        Json.entries_of_normal hnormal
      rw [readSessionUpdateEvent, Json.readStruct_object (by simp [hentries])]
      simp only [hentries, hs, hu]
      cases hread : readUpdate update <;> simp [hread, Json.readString]
  | _ => cases hsession

theorem forwarded_iff {update : Json}
    (hsession : params.doc.get? "sessionId" = some (.string sessionId))
    (hupdate : params.doc.get? "update" = some update) :
    Forwarded params sessionId ↔ Reads readUpdate update := by
  have hevent := readSessionUpdateEvent_eq hsession hupdate
  constructor
  · rintro ⟨kind, h⟩
    have hmessage := (h false "").1
    unfold updateMessage at hmessage
    rw [hevent] at hmessage
    cases hread : readUpdate update with
    | none => simp [hread] at hmessage
    | some u => simp [Reads, hread]
  · intro hread
    obtain ⟨u, hu⟩ := Option.isSome_iff_exists.mp hread
    refine ⟨u.kind, fun replay error => ?_⟩
    have hmessage : updateMessage params replay error =
        .sessionUpdate ⟨sessionId, u.kind, replay⟩ := by
      unfold updateMessage
      rw [hevent, hu]
      rfl
    refine ⟨hmessage, fun m s => ?_⟩
    rw [AgentsManager.handleSessionUpdate, hmessage]
    rfl

/-- **An update that the channels can classify is forwarded as an update exactly when it is
    well typed.** -/
theorem forwarded_iff_wellTyped (params : JsonValue) (sessionId : AcpSessionId)
    (hsession : params.doc.get? "sessionId" = some (.string sessionId))
    (hkind : ContentKind.fromContent params.doc ≠ .unknown) :
    Forwarded params sessionId ↔ WellTypedUpdate params := by
  obtain ⟨fields, name, hupdate, hname⟩ := ContentKind.object_of_fromContent hkind
  have hnormal : Json.NormalFields fields := by
    obtain ⟨doc, hnormal⟩ := params
    cases doc with
    | object outer => exact normal_of_lookup hnormal _ hupdate
    | _ => cases hupdate
  rw [forwarded_iff hsession hupdate, reads_update_iff hnormal hname]
  constructor
  · intro htyped
    exact ⟨fields, name, hupdate, hname, htyped⟩
  · rintro ⟨fields', name', hupdate', hname', htyped⟩
    cases hupdate.symm.trans hupdate'
    cases hname.symm.trans hname'
    exact htyped

/-! ### Sample updates -/

namespace Sample

def chunkParams (content : Json) : JsonValue :=
  .ofDoc (.object [("sessionId", .string "s"), ("update", .object [
    ("sessionUpdate", .string "agent_message_chunk"), ("content", content)])])

def textPart : Json := .object [("type", .string "text"), ("text", .string "hello")]

end Sample

/-- A chunk with a text part. -/
theorem forwarded_iff_wellTyped_text : Forwarded (Sample.chunkParams Sample.textPart) "s" := by
  refine (forwarded_iff_wellTyped _ "s" (by decide) (by decide)).mpr ?_
  refine ⟨[("content", .object [("text", .string "hello"), ("type", .string "text")]),
    ("sessionUpdate", .string "agent_message_chunk")], "agent_message_chunk", by decide,
    by decide, ?_, trivial⟩
  exact ⟨.string "text", "text", by decide, .inl ⟨rfl, by decide⟩, "hello", rfl⟩

/-- A chunk whose content is a plain string: the channels show it, the agents manager
    drops it and sends an error result. -/
theorem plain_text_refused :
    ContentKind.fromContent (Sample.chunkParams (.string "hello")).doc =
        .messageChunk "hello" ∧
      ¬ Forwarded (Sample.chunkParams (.string "hello")) "s" ∧
      ∀ replay error, updateMessage (Sample.chunkParams (.string "hello")) replay error =
        .malformedUpdate (some "s") error := by
  have hrefused : ∀ replay error,
      updateMessage (Sample.chunkParams (.string "hello")) replay error =
        .malformedUpdate (some "s") error := fun _ _ => rfl
  refine ⟨by decide, ?_, hrefused⟩
  rintro ⟨kind, h⟩
  have hmessage := (h false "").1
  rw [hrefused] at hmessage
  cases hmessage

end Anyclaw
