import Anyclaw.Channels.Emissions
import Anyclaw.Channels.Permissions
import Anyclaw.Channels.Retries

/-!
# Sessions are announced before they are used

A channel process learns of a session by `channel/sessionCreated`, once, when the session is
created.  The routing table outlives the process: a channel that has come back from a crash is
sent deliveries for sessions that only its predecessor heard of.  A session that could not be
created is reported under the empty id, which nobody announces.

A writer task that has refused a message has ended and refuses every later one, so an
announcement that gets lost is followed by nothing.  The history of the run shows which
announcements were refused.

`channel/sessionCreated` is sent by `ensure_session_created`
(`crates/anyclaw-channels/src/manager.rs`), deliveries by `handle_deliver_message`, and the
process is replaced by `handle_channel_crash`.
-/

namespace Anyclaw

variable {c : Nat}

/-- The session id that a delivery or a permission request carries. -/
def ToChannel.sessionUsed : ToChannel → Option AcpSessionId
  | .deliverMessage id _ => some id
  | .requestPermission _ id _ _ => some id
  | _ => none

namespace ChannelOutput

def receiver : ChannelOutput c → Option Nat
  | .written _ no _ => some no
  | _ => none

/-- The process that is sent a delivery or a permission request, with the session id. -/
def uses : ChannelOutput c → Option (Nat × AcpSessionId)
  | .written _ no message => message.sessionUsed.map (no, ·)
  | _ => none

/-- The process that a session is announced to, with the session id. -/
def announces : ChannelOutput c → Option (Nat × AcpSessionId)
  | .written _ no (.sessionCreated id _) => some (no, id)
  | _ => none

theorem receiver_of_uses {o : ChannelOutput c} {use : Nat × AcpSessionId}
    (h : o.uses = some use) : o.receiver = some use.1 := by
  cases o with
  | written s no message =>
      obtain ⟨id, -, rfl⟩ := Option.map_eq_some_iff.mp h
      rfl
  | spawned s no => cases h
  | command cmd => cases h

end ChannelOutput

/-- Every delivery and every permission request carries a session id that was announced to
    the same process before. -/
def Announced (written : List (ChannelOutput c)) : Prop :=
  ∀ i o use, written[i]? = some o → o.uses = some use →
    ∃ o' ∈ written.take i, o'.announces = some use

def AgentsReply.fails {α : Type} : AgentsReply α → Bool
  | .failed _ | .dropped => true
  | _ => false

def AgentsReply.replies {α : Type} : AgentsReply α → Bool
  | .replied _ => true
  | _ => false

namespace ChannelsManager

variable (cfg : ChannelsManagerConfig c) (ch : ChannelsManager c)

/-- A session is asked for on behalf of the message. -/
def asksSession (message : ChannelSendMessage) (a : ChannelAnswers) : Bool :=
  a.admitted.isSome && ch.agentsHandle && !ch.routingTable.contains (buildSessionKey message)

/-- The process whose writer task refuses the announcement of a session that the step
    creates. -/
def refusedBy (l : ChannelsLabel c) : Option Nat :=
  match l, ch.streamed l with
  | .recvStream s a, some (.sendMessage message) =>
      if ch.asksSession message a && a.created.replies && !a.firstSent then
        (ch.slots s).connection.map fun conn => conn.no
      else none
  | _, _ => none

/-- The processes whose writer tasks accept a message in the step. -/
def acceptedBy (l : ChannelsLabel c) : List Nat :=
  (step cfg ch l).elim [] fun ch' =>
    (ch'.trace.drop ch.trace.length).filterMap ChannelOutput.receiver

/-- A writer task that has refused an announcement accepts nothing after it. -/
def WritersStayClosed
    (x : List (Machine.Taken (ChannelsManager c) (ChannelsLabel c)) × ChannelsManager c)
    (l : ChannelsLabel c) : Prop :=
  ∀ no ∈ acceptedBy cfg x.2 l,
    x.2.refusedBy l ≠ some no ∧ ∀ t ∈ x.1, t.before.refusedBy t.label ≠ some no

instance : DecidableRel (WritersStayClosed cfg) := fun x l =>
  inferInstanceAs (Decidable (∀ no ∈ acceptedBy cfg x.2 l, _ ∧ ∀ t ∈ x.1, _))

/-- A channel that comes back from a crash has no session in the routing table, and the error
    of a session creation is not written to the channel. -/
def AnnouncesAnew (l : ChannelsLabel c) : Prop :=
  match l with
  | .recvStream s a =>
      (ch.Crashes s → ch.Restarts s a → a.spawned = true ∧ a.initialized = true →
        ∀ entry ∈ ch.routingTable.values, entry.slotIndex ≠ s) ∧
      match ch.streamed l with
      | some (.sendMessage message) =>
          ch.asksSession message a = true → a.created.fails = true → a.firstSent = false
      | _ => True
  | _ => True

instance (l : ChannelsLabel c) : Decidable (AnnouncesAnew ch l) := by
  unfold AnnouncesAnew
  induction l using ChannelsLabel.casesOn with
  | recvStream s a =>
      refine @instDecidableAnd _ _ inferInstance ?_
      generalize ch.streamed _ = message
      induction message using Option.casesOn with
      | none => infer_instance
      | some message => induction message using ChannelMessage.casesOn <;> infer_instance
  | _ =>
      dsimp only
      infer_instance

variable {cfg ch} {ch' : ChannelsManager c} {R R' : Nat → Prop}

/-! ### Handlers and the sessions that their processes know -/

/-- The sessions used were announced, but for the processes in `R`. -/
def AnnouncedUnless (R : Nat → Prop) (written : List (ChannelOutput c)) : Prop :=
  ∀ i o use, written[i]? = some o → o.uses = some use →
    R use.1 ∨ ∃ o' ∈ written.take i, o'.announces = some use

theorem AnnouncedUnless.append {written : List (ChannelOutput c)} {o : ChannelOutput c}
    (h : AnnouncedUnless R written)
    (ho : ∀ use, o.uses = some use → R use.1 ∨ ∃ o' ∈ written, o'.announces = some use) :
    AnnouncedUnless R (written ++ [o]) := by
  intro i o' use hi huse
  rcases Nat.lt_or_ge i written.length with hlt | hge
  · rw [List.getElem?_append_left hlt] at hi
    rw [List.take_append_of_le_length (Nat.le_of_lt hlt)]
    exact h i o' use hi huse
  · rw [List.getElem?_append_right hge] at hi
    rw [List.getElem?_singleton] at hi
    obtain ⟨hzero, heq⟩ := Option.ite_none_right_eq_some.mp hi
    have hlength : i = written.length := by omega
    rw [hlength, List.take_left]
    cases heq
    exact ho use huse

/-- What the processes have been told, but for those in `R`: of the sessions used, and of
    the sessions that the routing table sends to them. -/
structure Told (R : Nat → Prop) (ch : ChannelsManager c) : Prop where
  used : AnnouncedUnless R ch.trace
  routed : ∀ k entry conn, ch.routingTable.get? k = some entry →
    (ch.slots entry.slotIndex).connection = some conn →
    R conn.no ∨ ∃ o ∈ ch.trace, o.announces = some (conn.no, entry.acpSessionId)

structure Tells (R : Nat → Prop) (ch ch' : ChannelsManager c) : Prop where
  trace : ch.trace <+: ch'.trace
  told : Told R ch → Told R ch'

theorem Tells.refl (ch : ChannelsManager c) : Tells R ch ch := ⟨List.prefix_refl _, id⟩

theorem Tells.trans {ch'' : ChannelsManager c} (h : Tells R ch ch') (h' : Tells R ch' ch'') :
    Tells R ch ch'' :=
  ⟨h.trace.trans h'.trace, fun htold => h'.told (h.told htold)⟩

/-- The routing table, the connections and what was written are as before. -/
theorem Tells.of_eq (htrace : ch'.trace = ch.trace) (htable : ch'.routingTable = ch.routingTable)
    (hconn : ∀ s conn, (ch'.slots s).connection = some conn →
      (ch.slots s).connection = some conn) : Tells R ch ch' := by
  refine ⟨by rw [htrace], fun htold => ⟨?_, ?_⟩⟩
  · rw [htrace]
    exact htold.used
  · intro k entry conn hget hsome
    rw [htable] at hget
    rw [htrace]
    exact htold.routed k entry conn hget (hconn _ _ hsome)

theorem emit_tells (ch : ChannelsManager c) {o : ChannelOutput c}
    (ho : ∀ use, o.uses = some use → Told R ch →
      R use.1 ∨ ∃ o' ∈ ch.trace, o'.announces = some use) : Tells R ch (ch.emit o) := by
  refine ⟨List.prefix_append _ _, fun htold => ⟨?_, ?_⟩⟩
  · exact htold.used.append fun use huse => ho use huse htold
  · intro k entry conn hget hsome
    refine (htold.routed k entry conn hget hsome).imp_right ?_
    rintro ⟨o', hmem, hannounces⟩
    exact ⟨o', List.mem_append_left _ hmem, hannounces⟩

theorem write_tells (ch : ChannelsManager c) (s : Fin c) (accepted : Bool)
    {message : ToChannel} (h : message.sessionUsed = none) :
    Tells R ch (ch.write s accepted message) := by
  unfold write
  split
  · split
    · refine emit_tells ch ?_
      intro use huse
      simp [ChannelOutput.uses, h] at huse
    · exact .refl ch
  · exact .refl ch

/-- A session of the routing table is used with the process that the table sends it to. -/
theorem writeEntry_tells (ch : ChannelsManager c) {k : SessionKey} {entry : RoutingEntry c}
    (accepted : Bool) {message : ToChannel} (hget : ch.routingTable.get? k = some entry)
    (h : message.sessionUsed = some entry.acpSessionId) :
    Tells R ch (ch.write entry.slotIndex accepted message) := by
  unfold write
  split
  · rename_i conn hconn
    split
    · refine emit_tells ch ?_
      intro use huse htold
      simp only [ChannelOutput.uses, h, Option.map_some, Option.some.injEq] at huse
      subst huse
      exact htold.routed k entry conn hget hconn
    · exact .refl ch
  · exact .refl ch

theorem write_refused (ch : ChannelsManager c) (s : Fin c) {accepted : Bool}
    (message : ToChannel) (h : accepted = false) : ch.write s accepted message = ch := by
  unfold write
  split
  · rw [h]
    rfl
  · rfl

theorem handleDeliverMessage_tells (ch : ChannelsManager c) (k : SessionKey)
    (content : Delivered) (a : ChannelAnswers) :
    Tells R ch (ch.handleDeliverMessage k content a) := by
  unfold handleDeliverMessage
  split
  · exact .refl ch
  · rename_i entry hget
    dsimp only
    split
    · exact writeEntry_tells ch _ hget rfl
    · have hacked : Tells R ch { ch with ackedSessions := insert k ch.ackedSessions } :=
        .of_eq rfl rfl fun _ _ h => h
      have hstarted : ToChannel.sessionUsed (.responseStarted entry.acpSessionId) = none := rfl
      refine (hacked.trans (write_tells _ entry.slotIndex a.firstSent hstarted)).trans ?_
      refine writeEntry_tells (k := k) _ _ ?_ rfl
      rw [write_routingTable]
      exact hget

theorem handleDispatchStarted_tells (ch : ChannelsManager c) (k : SessionKey)
    (a : ChannelAnswers) : Tells R ch (handleDispatchStarted cfg ch k a) := by
  have hacked : Tells R ch { ch with ackedSessions := ch.ackedSessions.erase k } :=
    .of_eq rfl rfl fun _ _ h => h
  unfold handleDispatchStarted
  dsimp only
  split
  · exact hacked
  · exact (hacked.trans (write_tells _ _ _ rfl)).trans (write_tells _ _ _ rfl)

theorem routePermission_tells (ch : ChannelsManager c) (k : SessionKey)
    (requestId description : String) (options : List PermissionOption) (event : Nat)
    (a : ChannelAnswers) :
    Tells R ch (ch.routePermission k requestId description options event a) := by
  unfold routePermission
  split
  · exact .refl ch
  · rename_i entry hget
    split
    · exact .refl ch
    · rename_i conn hconn
      split
      · have hemit : Tells R ch (ch.emit (.written entry.slotIndex conn.no
            (.requestPermission requestId entry.acpSessionId description options))) := by
          refine emit_tells ch ?_
          intro use huse htold
          cases huse
          exact htold.routed k entry conn hget hconn
        dsimp only
        split
        · exact hemit.trans (.of_eq rfl rfl fun _ _ h => h)
        · exact hemit
      · exact .refl ch

/-- The routing table is extended, and the process of the slot is told. -/
theorem announce_tells (ch : ChannelsManager c) (s : Fin c) (k : SessionKey) (id : AcpSessionId)
    (peerInfo : PeerInfo) {accepted : Bool}
    (hrefused : accepted = false → ∀ conn, (ch.slots s).connection = some conn → R conn.no) :
    Tells R ch ({ ch with routingTable := ch.routingTable.set k ⟨id, s⟩ }.write s accepted
      (.sessionCreated id peerInfo)) := by
  have hnew : ∀ (written : List (ChannelOutput c)), ch.trace <+: written → AnnouncedUnless R written →
      (∀ conn, (ch.slots s).connection = some conn →
        R conn.no ∨ ∃ o ∈ written, o.announces = some (conn.no, id)) →
      Told R ch → Told R { ch with routingTable := ch.routingTable.set k ⟨id, s⟩, trace := written } := by
    intro written hprefix hused hs htold
    refine ⟨hused, ?_⟩
    intro k' entry conn hget hconn
    rw [KeyedMap.get?_set] at hget
    split at hget
    · cases hget
      exact hs conn hconn
    · refine (htold.routed k' entry conn hget hconn).imp_right ?_
      rintro ⟨o, hmem, hannounces⟩
      exact ⟨o, hprefix.subset hmem, hannounces⟩
  unfold write
  split
  · rename_i conn hconn
    split
    · refine ⟨List.prefix_append _ _, fun htold => ?_⟩
      refine hnew _ (List.prefix_append _ _) (htold.used.append ?_) ?_ htold
      · intro use huse
        cases huse
      · intro conn' hconn'
        rw [hconn] at hconn'
        cases hconn'
        exact .inr ⟨_, List.mem_append_right _ List.mem_cons_self, rfl⟩
    · rename_i haccepted
      refine ⟨List.prefix_refl _, fun htold => ?_⟩
      refine hnew _ (List.prefix_refl _) htold.used ?_ htold
      intro conn' hconn'
      exact .inl (hrefused (Bool.eq_false_iff.mpr haccepted) conn' hconn')
  · rename_i hconn
    refine ⟨List.prefix_refl _, fun htold => ?_⟩
    refine hnew _ (List.prefix_refl _) htold.used ?_ htold
    intro conn' hconn'
    rw [hconn] at hconn'
    cases hconn'

theorem ensureSessionCreated_tells (ch : ChannelsManager c) (s : Fin c) (k : SessionKey)
    (peerInfo : PeerInfo) {a : ChannelAnswers}
    (hfails : ch.routingTable.contains k = false → a.created.fails = true → a.firstSent = false)
    (hrefused : ch.routingTable.contains k = false → a.created.replies = true →
      a.firstSent = false → ∀ conn, (ch.slots s).connection = some conn → R conn.no) :
    Tells R ch (ensureSessionCreated cfg ch s k peerInfo a).2 := by
  have hasked : Tells R ch (ch.emit (.command (.createSession (cfg.channels s).agent k))) :=
    emit_tells ch fun use huse => nomatch huse
  unfold ensureSessionCreated
  split
  · exact .refl ch
  · rename_i hcontains
    rw [Bool.not_eq_true] at hcontains
    dsimp only
    split
    · exact .refl ch
    · rename_i id hcreated
      refine hasked.trans (announce_tells _ s k id peerInfo ?_)
      exact hrefused hcontains (by rw [hcreated]; rfl)
    · rename_i message hcreated
      rw [write_refused _ _ _ (hfails hcontains (by rw [hcreated]; rfl))]
      exact hasked
    · rename_i hcreated
      rw [write_refused _ _ _ (hfails hcontains (by rw [hcreated]; rfl))]
      exact hasked

theorem enqueueToAgent_tells (ch : ChannelsManager c) (k : SessionKey)
    (content : List ContentPart) (metadata : Option MessageMetadata) (agentName : String)
    (a : ChannelAnswers) : Tells R ch (ch.enqueueToAgent k content metadata agentName a) := by
  have hasked : Tells R ch (ch.emit (.command (.enqueueMessage agentName k content metadata))) :=
    emit_tells ch fun use huse => nomatch huse
  unfold enqueueToAgent
  dsimp only
  split
  · exact .refl ch
  · split
    · rename_i entry hget
      exact hasked.trans (writeEntry_tells _ _ hget rfl)
    · exact hasked
  · exact hasked

theorem collectSendMessage_tells (ch : ChannelsManager c) (s : Fin c)
    (message : ChannelSendMessage) {a : ChannelAnswers}
    (hfails : ch.asksSession message a = true → a.created.fails = true → a.firstSent = false)
    (hrefused : ch.asksSession message a = true → a.created.replies = true →
      a.firstSent = false → ∀ conn, (ch.slots s).connection = some conn → R conn.no) :
    Tells R ch (collectSendMessage cfg ch s message a) := by
  unfold collectSendMessage
  split
  · exact .refl ch
  · rename_i content metadata hadmitted
    dsimp only
    split
    · rename_i hhandle
      have hasks : ch.routingTable.contains (buildSessionKey message) = false →
          ch.asksSession message a = true := by
        intro hcontains
        simp [asksSession, hadmitted, hhandle, hcontains]
      have hensured : Tells R ch (ensureSessionCreated cfg ch s (buildSessionKey message)
          message.peerInfo a).2 :=
        ensureSessionCreated_tells ch s _ _ (fun h => hfails (hasks h)) fun h => hrefused (hasks h)
      split
      · rename_i heq
        rw [heq] at hensured
        exact hensured
      · rename_i heq
        rw [heq] at hensured
        exact hensured.trans (enqueueToAgent_tells _ _ _ _ _ a)
    · exact .refl ch

/-! ### Processes that come and go -/

theorem spawnAndInitialize_tells (ch : ChannelsManager c) (s : Fin c) (a : ChannelAnswers) :
    Tells R ch (ch.spawnAndInitialize s a).2 := by
  unfold spawnAndInitialize
  split
  · have hnumbered : Tells R ch { ch with nextConnection := ch.nextConnection + 1 } :=
      .of_eq rfl rfl fun _ _ h => h
    exact hnumbered.trans (emit_tells _ fun use huse => nomatch huse)
  · exact .refl ch

/-- A slot is given a new process, or none; the routing table sends no session to a new one. -/
theorem setSlot_tells (ch : ChannelsManager c) (s : Fin c) (slot : ChannelSlot)
    (h : slot.connection.isSome → ∀ entry ∈ ch.routingTable.values, entry.slotIndex ≠ s) :
    Tells R ch (ch.setSlot s slot) := by
  refine ⟨List.prefix_refl _, fun htold => ⟨htold.used, ?_⟩⟩
  intro k entry conn hget hconn
  rw [slots_setSlot] at hconn
  split at hconn
  · rename_i hs
    exact absurd hs (h (by rw [hconn]; rfl) entry ((KeyedMap.mem_values _ _).mpr ⟨k, hget⟩))
  · exact htold.routed k entry conn hget hconn

theorem handleChannelCrash_tells (ch : ChannelsManager c) (s : Fin c) {a : ChannelAnswers}
    (h : ch.Restarts s a → a.spawned = true ∧ a.initialized = true →
      ∀ entry ∈ ch.routingTable.values, entry.slotIndex ≠ s) :
    Tells R ch (ch.handleChannelCrash s a) := by
  have hspawn : Tells R ch (ch.spawnAndInitialize s a).2 := spawnAndInitialize_tells ch s a
  have htable := spawnAndInitialize_routingTable ch s a
  have hup := isSome_spawnAndInitialize ch s a
  unfold handleChannelCrash
  split
  · exact setSlot_tells ch s _ fun hsome => nomatch hsome
  · rename_i delay lifecycle haction
    have hrestarts : ch.Restarts s a := by
      unfold Restarts
      rw [haction]
      exact fun hdisabled => nomatch hdisabled
    split
    · rename_i conn ch₁ heq
      rw [heq] at hspawn htable hup
      refine hspawn.trans (setSlot_tells _ s _ fun _ => ?_)
      rw [htable]
      exact h hrestarts (hup.mp rfl)
    · rename_i ch₁ heq
      rw [heq] at hspawn
      exact hspawn.trans (setSlot_tells _ s _ fun hsome => nomatch hsome)

theorem start_tells (ch : ChannelsManager c) (a : Fin c → ChannelAnswers)
    (hempty : ch.routingTable = ∅) : Tells R ch (start cfg ch a) := by
  have hslots : ∀ (ss : List (Fin c)) (ch : ChannelsManager c), ch.routingTable = ∅ →
      Tells R ch (ss.foldl (fun ch s => startChannelSlot cfg ch s (a s)) ch) := by
    intro ss
    induction ss with
    | nil => exact fun ch _ => .refl ch
    | cons s rest ih =>
        intro ch hempty
        have htable : (ch.spawnAndInitialize s (a s)).2.routingTable = ∅ := by
          rw [spawnAndInitialize_routingTable, hempty]
        have hslot : Tells R ch (startChannelSlot cfg ch s (a s)) := by
          refine (spawnAndInitialize_tells ch s (a s)).trans (setSlot_tells _ s _ ?_)
          intro _ entry hmem
          rw [htable] at hmem
          cases hmem
        exact hslot.trans (ih _ htable)
  exact (hslots _ ch hempty).trans (.of_eq rfl rfl fun _ _ h => h)

/-! ### Every step -/

theorem setStream_tells (ch : ChannelsManager c) (s : Fin c) (stream : Option ChannelStream) :
    Tells R ch (ch.setSlot s { ch.slots s with stream := stream }) := by
  refine .of_eq rfl rfl fun s' conn hconn => ?_
  rw [slots_setSlot] at hconn
  split at hconn
  · rename_i hs
    rw [hs]
    exact hconn
  · exact hconn

theorem endWait_tells (ch : ChannelsManager c) (i : Nat) (w : PermissionWait c)
    (optionId : String) : Tells R ch (ch.endWait i w optionId) := by
  have hwaits : Tells R ch { ch with waits := ch.waits.eraseIdx i } :=
    .of_eq rfl rfl fun _ _ h => h
  exact hwaits.trans (emit_tells _ fun use huse => nomatch huse)

theorem shutdown_tells (ch : ChannelsManager c) : Tells R ch ch.shutdown :=
  .of_eq rfl rfl fun _ _ h => nomatch h

theorem collectChannelMessage_tells {s : Fin c} {a : ChannelAnswers} {stream : ChannelStream}
    {message : ChannelMessage} {rest : List ChannelMessage}
    (hstream : (ch.slots s).stream = some stream) (hmessages : stream.messages = message :: rest)
    (hguard : AnnouncesAnew ch (.recvStream s a))
    (hrefused : ∀ no, ch.refusedBy (.recvStream s a) = some no → R no) :
    Tells R ch (collectChannelMessage cfg (ch.setSlot s
      { ch.slots s with stream := some { stream with messages := rest } }) s a message) := by
  have hset : Tells R ch (ch.setSlot s { ch.slots s with
      stream := some { stream with messages := rest } }) := setStream_tells ch s _
  cases message with
  | sendMessage message =>
      have hstreamed : ch.streamed (.recvStream s a) = some (.sendMessage message) := by
        simp only [streamed, hstream, Option.bind_some, hmessages, List.head?_cons]
      have hfails := hguard.2
      rw [hstreamed] at hfails
      refine hset.trans (collectSendMessage_tells _ s message hfails ?_)
      intro hasks hreplies hfirst conn hconn
      rw [slots_setSlot, if_pos rfl] at hconn
      refine hrefused conn.no ?_
      have hasks' : ch.asksSession message a = true := hasks
      have hconn' : (ch.slots s).connection = some conn := hconn
      simp only [refusedBy, hstreamed, hasks', hreplies, hfirst, hconn', Bool.not_false,
        Bool.and_true, if_true, Option.map_some]
  | respondPermission requestId optionId =>
      rw [collectChannelMessage, handleRespondPermission]
      split
      · exact hset.trans (emit_tells _ fun use huse => by cases huse)
      · exact hset
  | unhandled => exact hset

/-- **What a step writes** is announced, as long as there is no routing entry before the
    start. -/
theorem step_tells {l : ChannelsLabel c} (h : step cfg ch l = some ch')
    (hguard : AnnouncesAnew ch l) (hempty : ch.started = false → ch.routingTable = ∅)
    (hrefused : ∀ no, ch.refusedBy l = some no → R no) : Tells R ch ch' := by
  cases turn_of_step h with
  | started hstarted => exact start_tells ch _ (hempty hstarted)
  | queued _ _ => exact setStream_tells ch _ _
  | eof _ _ => exact setStream_tells ch _ _
  | waitEnded _ _ => exact endWait_tells ch _ _ _
  | collected _ hstream hmessages =>
      exact collectChannelMessage_tells hstream hmessages hguard hrefused
  | @crashed s a stream _ hstream hmessages hended =>
      refine handleChannelCrash_tells ch s (hguard.1 ?_)
      obtain ⟨messages, ended⟩ := stream
      cases hmessages
      cases hended
      exact hstream
  | @event event e a _ =>
      cases e with
      | deliverMessage k content => exact handleDeliverMessage_tells ch k content a
      | sessionComplete k stopReason =>
          rw [handleChannelEvent, handleSessionComplete]
          split
          · exact .refl ch
          · exact write_tells ch _ _ rfl
      | routePermission k requestId description options =>
          exact routePermission_tells ch k requestId description options event a
      | ackMessage _ _ _ _ => exact .refl ch
      | dispatchStarted k => exact handleDispatchStarted_tells ch k a
  | @command event command a _ =>
      cases command with
      | deliverToChannel k content =>
          rw [handleCommand]
          split
          · exact .refl ch
          · rename_i entry hget
            exact writeEntry_tells ch _ hget rfl
      | routePermission k requestId description options =>
          exact routePermission_tells ch k requestId description options event a
      | shutdown => exact shutdown_tells ch
  | cancelled _ => exact shutdown_tells ch

theorem step_started {l : ChannelsLabel c} (h : step cfg ch l = some ch')
    (hstarted : ch.started = true) : ch'.started = true := by
  cases turn_of_step h with
  | started hunstarted =>
      rw [hunstarted] at hstarted
      cases hstarted
  | queued _ _ => exact hstarted
  | eof _ _ => exact hstarted
  | waitEnded _ _ => exact hstarted
  | @collected s a _ message _ _ _ _ =>
      rw [(collectChannelMessage_steady cfg _ s a message).started]
      exact hstarted
  | @crashed s a _ _ _ _ _ =>
      rw [(handleChannelCrash_running ch s a).2]
      exact hstarted
  | @event event e a _ =>
      rw [(handleChannelEvent_steady cfg ch event a e).started]
      exact hstarted
  | @command event command a _ =>
      cases command with
      | deliverToChannel k content =>
          rw [handleCommand]
          split
          · exact hstarted
          · rw [(write_steady ch _ _ _).started]
            exact hstarted
      | routePermission k requestId description options =>
          exact (routePermission_steady ch k requestId description options event a).started.trans
            hstarted
      | shutdown => exact hstarted
  | cancelled _ => exact hstarted

/-- Before the start no session is routed. -/
theorem step_unstarted {l : ChannelsLabel c} (h : step cfg ch l = some ch')
    (hstarted : ch'.started = false) : ch.started = false ∧ ch'.routingTable = ch.routingTable := by
  have hbefore : ch.started = false := by
    by_contra hnot
    rw [step_started h (Bool.eq_true_of_not_eq_false hnot)] at hstarted
    cases hstarted
  have hnever : ch.idle ≠ true := by
    rw [idle, hbefore, Bool.false_and]
    exact Bool.false_ne_true
  refine ⟨hbefore, ?_⟩
  cases turn_of_step h with
  | started _ => cases hstarted
  | queued _ _ => rfl
  | eof _ _ => rfl
  | waitEnded _ _ => rfl
  | collected hidle _ _ => exact absurd hidle hnever
  | crashed hidle _ _ _ => exact absurd hidle hnever
  | event hidle => exact absurd hidle hnever
  | command hidle => exact absurd hidle hnever
  | cancelled hidle => exact absurd hidle hnever

/-! ### Runs -/

section Runs

variable {x x' : List (Machine.Taken (ChannelsManager c) (ChannelsLabel c)) × ChannelsManager c}

/-- A writer task of the process has refused an announcement. -/
def HasRefused
    (x : List (Machine.Taken (ChannelsManager c) (ChannelsLabel c)) × ChannelsManager c)
    (no : Nat) : Prop :=
  ∃ t ∈ x.1, t.before.refusedBy t.label = some no

theorem unrouted_of_reachable {G} (h : (life cfg).ReachableUnder G ch) :
    ch.started = false → ch.routingTable = ∅ := by
  refine h.invariant (I := fun ch => ch.started = false → ch.routingTable = ∅) ?_ ?_
  · rintro ch ⟨agentsHandle, rfl⟩ _
    rfl
  · intro ch l ch' _ hI _ hstep hstarted
    obtain ⟨hbefore, htable⟩ := step_unstarted hstep hstarted
    rw [htable]
    exact hI hbefore

/-- What was written to processes that have refused nothing was announced; the others are
    written nothing. -/
theorem announced_of_step {l : ChannelsLabel c} (htells : Tells (HasRefused x') x.2 x'.2)
    (hstep : (life cfg).recorded.step x l = some x') (hclosed : WritersStayClosed cfg x l)
    (hannounced : Announced x.2.trace) (htold : Told (HasRefused x') x'.2) :
    Announced x'.2.trace := by
  obtain ⟨hmoved, hhistory⟩ := Machine.of_recorded_step hstep
  obtain ⟨os, hos⟩ := htells.trace
  have hmoved' : step cfg x.2 l = some x'.2 := hmoved
  intro i o use hi huse
  rcases Nat.lt_or_ge i x.2.trace.length with hlt | hge
  · rw [← hos, List.getElem?_append_left hlt] at hi
    rw [← hos, List.take_append_of_le_length (Nat.le_of_lt hlt)]
    exact hannounced i o use hi huse
  · refine (htold.used i o use hi huse).resolve_left ?_
    rintro ⟨t, hmem, ht⟩
    have haccepted : use.1 ∈ acceptedBy cfg x.2 l := by
      unfold acceptedBy
      rw [hmoved', Option.elim_some, ← hos, List.drop_left]
      rw [← hos, List.getElem?_append_right hge] at hi
      exact List.mem_filterMap.mpr ⟨o, List.mem_of_getElem? hi, ChannelOutput.receiver_of_uses huse⟩
    obtain ⟨hnow, hbefore⟩ := hclosed use.1 haccepted
    rw [hhistory] at hmem
    rcases List.mem_append.mp hmem with hold | hlast
    · exact hbefore t hold ht
    · rw [List.mem_singleton.mp hlast] at ht
      exact hnow ht

/-- **Sessions are announced before use**, in every run in which a channel that comes back
    from a crash has no session in the routing table, and no error of a session creation is
    written to a channel. -/
theorem announced_of_announcesAnew (h : (life cfg).recorded.ReachableUnder
      (fun x l => WritersStayClosed cfg x l ∧ AnnouncesAnew x.2 l) x) : Announced x.2.trace := by
  suffices hboth : Announced x.2.trace ∧ Told (HasRefused x) x.2 from hboth.1
  refine h.invariant (I := fun x => Announced x.2.trace ∧ Told (HasRefused x) x.2) ?_ ?_
  · rintro ⟨history, ch⟩ ⟨-, agentsHandle, rfl⟩
    refine ⟨?_, ?_, ?_⟩
    · intro i o use hi
      cases hi
    · intro i o use hi
      cases hi
    · intro k entry conn hget
      cases hget
  · rintro x l x' hreach ⟨hannounced, htold⟩ ⟨hclosed, hguard⟩ hstep
    have hlife : (life cfg).Reachable x.2 :=
      Machine.ReachableUnder.of_recorded (fun _ _ _ => trivial) hreach
    obtain ⟨hmoved, hhistory⟩ := Machine.of_recorded_step hstep
    have hmore : ∀ no, HasRefused x no → HasRefused x' no := by
      rintro no ⟨t, hmem, ht⟩
      refine ⟨t, ?_, ht⟩
      rw [hhistory]
      exact List.mem_append_left _ hmem
    have htold' : Told (HasRefused x') x.2 := by
      refine ⟨fun i o use hi huse => .inr (hannounced i o use hi huse), ?_⟩
      intro k entry conn hget hconn
      exact (htold.routed k entry conn hget hconn).imp_left (hmore conn.no)
    have htells : Tells (HasRefused x') x.2 x'.2 := by
      refine step_tells hmoved hguard (unrouted_of_reachable hlife) ?_
      intro no hno
      refine ⟨⟨x.2, l, x'.2⟩, ?_, hno⟩
      rw [hhistory]
      exact List.mem_append_right _ List.mem_cons_self
    exact ⟨announced_of_step htells hstep hclosed hannounced (htells.told htold'), htells.told htold'⟩

end Runs

end ChannelsManager

/-! ### Samples -/

namespace Sample

/-- `bob` writes on the channel, and a session is made for him. -/
def openSession (a : ChannelAnswers) : List (ChannelsLabel 1) :=
  [.incoming (Fin.last 0) (.sendMessage ⟨⟨"chat", "bob", "direct"⟩, [.text "hello"], none⟩),
    .recvStream (Fin.last 0) a]

def reply : ChannelsLabel 1 :=
  .recvEvent 0 (.deliverMessage bob (.errorResult "no")) (channelAnswers "s")

end Sample

namespace ChannelsManager

/-- The channel crashes and comes back, and then a session is opened and used. -/
theorem announced_of_announcesAnew_bob :
    ∃ ch : ChannelsManager 1, ch.nextConnection = 2 ∧
      (∃ o ∈ ch.trace, o.uses = some (1, "s")) ∧ Announced ch.trace := by
  have hrun : ∃ x ∈ (life Sample.channels).recorded.run
      (fun x l => WritersStayClosed Sample.channels x l ∧ AnnouncesAnew x.2 l)
      ([], fresh Sample.channels true)
      ([.start fun _ => Sample.channelAnswers "s"] ++
        Sample.channelCrash (Sample.channelAnswers "s") ++
        Sample.openSession (Sample.channelAnswers "s") ++ [Sample.reply]),
      x.2.nextConnection = 2 ∧ ∃ o ∈ x.2.trace, o.uses = some (1, "s") := by
    decide
  obtain ⟨x, hx, hnext, huses⟩ := hrun
  refine ⟨x.2, hnext, huses, ?_⟩
  exact announced_of_announcesAnew (Machine.reachable_of_run _ ⟨rfl, true, rfl⟩ hx)

/-- A session is opened, the channel crashes and comes back, and the agent's answer goes to
    the new process. -/
theorem unannounced_after_crash :
    ¬ ∀ (c : Nat) (cfg : ChannelsManagerConfig c)
        (x : List (Machine.Taken (ChannelsManager c) (ChannelsLabel c)) × ChannelsManager c),
      (life cfg).recorded.ReachableUnder (WritersStayClosed cfg) x → Announced x.2.trace := by
  intro hall
  have hrun : ∃ x ∈ (life Sample.channels).recorded.run (WritersStayClosed Sample.channels)
      ([], fresh Sample.channels true)
      ([.start fun _ => Sample.channelAnswers "s"] ++
        Sample.openSession (Sample.channelAnswers "s") ++
        Sample.channelCrash (Sample.channelAnswers "s") ++ [Sample.reply]),
      ∃ o ∈ x.2.trace[6]?, o.uses = some (1, "s") ∧
        ∀ o' ∈ x.2.trace.take 6, o'.announces ≠ some (1, "s") := by
    decide
  obtain ⟨x, hx, o, ho, huses, hnone⟩ := hrun
  have hreach := Machine.reachable_of_run (M := (life Sample.channels).recorded) _
    ⟨rfl, true, rfl⟩ hx
  obtain ⟨o', hmem, hannounces⟩ := hall 1 Sample.channels x hreach 6 o (1, "s") ho huses
  exact hnone o' hmem hannounces

end ChannelsManager

end Anyclaw
