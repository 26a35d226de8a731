import Anyclaw.Library.Mailbox
import Anyclaw.Channels.Announcements
import Anyclaw.Channels.Isolation

/-!
# Conversations

The channels manager asks for a session when the first message of a session key is admitted,
again for every later message until a session is made, and never after that.  Nothing is
enqueued before the session is there; from then on every message is enqueued once, as it was
admitted, in the order in which the messages came.

`converse` is this for a single key, and every run of the manager follows it for every key.

The functions are `ensure_session_created` and `enqueue_to_agent` of
`crates/anyclaw-channels/src/manager.rs`, which `collect_send_message` calls one after the
other.
-/

namespace Anyclaw

variable {c : Nat}

/-- A message that was admitted, and what the agents manager replied about it. -/
structure Admitted (c : Nat) where
  slotIndex : Fin c
  content : List ContentPart
  metadata : Option MessageMetadata
  created : AgentsReply AcpSessionId
  enqueued : AgentsReply Unit
deriving DecidableEq

inductive SessionRequest where
  | create (agentName : String)
  | enqueue (agentName : String) (content : List ContentPart) (metadata : Option MessageMetadata)
deriving DecidableEq

def AgentsCommand.request : AgentsCommand → Option (SessionKey × SessionRequest)
  | .createSession agentName k => some (k, .create agentName)
  | .enqueueMessage agentName k content metadata => some (k, .enqueue agentName content metadata)
  | _ => none

def ChannelOutput.request : ChannelOutput c → Option (SessionKey × SessionRequest)
  | .command cmd => cmd.request
  | _ => none

/-! ### The conversation of one key -/

namespace Admitted

variable (cfg : ChannelsManagerConfig c) (m : Admitted c)

/-- The routing entry that the message leads to, when there is none. -/
def opens : Option (RoutingEntry c) :=
  match m.created with
  | .replied id => some ⟨id, m.slotIndex⟩
  | _ => none

def asks : List SessionRequest :=
  if m.created = .unsent then [] else [.create (cfg.channels m.slotIndex).agent]

def enqueues : List SessionRequest :=
  if m.enqueued = .unsent then []
  else [.enqueue (cfg.channels m.slotIndex).agent m.content m.metadata]

end Admitted

/-- The routing entry of a key and what was asked for it, after one more message. -/
def converse (cfg : ChannelsManagerConfig c) :
    Option (RoutingEntry c) × List SessionRequest → Admitted c →
      Option (RoutingEntry c) × List SessionRequest
  | (some entry, requests), m => (some entry, requests ++ m.enqueues cfg)
  | (none, requests), m =>
      (m.opens, requests ++ m.asks cfg ++ if m.opens.isSome then m.enqueues cfg else [])

/-- What a conversation about the messages `ms` has come to. -/
structure Conversed (cfg : ChannelsManagerConfig c) (ms : List (Admitted c))
    (entry : Option (RoutingEntry c)) (requests : List SessionRequest) : Prop where
  /-- Without a session each message asked for one, and nothing was enqueued. -/
  closed : entry = none → (∀ m ∈ ms, m.opens = none) ∧ requests = ms.flatMap (Admitted.asks cfg)
  /-- The session is the first that was made, and it was not asked for again. -/
  opened : ∀ e, entry = some e → ∃ refused first rest, ms = refused ++ first :: rest ∧
    (∀ m ∈ refused, m.opens = none) ∧ first.opens = some e ∧
      requests = (refused ++ [first]).flatMap (Admitted.asks cfg) ++
        (first :: rest).flatMap (Admitted.enqueues cfg)

theorem conversed_converse {cfg : ChannelsManagerConfig c} {ms : List (Admitted c)}
    {entry : Option (RoutingEntry c)} {requests : List SessionRequest} (m : Admitted c)
    (h : Conversed cfg ms entry requests) :
    Conversed cfg (ms ++ [m]) (converse cfg (entry, requests) m).1
      (converse cfg (entry, requests) m).2 := by
  cases entry with
  | some entry =>
      obtain ⟨refused, first, rest, hms, hrefused, hfirst, hrequests⟩ := h.opened entry rfl
      refine ⟨nofun, ?_⟩
      rintro e ⟨⟩
      refine ⟨refused, first, rest ++ [m], by simp [hms], hrefused, hfirst, ?_⟩
      simp [converse, hrequests]
  | none =>
      obtain ⟨hnone, hrequests⟩ := h.closed rfl
      refine ⟨fun hm => ⟨?_, ?_⟩, fun e he => ⟨ms, m, [], rfl, hnone, he, ?_⟩⟩
      · intro m' hm'
        rcases List.mem_append.mp hm' with hold | hlast
        · exact hnone m' hold
        · rw [List.mem_singleton.mp hlast]
          exact hm
      · have hm' : m.opens = none := hm
        simp [converse, hrequests, hm']
      · have he' : m.opens = some e := he
        simp [converse, hrequests, he']

theorem conversed_foldl (cfg : ChannelsManagerConfig c) (ms : List (Admitted c)) :
    Conversed cfg ms (ms.foldl (converse cfg) (none, [])).1
      (ms.foldl (converse cfg) (none, [])).2 := by
  induction ms using List.reverseRecOn with
  | nil =>
      refine ⟨fun _ => ⟨fun m hm => ?_, rfl⟩, fun e he => ?_⟩
      · cases hm
      · cases he
  | append_singleton ms m ih =>
      rw [List.foldl_append]
      exact conversed_converse m ih

namespace ChannelsManager

def admitted (ch : ChannelsManager c) : ChannelsLabel c → Option (SessionKey × Admitted c)
  | .recvStream s a =>
      match ch.streamed (.recvStream s a), a.admitted with
      | some (.sendMessage message), some (content, metadata) =>
          if ch.agentsHandle then
            some (buildSessionKey message, ⟨s, content, metadata, a.created, a.enqueued⟩)
          else none
      | _, _ => none
  | _ => none

def admittedFor (steps : List (Machine.Taken (ChannelsManager c) (ChannelsLabel c)))
    (k : SessionKey) : List (Admitted c) :=
  Mailbox.forKey k (steps.filterMap fun t => t.before.admitted t.label)

def requested (ch : ChannelsManager c) : List (SessionKey × SessionRequest) :=
  ch.trace.filterMap ChannelOutput.request

variable {cfg : ChannelsManagerConfig c} {ch ch' : ChannelsManager c} {P : ChannelOutput c → Prop}

theorem Emits.requested (h : Emits (fun o => o.request = none) ch ch') :
    ch'.requested = ch.requested := by
  obtain ⟨os, htrace, hos⟩ := h
  unfold ChannelsManager.requested
  rw [htrace, List.filterMap_append, List.filterMap_eq_nil_iff.mpr hos, List.append_nil]

@[simp] theorem requested_write (ch : ChannelsManager c) (s : Fin c) (accepted : Bool)
    (message : ToChannel) : (ch.write s accepted message).requested = ch.requested :=
  (write_emits ch s accepted message fun _ => rfl).requested

@[simp] theorem requested_emit (ch : ChannelsManager c) (o : ChannelOutput c) :
    (ch.emit o).requested = ch.requested ++ o.request.toList := by
  simp only [requested, emit_trace, List.filterMap_append]
  cases h : o.request with
  | none => simp [h]
  | some r => simp [h]

attribute [simp] write_routingTable

/-! ### One step -/

theorem spawnAndInitialize_emits (ch : ChannelsManager c) (s : Fin c) (a : ChannelAnswers)
    (h : ∀ s no, P (.spawned s no)) : Emits P ch (ch.spawnAndInitialize s a).2 := by
  unfold spawnAndInitialize
  split
  · exact (Emits.of_trace rfl).trans (emit_emits _ (h _ _))
  · exact .refl ch

theorem start_emits (ch : ChannelsManager c) (a : Fin c → ChannelAnswers)
    (h : ∀ s no, P (.spawned s no)) : Emits P ch (start cfg ch a) := by
  have hslots : ∀ (ss : List (Fin c)) (ch : ChannelsManager c),
      Emits P ch (ss.foldl (fun ch s => startChannelSlot cfg ch s (a s)) ch) := by
    intro ss
    induction ss with
    | nil => exact fun ch => .refl ch
    | cons s rest ih =>
        intro ch
        have hslot : Emits P ch (startChannelSlot cfg ch s (a s)) :=
          (spawnAndInitialize_emits ch s (a s) h).trans (.of_trace rfl)
        exact hslot.trans (ih _)
  exact (hslots _ ch).trans (.of_trace rfl)

theorem handleChannelCrash_emits (ch : ChannelsManager c) (s : Fin c) (a : ChannelAnswers)
    (h : ∀ s no, P (.spawned s no)) : Emits P ch (ch.handleChannelCrash s a) := by
  have hspawn := spawnAndInitialize_emits ch s a h
  unfold handleChannelCrash
  split
  · exact .of_trace rfl
  · split
    · rename_i heq
      rw [heq] at hspawn
      exact hspawn.trans (.of_trace rfl)
    · rename_i heq
      rw [heq] at hspawn
      exact hspawn.trans (.of_trace rfl)

/-- What a step emits that admits no message: processes are spawned and written to, and
    permissions are answered. -/
theorem step_emits {l : ChannelsLabel c} (h : step cfg ch l = some ch')
    (hnone : ch.admitted l = none) (hspawned : ∀ s no, P (.spawned s no))
    (hwritten : ∀ s no message, P (.written s no message))
    (hanswer : ∀ requestId optionId, P (.command (.respondPermission requestId optionId))) :
    Emits P ch ch' := by
  have hall : ∀ k, WritesFor ch k P := fun _ _ _ no message => hwritten _ no message
  cases turn_of_step h with
  | started _ => exact start_emits ch _ hspawned
  | queued _ _ => exact .of_trace rfl
  | eof _ _ => exact .of_trace rfl
  | waitEnded _ _ => exact (Emits.of_trace rfl).trans (emit_emits _ (hanswer _ _))
  | @collected s a stream message rest _ hstream hmessages =>
      have hset : Emits P ch (ch.setSlot s
          { ch.slots s with stream := some { stream with messages := rest } }) := .of_trace rfl
      have hstreamed : ch.streamed (.recvStream s a) = some message := by
        simp [streamed, hstream, hmessages]
      cases message with
      | sendMessage message =>
          rw [admitted, hstreamed] at hnone
          refine hset.trans ?_
          rw [collectChannelMessage, ChannelsInbox.collectSendMessage_idle]
          · exact .refl _
          · cases hadmitted : a.admitted with
            | none => rfl
            | some admitted =>
                rw [hadmitted] at hnone
                simpa using hnone
      | respondPermission requestId optionId =>
          rw [collectChannelMessage, handleRespondPermission]
          split
          · exact hset.trans (emit_emits _ (hanswer _ _))
          · exact hset
      | unhandled => exact hset
  | crashed _ _ _ _ => exact handleChannelCrash_emits ch _ _ hspawned
  | @event event e a _ =>
      cases e with
      | deliverMessage k content => exact handleDeliverMessage_emits content a (hall k)
      | sessionComplete k stopReason => exact handleSessionComplete_emits stopReason a (hall k)
      | routePermission k requestId description options =>
          exact routePermission_emits requestId description options event a (hall k)
      | ackMessage _ _ _ _ => exact .refl ch
      | dispatchStarted k => exact handleDispatchStarted_emits a (hall k)
  | @command event command a _ =>
      cases command with
      | deliverToChannel k content =>
          rw [handleCommand]
          split
          · exact .refl ch
          · exact write_emits ch _ _ _ fun no => hwritten _ no _
      | routePermission k requestId description options =>
          exact routePermission_emits requestId description options event a (hall k)
      | shutdown => exact .of_trace rfl
  | cancelled _ => exact .of_trace rfl

/-- The routing entry of a key, and what was asked for the key. -/
def conversation (ch : ChannelsManager c) (k : SessionKey) :
    Option (RoutingEntry c) × List SessionRequest :=
  (ch.routingTable.get? k, Mailbox.forKey k ch.requested)

theorem conversation_of_eq {k : SessionKey} (htable : ch'.routingTable = ch.routingTable)
    (hrequested : ch'.requested = ch.requested) : ch'.conversation k = ch.conversation k := by
  rw [conversation, htable, hrequested, conversation]

theorem requested_enqueueToAgent (ch : ChannelsManager c) (s : Fin c) (k : SessionKey)
    (content : List ContentPart) (metadata : Option MessageMetadata) (a : ChannelAnswers) :
    (ch.enqueueToAgent k content metadata (cfg.channels s).agent a).requested =
      ch.requested ++
        ((⟨s, content, metadata, a.created, a.enqueued⟩ : Admitted c).enqueues cfg).map (k, ·) := by
  have hasked : (ch.emit (.command (.enqueueMessage (cfg.channels s).agent k content
      metadata))).requested =
        ch.requested ++ [(k, .enqueue (cfg.channels s).agent content metadata)] := by
    rw [requested_emit]
    rfl
  unfold enqueueToAgent Admitted.enqueues
  dsimp only
  split
  · rename_i hunsent
    simp [hunsent]
  · rename_i error hfailed
    split
    · simp [hfailed, hasked]
    · simp [hfailed, hasked]
  · rename_i hunsent _
    rw [if_neg hunsent]
    exact hasked

/-- What making sure of a session does, on behalf of the message `m`. -/
theorem ensureSessionCreated_opens (cfg : ChannelsManagerConfig c) (ch : ChannelsManager c)
    (k : SessionKey) (peerInfo : PeerInfo) {a : ChannelAnswers} {m : Admitted c}
    (hm : m.created = a.created) :
    (∃ entry, ch.routingTable.get? k = some entry ∧
        ensureSessionCreated cfg ch m.slotIndex k peerInfo a = (true, ch)) ∨
      ∃ ch', ch.routingTable.get? k = none ∧
        ensureSessionCreated cfg ch m.slotIndex k peerInfo a = (m.opens.isSome, ch') ∧
        ch'.requested = ch.requested ++ (m.asks cfg).map (k, ·) ∧
        ch'.routingTable = m.opens.elim ch.routingTable (ch.routingTable.set k) := by
  have hasked : (ch.emit (.command (.createSession (cfg.channels m.slotIndex).agent k))).requested =
      ch.requested ++ [(k, .create (cfg.channels m.slotIndex).agent)] := by
    rw [requested_emit]
    rfl
  unfold ensureSessionCreated Admitted.opens Admitted.asks
  rw [hm]
  split
  · rename_i hcontains
    obtain ⟨entry, hentry⟩ := (KeyedMap.contains_iff _ _).mp hcontains
    exact Or.inl ⟨entry, hentry, rfl⟩
  · rename_i hcontains
    rw [Bool.not_eq_true, KeyedMap.not_contains_iff] at hcontains
    refine Or.inr ?_
    cases hcreated : a.created with
    | unsent => exact ⟨ch, hcontains, rfl, by simp, rfl⟩
    | dropped => exact ⟨_, hcontains, rfl, by simp [hasked], by simp⟩
    | failed error => exact ⟨_, hcontains, rfl, by simp [hasked], by simp⟩
    | replied id =>
        refine ⟨_, hcontains, rfl, ?_, ?_⟩
        · rw [requested_write]
          exact hasked
        · rw [write_routingTable]
          rfl

theorem forKey_map {k k' : SessionKey} (rs : List SessionRequest) :
    Mailbox.forKey k (rs.map (k', ·)) = if k' = k then rs else [] := by
  unfold Mailbox.forKey
  rw [List.filterMap_map]
  split
  · rename_i hk
    simp [hk]
  · rename_i hk
    simp [hk]

/-- What an admitted message does to a conversation. -/
theorem conversation_collectSendMessage (ch : ChannelsManager c) (message : ChannelSendMessage)
    {a : ChannelAnswers} {m : Admitted c} (hadmitted : a.admitted = some (m.content, m.metadata))
    (hcreated : m.created = a.created) (henqueued : m.enqueued = a.enqueued)
    (hhandle : ch.agentsHandle = true) (k : SessionKey) :
    (collectSendMessage cfg ch m.slotIndex message a).conversation k =
      if buildSessionKey message = k then converse cfg (ch.conversation k) m
      else ch.conversation k := by
  have henqueue : ∀ ch : ChannelsManager c, (ch.enqueueToAgent (buildSessionKey message) m.content
      m.metadata (cfg.channels m.slotIndex).agent a).requested =
        ch.requested ++ (m.enqueues cfg).map (buildSessionKey message, ·) := by
    intro ch
    rw [requested_enqueueToAgent, ← hcreated, ← henqueued]
  unfold collectSendMessage
  rw [hadmitted]
  dsimp only
  rw [if_pos hhandle]
  rcases ensureSessionCreated_opens cfg ch (buildSessionKey message) message.peerInfo hcreated with
    ⟨entry, hentry, heq⟩ | ⟨ch₁, hnone, heq, hrequested, htable⟩
  · rw [heq]
    simp only [conversation, enqueueToAgent_routingTable, henqueue, Mailbox.forKey_append,
      forKey_map]
    split
    · rename_i hk
      rw [hk] at hentry
      rw [hentry]
      rfl
    · rw [List.append_nil]
  · rw [heq]
    cases hopens : m.opens with
    | none =>
        rw [hopens] at htable
        simp only [Option.isSome_none, conversation, htable, hrequested, Mailbox.forKey_append,
          forKey_map]
        split
        · rename_i hk
          rw [hk] at hnone
          simp [converse, hnone, hopens]
        · simp
    | some entry =>
        rw [hopens] at htable
        simp only [Option.isSome_some, conversation, enqueueToAgent_routingTable, henqueue,
          htable, hrequested, Mailbox.forKey_append, forKey_map]
        split
        · rename_i hk
          rw [hk] at hnone
          simp [converse, hnone, hopens, hk]
        · rename_i hk
          simp [KeyedMap.get?_set, Ne.symm hk]

theorem admitted_eq_some {l : ChannelsLabel c} {k : SessionKey} {m : Admitted c}
    (h : ch.admitted l = some (k, m)) :
    ∃ a message, l = .recvStream m.slotIndex a ∧
      ChannelsInbox.nextMessage ch l = some message ∧ buildSessionKey message = k ∧
      a.admitted = some (m.content, m.metadata) ∧ ch.agentsHandle = true ∧
      m.created = a.created ∧ m.enqueued = a.enqueued := by
  unfold admitted at h
  split at h
  · rename_i s a
    split at h
    · rename_i message content metadata hstreamed hadmitted
      obtain ⟨hhandle, hpair⟩ := Option.ite_none_right_eq_some.mp h
      cases hpair
      refine ⟨a, message, rfl, ?_, rfl, hadmitted, hhandle, rfl, rfl⟩
      rw [ChannelsInbox.nextMessage, hstreamed]
    · cases h
  · cases h

theorem routingTable_of_unadmitted {l : ChannelsLabel c} (h : step cfg ch l = some ch')
    (hnone : ch.admitted l = none) : ch'.routingTable = ch.routingTable := by
  cases hnext : ChannelsInbox.nextMessage ch l with
  | none => exact ChannelsInbox.step_routingTable h hnext
  | some message =>
      have hstreamed : ch.streamed l = some (.sendMessage message) := by
        unfold ChannelsInbox.nextMessage at hnext
        split at hnext
        · rename_i heq
          cases hnext
          exact heq
        · cases hnext
      cases l with
      | recvStream s a =>
          obtain ⟨stream, rfl⟩ := ChannelsInbox.step_of_nextMessage h hnext
          rw [ChannelsInbox.collectSendMessage_idle]
          · rfl
          · rw [admitted, hstreamed] at hnone
            cases hadmitted : a.admitted with
            | none => rfl
            | some admitted =>
                rw [hadmitted] at hnone
                simpa using hnone
      | _ => cases hstreamed

/-- **One step of a conversation.** -/
theorem step_conversation {l : ChannelsLabel c} (h : step cfg ch l = some ch') (k : SessionKey) :
    ch'.conversation k =
      (Mailbox.forKey k (ch.admitted l).toList).foldl (converse cfg) (ch.conversation k) := by
  cases hadmitted : ch.admitted l with
  | none =>
      have hemits : Emits (fun o => o.request = none) ch ch' :=
        step_emits h hadmitted (fun _ _ => rfl) (fun _ _ _ => rfl) fun _ _ => rfl
      exact conversation_of_eq (routingTable_of_unadmitted h hadmitted) hemits.requested
  | some e =>
      obtain ⟨k', m⟩ := e
      obtain ⟨a, message, rfl, hnext, hkey, hcontent, hhandle, hcreated, henqueued⟩ :=
        admitted_eq_some hadmitted
      obtain ⟨stream, rfl⟩ := ChannelsInbox.step_of_nextMessage h hnext
      refine (conversation_collectSendMessage (ch.setSlot m.slotIndex _) message hcontent hcreated
        henqueued hhandle k).trans ?_
      rw [hkey, Option.toList_some, Mailbox.forKey_singleton]
      split
      · rfl
      · rfl

/-- Nothing that was emitted is taken back. -/
theorem step_extends {l : ChannelsLabel c} (h : step cfg ch l = some ch') :
    ch.trace <+: ch'.trace := by
  have hemits : Emits (fun _ => True) ch ch' := by
    cases hadmitted : ch.admitted l with
    | none => exact step_emits h hadmitted (by simp) (by simp) (by simp)
    | some e =>
        obtain ⟨a, message, rfl, hnext, -⟩ := admitted_eq_some hadmitted
        obtain ⟨stream, rfl⟩ := ChannelsInbox.step_of_nextMessage h hnext
        have hset : Emits (fun _ => True) ch (ch.setSlot e.2.slotIndex
            { ch.slots e.2.slotIndex with stream := stream }) := .of_trace rfl
        refine hset.trans ?_
        apply collectSendMessage_emits
        · trivial
        · simp
        · simp
        · simp [WritesFor]
  obtain ⟨os, htrace, -⟩ := hemits
  exact ⟨os, htrace.symm⟩

/-! ### All runs -/

theorem conversation_of_reachable
    {x : List (Machine.Taken (ChannelsManager c) (ChannelsLabel c)) × ChannelsManager c}
    (h : (life cfg).recorded.Reachable x) (k : SessionKey) :
    x.2.conversation k = (admittedFor x.1 k).foldl (converse cfg) (none, []) := by
  refine h.invariant (I := fun x => x.2.conversation k =
    (admittedFor x.1 k).foldl (converse cfg) (none, [])) ?_ ?_
  · rintro ⟨steps, ch⟩ ⟨rfl, agentsHandle, rfl⟩
    rfl
  · intro x l x' _ hI _ hstep
    obtain ⟨hmoved, hsteps⟩ := Machine.of_recorded_step hstep
    rw [step_conversation hmoved, hI, hsteps, admittedFor, admittedFor, List.filterMap_append,
      Mailbox.forKey_append, List.foldl_append]
    rfl

theorem conversed_conversation
    {x : List (Machine.Taken (ChannelsManager c) (ChannelsLabel c)) × ChannelsManager c}
    (h : (life cfg).recorded.Reachable x) (k : SessionKey) :
    Conversed cfg (admittedFor x.1 k) (x.2.conversation k).1 (x.2.conversation k).2 := by
  rw [conversation_of_reachable h]
  exact conversed_foldl cfg (admittedFor x.1 k)

/-- **Every key has its own conversation.**  In every run the routing entry of a key and what
    the agents manager was asked for the key are determined by the messages that were admitted
    for the key: each asks for a session until there is one, and the first session that is made
    stays.  From then on each message is enqueued once and as it was admitted, in the order of
    the messages, and before that none is. -/
theorem conversed_of_reachable
    {x : List (Machine.Taken (ChannelsManager c) (ChannelsLabel c)) × ChannelsManager c}
    (h : (life cfg).recorded.Reachable x) (k : SessionKey) :
    Conversed cfg (admittedFor x.1 k) (x.2.routingTable.get? k) (Mailbox.forKey k x.2.requested) :=
  conversed_conversation h k

/-- The first session cannot be made, the second can, and the third message needs none. -/
theorem conversed_of_reachable_retry :
    ∃ ms : List (Admitted 1), ms.length = 3 ∧
      Conversed Sample.channels ms (some ⟨"s", Fin.last 0⟩)
        [.create "a", .create "a", .enqueue "a" [.text "hello"] none,
          .enqueue "a" [.text "hello"] none] := by
  have hrun : ∃ x ∈ (life Sample.channels).recorded.run (fun _ _ => True)
      ([], fresh Sample.channels true)
      ([.start fun _ => Sample.channelAnswers "s"] ++
        Sample.openSession { Sample.channelAnswers "s" with created := .failed "busy" } ++
        Sample.openSession (Sample.channelAnswers "s") ++
        Sample.openSession (Sample.channelAnswers "t")),
      (admittedFor x.1 Sample.bob).length = 3 ∧
        x.2.routingTable.get? Sample.bob = some ⟨"s", Fin.last 0⟩ ∧
        Mailbox.forKey Sample.bob x.2.requested = [.create "a", .create "a",
          .enqueue "a" [.text "hello"] none, .enqueue "a" [.text "hello"] none] := by
    decide
  obtain ⟨x, hx, hlength, hentry, hrequests⟩ := hrun
  refine ⟨admittedFor x.1 Sample.bob, hlength, ?_⟩
  rw [← hentry, ← hrequests]
  exact conversed_of_reachable (Machine.reachable_of_run _ ⟨rfl, true, rfl⟩ hx) Sample.bob

end ChannelsManager

end Anyclaw
