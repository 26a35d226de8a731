import Anyclaw.Channels.Run

/-!
# What the handlers of the channels manager emit

`Emits P` says that everything emitted on the way from one state to another satisfies `P`.
There is one lemma for each handler; it asks `P` of what the handler writes and to whom, and
of its commands.

The handlers are those of `crates/anyclaw-channels/src/manager.rs`.
-/

namespace Anyclaw.ChannelsManager

variable {c : Nat} {cfg : ChannelsManagerConfig c} {ch ch₁ ch' : ChannelsManager c}
  {P Q : ChannelOutput c → Prop}

/-- What is emitted from `ch` to `ch'` satisfies `P`. -/
def Emits (P : ChannelOutput c → Prop) (ch ch' : ChannelsManager c) : Prop :=
  ∃ os, ch'.trace = ch.trace ++ os ∧ ∀ o ∈ os, P o

theorem Emits.of_trace (h : ch'.trace = ch.trace) : Emits P ch ch' :=
  ⟨[], by rw [h, List.append_nil], fun _ ho => nomatch ho⟩

theorem Emits.refl (ch : ChannelsManager c) : Emits P ch ch := .of_trace rfl

theorem Emits.trans (h : Emits P ch ch₁) (h' : Emits P ch₁ ch') : Emits P ch ch' := by
  obtain ⟨os, htrace, hos⟩ := h
  obtain ⟨os', htrace', hos'⟩ := h'
  refine ⟨os ++ os', ?_, ?_⟩
  · rw [htrace', htrace, List.append_assoc]
  · intro o ho
    rcases List.mem_append.mp ho with hmem | hmem
    · exact hos o hmem
    · exact hos' o hmem

theorem Emits.mono (hPQ : ∀ o, P o → Q o) (h : Emits P ch ch') : Emits Q ch ch' := by
  obtain ⟨os, htrace, hos⟩ := h
  exact ⟨os, htrace, fun o ho => hPQ o (hos o ho)⟩

/-- The new part of the trace is what was emitted. -/
theorem Emits.of_mem_drop (h : Emits P ch ch') {o : ChannelOutput c}
    (ho : o ∈ ch'.trace.drop ch.trace.length) : P o := by
  obtain ⟨os, htrace, hos⟩ := h
  rw [htrace, List.drop_left] at ho
  exact hos o ho

theorem emit_emits (ch : ChannelsManager c) {o : ChannelOutput c} (ho : P o) :
    Emits P ch (ch.emit o) :=
  ⟨[o], rfl, fun _ hmem => List.mem_singleton.mp hmem ▸ ho⟩

theorem write_emits (ch : ChannelsManager c) (s : Fin c) (accepted : Bool) (message : ToChannel)
    (h : ∀ no, P (.written s no message)) : Emits P ch (ch.write s accepted message) := by
  unfold write
  split
  · split
    · exact emit_emits ch (h _)
    · exact .refl ch
  · exact .refl ch

theorem Emits.write (h : Emits P ch ch') (s : Fin c) (accepted : Bool) (message : ToChannel)
    (hP : ∀ no, P (.written s no message)) : Emits P ch (ch'.write s accepted message) :=
  h.trans (write_emits ch' s accepted message hP)

/-! ### Events and commands of the agents manager -/

/-- What concerns the session key `k` is written to the slot of its routing entry only. -/
def WritesFor (ch : ChannelsManager c) (k : SessionKey) (P : ChannelOutput c → Prop) : Prop :=
  ∀ entry, ch.routingTable.get? k = some entry → ∀ no message, P (.written entry.slotIndex no message)

theorem handleDeliverMessage_emits {k : SessionKey} (content : Delivered) (a : ChannelAnswers)
    (h : WritesFor ch k P) : Emits P ch (ch.handleDeliverMessage k content a) := by
  unfold handleDeliverMessage
  split
  · exact .refl ch
  · rename_i entry hget
    dsimp only
    split
    · exact write_emits ch _ _ _ fun no => h entry hget no _
    · have hacked : Emits P ch { ch with ackedSessions := insert k ch.ackedSessions } :=
        .of_trace rfl
      exact (hacked.write _ _ _ fun no => h entry hget no _).write _ _ _ fun no => h entry hget no _

theorem handleSessionComplete_emits {k : SessionKey} (stopReason : StopReason)
    (a : ChannelAnswers) (h : WritesFor ch k P) :
    Emits P ch (ch.handleSessionComplete k stopReason a) := by
  unfold handleSessionComplete
  split
  · exact .refl ch
  · rename_i entry hget
    exact write_emits ch _ _ _ fun no => h entry hget no _

theorem handleDispatchStarted_emits {k : SessionKey} (a : ChannelAnswers)
    (h : WritesFor ch k P) : Emits P ch (handleDispatchStarted cfg ch k a) := by
  have hacked : Emits P ch { ch with ackedSessions := ch.ackedSessions.erase k } := .of_trace rfl
  unfold handleDispatchStarted
  dsimp only
  split
  · exact hacked
  · rename_i entry hget
    exact (hacked.write _ _ _ fun no => h entry hget no _).write _ _ _ fun no => h entry hget no _

theorem routePermission_emits {k : SessionKey} (requestId description : String)
    (options : List PermissionOption) (event : Nat) (a : ChannelAnswers)
    (h : WritesFor ch k P) :
    Emits P ch (ch.routePermission k requestId description options event a) := by
  unfold routePermission
  split
  · exact .refl ch
  · rename_i entry hget
    split
    · exact .refl ch
    · split
      · dsimp only
        split
        · exact (emit_emits ch (h entry hget _ _)).trans (.of_trace rfl)
        · exact emit_emits ch (h entry hget _ _)
      · exact .refl ch

/-! ### Messages of the channel processes -/

theorem ensureSessionCreated_emits (ch : ChannelsManager c) (s : Fin c) (k : SessionKey)
    (peerInfo : PeerInfo) (a : ChannelAnswers)
    (hcommand : P (.command (.createSession (cfg.channels s).agent k)))
    (hwritten : ∀ no message, P (.written s no message)) :
    Emits P ch (ensureSessionCreated cfg ch s k peerInfo a).2 := by
  have hasked : Emits P ch (ch.emit (.command (.createSession (cfg.channels s).agent k))) :=
    emit_emits ch hcommand
  unfold ensureSessionCreated
  split
  · exact .refl ch
  · dsimp only
    split
    · exact .refl ch
    · refine Emits.write (hasked.trans ?_) _ _ _ fun no => hwritten no _
      exact .of_trace rfl
    · exact hasked.write _ _ _ fun no => hwritten no _
    · exact hasked.write _ _ _ fun no => hwritten no _

theorem enqueueToAgent_emits (ch : ChannelsManager c) (k : SessionKey)
    (content : List ContentPart) (metadata : Option MessageMetadata) (agentName : String)
    (a : ChannelAnswers)
    (hcommand : P (.command (.enqueueMessage agentName k content metadata)))
    (hwritten : WritesFor ch k P) :
    Emits P ch (ch.enqueueToAgent k content metadata agentName a) := by
  have hasked : Emits P ch (ch.emit (.command (.enqueueMessage agentName k content metadata))) :=
    emit_emits ch hcommand
  unfold enqueueToAgent
  dsimp only
  split
  · exact .refl ch
  · split
    · rename_i entry hget
      exact hasked.write _ _ _ fun no => hwritten entry hget no _
    · exact hasked
  · exact hasked

theorem write_routingTable (ch : ChannelsManager c) (s : Fin c) (accepted : Bool)
    (message : ToChannel) : (ch.write s accepted message).routingTable = ch.routingTable := by
  unfold write
  split
  · split
    · rfl
    · rfl
  · rfl

/-- The routing table after a session was made sure of: as before, or with a new entry for the
    slot. -/
theorem ensureSessionCreated_routingTable (cfg : ChannelsManagerConfig c)
    (ch : ChannelsManager c) (s : Fin c) (k : SessionKey) (peerInfo : PeerInfo) (a : ChannelAnswers) :
    (ensureSessionCreated cfg ch s k peerInfo a).2.routingTable = ch.routingTable ∨
      ch.routingTable.get? k = none ∧ ∃ id,
        (ensureSessionCreated cfg ch s k peerInfo a).2.routingTable =
          ch.routingTable.set k ⟨id, s⟩ := by
  unfold ensureSessionCreated
  split
  · exact .inl rfl
  · rename_i hcontains
    rw [Bool.not_eq_true, KeyedMap.not_contains_iff] at hcontains
    dsimp only
    split
    · exact .inl rfl
    · rename_i id _
      refine .inr ⟨hcontains, id, ?_⟩
      rw [write_routingTable]
      rfl
    · refine .inl ?_
      rw [write_routingTable]
      rfl
    · refine .inl ?_
      rw [write_routingTable]
      rfl

theorem collectSendMessage_emits (ch : ChannelsManager c) (s : Fin c)
    (message : ChannelSendMessage) (a : ChannelAnswers)
    (hcreate : P (.command (.createSession (cfg.channels s).agent (buildSessionKey message))))
    (henqueue : ∀ content metadata, a.admitted = some (content, metadata) →
      P (.command (.enqueueMessage (cfg.channels s).agent (buildSessionKey message) content
        metadata)))
    (hslot : ∀ no message, P (.written s no message))
    (hwritten : WritesFor ch (buildSessionKey message) P) :
    Emits P ch (collectSendMessage cfg ch s message a) := by
  unfold collectSendMessage
  split
  · exact .refl ch
  · rename_i content metadata hadmitted
    dsimp only
    split
    · have hensured := ensureSessionCreated_emits ch s (buildSessionKey message) message.peerInfo a
        hcreate hslot
      have htable := ensureSessionCreated_routingTable cfg ch s (buildSessionKey message)
        message.peerInfo a
      split
      · rename_i heq
        rw [heq] at hensured
        exact hensured
      · rename_i ch₁ heq
        rw [heq] at hensured htable
        refine hensured.trans (enqueueToAgent_emits ch₁ _ _ _ _ a (henqueue _ _ hadmitted) ?_)
        intro entry hget no message'
        rcases htable with hsame | ⟨-, id, hset⟩
        · rw [hsame] at hget
          exact hwritten entry hget no message'
        · rw [hset, KeyedMap.get?_set, if_pos rfl] at hget
          cases hget
          exact hslot no message'
    · exact .refl ch

/-! ### The routing table -/

theorem spawnAndInitialize_routingTable (ch : ChannelsManager c) (s : Fin c)
    (a : ChannelAnswers) : (ch.spawnAndInitialize s a).2.routingTable = ch.routingTable := by
  unfold spawnAndInitialize
  split
  · rfl
  · rfl

theorem start_routingTable (ch : ChannelsManager c) (a : Fin c → ChannelAnswers) :
    (start cfg ch a).routingTable = ch.routingTable := by
  have hslots : ∀ (ss : List (Fin c)) (ch : ChannelsManager c),
      (ss.foldl (fun ch s => startChannelSlot cfg ch s (a s)) ch).routingTable =
        ch.routingTable := by
    intro ss
    induction ss with
    | nil => exact fun _ => rfl
    | cons s rest ih =>
        intro ch
        rw [List.foldl_cons, ih]
        exact spawnAndInitialize_routingTable ch s (a s)
  exact hslots _ ch

theorem handleChannelCrash_routingTable (ch : ChannelsManager c) (s : Fin c)
    (a : ChannelAnswers) : (ch.handleChannelCrash s a).routingTable = ch.routingTable := by
  have hspawn := spawnAndInitialize_routingTable ch s a
  unfold handleChannelCrash
  split
  · rfl
  · split
    · rename_i heq
      rw [heq] at hspawn
      exact hspawn
    · rename_i heq
      rw [heq] at hspawn
      exact hspawn

theorem routePermission_routingTable (ch : ChannelsManager c) (k : SessionKey)
    (requestId description : String) (options : List PermissionOption) (event : Nat)
    (a : ChannelAnswers) :
    (ch.routePermission k requestId description options event a).routingTable =
      ch.routingTable := by
  unfold routePermission
  split
  · rfl
  · split
    · rfl
    · split
      · dsimp only
        split
        · rfl
        · rfl
      · rfl

theorem handleChannelEvent_routingTable (ch : ChannelsManager c) (event : Nat)
    (a : ChannelAnswers) (e : ChannelEvent) :
    (handleChannelEvent cfg ch event a e).routingTable = ch.routingTable := by
  cases e with
  | deliverMessage k content =>
      rw [handleChannelEvent, handleDeliverMessage]
      split
      · rfl
      · dsimp only
        rw [write_routingTable]
        split
        · rfl
        · rw [write_routingTable]
  | sessionComplete k stopReason =>
      rw [handleChannelEvent, handleSessionComplete]
      split
      · rfl
      · rw [write_routingTable]
  | routePermission k requestId description options =>
      exact routePermission_routingTable ch k requestId description options event a
  | ackMessage _ _ _ _ => rfl
  | dispatchStarted k =>
      rw [handleChannelEvent, handleDispatchStarted]
      dsimp only
      split
      · rfl
      · rw [write_routingTable, write_routingTable]

theorem enqueueToAgent_routingTable (ch : ChannelsManager c) (k : SessionKey)
    (content : List ContentPart) (metadata : Option MessageMetadata) (agentName : String)
    (a : ChannelAnswers) :
    (ch.enqueueToAgent k content metadata agentName a).routingTable = ch.routingTable := by
  unfold enqueueToAgent
  dsimp only
  split
  · rfl
  · split
    · rw [write_routingTable]
      rfl
    · rfl
  · rfl

/-- A new entry is made for the slot that a message comes from, when it is admitted. -/
theorem collectSendMessage_routingTable (cfg : ChannelsManagerConfig c) (ch : ChannelsManager c)
    (s : Fin c) (message : ChannelSendMessage) (a : ChannelAnswers) :
    (collectSendMessage cfg ch s message a).routingTable = ch.routingTable ∨
      (a.admitted.isSome = true ∧ ch.agentsHandle = true) ∧ ∃ id,
        (collectSendMessage cfg ch s message a).routingTable =
          ch.routingTable.set (buildSessionKey message) ⟨id, s⟩ := by
  unfold collectSendMessage
  split
  · exact .inl rfl
  · rename_i hadmitted
    dsimp only
    split
    · rename_i hhandle
      have htable := ensureSessionCreated_routingTable cfg ch s (buildSessionKey message)
        message.peerInfo a
      split
      · rename_i heq
        rw [heq] at htable
        refine htable.imp_right ?_
        rintro ⟨-, hset⟩
        exact ⟨⟨by rw [hadmitted]; rfl, hhandle⟩, hset⟩
      · rename_i heq
        rw [heq] at htable
        rw [enqueueToAgent_routingTable]
        refine htable.imp_right ?_
        rintro ⟨-, hset⟩
        exact ⟨⟨by rw [hadmitted]; rfl, hhandle⟩, hset⟩
    · exact .inl rfl

end Anyclaw.ChannelsManager
