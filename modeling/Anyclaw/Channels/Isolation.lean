import Anyclaw.Agents.Run
import Anyclaw.Channels.Admission
import Anyclaw.Channels.Emissions
import Anyclaw.Channels.Permissions

/-!
# Channels do not share sessions

The session key of a message is made of names that the channel process reports about itself,
and a group's context is buffered under the peer id alone.  Two slots whose processes report
the same names share a session, its routing entry and its context.

The machine below is the channels manager with access control and the context store.  It
keeps a record of which slot's messages were passed on for a session key, to which slots
something was written for it, and which slots' messages were buffered or taken as context.

The key is made by `build_session_key` of `crates/anyclaw-channels/src/manager.rs`, and the
routing table is keyed by it; the buffer is keyed by the peer id in `collect_send_message`
there.
-/

namespace Anyclaw

variable {c : Nat}

def ChannelOutput.writtenTo : ChannelOutput c → Option (Fin c)
  | .written s _ _ => some s
  | _ => none

def ChannelEvent.sessionKey : ChannelEvent → SessionKey
  | .deliverMessage k _ => k
  | .sessionComplete k _ => k
  | .routePermission k _ _ _ => k
  | .ackMessage k _ _ _ => k
  | .dispatchStarted k => k

/-- The session key that a label's event or command is for. -/
def ChannelsLabel.sessionKey : ChannelsLabel c → Option SessionKey
  | .recvEvent _ e _ => some e.sessionKey
  | .recvCommand _ (.deliverToChannel k _) _ => some k
  | .recvCommand _ (.routePermission k _ _ _) _ => some k
  | _ => none

/-- The message as it is buffered, when the bot is not mentioned in it. -/
def SentMessage.bufferedAs (m : SentMessage) (options : ChannelOptions) (sa : StoreAnswers) :
    Option ContextMessage :=
  options.accessControl.bind fun cfg =>
    if m.decision cfg = .skipNoMention then some (m.asContext sa.now) else none

/-- The context that the message brings to the agent. -/
def SentMessage.contextTaken (m : SentMessage) (options : ChannelOptions) (store : ContextStore)
    (sa : StoreAnswers) : List ContextMessage :=
  options.accessControl.elim [] fun cfg =>
    if m.decision cfg = .allow then (takenContext store m sa).1 else []

structure ChannelsInbox (c : Nat) where
  manager : ChannelsManager c
  contexts : ContextStore
  /-- The session keys for which messages were passed on, with the slots they came from. -/
  sent : List (SessionKey × Fin c)
  /-- The session keys for which something was written to a channel, with its slot. -/
  delivered : List (SessionKey × Fin c)
  /-- Buffered messages, with the slots they came from. -/
  buffered : List (ContextMessage × Fin c)
  /-- Messages taken as context, with the slots whose messages brought them to the agent. -/
  taken : List (ContextMessage × Fin c)

inductive InboxLabel (c : Nat) where
  /-- The run loop takes a `channel/sendMessage`, with what it says about the sender. -/
  | collect (s : Fin c) (senderInfo : Option SenderInfo) (wasMentioned : Option Bool)
      (sa : StoreAnswers) (a : ChannelAnswers)
  | channels (l : ChannelsLabel c)

namespace ChannelsInbox

variable (cfg : ChannelsManagerConfig c) (options : Fin c → ChannelOptions) (x : ChannelsInbox c)

def writtenFor (k : SessionKey) (ch ch' : ChannelsManager c) : List (SessionKey × Fin c) :=
  ((ch'.trace.drop ch.trace.length).filterMap ChannelOutput.writtenTo).map (k, ·)

def nextMessage (ch : ChannelsManager c) (l : ChannelsLabel c) : Option ChannelSendMessage :=
  match ch.streamed l with
  | some (.sendMessage message) => some message
  | _ => none

def collect (s : Fin c) (m : SentMessage) (sa : StoreAnswers) (a : ChannelAnswers) :
    Option (ChannelsInbox c) :=
  let k := ChannelsManager.buildSessionKey m.toChannelSendMessage
  match admitMessage (options s) x.contexts m sa with
  | (admitted, contexts) =>
      (ChannelsManager.step cfg x.manager (.recvStream s { a with admitted := admitted })).map
        fun manager => {
          manager := manager
          contexts := contexts
          sent := if admitted.isSome && x.manager.agentsHandle then x.sent ++ [(k, s)] else x.sent
          delivered := x.delivered ++ writtenFor k x.manager manager
          buffered := x.buffered ++ (m.bufferedAs (options s) sa).toList.map (·, s)
          taken := x.taken ++ (m.contextTaken (options s) x.contexts sa).map (·, s) }

def step : InboxLabel c → Option (ChannelsInbox c)
  | .collect s senderInfo wasMentioned sa a =>
      (nextMessage x.manager (.recvStream s a)).bind fun message =>
        collect cfg options x s ⟨message, senderInfo, wasMentioned⟩ sa a
  | .channels l =>
      if (nextMessage x.manager l).isSome then none
      else
        (ChannelsManager.step cfg x.manager l).map fun manager =>
          { x with
            manager := manager
            delivered := x.delivered ++
              l.sessionKey.elim [] fun k => writtenFor k x.manager manager }

def fresh (ch : ChannelsManager c) (contexts : ContextStore) : ChannelsInbox c :=
  ⟨ch, contexts, [], [], [], []⟩

def life : Machine (ChannelsInbox c) (InboxLabel c) where
  init x := ∃ ch contexts, (ChannelsManager.life cfg).init ch ∧ x = fresh ch contexts
  step := step cfg options

/-! ### Isolation -/

/-- No two slots share a session, a routing entry or a buffered context, and what is written
    for a session goes to the slot that its messages came from. -/
structure Isolated (x : ChannelsInbox c) : Prop where
  sessions : ∀ k s s', (k, s) ∈ x.sent → (k, s') ∈ x.sent → s = s'
  routed : ∀ k entry, x.manager.routingTable.get? k = some entry → (k, entry.slotIndex) ∈ x.sent
  delivered : ∀ k s, (k, s) ∈ x.delivered → (k, s) ∈ x.sent
  contexts : ∀ m s s', (m, s) ∈ x.buffered → (m, s') ∈ x.taken → s = s'

/-- The processes report session keys and peer ids of their own: a message of slot `s` that is
    passed on has a session key of `s`, and one that is buffered or brings context has a peer
    id of `s`. -/
def ReportsOwn (owner : SessionKey → Fin c) (groupOwner : String → Fin c) (x : ChannelsInbox c) :
    InboxLabel c → Prop
  | .collect s senderInfo wasMentioned sa a =>
      ∀ message ∈ nextMessage x.manager (.recvStream s a),
        let m : SentMessage := ⟨message, senderInfo, wasMentioned⟩
        ((admitMessage (options s) x.contexts m sa).1.isSome = true → x.manager.agentsHandle = true →
          owner (ChannelsManager.buildSessionKey message) = s) ∧
        ((m.bufferedAs (options s) sa).isSome = true ∨
            m.contextTaken (options s) x.contexts sa ≠ [] →
          groupOwner message.peerInfo.peerId = s)
  | .channels _ => True

instance (owner : SessionKey → Fin c) (groupOwner : String → Fin c) :
    DecidableRel (ReportsOwn options owner groupOwner) := by
  intro x l
  unfold ReportsOwn
  split <;> infer_instance

/-! ### What a step routes and writes -/

section Steps

variable {cfg options x} {x' : ChannelsInbox c} {ch ch' : ChannelsManager c}

theorem collectSendMessage_idle {s : Fin c} {message : ChannelSendMessage} {a : ChannelAnswers}
    (h : (a.admitted.isSome && ch.agentsHandle) = false) :
    ChannelsManager.collectSendMessage cfg ch s message a = ch := by
  unfold ChannelsManager.collectSendMessage
  split
  · rfl
  · rename_i hadmitted
    rw [hadmitted, Option.isSome_some, Bool.true_and] at h
    rw [h]
    rfl

theorem step_of_nextMessage {s : Fin c} {a a' : ChannelAnswers} {message : ChannelSendMessage}
    (h : ChannelsManager.step cfg ch (.recvStream s a) = some ch')
    (hnext : nextMessage ch (.recvStream s a') = some message) :
    ∃ stream, ch' = ChannelsManager.collectSendMessage cfg
      (ch.setSlot s { ch.slots s with stream := stream }) s message a := by
  unfold nextMessage ChannelsManager.streamed at hnext
  dsimp only at hnext
  cases ChannelsManager.turn_of_step h with
  | waitEnded hends _ => cases hends
  | collected _ hstream hmessages =>
      rw [hstream, Option.bind_some, hmessages, List.head?_cons] at hnext
      split at hnext
      · rename_i message' heq
        cases hnext
        cases heq
        exact ⟨_, rfl⟩
      · cases hnext
  | crashed _ hstream hmessages _ =>
      rw [hstream, Option.bind_some, hmessages] at hnext
      cases hnext

/-- Only a message that is passed on changes the routing table. -/
theorem step_routingTable {l : ChannelsLabel c} (h : ChannelsManager.step cfg ch l = some ch')
    (hnext : nextMessage ch l = none) : ch'.routingTable = ch.routingTable := by
  cases ChannelsManager.turn_of_step h with
  | started _ => exact ChannelsManager.start_routingTable ch _
  | queued _ _ => rfl
  | eof _ _ => rfl
  | waitEnded _ _ => rfl
  | @collected s a _ message _ _ hstream hmessages =>
      unfold nextMessage ChannelsManager.streamed at hnext
      dsimp only at hnext
      rw [hstream, Option.bind_some, hmessages, List.head?_cons] at hnext
      cases message with
      | sendMessage message => cases hnext
      | respondPermission requestId optionId =>
          rw [ChannelsManager.collectChannelMessage, ChannelsManager.handleRespondPermission]
          split <;> rfl
      | unhandled => rfl
  | crashed _ _ _ _ => exact ChannelsManager.handleChannelCrash_routingTable ch _ _
  | @event event e a _ => exact ChannelsManager.handleChannelEvent_routingTable ch event a e
  | @command event command a _ =>
      cases command with
      | deliverToChannel k content =>
          rw [ChannelsManager.handleCommand]
          split
          · rfl
          · rw [ChannelsManager.write_routingTable]
      | routePermission k requestId description options =>
          exact ChannelsManager.routePermission_routingTable ch k requestId description options
            event a
      | shutdown => rfl
  | cancelled _ => rfl

/-- What is done for a session key is written to the slot of its routing entry. -/
theorem step_emits {P : ChannelOutput c → Prop} {l : ChannelsLabel c} {k : SessionKey}
    (h : ChannelsManager.step cfg ch l = some ch') (hk : l.sessionKey = some k)
    (hP : ChannelsManager.WritesFor ch k P) : ChannelsManager.Emits P ch ch' := by
  cases l with
  | recvEvent event e a =>
      obtain ⟨_, heq⟩ := Option.ite_none_right_eq_some.mp h
      cases heq
      cases hk
      cases e with
      | deliverMessage k content => exact ChannelsManager.handleDeliverMessage_emits content a hP
      | sessionComplete k stopReason =>
          exact ChannelsManager.handleSessionComplete_emits stopReason a hP
      | routePermission k requestId description options =>
          exact ChannelsManager.routePermission_emits requestId description options event a hP
      | ackMessage _ _ _ _ => exact .refl ch
      | dispatchStarted k => exact ChannelsManager.handleDispatchStarted_emits a hP
  | recvCommand event command a =>
      obtain ⟨_, heq⟩ := Option.ite_none_right_eq_some.mp h
      cases heq
      cases command with
      | deliverToChannel k content =>
          cases hk
          rw [ChannelsManager.handleCommand]
          split
          · exact .refl ch
          · rename_i entry hget
            exact ChannelsManager.write_emits ch _ _ _ fun no => hP entry hget no _
      | routePermission k requestId description options =>
          cases hk
          exact ChannelsManager.routePermission_emits requestId description options event a hP
      | shutdown => cases hk
  | _ => cases hk

theorem mem_writtenFor {P : Fin c → Prop} {k k' : SessionKey} {s : Fin c}
    (h : ChannelsManager.Emits (fun o => ∀ s, o.writtenTo = some s → P s) ch ch')
    (hmem : (k', s) ∈ writtenFor k ch ch') : k' = k ∧ P s := by
  obtain ⟨s', hs', heq⟩ := List.mem_map.mp hmem
  cases heq
  obtain ⟨o, ho, hwritten⟩ := List.mem_filterMap.mp hs'
  exact ⟨rfl, h.of_mem_drop ho s hwritten⟩

/-! ### The records -/

/-- What is routed or written for a session key goes to a slot that has sent messages for it. -/
structure Attributed (x : ChannelsInbox c) : Prop where
  routed : ∀ k entry, x.manager.routingTable.get? k = some entry → (k, entry.slotIndex) ∈ x.sent
  delivered : ∀ k s, (k, s) ∈ x.delivered → (k, s) ∈ x.sent

theorem collect_attributed {s : Fin c} {m : SentMessage} {sa : StoreAnswers} {a a' : ChannelAnswers}
    (h : collect cfg options x s m sa a = some x')
    (hnext : nextMessage x.manager (.recvStream s a') = some m.toChannelSendMessage)
    (hx : Attributed x) : Attributed x' := by
  unfold collect at h
  dsimp only at h
  obtain ⟨manager, hstep, rfl⟩ := Option.map_eq_some_iff.mp h
  obtain ⟨stream, hmanager⟩ := step_of_nextMessage hstep hnext
  have hsent : ∀ k s', (k, s') ∈ x.sent →
      (k, s') ∈ if (admitMessage (options s) x.contexts m sa).1.isSome && x.manager.agentsHandle then
        x.sent ++ [(ChannelsManager.buildSessionKey m.toChannelSendMessage, s)] else x.sent := by
    intro k s' hmem
    split
    · exact List.mem_append_left _ hmem
    · exact hmem
  cases hpassed : (admitMessage (options s) x.contexts m sa).1.isSome && x.manager.agentsHandle with
  | false =>
      rw [collectSendMessage_idle hpassed] at hmanager
      have hsilent : ChannelsManager.Emits (fun _ => False) x.manager manager := by
        rw [hmanager]
        exact .of_trace rfl
      constructor
      · intro k entry hget
        refine hx.routed k entry ?_
        rw [hmanager] at hget
        exact hget
      · intro k s' hmem
        rcases List.mem_append.mp hmem with hold | hnew
        · exact hx.delivered k s' hold
        · have hnone : ChannelsManager.Emits
              (fun o => ∀ s, o.writtenTo = some s → False) x.manager manager :=
            hsilent.mono fun o hfalse => hfalse.elim
          exact (mem_writtenFor hnone hnew).2.elim
  | true =>
      have hself : (ChannelsManager.buildSessionKey m.toChannelSendMessage, s) ∈ x.sent ++
          [(ChannelsManager.buildSessionKey m.toChannelSendMessage, s)] :=
        List.mem_append_right _ List.mem_cons_self
      constructor
      · intro k entry hget
        dsimp only at hget ⊢
        rw [if_pos rfl]
        rw [hmanager] at hget
        rcases ChannelsManager.collectSendMessage_routingTable cfg _ s m.toChannelSendMessage _
          with hsame | ⟨-, id, hset⟩
        · rw [hsame] at hget
          exact List.mem_append_left _ (hx.routed k entry hget)
        · rw [hset, KeyedMap.get?_set] at hget
          split at hget
          · rename_i hk
            cases hget
            rw [hk]
            exact hself
          · exact List.mem_append_left _ (hx.routed k entry hget)
      · intro k s' hmem
        dsimp only at hmem ⊢
        rw [if_pos rfl]
        rcases List.mem_append.mp hmem with hold | hnew
        · exact List.mem_append_left _ (hx.delivered k s' hold)
        · have hemits : ChannelsManager.Emits (fun o => ∀ s', o.writtenTo = some s' →
              (ChannelsManager.buildSessionKey m.toChannelSendMessage, s') ∈ x.sent ++
                [(ChannelsManager.buildSessionKey m.toChannelSendMessage, s)])
              x.manager manager := by
            rw [hmanager]
            refine ChannelsManager.Emits.trans (.of_trace rfl)
              (ChannelsManager.collectSendMessage_emits _ s _ _ ?_ ?_ ?_ ?_)
            · intro s' hwritten
              cases hwritten
            · intro content metadata _ s' hwritten
              cases hwritten
            · intro no message s' hwritten
              cases hwritten
              exact hself
            · intro entry hget no message s' hwritten
              cases hwritten
              exact List.mem_append_left _ (hx.routed _ entry hget)
          obtain ⟨rfl, hs'⟩ := mem_writtenFor hemits hnew
          exact hs'

theorem step_attributed {l : InboxLabel c} (h : step cfg options x l = some x')
    (hx : Attributed x) : Attributed x' := by
  cases l with
  | collect s senderInfo wasMentioned sa a =>
      obtain ⟨message, hnext, hcollect⟩ := Option.bind_eq_some_iff.mp h
      exact collect_attributed hcollect hnext hx
  | channels l =>
      obtain ⟨hnext, hmap⟩ := Option.ite_none_left_eq_some.mp h
      obtain ⟨manager, hstep, rfl⟩ := Option.map_eq_some_iff.mp hmap
      rw [Option.not_isSome_iff_eq_none] at hnext
      constructor
      · intro k entry hget
        dsimp only at hget
        rw [step_routingTable hstep hnext] at hget
        exact hx.routed k entry hget
      · intro k s hmem
        rcases List.mem_append.mp hmem with hold | hnew
        · exact hx.delivered k s hold
        · cases hk : l.sessionKey with
          | none =>
              rw [hk] at hnew
              cases hnew
          | some k' =>
              rw [hk] at hnew
              have hemits : ChannelsManager.Emits
                  (fun o => ∀ s, o.writtenTo = some s → (k', s) ∈ x.sent) x.manager manager := by
                refine step_emits hstep hk ?_
                intro entry hget no message s hwritten
                cases hwritten
                exact hx.routed k' entry hget
              obtain ⟨rfl, hs⟩ := mem_writtenFor hemits hnew
              exact hs

structure Owned (owner : SessionKey → Fin c) (groupOwner : String → Fin c)
    (x : ChannelsInbox c) : Prop where
  sent : ∀ k s, (k, s) ∈ x.sent → owner k = s
  buffered : ∀ m s, (m, s) ∈ x.buffered → groupOwner m.groupKey = s
  taken : ∀ m s, (m, s) ∈ x.taken → groupOwner m.groupKey = s

theorem groupKey_of_bufferedAs {m : SentMessage} {o : ChannelOptions} {sa : StoreAnswers}
    {msg : ContextMessage} (h : m.bufferedAs o sa = some msg) :
    msg.groupKey = m.peerInfo.peerId := by
  obtain ⟨access, -, hskip⟩ := Option.bind_eq_some_iff.mp h
  obtain ⟨-, heq⟩ := Option.ite_none_right_eq_some.mp hskip
  cases heq
  rfl

theorem groupKey_of_contextTaken {m : SentMessage} {o : ChannelOptions} {store : ContextStore}
    {sa : StoreAnswers} {msg : ContextMessage} (h : msg ∈ m.contextTaken o store sa) :
    msg.groupKey = m.peerInfo.peerId := by
  unfold SentMessage.contextTaken at h
  cases haccess : o.accessControl with
  | none =>
      rw [haccess] at h
      cases h
  | some access =>
      rw [haccess, Option.elim_some] at h
      split at h
      · unfold takenContext at h
        split at h
        · exact ContextStore.groupKey_of_takeContext h
        · cases h
      · cases h

theorem step_owned {owner : SessionKey → Fin c} {groupOwner : String → Fin c} {l : InboxLabel c}
    (h : step cfg options x l = some x') (hguard : ReportsOwn options owner groupOwner x l)
    (hx : Owned owner groupOwner x) : Owned owner groupOwner x' := by
  cases l with
  | collect s senderInfo wasMentioned sa a =>
      obtain ⟨message, hnext, hcollect⟩ := Option.bind_eq_some_iff.mp h
      obtain ⟨hkey, hgroup⟩ := hguard message hnext
      unfold collect at hcollect
      dsimp only at hcollect hkey hgroup
      obtain ⟨manager, hstep, rfl⟩ := Option.map_eq_some_iff.mp hcollect
      refine ⟨?_, ?_, ?_⟩
      · intro k s' hmem
        dsimp only at hmem
        split at hmem
        · rename_i hpassed
          rw [Bool.and_eq_true] at hpassed
          rcases List.mem_append.mp hmem with hold | hnew
          · exact hx.sent k s' hold
          · cases List.mem_singleton.mp hnew
            exact hkey hpassed.1 hpassed.2
        · exact hx.sent k s' hmem
      · intro msg s' hmem
        rcases List.mem_append.mp hmem with hold | hnew
        · exact hx.buffered msg s' hold
        · obtain ⟨msg', hmsg, heq⟩ := List.mem_map.mp hnew
          cases heq
          have hbuffered := Option.mem_toList.mp hmsg
          rw [groupKey_of_bufferedAs hbuffered]
          exact hgroup (.inl (Option.isSome_iff_exists.mpr ⟨_, hbuffered⟩))
      · intro msg s' hmem
        rcases List.mem_append.mp hmem with hold | hnew
        · exact hx.taken msg s' hold
        · obtain ⟨msg', hmsg, heq⟩ := List.mem_map.mp hnew
          cases heq
          rw [groupKey_of_contextTaken hmsg]
          exact hgroup (.inr (List.ne_nil_of_mem hmsg))
  | channels l =>
      obtain ⟨_, hmap⟩ := Option.ite_none_left_eq_some.mp h
      obtain ⟨manager, _, rfl⟩ := Option.map_eq_some_iff.mp hmap
      exact ⟨hx.sent, hx.buffered, hx.taken⟩

/-! ### Runs -/

/-- **Replies go back where the messages came from**, and no two slots share a session, a
    routing entry or a buffered context, in every run in which the processes of different
    slots report different session keys and peer ids. -/
theorem isolated_of_reportsOwn {owner : SessionKey → Fin c} {groupOwner : String → Fin c}
    (h : (life cfg options).ReachableUnder (ReportsOwn options owner groupOwner) x) :
    Isolated x := by
  have hattributed : Attributed x := by
    refine h.invariant (I := Attributed) ?_ ?_
    · rintro x ⟨ch, contexts, ⟨agentsHandle, rfl⟩, rfl⟩
      exact ⟨fun k entry hget => (nomatch hget), fun k s hmem => (nomatch hmem)⟩
    · intro x l x' _ hx _ hstep
      exact step_attributed hstep hx
  have howned : Owned owner groupOwner x := by
    refine h.invariant (I := Owned owner groupOwner) ?_ ?_
    · rintro x ⟨ch, contexts, -, rfl⟩
      exact ⟨fun k s hmem => (nomatch hmem), fun m s hmem => (nomatch hmem),
        fun m s hmem => (nomatch hmem)⟩
    · intro x l x' _ hx hguard hstep
      exact step_owned hstep hguard hx
  refine ⟨?_, hattributed.routed, hattributed.delivered, ?_⟩
  · intro k s s' hs hs'
    rw [← howned.sent k s hs, howned.sent k s' hs']
  · intro m s s' hs hs'
    rw [← howned.buffered m s hs, howned.taken m s' hs']

end Steps

end ChannelsInbox

/-! ### Samples -/

namespace Sample

/-- Two channels, which talk to the same agent. -/
def twoChannels : ChannelsManagerConfig 2 where
  channels := fun s => {
    name := if s = 0 then "one" else "two"
    agent := "a"
    backoff := none
    crashTracker := none }
  permissionTimeoutSecs := none

def openOptions : Fin 2 → ChannelOptions := fun _ => ⟨none, 50⟩

/-- `bob` writes on the channel of slot `s`, whose process reports the given channel name. -/
def writeFrom (s : Fin 2) (channelName : String) : List (InboxLabel 2) :=
  [.channels (.incoming s (.sendMessage ⟨⟨channelName, "bob", "direct"⟩, [.text "hello"], none⟩)),
    .collect s none none storeAnswers (channelAnswers "s")]

/-- A user of each slot writes, and the agent answers in the session of `chat:direct:bob`. -/
def bothWrite (first second : String) : List (InboxLabel 2) :=
  .channels (.start fun _ => channelAnswers "s") :: (writeFrom 0 first ++ writeFrom 1 second ++
    [.channels (.recvEvent 0 (.deliverMessage bob (.errorResult "no")) (channelAnswers "s"))])

end Sample

namespace ChannelsInbox

theorem isolated_of_reportsOwn_two :
    ∃ x : ChannelsInbox 2, x.sent.length = 2 ∧ x.delivered ≠ [] ∧ Isolated x := by
  have hrun : ∃ x ∈ (life Sample.twoChannels Sample.openOptions).run
      (ReportsOwn Sample.openOptions (fun k => if k = Sample.bob then 0 else 1) fun _ => 0)
      (fresh (ChannelsManager.fresh Sample.twoChannels true) .empty)
      (Sample.bothWrite "chat" "web"), x.sent.length = 2 ∧ x.delivered ≠ [] := by
    decide
  obtain ⟨x, hx, hsent, hdelivered⟩ := hrun
  refine ⟨x, hsent, hdelivered, ?_⟩
  exact isolated_of_reportsOwn
    (Machine.reachable_of_run _ ⟨_, _, ⟨true, rfl⟩, rfl⟩ hx)

/-- The processes of two slots report the same channel name, as two instances of one channel
    binary do: the second user writes into the session of the first. -/
theorem session_shared_by_slots :
    ¬ ∀ (c : Nat) (cfg : ChannelsManagerConfig c) (options : Fin c → ChannelOptions)
        (x : ChannelsInbox c), (life cfg options).Reachable x → Isolated x := by
  intro hall
  have hrun : ∃ x ∈ (life Sample.twoChannels Sample.openOptions).run (fun _ _ => True)
      (fresh (ChannelsManager.fresh Sample.twoChannels true) .empty)
      (Sample.bothWrite "chat" "chat"), (Sample.bob, 0) ∈ x.sent ∧ (Sample.bob, 1) ∈ x.sent := by
    decide
  obtain ⟨x, hx, hfirst, hsecond⟩ := hrun
  have hreach : (life Sample.twoChannels Sample.openOptions).Reachable x :=
    Machine.reachable_of_run _ ⟨_, _, ⟨true, rfl⟩, rfl⟩ hx
  have hsame := (hall 2 Sample.twoChannels Sample.openOptions x hreach).sessions
    Sample.bob 0 1 hfirst hsecond
  exact absurd hsame (by decide)

end ChannelsInbox

end Anyclaw
