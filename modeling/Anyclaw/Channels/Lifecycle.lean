import Anyclaw.Channels.Conversations

/-!
# What a channel is told of an answer

The agents manager reports when a prompt of a session is dispatched, each part of the answer,
and the end.  The channel is told that an answer begins with the first part after a dispatch,
and not again before the next one, although no event says so: the manager keeps the set of the
sessions whose answer has begun.

`begun` reads this off the history of the run, and with it every step's messages are
determined by its event.

The set is `acked_sessions` of `crates/anyclaw-channels/src/manager.rs`:
`handle_deliver_message` enters a session and `handle_dispatch_started` removes it.
-/

namespace Anyclaw

variable {c : Nat}

def ToChannel.isLifecycle : ToChannel → Bool
  | .responseStarted _ | .responseCompleted _ _ | .ackMessage _ _ _ | .typingIndicator _ _ => true
  | _ => false

def ChannelOutput.isLifecycle : ChannelOutput c → Bool
  | .written _ _ message => message.isLifecycle
  | _ => false

def ChannelsLabel.event : ChannelsLabel c → Option ChannelEvent
  | .recvEvent _ e _ => some e
  | _ => none

/-- The messages that an event brings the channel of `entry`, when the writer task takes them. -/
def ChannelEvent.messages (cfg : ChannelsManagerConfig c) (begun : Bool) (entry : RoutingEntry c)
    (a : ChannelAnswers) : ChannelEvent → List ToChannel
  | .deliverMessage _ content =>
      (if begun || !a.firstSent then [] else [.responseStarted entry.acpSessionId]) ++
        if a.sent then [.deliverMessage entry.acpSessionId content] else []
  | .sessionComplete _ stopReason =>
      if a.sent then [.responseCompleted entry.acpSessionId stopReason] else []
  | .routePermission _ requestId description options =>
      if a.sent then [.requestPermission requestId entry.acpSessionId description options] else []
  | .ackMessage _ _ _ _ => []
  | .dispatchStarted k =>
      (if a.firstSent then
        [.ackMessage entry.acpSessionId (cfg.channels entry.slotIndex).name
          (ChannelsManager.peerId k)]
      else []) ++
        if a.sent then
          [.typingIndicator entry.acpSessionId (cfg.channels entry.slotIndex).name]
        else []

namespace ChannelsManager

variable {cfg : ChannelsManagerConfig c} {ch ch' : ChannelsManager c} {l : ChannelsLabel c}

/-- Where the messages for a session go: its routing entry, and the process there. -/
def recipient (ch : ChannelsManager c) (k : SessionKey) :
    Option (RoutingEntry c × ChannelConnection) :=
  (ch.routingTable.get? k).bind fun entry =>
    (ch.slots entry.slotIndex).connection.map fun conn => (entry, conn)

/-- The step writes these messages to the recipient. -/
def writtenTo (recipient : Option (RoutingEntry c × ChannelConnection))
    (messages : RoutingEntry c → List ToChannel) : List (ChannelOutput c) :=
  recipient.elim [] fun r => (messages r.1).map (.written r.1.slotIndex r.2.no)

/-- The step brings a part of an answer for `k`, which is routed. -/
def Delivers (k : SessionKey) (t : Machine.Taken (ChannelsManager c) (ChannelsLabel c)) : Prop :=
  (∃ content, t.label.event = some (.deliverMessage k content)) ∧
    t.before.routingTable.contains k = true

/-- A part of an answer for `k` came, and no prompt for `k` was dispatched since. -/
def Begun (k : SessionKey) (steps : List (Machine.Taken (ChannelsManager c) (ChannelsLabel c))) :
    Prop :=
  ∃ earlier t later, steps = earlier ++ t :: later ∧ Delivers k t ∧
    ∀ t' ∈ later, t'.label.event ≠ some (.dispatchStarted k)

/-! ### What the handlers write -/

theorem trace_write (ch : ChannelsManager c) (s : Fin c) (accepted : Bool) (message : ToChannel) :
    (ch.write s accepted message).trace = ch.trace ++
      (ch.slots s).connection.elim [] fun conn =>
        if accepted then [.written s conn.no message] else [] := by
  unfold write
  cases (ch.slots s).connection with
  | none => simp
  | some conn => cases accepted <;> simp

@[simp] theorem write_slots (ch : ChannelsManager c) (s : Fin c) (accepted : Bool)
    (message : ToChannel) : (ch.write s accepted message).slots = ch.slots :=
  (write_steady ch s accepted message).slots

@[simp] theorem write_ackedSessions (ch : ChannelsManager c) (s : Fin c) (accepted : Bool)
    (message : ToChannel) : (ch.write s accepted message).ackedSessions = ch.ackedSessions := by
  unfold write
  split
  · split <;> rfl
  · rfl

theorem trace_routePermission (ch : ChannelsManager c) (k : SessionKey)
    (requestId description : String) (options : List PermissionOption) (event : Nat)
    (a : ChannelAnswers) :
    (ch.routePermission k requestId description options event a).trace = ch.trace ++
      writtenTo (ch.recipient k) fun entry =>
        if a.sent then [.requestPermission requestId entry.acpSessionId description options]
        else [] := by
  unfold routePermission writtenTo recipient
  cases ch.routingTable.get? k with
  | none => simp
  | some entry =>
      cases hconn : (ch.slots entry.slotIndex).connection with
      | none => simp [hconn]
      | some conn =>
          cases hsent : a.sent with
          | false => simp [hconn]
          | true => cases hhandle : ch.agentsHandle <;> simp [hconn, hhandle]

theorem trace_handleDeliverMessage (ch : ChannelsManager c) (k : SessionKey)
    (content : Delivered) (a : ChannelAnswers) :
    (ch.handleDeliverMessage k content a).trace = ch.trace ++
      writtenTo (ch.recipient k) fun entry =>
        (ChannelEvent.deliverMessage k content).messages cfg (decide (k ∈ ch.ackedSessions))
          entry a := by
  unfold handleDeliverMessage writtenTo recipient ChannelEvent.messages
  cases ch.routingTable.get? k with
  | none => simp
  | some entry =>
      by_cases hacked : k ∈ ch.ackedSessions
      · cases hconn : (ch.slots entry.slotIndex).connection with
        | none => simp [hacked, trace_write, hconn]
        | some conn => cases hsent : a.sent <;> simp [hacked, trace_write, hconn]
      · cases hconn : (ch.slots entry.slotIndex).connection with
        | none => simp [hacked, trace_write, hconn]
        | some conn =>
            cases hfirst : a.firstSent <;> cases hsent : a.sent <;>
              simp [hacked, trace_write, hconn]

theorem trace_handleDispatchStarted (ch : ChannelsManager c) (k : SessionKey) (begun : Bool)
    (a : ChannelAnswers) :
    (handleDispatchStarted cfg ch k a).trace = ch.trace ++
      writtenTo (ch.recipient k) fun entry =>
        (ChannelEvent.dispatchStarted k).messages cfg begun entry a := by
  unfold handleDispatchStarted writtenTo recipient ChannelEvent.messages
  dsimp only
  cases ch.routingTable.get? k with
  | none => simp
  | some entry =>
      cases hconn : (ch.slots entry.slotIndex).connection with
      | none => simp [trace_write, hconn]
      | some conn =>
          cases hfirst : a.firstSent <;> cases hsent : a.sent <;> simp [trace_write, hconn]

theorem trace_handleSessionComplete (ch : ChannelsManager c) (k : SessionKey)
    (stopReason : StopReason) (begun : Bool) (a : ChannelAnswers) :
    (ch.handleSessionComplete k stopReason a).trace = ch.trace ++
      writtenTo (ch.recipient k) fun entry =>
        (ChannelEvent.sessionComplete k stopReason).messages cfg begun entry a := by
  unfold handleSessionComplete writtenTo recipient ChannelEvent.messages
  cases ch.routingTable.get? k with
  | none => simp
  | some entry =>
      cases hconn : (ch.slots entry.slotIndex).connection with
      | none => simp [trace_write, hconn]
      | some conn => cases hsent : a.sent <;> simp [trace_write, hconn]

theorem mem_writtenTo {recipient : Option (RoutingEntry c × ChannelConnection)}
    {messages : RoutingEntry c → List ToChannel} {o : ChannelOutput c}
    (h : o ∈ writtenTo recipient messages) :
    ∃ r message, recipient = some r ∧ message ∈ messages r.1 ∧
      o = .written r.1.slotIndex r.2.no message := by
  cases recipient with
  | none => cases h
  | some r =>
      obtain ⟨message, hmessage, rfl⟩ := List.mem_map.mp h
      exact ⟨r, message, rfl, hmessage, rfl⟩

/-- **What an event writes.** -/
theorem trace_handleChannelEvent (ch : ChannelsManager c) (event : Nat) (a : ChannelAnswers)
    (e : ChannelEvent) :
    (handleChannelEvent cfg ch event a e).trace = ch.trace ++
      writtenTo (ch.recipient e.sessionKey) fun entry =>
        e.messages cfg (decide (e.sessionKey ∈ ch.ackedSessions)) entry a := by
  cases e with
  | deliverMessage k content => exact trace_handleDeliverMessage ch k content a
  | sessionComplete k stopReason => exact trace_handleSessionComplete ch k stopReason _ a
  | routePermission k requestId description options =>
      exact trace_routePermission ch k requestId description options event a
  | ackMessage k _ _ _ =>
      unfold handleChannelEvent writtenTo ChannelEvent.messages
      cases ch.recipient (ChannelEvent.sessionKey (.ackMessage k _ _ _)) <;> simp
  | dispatchStarted k => exact trace_handleDispatchStarted ch k _ a

/-! ### Sessions whose answer has begun -/

@[simp] theorem emit_acked (ch : ChannelsManager c) (o : ChannelOutput c) :
    (ch.emit o).ackedSessions = ch.ackedSessions := rfl

@[simp] theorem setSlot_acked (ch : ChannelsManager c) (s : Fin c) (slot : ChannelSlot) :
    (ch.setSlot s slot).ackedSessions = ch.ackedSessions := rfl

@[simp] theorem spawnAndInitialize_acked (ch : ChannelsManager c) (s : Fin c)
    (a : ChannelAnswers) :
    (ch.spawnAndInitialize s a).2.ackedSessions = ch.ackedSessions := by
  unfold spawnAndInitialize
  split <;> simp

theorem start_acked (ch : ChannelsManager c) (a : Fin c → ChannelAnswers) :
    (start cfg ch a).ackedSessions = ch.ackedSessions := by
  have hslots : ∀ (ss : List (Fin c)) (ch : ChannelsManager c),
      (ss.foldl (fun ch s => startChannelSlot cfg ch s (a s)) ch).ackedSessions =
        ch.ackedSessions := by
    intro ss
    induction ss with
    | nil => exact fun _ => rfl
    | cons s rest ih =>
        intro ch
        rw [List.foldl_cons, ih]
        exact spawnAndInitialize_acked ch s (a s)
  exact hslots _ ch

theorem handleChannelCrash_acked (ch : ChannelsManager c) (s : Fin c) (a : ChannelAnswers) :
    (ch.handleChannelCrash s a).ackedSessions = ch.ackedSessions := by
  have hspawn := spawnAndInitialize_acked ch s a
  unfold handleChannelCrash
  split
  · rfl
  · split
    · rename_i heq
      rw [heq] at hspawn
      exact hspawn
    · rename_i heq
      rw [heq] at hspawn
      exact hspawn

theorem routePermission_acked (ch : ChannelsManager c) (k : SessionKey)
    (requestId description : String) (options : List PermissionOption) (event : Nat)
    (a : ChannelAnswers) :
    (ch.routePermission k requestId description options event a).ackedSessions =
      ch.ackedSessions := by
  unfold routePermission
  split
  · rfl
  · split
    · rfl
    · split
      · dsimp only
        split <;> rfl
      · rfl

theorem ensureSessionCreated_acked (cfg : ChannelsManagerConfig c) (ch : ChannelsManager c) (s : Fin c) (k : SessionKey)
    (peerInfo : PeerInfo) (a : ChannelAnswers) :
    (ensureSessionCreated cfg ch s k peerInfo a).2.ackedSessions = ch.ackedSessions := by
  unfold ensureSessionCreated
  split
  · rfl
  · dsimp only
    split <;> simp

theorem enqueueToAgent_acked (ch : ChannelsManager c) (k : SessionKey)
    (content : List ContentPart) (metadata : Option MessageMetadata) (agentName : String)
    (a : ChannelAnswers) :
    (ch.enqueueToAgent k content metadata agentName a).ackedSessions = ch.ackedSessions := by
  unfold enqueueToAgent
  dsimp only
  split
  · rfl
  · split <;> simp
  · rfl

theorem collectSendMessage_acked (ch : ChannelsManager c) (s : Fin c)
    (message : ChannelSendMessage) (a : ChannelAnswers) :
    (collectSendMessage cfg ch s message a).ackedSessions = ch.ackedSessions := by
  unfold collectSendMessage
  split
  · rfl
  · dsimp only
    split
    · have hensured := ensureSessionCreated_acked cfg ch s (buildSessionKey message)
        message.peerInfo a
      split
      · rename_i heq
        rw [heq] at hensured
        exact hensured
      · rename_i heq
        rw [heq] at hensured
        exact (enqueueToAgent_acked _ _ _ _ _ a).trans hensured
    · rfl

theorem collectChannelMessage_acked (ch : ChannelsManager c) (s : Fin c) (a : ChannelAnswers)
    (message : ChannelMessage) :
    (collectChannelMessage cfg ch s a message).ackedSessions = ch.ackedSessions := by
  cases message with
  | sendMessage message => exact collectSendMessage_acked ch s message a
  | respondPermission requestId optionId =>
      rw [collectChannelMessage, handleRespondPermission]
      split <;> simp
  | unhandled => rfl

theorem handleDeliverMessage_acked (ch : ChannelsManager c) (k : SessionKey)
    (content : Delivered) (a : ChannelAnswers) :
    (ch.handleDeliverMessage k content a).ackedSessions =
      if ch.routingTable.contains k then insert k ch.ackedSessions else ch.ackedSessions := by
  unfold handleDeliverMessage
  cases hget : ch.routingTable.get? k with
  | none => simp [(KeyedMap.not_contains_iff ch.routingTable k).mpr hget]
  | some entry =>
      rw [if_pos ((KeyedMap.contains_iff ch.routingTable k).mpr ⟨entry, hget⟩)]
      by_cases hacked : k ∈ ch.ackedSessions
      · simp [hacked]
      · simp [hacked]

theorem handleDispatchStarted_acked (ch : ChannelsManager c) (k : SessionKey)
    (a : ChannelAnswers) :
    (handleDispatchStarted cfg ch k a).ackedSessions = ch.ackedSessions.erase k := by
  unfold handleDispatchStarted
  dsimp only
  split <;> simp

/-- The set of the sessions whose answer has begun, after a step. -/
theorem step_acked (h : step cfg ch l = some ch') (k : SessionKey) :
    k ∈ ch'.ackedSessions ↔ Delivers k ⟨ch, l, ch'⟩ ∨
      (k ∈ ch.ackedSessions ∧ l.event ≠ some (.dispatchStarted k)) := by
  have hkept : (∀ content, l.event ≠ some (.deliverMessage k content)) →
      l.event ≠ some (.dispatchStarted k) → ch'.ackedSessions = ch.ackedSessions →
      (k ∈ ch'.ackedSessions ↔ Delivers k ⟨ch, l, ch'⟩ ∨
        (k ∈ ch.ackedSessions ∧ l.event ≠ some (.dispatchStarted k))) := by
    intro hdeliver hdispatch heq
    rw [heq]
    constructor
    · exact fun hmem => Or.inr ⟨hmem, hdispatch⟩
    · rintro (⟨⟨content, hevent⟩, -⟩ | ⟨hmem, -⟩)
      · exact absurd hevent (hdeliver content)
      · exact hmem
  have hquiet : l.event = none → ch'.ackedSessions = ch.ackedSessions →
      (k ∈ ch'.ackedSessions ↔ Delivers k ⟨ch, l, ch'⟩ ∨
        (k ∈ ch.ackedSessions ∧ l.event ≠ some (.dispatchStarted k))) := by
    intro hnone
    apply hkept
    · simp [hnone]
    · simp [hnone]
  cases turn_of_step h with
  | started _ => exact hquiet rfl (start_acked ch _)
  | queued _ _ => exact hquiet rfl rfl
  | eof _ _ => exact hquiet rfl rfl
  | @waitEnded l i w optionId hends _ =>
      cases l with
      | permissionAnswered _ _ => exact hquiet rfl rfl
      | permissionTimedOut _ => exact hquiet rfl rfl
      | permissionClosed _ => exact hquiet rfl rfl
      | _ => cases hends
  | collected _ _ _ => exact hquiet rfl (collectChannelMessage_acked _ _ _ _)
  | crashed _ _ _ _ => exact hquiet rfl (handleChannelCrash_acked ch _ _)
  | @event event e a _ =>
      cases e with
      | deliverMessage k' content =>
          simp only [Delivers, ChannelsLabel.event, handleChannelEvent, handleDeliverMessage_acked]
          by_cases hk : k' = k
          · subst hk
            cases ch.routingTable.contains k' <;> simp
          · cases ch.routingTable.contains k' <;> simp [hk, Ne.symm hk]
      | sessionComplete k' stopReason =>
          apply hkept
          · simp [ChannelsLabel.event]
          · simp [ChannelsLabel.event]
          · rw [handleChannelEvent, handleSessionComplete]
            split <;> simp
      | routePermission k' requestId description options =>
          apply hkept
          · simp [ChannelsLabel.event]
          · simp [ChannelsLabel.event]
          · exact routePermission_acked ch k' requestId description options event a
      | ackMessage _ _ _ _ =>
          apply hkept
          · simp [ChannelsLabel.event]
          · simp [ChannelsLabel.event]
          · rfl
      | dispatchStarted k' =>
          simp only [Delivers, ChannelsLabel.event, handleChannelEvent,
            handleDispatchStarted_acked]
          by_cases hk : k' = k
          · simp [hk]
          · simp [hk, Ne.symm hk]
  | @command event command a _ =>
      cases command with
      | deliverToChannel k' content =>
          refine hquiet rfl ?_
          rw [handleCommand]
          split <;> simp
      | routePermission k' requestId description options =>
          exact hquiet rfl (routePermission_acked ch k' requestId description options event a)
      | shutdown => exact hquiet rfl rfl
  | cancelled _ => exact hquiet rfl rfl

/-! ### Steps that are no events -/

theorem collectSendMessage_lifecycle (ch : ChannelsManager c) (s : Fin c)
    (message : ChannelSendMessage) (a : ChannelAnswers) :
    Emits (fun o => o.isLifecycle = false) ch (collectSendMessage cfg ch s message a) := by
  unfold collectSendMessage
  split
  · exact .refl ch
  · rename_i content metadata _
    dsimp only
    split
    · have hensured : Emits (fun o => o.isLifecycle = false) ch
          (ensureSessionCreated cfg ch s (buildSessionKey message) message.peerInfo a).2 := by
        unfold ensureSessionCreated
        split
        · exact .refl ch
        · have hasked : Emits (fun o => o.isLifecycle = false) ch (ch.emit
              (.command (.createSession (cfg.channels s).agent (buildSessionKey message)))) :=
            emit_emits ch rfl
          dsimp only
          split
          · exact .refl ch
          · refine Emits.write (hasked.trans ?_) _ _ _ fun _ => rfl
            exact .of_trace rfl
          · exact hasked.write _ _ _ fun _ => rfl
          · exact hasked.write _ _ _ fun _ => rfl
      split
      · rename_i heq
        rw [heq] at hensured
        exact hensured
      · rename_i ch₁ heq
        rw [heq] at hensured
        refine hensured.trans ?_
        have hasked : Emits (fun o => o.isLifecycle = false) ch₁ (ch₁.emit
            (.command (.enqueueMessage (cfg.channels s).agent (buildSessionKey message) content
              metadata))) := emit_emits ch₁ rfl
        unfold enqueueToAgent
        dsimp only
        split
        · exact .refl ch₁
        · split
          · exact hasked.write _ _ _ fun _ => rfl
          · exact hasked
        · exact hasked
    · exact .refl ch

theorem step_lifecycle (h : step cfg ch l = some ch') (hnone : l.event = none) :
    Emits (fun o => o.isLifecycle = false) ch ch' := by
  cases turn_of_step h with
  | started _ => exact start_emits ch _ fun _ _ => rfl
  | queued _ _ => exact .of_trace rfl
  | eof _ _ => exact .of_trace rfl
  | waitEnded _ _ => exact (Emits.of_trace rfl).trans (emit_emits _ rfl)
  | @collected s a stream message rest _ _ _ =>
      have hset : Emits (fun o => o.isLifecycle = false) ch (ch.setSlot s
          { ch.slots s with stream := some { stream with messages := rest } }) := .of_trace rfl
      cases message with
      | sendMessage message => exact hset.trans (collectSendMessage_lifecycle _ s message a)
      | respondPermission requestId optionId =>
          rw [collectChannelMessage, handleRespondPermission]
          split
          · exact hset.trans (emit_emits _ rfl)
          · exact hset
      | unhandled => exact hset
  | crashed _ _ _ _ => exact handleChannelCrash_emits ch _ _ fun _ _ => rfl
  | event _ => cases hnone
  | @command event command a _ =>
      cases command with
      | deliverToChannel k content =>
          rw [handleCommand]
          split
          · exact .refl ch
          · exact write_emits ch _ _ _ fun _ => rfl
      | routePermission k requestId description options =>
          refine ⟨_, trace_routePermission ch k requestId description options event a, ?_⟩
          intro o ho
          obtain ⟨r, message, -, hmessage, rfl⟩ := mem_writtenTo ho
          split at hmessage
          · rw [List.mem_singleton.mp hmessage]
            rfl
          · cases hmessage
      | shutdown => exact .of_trace rfl
  | cancelled _ => exact .of_trace rfl

/-! ### All runs -/

theorem begun_concat {k : SessionKey}
    {steps : List (Machine.Taken (ChannelsManager c) (ChannelsLabel c))}
    {t : Machine.Taken (ChannelsManager c) (ChannelsLabel c)} :
    Begun k (steps ++ [t]) ↔ Delivers k t ∨
      (Begun k steps ∧ t.label.event ≠ some (.dispatchStarted k)) := by
  constructor
  · rintro ⟨earlier, t', later, heq, hdelivers, hlater⟩
    induction later using List.reverseRecOn with
    | nil =>
        obtain ⟨-, hlast⟩ := List.append_inj' heq rfl
        cases hlast
        exact Or.inl hdelivers
    | append_singleton later last _ =>
        rw [← List.cons_append, ← List.append_assoc] at heq
        obtain ⟨hsteps, hlast⟩ := List.append_inj' heq rfl
        cases hlast
        refine Or.inr ⟨⟨earlier, t', later, hsteps, hdelivers, ?_⟩, ?_⟩
        · exact fun t'' hmem => hlater t'' (List.mem_append_left _ hmem)
        · exact hlater t (List.mem_append_right _ (List.mem_singleton_self t))
  · rintro (hdelivers | ⟨⟨earlier, t', later, rfl, hdelivers, hlater⟩, hnot⟩)
    · exact ⟨steps, t, [], rfl, hdelivers, fun _ hmem => nomatch hmem⟩
    · refine ⟨earlier, t', later ++ [t], by simp, hdelivers, fun t'' hmem => ?_⟩
      rcases List.mem_append.mp hmem with hold | hlast
      · exact hlater t'' hold
      · rw [List.mem_singleton.mp hlast]
        exact hnot

section Runs

variable {x : List (Machine.Taken (ChannelsManager c) (ChannelsLabel c)) × ChannelsManager c}

theorem acked_of_reachable (h : (life cfg).recorded.Reachable x) (k : SessionKey) :
    k ∈ x.2.ackedSessions ↔ Begun k x.1 := by
  refine h.invariant (I := fun x => k ∈ x.2.ackedSessions ↔ Begun k x.1) ?_ ?_
  · rintro ⟨steps, ch⟩ ⟨rfl, agentsHandle, rfl⟩
    constructor
    · intro hmem
      cases hmem
    · rintro ⟨earlier, t, later, heq, -, -⟩
      simp at heq
  · intro x l x' _ hI _ hstep
    obtain ⟨hmoved, hsteps⟩ := Machine.of_recorded_step hstep
    rw [step_acked hmoved, hsteps, begun_concat, hI]

/-- What the step `t` writes, after the steps `earlier`. -/
structure FollowsCourse (cfg : ChannelsManagerConfig c)
    (earlier : List (Machine.Taken (ChannelsManager c) (ChannelsLabel c)))
    (t : Machine.Taken (ChannelsManager c) (ChannelsLabel c)) : Prop where
  /-- An event brings its messages, and the announcement of an answer that had not begun. -/
  event : ∀ event e a, t.label = .recvEvent event e a →
    ∃ begun : Bool, (begun = true ↔ Begun e.sessionKey earlier) ∧
      t.after.trace = t.before.trace ++ writtenTo (t.before.recipient e.sessionKey) fun entry =>
        e.messages cfg begun entry a
  /-- Nothing else tells a channel of the course of an answer. -/
  other : t.label.event = none →
    ∃ os, t.after.trace = t.before.trace ++ os ∧ ∀ o ∈ os, o.isLifecycle = false

/-- **A channel is told the course of each answer.**  In every run the messages of a step are
    determined by its event and by the events before it: the beginning of an answer is
    announced with the first part that comes after a dispatch and with no other, and only
    events of the agents manager bring announcements, acknowledgements and completions. -/
theorem followsCourse_of_reachable (h : (life cfg).recorded.Reachable x)
    {earlier later : List (Machine.Taken (ChannelsManager c) (ChannelsLabel c))}
    {t : Machine.Taken (ChannelsManager c) (ChannelsLabel c)} (hx : x.1 = earlier ++ t :: later) :
    FollowsCourse cfg earlier t := by
  obtain ⟨hearlier, -, hstep⟩ := h.of_split hx
  obtain ⟨before, l, after⟩ := t
  have hacked : ∀ k, k ∈ before.ackedSessions ↔ Begun k earlier := acked_of_reachable hearlier
  refine ⟨?_, fun hnone => step_lifecycle hstep hnone⟩
  rintro event e a rfl
  obtain ⟨_, hafter⟩ := Option.ite_none_right_eq_some.mp hstep
  refine ⟨decide (e.sessionKey ∈ before.ackedSessions), ?_, ?_⟩
  · rw [decide_eq_true_iff, hacked]
  · rw [← Option.some.inj hafter]
    exact trace_handleChannelEvent before event a e

/-- The first part of an answer is announced, the second is not, and after a dispatch the next
    one is. -/
theorem followsCourse_of_reachable_bob :
    ∃ (earlier : List (Machine.Taken (ChannelsManager 1) (ChannelsLabel 1)))
      (t : Machine.Taken (ChannelsManager 1) (ChannelsLabel 1)),
      earlier.length = 6 ∧
        (t.after.trace.drop t.before.trace.length).map ChannelOutput.isLifecycle = [true, false] ∧
        FollowsCourse Sample.channels earlier t := by
  have hrun : ∃ x ∈ (life Sample.channels).recorded.run (fun _ _ => True)
      ([], fresh Sample.channels true)
      ([.start fun _ => Sample.channelAnswers "s"] ++
        Sample.openSession (Sample.channelAnswers "s") ++ [Sample.reply, Sample.reply,
          .recvEvent 0 (.dispatchStarted Sample.bob) (Sample.channelAnswers "s"), Sample.reply]),
      ∃ t ∈ x.1[6]?,
        (t.after.trace.drop t.before.trace.length).map ChannelOutput.isLifecycle =
          [true, false] := by
    decide
  obtain ⟨x, hx, t, ht, hwritten⟩ := hrun
  obtain ⟨hlt, rfl⟩ := List.getElem?_eq_some_iff.mp ht
  have hsplit : x.1 = x.1.take 6 ++ x.1[6] :: x.1.drop 7 := by
    rw [List.getElem_cons_drop, List.take_append_drop]
  refine ⟨x.1.take 6, x.1[6], ?_, hwritten, ?_⟩
  · rw [List.length_take]
    omega
  · exact followsCourse_of_reachable (Machine.reachable_of_run _ ⟨rfl, true, rfl⟩ hx) hsplit

end Runs

end ChannelsManager

end Anyclaw
