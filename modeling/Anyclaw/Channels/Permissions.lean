import Anyclaw.Channels.Run

/-!
# Permission requests in the channels manager

A request that is shown to a channel is awaited by a task.  The task ends with the answer of
the channel, with the timeout or with the connection, and sends one `RespondPermission`
command; a channel may also send an answer on its own.  `step_waits` lists what a step may
do to the tasks, and the commands that it sends.

The task is spawned by `route_permission_event`; an answer that comes on its own goes through
`handle_respond_permission`.  Both are in `crates/anyclaw-channels/src/manager.rs`.
-/

namespace Anyclaw

variable {c : Nat}

def ChannelOutput.answer : ChannelOutput c → Option (String × String)
  | .command (.respondPermission requestId optionId) => some (requestId, optionId)
  | _ => none

/-- The number and the id of the request that a label brings to the run loop. -/
def ChannelsLabel.brings : ChannelsLabel c → Option (Nat × String)
  | .recvEvent event (.routePermission _ requestId _ _) _ => some (event, requestId)
  | .recvCommand event (.routePermission _ requestId _ _) _ => some (event, requestId)
  | _ => none

namespace ChannelsManager

variable {cfg : ChannelsManagerConfig c} {ch ch' ch₁ : ChannelsManager c} {l : ChannelsLabel c}

def answersSent (ch ch' : ChannelsManager c) : List (String × String) :=
  (ch'.trace.drop ch.trace.length).filterMap ChannelOutput.answer

def streamed (ch : ChannelsManager c) : ChannelsLabel c → Option ChannelMessage
  | .recvStream s _ => (ch.slots s).stream.bind fun stream => stream.messages.head?
  | _ => none

/-- The answer that a channel sends on its own, if the label takes it. -/
def volunteered (ch : ChannelsManager c) (l : ChannelsLabel c) : Option (String × String) :=
  match ch.streamed l with
  | some (.respondPermission requestId optionId) => some (requestId, optionId)
  | _ => none

/-- A request for the session key `k` reaches a channel and is awaited. -/
def Reaches (ch : ChannelsManager c) (k : SessionKey) (a : ChannelAnswers) : Prop :=
  (∃ entry ∈ ch.routingTable.get? k, (ch.slots entry.slotIndex).connection ≠ none) ∧
    a.sent = true ∧ ch.agentsHandle = true

instance (k : SessionKey) (a : ChannelAnswers) : Decidable (ch.Reaches k a) :=
  inferInstanceAs (Decidable ((∃ entry ∈ ch.routingTable.get? k, _) ∧ _))

inductive WaitStep (ch : ChannelsManager c) : ChannelsLabel c → ChannelsManager c → Prop
  | idle {l : ChannelsLabel c} {ch' : ChannelsManager c} (hwaits : ch'.waits = ch.waits)
      (hsent : answersSent ch ch' = []) (hends : l.endsWait = none) : WaitStep ch l ch'
  | asked {l : ChannelsLabel c} {w : PermissionWait c} {ch' : ChannelsManager c}
      (hbrings : l.brings = some (w.event, w.requestId))
      (hwaits : ch'.waits = ch.waits ++ [w]) (hsent : answersSent ch ch' = []) :
      WaitStep ch l ch'
  | ended {l : ChannelsLabel c} {i : Nat} {w : PermissionWait c} {optionId : String}
      {ch' : ChannelsManager c} (hends : l.endsWait = some (i, optionId))
      (hw : ch.waits[i]? = some w) (hwaits : ch'.waits = ch.waits.eraseIdx i)
      (hsent : answersSent ch ch' = [(w.requestId, optionId)]) : WaitStep ch l ch'
  | volunteered {l : ChannelsLabel c} {requestId optionId : String} {ch' : ChannelsManager c}
      (hvolunteer : ch.volunteered l = some (requestId, optionId)) (hwaits : ch'.waits = ch.waits)
      (hsent : answersSent ch ch' = [(requestId, optionId)]) : WaitStep ch l ch'

/-! ### Handlers that neither ask nor answer -/

/-- No permission was asked for or answered. -/
structure Unasked (ch ch' : ChannelsManager c) : Prop where
  waits : ch'.waits = ch.waits
  trace : ∃ os, ch'.trace = ch.trace ++ os ∧ os.filterMap ChannelOutput.answer = []

theorem Unasked.sent (h : Unasked ch ch') : answersSent ch ch' = [] := by
  obtain ⟨os, htrace, hos⟩ := h.trace
  unfold answersSent
  rw [htrace, List.drop_left, hos]

theorem Unasked.of_eq (hwaits : ch'.waits = ch.waits) (htrace : ch'.trace = ch.trace) :
    Unasked ch ch' :=
  ⟨hwaits, [], by rw [htrace, List.append_nil], rfl⟩

theorem Unasked.refl (ch : ChannelsManager c) : Unasked ch ch := .of_eq rfl rfl

theorem Unasked.trans (h : Unasked ch ch₁) (h' : Unasked ch₁ ch') : Unasked ch ch' := by
  obtain ⟨os, htrace, hos⟩ := h.trace
  obtain ⟨os', htrace', hos'⟩ := h'.trace
  refine ⟨h'.waits.trans h.waits, os ++ os', ?_, ?_⟩
  · rw [htrace', htrace, List.append_assoc]
  · rw [List.filterMap_append, hos, hos', List.append_nil]

theorem emit_unasked (ch : ChannelsManager c) {o : ChannelOutput c} (ho : o.answer = none) :
    Unasked ch (ch.emit o) :=
  ⟨rfl, [o], rfl, by rw [List.filterMap_cons, ho, List.filterMap_nil]⟩

theorem write_unasked (ch : ChannelsManager c) (s : Fin c) (accepted : Bool)
    (message : ToChannel) : Unasked ch (ch.write s accepted message) := by
  unfold write
  split
  · split
    · exact emit_unasked ch rfl
    · exact .refl ch
  · exact .refl ch

theorem Unasked.write (h : Unasked ch ch') (s : Fin c) (accepted : Bool) (message : ToChannel) :
    Unasked ch (ch'.write s accepted message) :=
  h.trans (write_unasked ch' s accepted message)

theorem spawnAndInitialize_unasked (ch : ChannelsManager c) (s : Fin c) (a : ChannelAnswers) :
    Unasked ch (ch.spawnAndInitialize s a).2 := by
  unfold spawnAndInitialize
  split
  · have hnumbered : Unasked ch { ch with nextConnection := ch.nextConnection + 1 } :=
      .of_eq rfl rfl
    exact hnumbered.trans (emit_unasked _ rfl)
  · exact .refl ch

theorem startChannelSlot_unasked (ch : ChannelsManager c) (s : Fin c) (a : ChannelAnswers) :
    Unasked ch (startChannelSlot cfg ch s a) :=
  (spawnAndInitialize_unasked ch s a).trans (.of_eq rfl rfl)

theorem start_unasked (ch : ChannelsManager c) (a : Fin c → ChannelAnswers) :
    Unasked ch (start cfg ch a) := by
  have hslots : ∀ (ss : List (Fin c)) (ch : ChannelsManager c),
      Unasked ch (ss.foldl (fun ch s => startChannelSlot cfg ch s (a s)) ch) := by
    intro ss
    induction ss with
    | nil => exact Unasked.refl
    | cons s rest ih => exact fun ch => (startChannelSlot_unasked ch s (a s)).trans (ih _)
  exact (hslots _ ch).trans (.of_eq rfl rfl)

theorem handleChannelCrash_unasked (ch : ChannelsManager c) (s : Fin c) (a : ChannelAnswers) :
    Unasked ch (ch.handleChannelCrash s a) := by
  have hspawn := spawnAndInitialize_unasked ch s a
  unfold handleChannelCrash
  split
  · exact .of_eq rfl rfl
  · split
    · rename_i hconn
      rw [hconn] at hspawn
      exact hspawn.trans (.of_eq rfl rfl)
    · rename_i hconn
      rw [hconn] at hspawn
      exact hspawn.trans (.of_eq rfl rfl)

theorem handleDeliverMessage_unasked (ch : ChannelsManager c) (k : SessionKey)
    (content : Delivered) (a : ChannelAnswers) :
    Unasked ch (ch.handleDeliverMessage k content a) := by
  unfold handleDeliverMessage
  split
  · exact .refl ch
  · refine Unasked.write ?_ _ _ _
    split
    · exact .refl ch
    · refine Unasked.write ?_ _ _ _
      exact .of_eq rfl rfl

theorem handleDispatchStarted_unasked (ch : ChannelsManager c) (k : SessionKey)
    (a : ChannelAnswers) : Unasked ch (handleDispatchStarted cfg ch k a) := by
  unfold handleDispatchStarted
  dsimp only
  split
  · exact .of_eq rfl rfl
  · refine Unasked.write (Unasked.write ?_ _ _ _) _ _ _
    exact .of_eq rfl rfl

theorem ensureSessionCreated_unasked (ch : ChannelsManager c) (s : Fin c) (k : SessionKey)
    (peerInfo : PeerInfo) (a : ChannelAnswers) :
    Unasked ch (ensureSessionCreated cfg ch s k peerInfo a).2 := by
  have hasked : Unasked ch (ch.emit (.command (.createSession (cfg.channels s).agent k))) :=
    emit_unasked ch rfl
  unfold ensureSessionCreated
  split
  · exact .refl ch
  · dsimp only
    split
    · exact .refl ch
    · refine Unasked.write (hasked.trans ?_) _ _ _
      exact .of_eq rfl rfl
    · exact hasked.write _ _ _
    · exact hasked.write _ _ _

theorem enqueueToAgent_unasked (ch : ChannelsManager c) (k : SessionKey)
    (content : List ContentPart) (metadata : Option MessageMetadata) (agentName : String)
    (a : ChannelAnswers) : Unasked ch (ch.enqueueToAgent k content metadata agentName a) := by
  have hasked : Unasked ch
      (ch.emit (.command (.enqueueMessage agentName k content metadata))) :=
    emit_unasked ch rfl
  unfold enqueueToAgent
  dsimp only
  split
  · exact .refl ch
  · split
    · exact hasked.write _ _ _
    · exact hasked
  · exact hasked

theorem collectSendMessage_unasked (ch : ChannelsManager c) (s : Fin c)
    (message : ChannelSendMessage) (a : ChannelAnswers) :
    Unasked ch (collectSendMessage cfg ch s message a) := by
  unfold collectSendMessage
  split
  · exact .refl ch
  · rename_i content metadata _
    dsimp only
    split
    · have hensured : Unasked ch (ensureSessionCreated cfg ch s (buildSessionKey message)
          message.peerInfo a).2 := ensureSessionCreated_unasked ch s _ _ a
      split
      · rename_i heq
        rw [heq] at hensured
        exact hensured
      · rename_i heq
        rw [heq] at hensured
        exact hensured.trans (enqueueToAgent_unasked _ _ _ _ _ a)
    · exact .refl ch

/-! ### Requests -/

/-- The wait that a request for `k` begins, if it reaches a channel. -/
theorem routePermission_waits (ch : ChannelsManager c) (k : SessionKey)
    (requestId description : String) (options : List PermissionOption) (event : Nat)
    (a : ChannelAnswers) :
    (ch.Reaches k a ∧ ∃ w : PermissionWait c, w.event = event ∧ w.requestId = requestId ∧
      (ch.routePermission k requestId description options event a).waits = ch.waits ++ [w] ∧
      answersSent ch (ch.routePermission k requestId description options event a) = []) ∨
    (¬ ch.Reaches k a ∧
      Unasked ch (ch.routePermission k requestId description options event a)) := by
  unfold routePermission
  split
  · rename_i hget
    refine Or.inr ⟨fun h => ?_, .refl ch⟩
    obtain ⟨⟨entry, hmem, _⟩, _⟩ := h
    rw [hget] at hmem
    cases hmem
  · rename_i entry hget
    split
    · rename_i hconn
      refine Or.inr ⟨fun h => ?_, .refl ch⟩
      obtain ⟨⟨entry', hmem, hsome⟩, _⟩ := h
      rw [hget] at hmem
      cases hmem
      exact hsome hconn
    · rename_i conn hconn
      split
      · rename_i hsent
        have hemit : Unasked ch (ch.emit (.written entry.slotIndex conn.no
            (.requestPermission requestId entry.acpSessionId description options))) :=
          emit_unasked ch rfl
        dsimp only
        split
        · rename_i hhandle
          refine Or.inl ⟨⟨⟨entry, hget, ?_⟩, hsent, hhandle⟩, _, rfl, rfl, rfl, ?_⟩
          · rw [hconn]
            exact Option.some_ne_none conn
          · exact hemit.sent
        · rename_i hhandle
          exact Or.inr ⟨fun h => hhandle h.2.2, hemit⟩
      · rename_i hsent
        exact Or.inr ⟨fun h => hsent h.2.1, .refl ch⟩

theorem endWait_waits {i : Nat} {w : PermissionWait c} {optionId : String}
    (hends : l.endsWait = some (i, optionId)) (hw : ch.waits[i]? = some w) :
    WaitStep ch l (ch.endWait i w optionId) := by
  refine .ended hends hw rfl ?_
  unfold answersSent endWait
  rw [emit_trace, List.drop_left]
  rfl

/-! ### Every step -/

/-- **One step of the manager, seen from the permission requests.** -/
theorem step_waits (h : step cfg ch l = some ch') : WaitStep ch l ch' := by
  have hidle : l.endsWait = none → Unasked ch ch' → WaitStep ch l ch' :=
    fun hends hunasked => .idle hunasked.waits hunasked.sent hends
  have hroute : ∀ (k : SessionKey) (requestId description : String)
      (options : List PermissionOption) (event : Nat) (a : ChannelAnswers),
      l.brings = some (event, requestId) → l.endsWait = none →
      WaitStep ch l (ch.routePermission k requestId description options event a) := by
    intro k requestId description options event a hbrings hends
    rcases routePermission_waits ch k requestId description options event a with
      ⟨_, w, hevent, hid, hwaits, hsent⟩ | ⟨_, hunasked⟩
    · refine .asked ?_ hwaits hsent
      rw [hevent, hid]
      exact hbrings
    · exact .idle hunasked.waits hunasked.sent hends
  cases turn_of_step h with
  | started _ => exact hidle rfl (start_unasked ch _)
  | queued _ _ => exact hidle rfl (.of_eq rfl rfl)
  | eof _ _ => exact hidle rfl (.of_eq rfl rfl)
  | waitEnded hends hw => exact endWait_waits hends hw
  | @collected s a stream message rest _ hstream hmessages =>
      have hset : Unasked ch (ch.setSlot s { ch.slots s with
          stream := some { stream with messages := rest } }) := .of_eq rfl rfl
      cases message with
      | sendMessage message =>
          exact hidle rfl (hset.trans (collectSendMessage_unasked _ s message a))
      | respondPermission requestId optionId =>
          rw [collectChannelMessage, handleRespondPermission]
          split
          · have hvolunteer : ch.volunteered (.recvStream s a) = some (requestId, optionId) := by
              simp only [volunteered, streamed, hstream, Option.bind_some, hmessages,
                List.head?_cons]
            refine .volunteered hvolunteer rfl ?_
            unfold answersSent
            rw [emit_trace, setSlot_trace, List.drop_left]
            rfl
          · exact .idle hset.waits hset.sent rfl
      | unhandled => exact hidle rfl hset
  | crashed _ _ _ _ => exact hidle rfl (handleChannelCrash_unasked ch _ _)
  | @event event e a _ =>
      cases e with
      | deliverMessage k content =>
          exact hidle rfl (handleDeliverMessage_unasked ch k content a)
      | sessionComplete k stopReason =>
          refine hidle rfl ?_
          rw [handleChannelEvent, handleSessionComplete]
          split
          · exact .refl ch
          · exact write_unasked ch _ _ _
      | routePermission k requestId description options =>
          exact hroute k requestId description options event a rfl rfl
      | ackMessage _ _ _ _ => exact hidle rfl (.refl ch)
      | dispatchStarted k => exact hidle rfl (handleDispatchStarted_unasked ch k a)
  | @command event command a _ =>
      cases command with
      | deliverToChannel k content =>
          refine hidle rfl ?_
          rw [handleCommand]
          split
          · exact .refl ch
          · exact write_unasked ch _ _ _
      | routePermission k requestId description options =>
          exact hroute k requestId description options event a rfl rfl
      | shutdown => exact hidle rfl (.of_eq rfl rfl)
  | cancelled _ => exact hidle rfl (.of_eq rfl rfl)

end ChannelsManager

end Anyclaw
