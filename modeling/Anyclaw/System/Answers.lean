import Anyclaw.Channels.Lifecycle
import Anyclaw.System.Messages

/-!
# From the agents to the channels

What the agents manager delivers for a session key comes out at one place: the channel and the
session of the first message for which a session was made.  It comes out in order, at most
once and unaltered, however many channels there are and whatever crashes in between.

An answer starts in `crates/anyclaw-agents/src/incoming.rs` and is delivered by
`handle_deliver_message` of `crates/anyclaw-channels/src/manager.rs`.
-/

namespace Anyclaw

variable {n c : Nat}

def ChannelEvent.content : ChannelEvent → Option Delivered
  | .deliverMessage _ content => some content
  | _ => none

/-- What the events deliver for a key, the oldest first. -/
def deliveredFor (k : SessionKey) (es : List ChannelEvent) : List Delivered :=
  es.filterMap fun e => if e.sessionKey = k then e.content else none

def ChannelOutput.delivery : ChannelOutput c → Option (Fin c × AcpSessionId × Delivered)
  | .written s _ (.deliverMessage id content) => some (s, id, content)
  | _ => none

/-- A delivery at the place that a routing entry names. -/
def RoutingEntry.delivery (entry : RoutingEntry c) (content : Delivered) :
    Fin c × AcpSessionId × Delivered :=
  (entry.slotIndex, entry.acpSessionId, content)

/-- The entry was opened by the first of the messages that opened one. -/
def OpenedBy (ms : List (Admitted c)) (e : RoutingEntry c) : Prop :=
  ∃ refused first rest, ms = refused ++ first :: rest ∧ (∀ m ∈ refused, m.opens = none) ∧
    first.opens = some e

namespace ChannelsManager

variable {cfg : ChannelsManagerConfig c} {ch ch' : ChannelsManager c} {l : ChannelsLabel c}
  {x : List (Machine.Taken (ChannelsManager c) (ChannelsLabel c)) × ChannelsManager c}

/-- What a step delivers for an event of the key. -/
def shown (k : SessionKey) (t : Machine.Taken (ChannelsManager c) (ChannelsLabel c)) :
    List (Fin c × AcpSessionId × Delivered) :=
  t.label.event.elim [] fun e =>
    if e.sessionKey = k then
      (t.after.trace.drop t.before.trace.length).filterMap ChannelOutput.delivery
    else []

/-- What the steps deliver for events of the key, the oldest first. -/
def shownFor (k : SessionKey)
    (steps : List (Machine.Taken (ChannelsManager c) (ChannelsLabel c))) :
    List (Fin c × AcpSessionId × Delivered) :=
  steps.flatMap (shown k)

theorem deliveries_messages (e : ChannelEvent) (begun : Bool) (a : ChannelAnswers)
    (r : RoutingEntry c × ChannelConnection) :
    (writtenTo (some r) fun entry => e.messages cfg begun entry a).filterMap
        ChannelOutput.delivery =
      (if a.sent then e.content.toList else []).map r.1.delivery := by
  cases e with
  | deliverMessage k content =>
      cases hsent : a.sent <;> cases hbegun : begun || !a.firstSent <;>
        simp [writtenTo, ChannelEvent.messages, ChannelEvent.content, ChannelOutput.delivery,
          RoutingEntry.delivery, hsent, hbegun, List.filterMap_cons]
  | dispatchStarted k =>
      cases hsent : a.sent <;> cases hfirst : a.firstSent <;>
        simp [writtenTo, ChannelEvent.messages, ChannelEvent.content, ChannelOutput.delivery,
          hsent, hfirst, List.filterMap_cons]
  | sessionComplete k stopReason =>
      cases hsent : a.sent <;>
        simp [writtenTo, ChannelEvent.messages, ChannelEvent.content, ChannelOutput.delivery, hsent]
  | routePermission k requestId description options =>
      cases hsent : a.sent <;>
        simp [writtenTo, ChannelEvent.messages, ChannelEvent.content, ChannelOutput.delivery, hsent]
  | ackMessage k channelName peerId messageId =>
      simp [writtenTo, ChannelEvent.messages, ChannelEvent.content]

/-- A routing entry stays. -/
theorem step_entry (h : step cfg ch l = some ch') {k : SessionKey} {e : RoutingEntry c}
    (hget : ch.routingTable.get? k = some e) : ch'.routingTable.get? k = some e := by
  have hstays : ∀ (ms : List (Admitted c)) (requests : List SessionRequest),
      (ms.foldl (converse cfg) (some e, requests)).1 = some e := by
    intro ms
    induction ms with
    | nil => exact fun _ => rfl
    | cons m ms ih => exact fun requests => ih _
  have hconversation := congrArg Prod.fst (step_conversation h k)
  rw [show ch.conversation k = (some e, (ch.conversation k).2) from Prod.ext hget rfl,
    hstays] at hconversation
  exact hconversation

/-- What was delivered for the key is part of what the events brought for it, at the place of
    its routing entry. -/
def ShowsEvents (k : SessionKey)
    (x : List (Machine.Taken (ChannelsManager c) (ChannelsLabel c)) × ChannelsManager c) : Prop :=
  ∃ contents : List Delivered,
    contents.Sublist (deliveredFor k (x.1.filterMap fun t => t.label.event)) ∧
      shownFor k x.1 = (x.2.routingTable.get? k).elim [] fun e => contents.map e.delivery

/-- A step that delivers nothing for the key. -/
theorem ShowsEvents.quiet {k : SessionKey} (h : ShowsEvents k x)
    (hstep : step cfg x.2 l = some ch') (hquiet : shown k ⟨x.2, l, ch'⟩ = []) :
    ShowsEvents k (x.1 ++ [⟨x.2, l, ch'⟩], ch') := by
  obtain ⟨contents, hsub, hshown⟩ := h
  have hsame : shownFor k (x.1 ++ [⟨x.2, l, ch'⟩]) = shownFor k x.1 := by
    simp [shownFor, hquiet]
  cases hget : x.2.routingTable.get? k with
  | none =>
      rw [hget] at hshown
      refine ⟨[], List.nil_sublist _, ?_⟩
      rw [hsame, hshown]
      cases ch'.routingTable.get? k <;> rfl
  | some e =>
      rw [hget] at hshown
      refine ⟨contents, hsub.trans ?_, ?_⟩
      · rw [List.filterMap_append, deliveredFor, deliveredFor, List.filterMap_append]
        exact List.sublist_append_left _ _
      · rw [hsame, hshown, step_entry hstep hget]

/-- An event for the key delivers what it brings, or nothing. -/
theorem shown_event {event : Nat} {e : ChannelEvent} {a : ChannelAnswers} {k : SessionKey}
    (h : step cfg ch (.recvEvent event e a) = some ch') (hkey : e.sessionKey = k) :
    shown k ⟨ch, .recvEvent event e a, ch'⟩ = (ch.recipient k).elim [] fun r =>
      (if a.sent then e.content.toList else []).map r.1.delivery := by
  obtain ⟨_, hafter⟩ := Option.ite_none_right_eq_some.mp h
  have htrace : (handleChannelEvent cfg ch event a e).trace = _ :=
    trace_handleChannelEvent ch event a e
  rw [Option.some.inj hafter, hkey] at htrace
  have hshown : shown k ⟨ch, .recvEvent event e a, ch'⟩ =
      (ch'.trace.drop ch.trace.length).filterMap ChannelOutput.delivery := if_pos hkey
  rw [hshown, htrace, List.drop_left]
  cases ch.recipient k with
  | none => rfl
  | some r => exact deliveries_messages e _ a r

theorem showsEvents_of_reachable (h : (life cfg).recorded.Reachable x) (k : SessionKey) :
    ShowsEvents k x := by
  refine h.invariant (I := ShowsEvents k) ?_ ?_
  · rintro ⟨steps, ch⟩ ⟨rfl, agentsHandle, rfl⟩
    exact ⟨[], List.nil_sublist _, rfl⟩
  · rintro x l ⟨steps, ch'⟩ - hI - hstep
    obtain ⟨hmoved, hsteps⟩ := Machine.of_recorded_step hstep
    have hmoved' : step cfg x.2 l = some ch' := hmoved
    dsimp only at hsteps
    rw [hsteps]
    by_cases hquiet : shown k ⟨x.2, l, ch'⟩ = []
    · exact hI.quiet hmoved' hquiet
    · cases l with
      | recvEvent event e a =>
          have hkey : e.sessionKey = k := by
            by_contra hnot
            exact hquiet (if_neg hnot)
          have hshown := shown_event hmoved' hkey
          cases hrecipient : x.2.recipient k with
          | none =>
              rw [hshown, hrecipient] at hquiet
              exact absurd rfl hquiet
          | some r =>
              obtain ⟨contents, hsub, hcontents⟩ := hI
              obtain ⟨entry, hget, hconn⟩ := Option.bind_eq_some_iff.mp hrecipient
              obtain ⟨conn, -, rfl⟩ := Option.map_eq_some_iff.mp hconn
              rw [hrecipient] at hshown
              rw [hget] at hcontents
              refine ⟨contents ++ if a.sent then e.content.toList else [], ?_, ?_⟩
              · rw [List.filterMap_append, deliveredFor, List.filterMap_append]
                have hbrought : deliveredFor k [e] = e.content.toList := by
                  rw [deliveredFor, List.filterMap_cons, if_pos hkey]
                  cases e.content <;> rfl
                refine hsub.append ?_
                change List.Sublist _ (deliveredFor k [e])
                rw [hbrought]
                split
                · exact List.Sublist.refl _
                · exact List.nil_sublist _
              · rw [step_entry hmoved' hget, Option.elim_some, List.map_append]
                simp only [shownFor, List.flatMap_append, List.flatMap_singleton, hshown]
                exact congrArg (· ++ _) hcontents
      | _ => exact absurd rfl hquiet

end ChannelsManager

namespace Managers

variable {acfg : AgentsManagerConfig n} {ccfg : ChannelsManagerConfig c} {z : Managers n c}

/-- **Answers come out in one place, in order and at most once.**  In every run of both
    managers, what the channels manager delivers for a session key is part of what the agents
    manager sent for it, in the order of the events; and all of it goes to the slot and the
    session that the first message of the key to get a session opened. -/
theorem answers_arrive (h : (life acfg ccfg).Reachable z) (k : SessionKey) :
    ∃ contents : List Delivered,
      contents.Sublist (deliveredFor k (z.1.2.trace.filterMap Output.sentEvent)) ∧
      (ChannelsManager.shownFor k z.2.1 = [] ∨
        ∃ e, OpenedBy (ChannelsManager.admittedFor z.2.1 k) e ∧
          ChannelsManager.shownFor k z.2.1 = contents.map e.delivery) := by
  have hchannels := (Machine.Node.reachable_of_joined h).2
  obtain ⟨contents, hsub, hshown⟩ := ChannelsManager.showsEvents_of_reachable hchannels k
  have hreceived : (channelsNode ccfg).received z.2.1 <+: z.1.2.trace.filterMap Output.sentEvent :=
    (Machine.Node.received_prefix (agentsNode_grows acfg) (channelsNode_grows ccfg) h).2
  refine ⟨contents, hsub.trans (hreceived.filterMap _).sublist, ?_⟩
  have hconversed := ChannelsManager.conversed_conversation hchannels k
  cases hget : z.2.2.routingTable.get? k with
  | none =>
      rw [hget] at hshown
      exact Or.inl hshown
  | some e =>
      rw [hget] at hshown
      obtain ⟨refused, first, rest, hms, hrefused, hfirst, -⟩ := hconversed.opened e hget
      exact Or.inr ⟨e, ⟨refused, first, rest, hms, hrefused, hfirst⟩, hshown⟩

/-- The prompt ends, and its result is delivered to the channel it came from. -/
theorem answers_arrive_bob :
    ∃ (z : Managers 1 1) (contents : List Delivered),
      ChannelsManager.shownFor Sample.bob z.2.1 =
        [(Fin.last 0, "s", .syntheticResult "s" .endTurn)] ∧
      contents.Sublist (deliveredFor Sample.bob (z.1.2.trace.filterMap Output.sentEvent)) ∧
      (ChannelsManager.shownFor Sample.bob z.2.1 = [] ∨
        ∃ e, OpenedBy (ChannelsManager.admittedFor z.2.1 Sample.bob) e ∧
          ChannelsManager.shownFor Sample.bob z.2.1 = contents.map e.delivery) := by
  have hrun : ∃ z ∈ Sample.executeManagers (Sample.openChat ++
      [.inl (.promptAnswered 0 (.result (some .endTurn))), .inl .recvCompletion,
        .inl (.finishCompletion (Sample.answers "s")),
        .inr (.recvEvent 0 (.dispatchStarted Sample.bob) (Sample.channelAnswers "s")),
        .inr (.recvEvent 1 (.deliverMessage Sample.bob (.syntheticResult "s" .endTurn))
          (Sample.channelAnswers "s"))]),
      ChannelsManager.shownFor Sample.bob z.2.1 =
        [(Fin.last 0, "s", .syntheticResult "s" .endTurn)] := by
    decide +kernel
  obtain ⟨z, hz, hshown⟩ := hrun
  obtain ⟨contents, hsub, hplace⟩ :=
    answers_arrive (Sample.reachable_of_executeManagers hz) Sample.bob
  exact ⟨z, contents, hshown, hsub, hplace⟩

end Managers

end Anyclaw
