import Anyclaw.Agents.QueueInvariants

/-!
# Runs with their history

Some properties are about what one step of a run sent, or about what later became of
something that one step did.  They are stated over the recorded runs of the manager.

The runs are those of the loop in `crates/anyclaw-agents/src/manager.rs`.
-/

namespace Anyclaw

variable {n : Nat}

def Output.sentEvent : Output n → Option ChannelEvent
  | .event e => some e
  | _ => none

def ChannelEvent.isErrorFor (k : SessionKey) : ChannelEvent → Bool
  | .deliverMessage k' d => decide (k' = k) && d.isErrorResult
  | _ => false

namespace AgentsManager

/-- The steps that were taken, and the state that they led to. -/
abbrev History (n : Nat) := List (Machine.Taken (AgentsManager n) (Label n)) × AgentsManager n

/-- Boot on a store, then take the labels and record them, all under the guard. -/
def executeRecorded (cfg : AgentsManagerConfig n) (G : History n → Label n → Prop)
    [∀ x l, Decidable (G x l)] (channelsSender : Bool) (store : SessionStore)
    (b : StartAnswers n) (ls : List (Label n)) : Option (History n) :=
  (start cfg (fresh cfg channelsSender store) b).bind fun m =>
    (life cfg).recorded.run G ([], m) ls

theorem reachable_of_executeRecorded {cfg : AgentsManagerConfig n}
    {G : History n → Label n → Prop} [∀ x l, Decidable (G x l)] {channelsSender : Bool}
    {store : SessionStore} {b : StartAnswers n} {ls : List (Label n)} {x : History n}
    (h : executeRecorded cfg G channelsSender store b ls = some x) :
    (life cfg).recorded.ReachableUnder G x := by
  obtain ⟨m, hstart, hrun⟩ := Option.bind_eq_some_iff.mp h
  exact Machine.reachable_of_run ls ⟨rfl, channelsSender, store, b, hstart⟩ hrun

/-! ### What was sent -/

variable (m m' : AgentsManager n)

def sent : List ChannelEvent := (m'.trace.drop m.trace.length).filterMap Output.sentEvent

def errorsSent (k : SessionKey) : Nat := (sent m m').countP (ChannelEvent.isErrorFor k)

variable {m m'}

/-- The outputs that are followed determine the events. -/
theorem sent_of_messages {os : List (Output n)} (htrace : m.trace <+: m'.trace)
    (hmessages : m'.backlog.messages = m.backlog.messages ++ os) :
    sent m m' = os.filterMap Output.sentEvent := by
  obtain ⟨added, hadded⟩ := htrace
  have hfollowed : added.filter Output.isMessage = os := by
    rw [backlog_messages, backlog_messages, ← hadded, List.filter_append] at hmessages
    exact List.append_cancel_left hmessages
  unfold sent
  rw [← hadded, List.drop_left, ← hfollowed, List.filterMap_filter]
  congr 1
  funext o
  split
  · rfl
  · rename_i ho
    cases o with
    | event e => exact absurd rfl ho
    | _ => rfl

theorem sentEvent_told (m : AgentsManager n) (es : List ChannelEvent)
    (hsender : m.channelsSender = true) : (m.told es).filterMap Output.sentEvent = es := by
  unfold told
  rw [if_pos hsender, List.filterMap_map]
  exact List.filterMap_some

end AgentsManager

end Anyclaw
