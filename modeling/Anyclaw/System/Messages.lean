import Anyclaw.Library.Joined
import Anyclaw.Agents.PromptOrder
import Anyclaw.Channels.Announcements
import Anyclaw.Channels.Conversations

/-!
# From the channels to the agents

The two managers as nodes that read each other's messages: commands one way, events the other
way.  Neither waits for the other here: a reply that the channels manager is given is its
answer, whatever the agents manager does with the command.  What holds of these runs holds of
those in which the replies fit.

What users write on the channels arrives in the prompts of the agents in order, at most once
and unaltered, and only in those of the same session key.

A message starts in `collect_send_message` of `crates/anyclaw-channels/src/manager.rs` and
ends in `prompt_session` of `crates/anyclaw-agents/src/commands.rs`.
-/

namespace Anyclaw

variable {n c : Nat}

deriving instance DecidableEq for AgentsCommand

/-- Commands that nobody but the channels manager sends. -/
def AgentsCommand.ofChannels : AgentsCommand → Bool
  | .createSession _ _ | .enqueueMessage _ _ _ _ | .respondPermission _ _ => true
  | _ => false

def ChannelOutput.sentCommand : ChannelOutput c → Option AgentsCommand
  | .command cmd => some cmd
  | _ => none

/-- The agents manager: it sends events and takes commands. -/
def agentsNode (cfg : AgentsManagerConfig n) :
    Machine.Node (AgentsManager n) (Label n) ChannelEvent AgentsCommand where
  machine := AgentsManager.life cfg
  sent m := m.trace.filterMap Output.sentEvent
  takes
    | .command cmd _ => if cmd.ofChannels then some cmd else none
    | _ => none

/-- The channels manager: it sends commands and takes events. -/
def channelsNode (cfg : ChannelsManagerConfig c) :
    Machine.Node (ChannelsManager c) (ChannelsLabel c) AgentsCommand ChannelEvent where
  machine := ChannelsManager.life cfg
  sent ch := ch.trace.filterMap ChannelOutput.sentCommand
  takes
    | .recvEvent _ e _ => some e
    | _ => none

abbrev Managers (n c : Nat) :=
  AgentsManager.History n ×
    (List (Machine.Taken (ChannelsManager c) (ChannelsLabel c)) × ChannelsManager c)

namespace Managers

def life (acfg : AgentsManagerConfig n) (ccfg : ChannelsManagerConfig c) :
    Machine (Managers n c) (Label n ⊕ ChannelsLabel c) :=
  (agentsNode acfg).joined (channelsNode ccfg)

variable {acfg : AgentsManagerConfig n} {ccfg : ChannelsManagerConfig c} {z : Managers n c}

theorem agentsNode_grows (acfg : AgentsManagerConfig n) : (agentsNode acfg).Grows := by
  intro m l m' hreach hstep
  have horderly := AgentsManager.orderly_of_reachable hreach
  exact (AgentsManager.step_advances horderly.plain hstep).trace.filterMap _

theorem channelsNode_grows (ccfg : ChannelsManagerConfig c) : (channelsNode ccfg).Grows := by
  intro ch l ch' _ hstep
  exact (ChannelsManager.step_extends hstep).filterMap _

/-- The commands that the agents manager has taken, and those that the channels manager has
    sent. -/
theorem commands_received (h : (life acfg ccfg).Reachable z) :
    (agentsNode acfg).received z.1.1 <+: z.2.2.trace.filterMap ChannelOutput.sentCommand :=
  (Machine.Node.received_prefix (agentsNode_grows acfg) (channelsNode_grows ccfg) h).1

/-! ### What the agents manager is told -/

end Managers

/-- What a message says: its contents, and what it replies to. -/
abbrev MessageText := List ContentPart × Option MessageMetadata

def SessionRequest.text : SessionRequest → Option MessageText
  | .enqueue _ content metadata => some (content, metadata)
  | .create _ => none

def Admitted.text (m : Admitted c) : MessageText := (m.content, m.metadata)

def PlainMessage.text (s : PlainMessage) : MessageText := (s.content, s.metadata)

/-- The messages that commands enqueue for a key. -/
def enqueuedTexts (k : SessionKey) (cmds : List AgentsCommand) : List MessageText :=
  (Mailbox.forKey k (cmds.filterMap AgentsCommand.request)).filterMap SessionRequest.text

theorem enqueuedTexts_prefix {cmds cmds' : List AgentsCommand} (h : cmds <+: cmds')
    (k : SessionKey) : enqueuedTexts k cmds <+: enqueuedTexts k cmds' :=
  ((h.filterMap _).filterMap _).filterMap _

theorem texts_asks (cfg : ChannelsManagerConfig c) (ms : List (Admitted c)) :
    (ms.flatMap (Admitted.asks cfg)).filterMap SessionRequest.text = [] := by
  rw [List.filterMap_eq_nil_iff]
  intro r hr
  obtain ⟨m, -, hask⟩ := List.mem_flatMap.mp hr
  unfold Admitted.asks at hask
  split at hask
  · cases hask
  · rw [List.mem_singleton.mp hask]
    rfl

theorem texts_enqueues (cfg : ChannelsManagerConfig c) (ms : List (Admitted c)) :
    ((ms.flatMap (Admitted.enqueues cfg)).filterMap SessionRequest.text).Sublist
      (ms.map Admitted.text) := by
  induction ms with
  | nil => exact List.Sublist.refl _
  | cons m ms ih =>
      rw [List.flatMap_cons, List.filterMap_append, List.map_cons]
      unfold Admitted.enqueues
      split
      · exact ih.cons _
      · exact ih.cons_cons _

/-- What a conversation enqueues was admitted. -/
theorem Conversed.texts {cfg : ChannelsManagerConfig c} {ms : List (Admitted c)}
    {entry : Option (RoutingEntry c)} {requests : List SessionRequest}
    (h : Conversed cfg ms entry requests) :
    (requests.filterMap SessionRequest.text).Sublist (ms.map Admitted.text) := by
  cases entry with
  | none =>
      rw [(h.closed rfl).2, texts_asks]
      exact List.nil_sublist _
  | some e =>
      obtain ⟨refused, first, rest, rfl, -, -, hrequests⟩ := h.opened e rfl
      rw [hrequests, List.filterMap_append, texts_asks, List.nil_append, List.map_append]
      exact (texts_enqueues cfg (first :: rest)).trans (List.sublist_append_right _ _)

namespace Managers

variable {acfg : AgentsManagerConfig n} {ccfg : ChannelsManagerConfig c} {z : Managers n c}

/-- The plain message that a step brings is that of the command that it takes. -/
theorem texts_plainMessage (acfg : AgentsManagerConfig n)
    (t : Machine.Taken (AgentsManager n) (Label n)) (k : SessionKey) :
    (AgentsManager.plainMessages [t] k).map PlainMessage.text =
      (enqueuedTexts k ((agentsNode acfg).received [t])).filter fun text => IsPlain text.1 := by
  obtain ⟨m, l, m'⟩ := t
  cases l with
  | command cmd a =>
      cases cmd with
      | enqueueMessage name k' content metadata =>
          have hreceived : (agentsNode acfg).received [⟨m, .command (.enqueueMessage name k' content
              metadata) a, m'⟩] = [.enqueueMessage name k' content metadata] := rfl
          rw [hreceived]
          by_cases hplain : IsPlain content
          · by_cases hk : k' = k
            · simp [AgentsManager.plainMessages, AgentsManager.plainMessage, enqueuedTexts,
                AgentsCommand.request, SessionRequest.text, PlainMessage.text, hplain, hk]
            · simp [AgentsManager.plainMessages, AgentsManager.plainMessage, enqueuedTexts,
                AgentsCommand.request, hplain, hk]
          · by_cases hk : k' = k
            · simp [AgentsManager.plainMessages, AgentsManager.plainMessage, enqueuedTexts,
                AgentsCommand.request, SessionRequest.text, hplain, hk]
            · simp [AgentsManager.plainMessages, AgentsManager.plainMessage, enqueuedTexts,
                AgentsCommand.request, hplain, hk]
      | createSession name k' =>
          by_cases hk : k' = k
          · simp [AgentsManager.plainMessages, AgentsManager.plainMessage, enqueuedTexts,
              Machine.Node.received, agentsNode, AgentsCommand.ofChannels, AgentsCommand.request,
              SessionRequest.text, hk]
          · simp [AgentsManager.plainMessages, AgentsManager.plainMessage, enqueuedTexts,
              Machine.Node.received, agentsNode, AgentsCommand.ofChannels, AgentsCommand.request,
              hk]
      | _ => rfl
  | _ => rfl

/-- The plain messages of the agents manager are those of the commands that it has taken. -/
theorem texts_plainMessages (acfg : AgentsManagerConfig n)
    (steps : List (Machine.Taken (AgentsManager n) (Label n))) (k : SessionKey) :
    (AgentsManager.plainMessages steps k).map PlainMessage.text =
      (enqueuedTexts k ((agentsNode acfg).received steps)).filter fun text => IsPlain text.1 := by
  induction steps with
  | nil => rfl
  | cons t steps ih =>
      have hreceived : (agentsNode acfg).received (t :: steps) =
          (agentsNode acfg).received [t] ++ (agentsNode acfg).received steps :=
        List.filterMap_append (l := [t])
      rw [hreceived, ← List.singleton_append, AgentsManager.plainMessages_append, List.map_append,
        texts_plainMessage acfg, ih]
      simp [enqueuedTexts]

/-- What the agents manager was sent for a key was admitted for it. -/
theorem texts_sublist (h : (life acfg ccfg).Reachable z) (k : SessionKey) :
    ((AgentsManager.plainMessages z.1.1 k).map PlainMessage.text).Sublist
      (((ChannelsManager.admittedFor z.2.1 k).map Admitted.text).filter
        fun text => IsPlain text.1) := by
  have hchannels := (Machine.Node.reachable_of_joined h).2
  have hrequests : enqueuedTexts k (z.2.2.trace.filterMap ChannelOutput.sentCommand) =
      (Mailbox.forKey k z.2.2.requested).filterMap SessionRequest.text := by
    unfold enqueuedTexts ChannelsManager.requested
    rw [List.filterMap_filterMap]
    congr 3
    funext o
    cases o <;> rfl
  have hrun := enqueuedTexts_prefix (commands_received h) k
  rw [hrequests] at hrun
  rw [texts_plainMessages acfg]
  exact (hrun.sublist.trans (ChannelsManager.conversed_conversation hchannels k).texts).filter _

/-! ### From end to end -/

/-- The parts of the prompt `p` are the texts, after the tool context of the slot or nothing
    and the reply context of one of them or nothing. -/
def TellsTexts (z : Managers n c) (p : OutstandingPrompt n) (parts : List ContentPart)
    (texts : List MessageText) : Prop :=
  ∃ context : Option String,
    (∀ s ∈ context, ∃ t ∈ z.1.1, (t.after.slots p.slotIdx).toolContext = some s) ∧
    ∃ text ∈ texts, parts = context.toList.map ContentPart.text ++
      (text.2.bind buildReplyContext).toList.map ContentPart.text ++ texts.flatMap Prod.fst

/-- **What users write arrives in order and at most once.**  In every run of both managers the
    prompts for a session key, one after the other, are made of consecutive parts of the plain
    messages that the channels manager admitted for that key, in the order in which they were
    admitted: none is repeated, altered, overtaken by another or shown to another session. -/
theorem messages_arrive (h : (life acfg ccfg).Reachable z) (k : SessionKey) :
    ∃ textss : List (List MessageText),
      textss.flatten.Sublist (((ChannelsManager.admittedFor z.2.1 k).map Admitted.text).filter
        fun text => IsPlain text.1) ∧
      List.Forall₂ (fun e texts => TellsTexts z e.1 e.2.1 texts) (z.1.2.promptsFor k) textss := by
  obtain ⟨sss, hsub, htell⟩ := AgentsManager.promptsFor_tell (Machine.Node.reachable_of_joined h).1 k
  refine ⟨sss.map fun ss => ss.map PlainMessage.text, ?_, ?_⟩
  · rw [← List.map_flatten]
    exact (hsub.map _).trans (texts_sublist h k)
  · rw [List.forall₂_map_right_iff]
    refine htell.imp ?_
    rintro e ss ⟨context, hcontext, s, hs, hparts⟩
    refine ⟨context, hcontext, s.text, List.mem_map_of_mem hs, ?_⟩
    rw [hparts, List.flatMap_map]
    rfl

end Managers

/-! ### Samples -/

namespace Sample

/-- Boot the agents, then take the labels in both managers. -/
def executeManagers (ls : List (Label 1 ⊕ ChannelsLabel 1)) : Option (Managers 1 1) :=
  (AgentsManager.start cfg (AgentsManager.fresh cfg true ∅) boot).bind fun m =>
    (Managers.life cfg channels).run (fun _ _ => True)
      (([], m), ([], ChannelsManager.fresh channels true)) ls

theorem reachable_of_executeManagers {ls : List (Label 1 ⊕ ChannelsLabel 1)}
    {z : Managers 1 1} (h : executeManagers ls = some z) :
    (Managers.life cfg channels).Reachable z := by
  obtain ⟨m, hstart, hrun⟩ := Option.bind_eq_some_iff.mp h
  exact Machine.reachable_of_run ls ⟨⟨rfl, true, ∅, boot, hstart⟩, rfl, true, rfl⟩ hrun

/-- `bob` writes, and the agents manager takes both commands. -/
def openChat : List (Label 1 ⊕ ChannelsLabel 1) :=
  [.inr (.start fun _ => channelAnswers "s")] ++
    (openSession (channelAnswers "s")).map .inr ++
      [.inl (.command (.createSession "a" bob) (answers "s")),
        .inl (send "hello" (answers "s"))]

end Sample

namespace Managers

/-- The message is in the prompt. -/
theorem messages_arrive_bob :
    ∃ (z : Managers 1 1) (e : OutstandingPrompt 1 × List ContentPart × List MessageNo)
      (textss : List (List MessageText)), z.1.2.promptsFor Sample.bob = [e] ∧
        e.2.1 = [.text "hello"] ∧
        textss.flatten.Sublist [([.text "hello"], none)] ∧
        List.Forall₂ (fun e texts => TellsTexts z e.1 e.2.1 texts) [e] textss := by
  have hrun : ∃ z ∈ Sample.executeManagers Sample.openChat,
      (z.1.2.promptsFor Sample.bob).map (fun e => e.2.1) = [[.text "hello"]] ∧
        ((ChannelsManager.admittedFor z.2.1 Sample.bob).map Admitted.text).filter
          (fun text => IsPlain text.1) = [([.text "hello"], none)] := by
    decide +kernel
  obtain ⟨z, hz, hprompts, htexts⟩ := hrun
  obtain ⟨textss, hsub, htell⟩ := messages_arrive (Sample.reachable_of_executeManagers hz) Sample.bob
  obtain ⟨e, hone, hparts⟩ := List.map_eq_singleton_iff.mp hprompts
  rw [htexts] at hsub
  rw [hone] at htell
  exact ⟨z, e, textss, hone, hparts, hsub, htell⟩

end Managers

end Anyclaw
