import Anyclaw.Agents.History

/-!
# The number of events of a step

What a step may send to the channels manager is decided by the state before it and by the
answers that the step gets: `eventCount` counts the events without the handlers, and
`sends_step` proves that no step sends more.

The events are sent over `channels_sender` in `commands.rs`, `incoming.rs` and
`session_recovery.rs` of `crates/anyclaw-agents/src`; there is one count for each function
that sends.
-/

namespace Anyclaw.AgentsManager

variable {n : Nat} (cfg : AgentsManagerConfig n) (m : AgentsManager n)

/-! ### Counts -/

def messageEvents (s : Fin n) : IncomingMessage → Nat
  | .sessionUpdate u =>
      if u.sessionId ∉ (m.slots s).awaitingFirstPrompt ∧
        ((m.slots s).reverseMap.get? u.sessionId).isSome then 1 else 0
  | .malformedUpdate sessionId _ =>
      if (sessionId.bind (m.slots s).reverseMap.get?).isSome then 1 else 0
  | .requestPermission r =>
      if ((m.slots s).reverseMap.get? (r.sessionId.getD "")).isSome then 1 else 0
  | .sessionPush _ (.valid sessionId content) =>
      if ((m.slots s).reverseMap.get? sessionId).isSome then content.length else 0
  | _ => 0

def incomingEvents (msg : SlotIncoming n) (a : Answers) : Nat :=
  match msg.msg with
  | some message => m.messageEvents msg.slotIdx message
  | none =>
      if m.Restarts msg.slotIdx a then
        (crashNotices (m.slots msg.slotIdx) (cfg.agents msg.slotIdx).name).length
      else 0

/-- The events for an `EnqueueMessage`; the other commands send none. -/
def commandEvents (a : Answers) : AgentsCommand → Nat
  | .enqueueMessage name k content _ =>
      match platformCommandOf content with
      | some .new => if CanRelease cfg m name k content a then 2 else 0
      | some .cancel =>
          if CanRelease cfg m name k content a then 2
          else if (findSlotByName cfg name).isSome then 4 else 0
      | none => if k ∈ m.queue.active then 0 else 1
  | _ => 0

/-- The result that is still to be delivered, the end, and the next dispatch. -/
def completionEventCount (c : PromptCompletion) : Nat :=
  (if c.sessionKey ∈ m.streamingCompleted then 0 else 1) + 1 +
    (if m.queue.queued c.sessionKey ≠ [] ∧ Announces cfg m c then 1 else 0)

def turnEvents : Label n → Nat
  | .command c a => commandEvents cfg m a c
  | .recvIncoming a =>
      match m.incoming with
      | [] => 0
      | msg :: _ =>
          if msg.msg.isNone && (m.slots msg.slotIdx).lifecycle.disabled then 0
          else incomingEvents cfg m msg a
  | .drainIncoming a =>
      match m.incoming with
      | [] => 0
      | msg :: _ => incomingEvents cfg m msg a
  | .finishCompletion _ =>
      match m.completing with
      | none => 0
      | some c => completionEventCount cfg m c
  | _ => 0

/-- At most this number of events is sent by a step. -/
def eventCount (l : Label n) : Nat := if m.channelsSender then turnEvents cfg m l else 0

/-! ### What is sent -/

variable {cfg m} {m' m'' : AgentsManager n}

def events (os : List (Output n)) : Nat := (os.filterMap Output.sentEvent).length

theorem events_append (os os' : List (Output n)) : events (os ++ os') = events os + events os' := by
  unfold events
  rw [List.filterMap_append, List.length_append]

theorem events_told (m : AgentsManager n) (es : List ChannelEvent) :
    events (m.told es) = if m.channelsSender then es.length else 0 := by
  unfold events
  split
  · rename_i hsender
    rw [sentEvent_told m es hsender]
  · rename_i hsender
    unfold told
    rw [if_neg hsender]
    rfl

theorem events_messages (m : AgentsManager n) : events m.backlog.messages = events m.trace := by
  unfold events
  rw [filterMap_messages m]
  intro o ho
  cases o with
  | event e => cases ho
  | _ => rfl

structure Sends (count : Nat) (m m' : AgentsManager n) : Prop where
  trace : m.trace <+: m'.trace
  bound : events m'.trace ≤ events m.trace + count

theorem Sends.sent_length {count : Nat} (h : Sends count m m') : (sent m m').length ≤ count := by
  obtain ⟨⟨os, hos⟩, hevents⟩ := h
  rw [← hos, events_append] at hevents
  unfold sent
  rw [← hos, List.drop_left]
  exact Nat.le_of_add_le_add_left hevents

theorem Sends.of_trace (h : m'.trace = m.trace) (count : Nat) : Sends count m m' where
  trace := by rw [h]
  bound := by
    rw [h]
    exact Nat.le_add_right _ _

theorem Sends.trans {count count' : Nat} (h : Sends count m m') (h' : Sends count' m' m'') :
    Sends (count + count') m m'' where
  trace := h.trace.trans h'.trace
  bound := by
    have hfirst := h.bound
    have hsecond := h'.bound
    omega

theorem Sends.mono {count count' : Nat} (h : Sends count m m') (hle : count ≤ count') :
    Sends count' m m' :=
  ⟨h.trace, h.bound.trans (Nat.add_le_add_left hle _)⟩

theorem Sends.of_append {os : List (Output n)} {count : Nat} (htrace : m'.trace = m.trace ++ os)
    (hcount : events os ≤ count) : Sends count m m' where
  trace := ⟨os, htrace.symm⟩
  bound := by
    rw [htrace, events_append]
    exact Nat.add_le_add_left hcount _

theorem sends_sendEvents (m : AgentsManager n) (es : List ChannelEvent) :
    Sends (if m.channelsSender then es.length else 0) m (m.sendEvents es) :=
  .of_append rfl (events_told m es).le

/-! ### Messages of the agents -/

section Messages

variable {s : Fin n}

theorem sends_respond (m : AgentsManager n) (s : Fin n) (rpcId : Option RequestId)
    (r : AgentResponse) : Sends 0 m (m.respond s rpcId r) := by
  unfold respond
  split
  · exact Sends.of_append rfl le_rfl
  · exact .of_trace rfl 0

theorem sends_handleIncoming (m : AgentsManager n) (s : Fin n) (msg : IncomingMessage) :
    Sends (if m.channelsSender then m.messageEvents s msg else 0) m (m.handleIncoming s msg) := by
  generalize hcount : (if m.channelsSender then m.messageEvents s msg else 0) = count
  cases msg with
  | sessionUpdate u =>
      rw [handleIncoming, forwardSessionUpdate]
      split
      · exact .of_trace rfl _
      · rename_i hawait
        split
        · rename_i k hroute hsender
          have hone : count = 1 := by
            rw [← hcount, hsender, messageEvents, hroute]
            simp [hawait]
          have hsaid : events [(Output.event (.deliverMessage k (.update u)) : Output n)] ≤ count :=
            hone.ge
          refine Sends.of_append ?_ hsaid
          dsimp only
          split <;> rfl
        · exact .of_trace rfl _
  | malformedUpdate sessionId error =>
      rw [handleIncoming, forwardMalformedUpdateError]
      split
      · exact .of_trace rfl _
      · rename_i k hroute
        refine (sends_sendEvents m _).mono ?_
        rw [← hcount, messageEvents, hroute]
        exact le_rfl
  | requestPermission r =>
      rw [handleIncoming, handlePermissionRequest]
      dsimp only
      split
      · rename_i k hroute hsender
        have hone : count = 1 := by
          rw [← hcount, hsender, messageEvents, hroute]
          rfl
        exact Sends.of_append (show _ = _ ++ [_] from rfl) hone.ge
      · split
        · exact (Sends.of_append rfl le_rfl).mono (Nat.zero_le _)
        · exact .of_trace rfl _
  | sessionPush rpcId params =>
      rw [handleIncoming]
      cases params with
      | missing => exact (sends_respond m s rpcId _).mono (Nat.zero_le _)
      | invalid => exact (sends_respond m s rpcId _).mono (Nat.zero_le _)
      | valid sessionId content =>
          rw [handleSessionPush]
          split
          · exact (sends_respond m s rpcId _).mono (Nat.zero_le _)
          · rename_i k hroute
            split
            · rename_i hsender
              refine ((sends_sendEvents m _).trans (sends_respond _ s rpcId _)).mono ?_
              rw [← hcount, hsender, messageEvents, hroute]
              simp
            · exact (sends_respond m s rpcId _).mono (Nat.zero_le _)
  | fsRequest rpcId outcome => exact (sends_respond m s rpcId _).mono (Nat.zero_le _)
  | otherMethod rpcId => exact (sends_respond m s rpcId _).mono (Nat.zero_le _)

theorem events_crashOutputs (cfg : AgentsManagerConfig n) (m : AgentsManager n) (s : Fin n)
    (a : Answers) : events (crashOutputs cfg m s a) =
      if m.channelsSender then incomingEvents cfg m ⟨s, none⟩ a else 0 := by
  unfold crashOutputs incomingEvents
  dsimp only
  split
  · have hspawns : events (m.spawns s a) = 0 := by
      unfold spawns
      split <;> rfl
    rw [events_append, hspawns, events_told, Nat.add_zero]
  · split <;> rfl

/-- A message of a slot, or the end of its output. -/
theorem sends_handleSlotIncoming (msg : SlotIncoming n) (rest : List (SlotIncoming n))
    (a : Answers) : Sends (if m.channelsSender then incomingEvents cfg m msg a else 0) m
      (handleSlotIncoming cfg { m with incoming := rest } msg a) := by
  obtain ⟨s, _ | message⟩ := msg
  · have hcrash := handleCrash_spoken cfg { m with incoming := rest } s a
    refine ⟨hcrash.extends, ?_⟩
    have hmessages := events_messages (handleCrash cfg { m with incoming := rest } s a)
    rw [hcrash.backlog, Backlog.sayAll_messages, events_append, events_messages] at hmessages
    exact hmessages.ge.trans (Nat.add_le_add_left (events_crashOutputs cfg m s a).le _)
  · have hsame : messageEvents { m with incoming := rest } s message = m.messageEvents s message := by
      unfold messageEvents
      rfl
    have hsends := sends_handleIncoming { m with incoming := rest } s message
    rw [hsame] at hsends
    exact ⟨hsends.trace, hsends.bound⟩

end Messages

/-! ### Every step -/

section Steps

variable {l : Label n} {b : Backlog n}

theorem Talk.speaks (h : Talk cfg m l b) : l.speaks = true := by
  have hreceives : ∀ {a : Answers}, Receives l a → l.speaks = true := by
    rintro a (rfl | rfl)
    · rfl
    · rfl
  cases h with
  | forwarded hl => exact hreceives hl
  | malformed hl => exact hreceives hl
  | crashed hl => exact hreceives hl
  | aside hl => exact hl

theorem length_closing (m : AgentsManager n) (c : PromptCompletion) (d : Anyclaw.Delivered) :
    (m.closing c d).length = (if c.sessionKey ∈ m.streamingCompleted then 0 else 1) + 1 := by
  unfold closing
  split <;> rfl

theorem Announces.of_canRedispatch {c : PromptCompletion} {a : Answers}
    (h : CanRedispatch cfg m c a) : Announces cfg m c := by
  obtain ⟨hlive, s, hs, hname, _⟩ := h
  exact ⟨hlive, s, hs, hname⟩

section Enqueue

variable {name : String} {k : SessionKey} {content : List ContentPart}
  {a : Answers} (metadata : Option MessageMetadata)

theorem commandEvents_released (hcan : CanRelease cfg m name k content a) :
    commandEvents cfg m a (.enqueueMessage name k content metadata) = 2 := by
  have hcan' := hcan
  obtain ⟨s, _, ⟨hcommand, _⟩ | ⟨hcommand, _⟩⟩ := hcan
  · rw [commandEvents, hcommand]
    exact if_pos hcan'
  · rw [commandEvents, hcommand]
    exact if_pos hcan'

theorem commandEvents_refused {s : Fin n} (hcommand : platformCommandOf content = some .cancel)
    (hfind : findSlotByName cfg name = some s) (hcannot : ¬ (m.slots s).CanCancel k a) :
    commandEvents cfg m a (.enqueueMessage name k content metadata) = 4 := by
  have hnot : ¬ CanRelease cfg m name k content a := by
    rintro ⟨s', hs', ⟨hnew, _⟩ | ⟨_, hcancel⟩⟩
    · rw [hcommand] at hnew
      cases hnew
    · rw [hfind] at hs'
      cases hs'
      exact hcannot hcancel
  rw [commandEvents, hcommand]
  dsimp only
  rw [if_neg hnot, hfind]
  rfl

theorem commandEvents_idle (hplain : IsPlain content) (hidle : k ∉ m.queue.active) :
    commandEvents cfg m a (.enqueueMessage name k content metadata) = 1 := by
  have hnone : platformCommandOf content = none := hplain
  rw [commandEvents, hnone]
  exact if_neg hidle

end Enqueue

/-- What is said for a completion: its end, and what follows. -/
theorem events_completion {c : PromptCompletion} {a : Answers} (d : Anyclaw.Delivered)
    {es : List ChannelEvent} (hc : m.completing = some c)
    (hes : es.length ≤ if m.queue.queued c.sessionKey ≠ [] ∧ Announces cfg m c then 1 else 0) :
    events (m.told (m.closing c d)) + events (m.told es) ≤
      eventCount cfg m (.finishCompletion a) := by
  rw [events_told, events_told]
  unfold eventCount turnEvents completionEventCount
  rw [hc]
  split
  · rw [length_closing]
    exact Nat.add_le_add_left hes _
  · exact le_rfl

/-- What a step says that neither takes a message of an agent nor answers one. -/
theorem Effect.says (h : Effect cfg m l b) (hl : l.speaks = false) :
    events b.messages ≤
      events m.backlog.messages + eventCount cfg m l := by
  have htold : ∀ es : List ChannelEvent, es.length ≤ turnEvents cfg m l →
      events (m.told es) ≤ eventCount cfg m l := by
    intro es hes
    rw [events_told]
    unfold eventCount
    split
    · exact hes
    · exact le_rfl
  cases h with
  | quiet _ => exact Nat.le_add_right _ _
  | talked htalk =>
      rw [htalk.speaks] at hl
      cases hl
  | unqueued _ _ => exact Nat.le_add_right _ _
  | @released name k content metadata a text hcan =>
      have hevents := htold (syntheticChunk k text) (commandEvents_released metadata hcan).ge
      simpa [events_append] using hevents
  | @refused name k content metadata a s hcommand hfind hcannot =>
      have hevents := htold (syntheticResponse k "No active operation to cancel." .cancelled)
        (commandEvents_refused metadata hcommand hfind hcannot).ge
      simpa [events_append] using hevents
  | queued _ _ =>
      rw [Backlog.say_messages, events_append]
      exact Nat.add_le_add_left (Nat.zero_le _) _
  | @dispatched name k content metadata a p parts hplain hidle _ _ =>
      have hevents := htold [.dispatchStarted k] (commandEvents_idle metadata hplain hidle).ge
      have hrest : ∀ no, events [Output.prompt p parts no, .reply m.nextMessage k true (.ok ())] = 0 :=
        fun _ => rfl
      simpa [events_append, hrest] using hevents
  | @rejected name k content metadata a e hplain hidle _ =>
      have hevents := htold [.dispatchStarted k] (commandEvents_idle metadata hplain hidle).ge
      have hrest : events [(Output.reply m.nextMessage k true (.error e) : Output n)] = 0 := rfl
      simpa [events_append, hrest] using hevents
  | ended _ _ => exact Nat.le_add_right _ _
  | abandoned _ _ => exact Nat.le_add_right _ _
  | taken _ _ => exact Nat.le_add_right _ _
  | @finished a c d hc _ _ =>
      have hevents : events (m.told (m.closing c d)) + events (m.told []) ≤
          eventCount cfg m (.finishCompletion a) := events_completion d hc (Nat.zero_le _)
      have hnil : events (m.told []) = 0 := by
        rw [told_nil]
        rfl
      rw [hnil] at hevents
      simpa [reported, events_append] using hevents
  | @redispatched a c d p parts hc _ hwaiting hcan _ =>
      have hone : [ChannelEvent.dispatchStarted c.sessionKey].length ≤
          if m.queue.queued c.sessionKey ≠ [] ∧ Announces cfg m c then 1 else 0 := by
        rw [if_pos ⟨hwaiting, .of_canRedispatch hcan⟩]
        exact le_rfl
      have hevents := events_completion (a := a) d hc hone
      have hrest : ∀ origin, events [Output.prompt p parts origin] = 0 := fun _ => rfl
      simpa [reported, events_append, hrest, Nat.add_assoc] using hevents
  | @lost a c d es hc _ hwaiting _ hes =>
      have hone : es.length ≤
          if m.queue.queued c.sessionKey ≠ [] ∧ Announces cfg m c then 1 else 0 := by
        rw [hes]
        by_cases hannounces : Announces cfg m c
        · rw [if_pos hannounces, if_pos ⟨hwaiting, hannounces⟩]
          exact le_rfl
        · rw [if_neg hannounces]
          exact Nat.zero_le _
      have hevents := events_completion (a := a) d hc hone
      simpa [reported, events_append, Nat.add_assoc] using hevents

theorem sends_respondPermission (m : AgentsManager n) (requestId optionId : String) :
    Sends 0 m (m.respondPermission requestId optionId) := by
  unfold respondPermission
  split
  · exact .of_trace rfl 0
  · dsimp only
    split
    · exact Sends.of_append rfl le_rfl
    · exact .of_trace (by rfl) 0

/-- **No step sends more events than were counted.** -/
theorem sends_step (hplain : m.backlog.Plain) (h : step cfg m l = some m') :
    Sends (eventCount cfg m l) m m' := by
  have hspoken : l.speaks = false → Sends (eventCount cfg m l) m m' := by
    intro hl
    obtain ⟨heffect, _, _, htrace⟩ := step_advances hplain h
    have hsays := heffect.says hl
    rw [events_messages, events_messages] at hsays
    exact ⟨htrace, hsays⟩
  cases turn_of_step cfg m h with
  | @command c a _ =>
      cases c with
      | respondPermission requestId optionId =>
          exact (sends_respondPermission m requestId optionId).mono (Nat.zero_le _)
      | _ => exact hspoken rfl
  | @recvIncoming msg rest a _ hincoming henabled =>
      have hcount : eventCount cfg m (.recvIncoming a) =
          if m.channelsSender then incomingEvents cfg m msg a else 0 := by
        have hnot : ¬ (msg.msg.isNone && (m.slots msg.slotIdx).lifecycle.disabled) = true := by
          rw [Bool.and_eq_true, Option.isNone_iff_eq_none]
          rintro ⟨hmsg, hdisabled⟩
          rw [henabled hmsg] at hdisabled
          cases hdisabled
        unfold eventCount turnEvents
        rw [hincoming]
        dsimp only
        rw [if_neg hnot]
      rw [hcount]
      exact sends_handleSlotIncoming msg rest a
  | recvDisabled _ _ _ _ => exact .of_trace (by rfl) _
  | @drainIncoming msg rest a c _ hincoming =>
      have hcount : eventCount cfg m (.drainIncoming a) =
          if m.channelsSender then incomingEvents cfg m msg a else 0 := by
        unfold eventCount turnEvents
        rw [hincoming]
      rw [hcount]
      exact sends_handleSlotIncoming msg rest a
  | _ => exact hspoken rfl

end Steps

end Anyclaw.AgentsManager
