import Anyclaw.Agents.SessionSteps
import Anyclaw.Agents.UpdateOrder
import Anyclaw.Agents.Disabled

/-!
# Replayed history

An agent answers `session/load` after it has sent the history of the session once more, as
updates that look like any others.  The manager marks the loaded session in
`awaiting_first_prompt` and drops the updates of a marked session; the mark is read when
an update is taken from the incoming queue, not when the agent sent it.

So the replay of a session stays hidden as long as its mark outlives its queued updates.
`heal_session` breaks this: it loads a session in the handler that goes on to the prompt,
and the prompt removes the mark before the run loop has taken one replayed update.
`replay_hidden` shows that nothing else is needed: under `HidesReplays` no replayed update
is shown.

`heal_session` and `try_restore_session` are in
`crates/anyclaw-agents/src/session_recovery.rs`; the mark is read in `forward_session_update`
(`incoming.rs`) and removed in `prompt_session` (`commands.rs`).
-/

namespace Anyclaw

variable {n : Nat}

def SlotIncoming.replayed (msg : SlotIncoming n) : Option (Fin n × AcpSessionId) :=
  match msg.msg with
  | some (.sessionUpdate u) => if u.replay then some (msg.slotIdx, u.sessionId) else none
  | _ => none

namespace AgentSlot

/-- The updates of session `id` are dropped: it awaits its first prompt, or no key owns
    it. -/
def Hides (slot : AgentSlot) (id : AcpSessionId) : Prop :=
  id ∈ slot.awaitingFirstPrompt ∨ slot.reverseMap.get? id = none

instance (slot : AgentSlot) (id : AcpSessionId) : Decidable (slot.Hides id) :=
  inferInstanceAs (Decidable (_ ∨ _))

end AgentSlot

namespace AgentsManager

variable (cfg : AgentsManagerConfig n) (m : AgentsManager n)

def replaying : List (Fin n × AcpSessionId) := m.incoming.filterMap SlotIncoming.replayed

/-- The message that a label prompts with at once, if its agent can take it: the name of
    the agent, the key and the answers. -/
def prompting : Label n → Option (String × SessionKey × Answers)
  | .command (.enqueueMessage name k content _) a =>
      if platformCommandOf content = none ∧ k ∉ m.queue.active then some (name, k, a) else none
  | _ => none

end AgentsManager

def Label.update : Label n → Option (Fin n × SessionUpdate)
  | .incoming s (.sessionUpdate u) => some (s, u)
  | _ => none

namespace Operation

/-- An answer names `id` as a session that the operation maps. -/
def Maps (id : AcpSessionId) : Operation → Prop
  | ⟨.opens, _, _, a⟩ => a.sessionNew.result? = some id ∨ a.recovery.result? = some id
  | ⟨.renews, _, _, a⟩ => a.sessionNew.result? = some id
  | ⟨.forks, _, _, a⟩ => a.fork.result? = some id

instance (id : AcpSessionId) : ∀ o : Operation, Decidable (o.Maps id)
  | ⟨.opens, _, _, _⟩ => inferInstanceAs (Decidable (_ ∨ _))
  | ⟨.renews, _, _, _⟩ => inferInstanceAs (Decidable (_ = _))
  | ⟨.forks, _, _, _⟩ => inferInstanceAs (Decidable (_ = _))

def Loads (slot : AgentSlot) (id : AcpSessionId) (o : Operation) : Prop :=
  o.kind = .opens ∧ slot.Recovers o.key o.answers ∧ slot.supportsResume = false ∧
    o.answers.recovery.result? = some id

instance (slot : AgentSlot) (id : AcpSessionId) (o : Operation) : Decidable (o.Loads slot id) :=
  inferInstanceAs (Decidable (_ ∧ _))

end Operation

namespace AgentsManager

variable (cfg : AgentsManagerConfig n) (m : AgentsManager n)

/-! ### The condition -/

/-- A session that an operation maps is marked if a replay of it is queued; and what is
    replayed meanwhile belongs to the loaded session or is dropped anyway. -/
def MapsHidden (s : Fin n) (o : Operation) : Prop :=
  (∀ e ∈ m.replaying, e.1 = s → o.Maps e.2 →
      e.2 ∈ (m.slots s).awaitingFirstPrompt ∨ o.Loads (m.slots s) e.2) ∧
    ∀ u ∈ o.answers.replayed, o.answers.recovery.result? = some u.1 ∨
      (m.slots s).Hides u.1 ∧ (o.Maps u.1 → u.1 ∈ (m.slots s).awaitingFirstPrompt)

/-- Of the session that an operation maps nothing is replayed: no replayed update is
    queued before, none is sent before the answer. -/
def MapsUnreplayed (s : Fin n) (o : Operation) : Prop :=
  (∀ e ∈ m.replaying, e.1 = s → ¬ o.Maps e.2) ∧
    ∀ u ∈ o.answers.replayed, (m.slots s).Hides u.1 ∧ ¬ o.Maps u.1

/-- The session of `k`, which is live or opened now, is prompted when no replay of it is
    queued. -/
def PromptsUnreplayed (name : String) (k : SessionKey) (a : Answers) : Prop :=
  ∀ s ∈ findSlotByName cfg name,
    (∀ id ∈ (m.slots s).sessionMap.get? k, (s, id) ∉ m.replaying) ∧
      ((m.slots s).sessionMap.get? k = none → m.MapsUnreplayed s ⟨.opens, name, k, a⟩)

/-- A new process replays the session that it is asked to load.  Other updates are dropped
    because no key owns their session, or because all sessions are given up when the load
    has failed. -/
def RestoresHidden (slot : AgentSlot) (a : Answers) : Prop :=
  ∀ u ∈ a.replayed, a.recovery.result? = some u.1 ∨
    a.sessionNew.result? ≠ some u.1 ∧ (slot.reverseMap.get? u.1 = none ∨
      a.recovery.result? = none ∧ slot.ComesBack a)

/-- **No step makes a queued replay visible.**  An answer that a handler does not use can
    be taken to be empty. -/
structure HidesReplays (l : Label n) : Prop where
  /-- An agent that goes on replaying after the manager has given up waiting. -/
  arrives : ∀ e ∈ l.update, e.2.replay = true → (m.slots e.1).Hides e.2.sessionId
  prompts : ∀ p ∈ m.prompting l, PromptsUnreplayed cfg m p.1 p.2.1 p.2.2
  maps : m.prompting l = none → ∀ o ∈ m.operation l,
    ∀ s ∈ findSlotByName cfg o.agentName, m.MapsHidden s o
  restores : ∀ e ∈ m.crash l, RestoresHidden (m.slots e.1) e.2

instance (s : Fin n) (o : Operation) : Decidable (m.MapsHidden s o) :=
  inferInstanceAs (Decidable (_ ∧ _))

instance (s : Fin n) (o : Operation) : Decidable (m.MapsUnreplayed s o) :=
  inferInstanceAs (Decidable (_ ∧ _))

instance (name : String) (k : SessionKey) (a : Answers) :
    Decidable (PromptsUnreplayed cfg m name k a) :=
  inferInstanceAs (Decidable (∀ s ∈ findSlotByName cfg name, _ ∧ _))

instance (slot : AgentSlot) (a : Answers) : Decidable (RestoresHidden slot a) :=
  inferInstanceAs (Decidable (∀ u ∈ a.replayed, _ ∨ _))

instance (l : Label n) : Decidable (HidesReplays cfg m l) :=
  decidable_of_iff ((∀ e ∈ l.update, e.2.replay = true → (m.slots e.1).Hides e.2.sessionId) ∧
    (∀ p ∈ m.prompting l, PromptsUnreplayed cfg m p.1 p.2.1 p.2.2) ∧
    (m.prompting l = none → ∀ o ∈ m.operation l, ∀ s ∈ findSlotByName cfg o.agentName,
      m.MapsHidden s o) ∧
    ∀ e ∈ m.crash l, RestoresHidden (m.slots e.1) e.2)
    ⟨fun h => ⟨h.1, h.2.1, h.2.2.1, h.2.2.2⟩, fun h => ⟨h.arrives, h.prompts, h.maps, h.restores⟩⟩

variable {cfg m} {m' m₀ m₁ : AgentsManager n} {l : Label n}

/-! ### What a step does to the marks -/

inductive Asked (cfg : AgentsManagerConfig n) (m : AgentsManager n) (name : String)
    (k : SessionKey) (a : Answers) : AgentsManager n → Prop
  | absent {m' : AgentsManager n} (hkept : SessionsKept m m') : Asked cfg m name k a m'
  /-- The session is not opened. -/
  | unhealed {s : Fin n} {m' : AgentsManager n} (hfind : findSlotByName cfg name = some s)
      (hdead : (m.slots s).sessionMap.get? k = none)
      (hopened : Opened cfg m (some ⟨.opens, name, k, a⟩) m') : Asked cfg m name k a m'
  /-- The live session is prompted. -/
  | live {s : Fin n} {id : AcpSessionId} {m₁ m' : AgentsManager n}
      (hfind : findSlotByName cfg name = some s)
      (hlive : (m.slots s).sessionMap.get? k = some id) (hkept : SessionsKept m m₁)
      (hprompted : Prompted m₁ m' s id) : Asked cfg m name k a m'
  /-- The session is opened and prompted. -/
  | healed {s : Fin n} {id : AcpSessionId} {m₁ m' : AgentsManager n}
      (hfind : findSlotByName cfg name = some s)
      (hdead : (m.slots s).sessionMap.get? k = none)
      (hopened : Opened cfg m (some ⟨.opens, name, k, a⟩) m₁)
      (hlive : (m₁.slots s).sessionMap.get? k = some id) (hprompted : Prompted m₁ m' s id) :
      Asked cfg m name k a m'

section Asked

variable {name : String} {k : SessionKey} {a : Answers}

theorem SessionsKept.then_asked (h : SessionsKept m m₀) (hslots : m₀.slots = m.slots)
    (h' : Asked cfg m₀ name k a m') : Asked cfg m name k a m' := by
  cases h' with
  | absent hkept => exact .absent (h.trans hkept)
  | unhealed hfind hdead hopened =>
      rw [hslots] at hdead
      exact .unhealed hfind hdead (h.then_opened hslots hopened)
  | live hfind hlive hkept hprompted =>
      rw [hslots] at hlive
      exact .live hfind hlive (h.trans hkept) hprompted
  | healed hfind hdead hopened hlive hprompted =>
      rw [hslots] at hdead
      exact .healed hfind hdead (h.then_opened hslots hopened) hlive hprompted

theorem Asked.trans_kept (h : Asked cfg m name k a m₁) (h' : SessionsKept m₁ m') :
    Asked cfg m name k a m' := by
  cases h with
  | absent hkept => exact .absent (hkept.trans h')
  | unhealed hfind hdead hopened => exact .unhealed hfind hdead (hopened.trans_kept h')
  | live hfind hlive hkept hprompted => exact .live hfind hlive hkept (hprompted.trans_kept h')
  | healed hfind hdead hopened hlive hprompted =>
      exact .healed hfind hdead hopened hlive (hprompted.trans_kept h')

/-- The session that was ensured is prompted. -/
theorem Ensured.asked {s : Fin n} {id : AcpSessionId} (h : Ensured m s name k a m₁)
    (hfind : findSlotByName cfg name = some s)
    (hlive : (m₁.slots s).sessionMap.get? k = some id) (hprompted : Prompted m₁ m' s id) :
    Asked cfg m name k a m' := by
  cases h with
  | mapped _ => exact .live hfind hlive (SessionsKept.refl m) hprompted
  | healed hdead hheal => exact .healed hfind hdead (hheal.opened hfind) hlive hprompted

theorem promptSession_asked {payload : RichPayload} (hplain : IsPlain payload.content) :
    Asked cfg m name k a (promptSession cfg m name k payload a).2 := by
  cases hfind : findSlotByName cfg name with
  | none =>
      unfold promptSession
      rw [hfind]
      exact .absent (SessionsKept.refl m)
  | some s =>
      have houtcome := promptSession_outcome cfg (m := m) (k := k) (a := a) hfind hplain
      generalize promptSession cfg m name k payload a = r at houtcome
      cases houtcome with
      | sent hensured hlive _ _ _ _ _ hprompted _ => exact hensured.asked hfind hlive hprompted
      | unsent hensured hlive _ hprompted _ => exact hensured.asked hfind hlive hprompted
      | unhealed hdead hheal _ => exact .unhealed hfind hdead (hheal.opened hfind)

theorem enqueueMessage_asked {content : List ContentPart} {metadata : Option MessageMetadata}
    (hplain : m.backlog.Plain) (hcontent : IsPlain content) (hidle : k ∉ m.queue.active) :
    Asked cfg m name k a (enqueueMessage cfg m name k content metadata a) := by
  obtain ⟨m₀, merged, hkept, hslots, _, hmerged, heq⟩ := idleMessage_prompts cfg name a hplain
    hcontent hidle ⟨content, metadata, [m.nextMessage]⟩ rfl
  have hcommand : platformCommandOf content = none := hcontent
  unfold enqueueMessage
  rw [hcommand]
  dsimp only
  rw [takeNumber_queue, if_neg fun h => hidle ((SessionQueue.isActive_iff m.queue k).mp h), heq]
  exact (hkept.then_asked hslots (promptSession_asked hmerged)).trans_kept
    (emit_reply_kept _ _ _ _ _)

/-- A platform command, or a message that waits for the active prompt of its key. -/
theorem enqueueMessage_opened {content : List ContentPart} {metadata : Option MessageMetadata}
    (hnot : ¬ (platformCommandOf content = none ∧ k ∉ m.queue.active)) :
    Opened cfg m (m.operation (.command (.enqueueMessage name k content metadata) a))
      (enqueueMessage cfg m name k content metadata a) := by
  have htake := takeNumber_kept m
  unfold enqueueMessage operation
  dsimp only
  cases hcommand : platformCommandOf content with
  | some command =>
      cases hfind : findSlotByName cfg name with
      | none => exact .kept (htake.trans (emit_reply_kept _ _ _ _ _))
      | some s =>
          refine Opened.trans_kept ?_ (emit_reply_kept _ _ _ _ _)
          refine htake.then_opened rfl (handlePlatformCommand_opened hfind command ?_).1
          rintro rfl
          rfl
  | none =>
      have hactive : k ∈ m.queue.active := by
        by_contra hidle
        exact hnot ⟨hcommand, hidle⟩
      dsimp only
      rw [takeNumber_queue, if_pos ((SessionQueue.isActive_iff m.queue k).mpr hactive)]
      exact .kept ((htake.trans (withQueue_kept _ _)).trans (emit_reply_kept _ _ _ _ _))

theorem operation_enqueue_renews {content : List ContentPart} {metadata : Option MessageMetadata}
    {o : Operation} (hnot : ¬ (platformCommandOf content = none ∧ k ∉ m.queue.active))
    (ho : m.operation (.command (.enqueueMessage name k content metadata) a) = some o) :
    o.kind = .renews := by
  rw [operation] at ho
  split at ho
  · cases ho
    rfl
  · cases ho
  · rename_i hcommand
    obtain ⟨hidle, _⟩ := Option.ite_none_left_eq_some.mp ho
    exact absurd ⟨hcommand, hidle⟩ hnot

end Asked

inductive MarkStep (cfg : AgentsManagerConfig n) (m : AgentsManager n) :
    Label n → AgentsManager n → Prop
  | kept {l : Label n} {m' : AgentsManager n} (hkept : SessionsKept m m') : MarkStep cfg m l m'
  | queued {s : Fin n} {msg : IncomingMessage} (hreader : (m.slots s).readerAlive = true) :
      MarkStep cfg m (.incoming s msg) (m.receive [⟨s, some msg⟩])
  | ended {s : Fin n} (hreader : (m.slots s).readerAlive = true) :
      MarkStep cfg m (.eof s)
        ((m.receive [⟨s, none⟩]).modifySlot s fun slot => { slot with readerAlive := false })
  /-- A session that is loaded is marked. -/
  | opened {l : Label n} {m' : AgentsManager n} (hprompting : m.prompting l = none)
      (hopened : Opened cfg m (m.operation l) m')
      (hloads : ∀ o ∈ m.operation l, ∀ s ∈ findSlotByName cfg o.agentName, ∀ id,
        o.Loads (m.slots s) id → id ∈ (m'.slots s).awaitingFirstPrompt) : MarkStep cfg m l m'
  | asked {l : Label n} {name : String} {k : SessionKey} {a : Answers} {m' : AgentsManager n}
      (hprompting : m.prompting l = some (name, k, a)) (hasked : Asked cfg m name k a m') :
      MarkStep cfg m l m'
  /-- `handle_prompt_completion` has drained the queue and loads no session. -/
  | drained {l : Label n} {m' : AgentsManager n} (hafter : m'.incoming = []) : MarkStep cfg m l m'
  | heard {l : Label n} {msg : SlotIncoming n} {rest : List (SlotIncoming n)}
      {m' : AgentsManager n} (hincoming : m.incoming = msg :: rest)
      (hkept : SessionsKept { m with incoming := rest } m') : MarkStep cfg m l m'
  | crashed {l : Label n} {s : Fin n} {a : Answers} {rest : List (SlotIncoming n)}
      {m' : AgentsManager n} (hcrash : m.crash l = some (s, a))
      (hincoming : m.incoming = ⟨s, none⟩ :: rest)
      (houtcome : CrashOutcome cfg { m with incoming := rest } s a m') : MarkStep cfg m l m'
  | stopped {l : Label n} : MarkStep cfg m l m.shutdown

theorem createOrHeal_loads {name : String} {k : SessionKey} {a : Answers} {s : Fin n}
    {id : AcpSessionId} (hfind : findSlotByName cfg name = some s)
    (h : Operation.Loads (m.slots s) id ⟨.opens, name, k, a⟩) :
    id ∈ ((createOrHeal cfg m name k a).slots s).awaitingFirstPrompt := by
  obtain ⟨_, ⟨hconn, hstale, hsupports, _⟩, hresume, hid⟩ := h
  obtain ⟨conn, hconn⟩ := Option.isSome_iff_exists.mp hconn
  have hload : (m.slots s).supportsLoad = true := by
    rcases hsupports with h | h
    · rw [hresume] at h
      cases h
    · exact h
  obtain ⟨staleId, hget⟩ := Option.isSome_iff_exists.mp hstale
  obtain ⟨m₁, hloaded, _⟩ := loaded_change cfg m s conn staleId hid
  have hcontains : (m.slots s).staleSessions.contains k = true := hstale
  unfold createOrHeal
  simp only [hfind, hcontains, if_true]
  unfold healSession
  simp only [hget, hresume, Bool.false_eq_true, if_false, hload, if_true, hconn, hloaded]
  unfold recoverSession persistSession
  rw [writeStore_slots, slots_modifySlot, if_pos rfl, slots_modifySlot, if_pos rfl]
  exact Finset.mem_insert_self _ _

/-- A handler that prompts past the queue or not at all. -/
theorem handleCommand_marks (hplain : m.backlog.Plain) (c : AgentsCommand) (a : Answers) :
    MarkStep cfg m (.command c a) (handleCommand cfg m a c) := by
  cases c with
  | sendPrompt message =>
      rw [handleCommand]
      split
      · exact .kept (sendPromptToSlot_kept m _ message a)
      · exact .kept (SessionsKept.refl m)
  | cancelOperation => exact .kept (cancelOperation_kept m a)
  | respondPermission requestId optionId => exact .kept (respondPermission_kept m _ _)
  | shutdown => exact .stopped
  | createSession name k =>
      refine .opened rfl (createOrHeal_opened m name k a) ?_
      rintro _ ho s hfind id hloads
      cases ho
      exact createOrHeal_loads hfind hloads
  | enqueueMessage name k content metadata =>
      by_cases hidle : platformCommandOf content = none ∧ k ∉ m.queue.active
      · exact .asked (if_pos hidle) (enqueueMessage_asked hplain hidle.1 hidle.2)
      · refine .opened (if_neg hidle) (enqueueMessage_opened hidle) ?_
        rintro o ho s _ id ⟨hkind, _⟩
        have hrenews := operation_enqueue_renews hidle ho
        rw [hkind] at hrenews
        cases hrenews
  | forkSession name k =>
      refine .opened rfl (forkSession_opened m name k a) ?_
      rintro _ ho s _ id ⟨hkind, _⟩
      cases ho
      cases hkind
  | listSessions name => exact .kept (listSessions_kept m name a)
  | cancelSession name k => exact .kept (cancelSession_kept cfg m name k a)

/-- Without an operation nothing is queued. -/
theorem Handled.incoming (h : Handled cfg m none m') : m'.incoming = m.incoming := by
  have hopened : ∀ {m₁ : AgentsManager n}, Opened cfg m none m₁ → m₁.incoming = m.incoming := by
    intro m₁ h₁
    cases h₁ with
    | kept hkept => exact hkept.incoming
    | changed ho _ _ _ => cases ho
  cases h with
  | opened h₁ _ => exact hopened h₁
  | prompted h₁ _ hprompted _ => exact hprompted.incoming.trans (hopened h₁)

theorem handleSlotIncoming_marks {msg : SlotIncoming n} {rest : List (SlotIncoming n)}
    {a : Answers} (hincoming : m.incoming = msg :: rest)
    (hcrash : msg.msg = none → m.crash l = some (msg.slotIdx, a)) :
    MarkStep cfg m l (handleSlotIncoming cfg { m with incoming := rest } msg a) := by
  obtain ⟨s, message⟩ := msg
  unfold handleSlotIncoming
  cases message with
  | some incoming => exact .heard hincoming (handleIncoming_kept _ s incoming)
  | none => exact .crashed (hcrash rfl) hincoming (handleCrash_outcome cfg _ s a)

theorem step_marks (hplain : m.backlog.Plain) (h : step cfg m l = some m') :
    MarkStep cfg m l m' := by
  have hsame : ∀ {m₁ : AgentsManager n}, m₁.slots = m.slots → m₁.sessionStore = m.sessionStore →
      m₁.trace = m.trace → m₁.incoming = m.incoming → MarkStep cfg m l m₁ :=
    fun hslots hstore htrace hincoming => .kept
      ⟨TablesKept.of_eq hslots hstore htrace, fun s => by rw [hslots], fun s => by rw [hslots],
        hincoming⟩
  cases turn_of_step cfg m h with
  | incoming hreader => exact .queued hreader
  | eof hreader => exact .ended hreader
  | promptAnswered _ _ _ => exact hsame rfl rfl rfl rfl
  | promptLost _ _ => exact hsame rfl rfl rfl rfl
  | promptIdle _ _ _ => exact hsame rfl rfl rfl rfl
  | @command c a _ => exact handleCommand_marks hplain c a
  | recvIncoming _ hincoming henabled =>
      refine handleSlotIncoming_marks hincoming fun hmsg => ?_
      simp [crash, hincoming, hmsg, henabled hmsg]
  | recvDisabled _ hincoming _ _ => exact .heard hincoming (SessionsKept.refl _)
  | recvCompletion _ _ => exact hsame rfl rfl rfl rfl
  | drainIncoming _ hincoming =>
      refine handleSlotIncoming_marks hincoming fun hmsg => ?_
      simp [crash, hincoming, hmsg]
  | @finishCompletion c a _ hincoming =>
      rcases finishPromptCompletion_sessions (c := c) (a := a) hplain with ⟨hexpired, _⟩ | hhandled
      · exact .drained (hexpired.incoming.trans hincoming)
      · exact .drained (hhandled.incoming.trans hincoming)
  | cancelled _ => exact .stopped

/-! ### A slot whose end is queued replays nothing more -/

/-- What follows the end of a slot in the queue is not of this slot. -/
def EndsReplay (m : AgentsManager n) : Prop :=
  m.incoming.Pairwise fun msg msg' =>
    msg.msg = none → ∀ id, msg'.replayed ≠ some (msg.slotIdx, id)

/-- Messages whose slots have no queued end are appended. -/
theorem EndsReplay.append (h : EndsReplay m) {msgs : List (SlotIncoming n)}
    (hincoming : m'.incoming = m.incoming ++ msgs)
    (hmsgs : msgs.Pairwise fun msg msg' =>
      msg.msg = none → ∀ id, msg'.replayed ≠ some (msg.slotIdx, id))
    (hends : ∀ msg ∈ msgs, ∀ s id, msg.replayed = some (s, id) →
      m.incoming.countP (SlotIncoming.ends s) = 0) : EndsReplay m' := by
  unfold EndsReplay
  rw [hincoming, List.pairwise_append]
  refine ⟨h, hmsgs, ?_⟩
  intro msg hmsg msg' hmsg' hnone id hreplayed
  have hzero := hends msg' hmsg' _ id hreplayed
  rw [List.countP_eq_zero] at hzero
  refine hzero msg hmsg ?_
  simp [SlotIncoming.ends, hnone]

theorem pairwise_updates {msgs : List (SlotIncoming n)} (hmsgs : ∀ msg ∈ msgs, msg.msg ≠ none) :
    msgs.Pairwise fun msg msg' =>
      msg.msg = none → ∀ id, msg'.replayed ≠ some (msg.slotIdx, id) :=
  List.pairwise_of_forall_mem_list fun msg hmsg _ _ hnone => absurd hnone (hmsgs msg hmsg)

/-- While the reader of a slot runs, no end of the slot is queued. -/
theorem OneEnd.reading {s : Fin n} (h : OneEnd m s) (hreader : (m.slots s).readerAlive = true) :
    m.incoming.countP (SlotIncoming.ends s) = 0 := by
  have hone := h.one
  unfold endsToCome at hone
  rw [if_pos hreader] at hone
  omega

theorem mem_replays {s : Fin n} {a : Answers} {msg : SlotIncoming n} (h : msg ∈ m.replays s a) :
    (m.slots s).readerAlive = true ∧
      ∃ u ∈ a.replayed, msg = ⟨s, some (.sessionUpdate ⟨u.1, u.2, true⟩)⟩ := by
  unfold replays at h
  split at h
  · rename_i hsent
    obtain ⟨u, hu, rfl⟩ := List.mem_map.mp h
    exact ⟨hsent.1, u, hu, rfl⟩
  · cases h

theorem mem_replayed {s : Fin n} {a : Answers} {msg : SlotIncoming n} (h : msg ∈ replayed s a) :
    ∃ u ∈ a.replayed, msg = ⟨s, some (.sessionUpdate ⟨u.1, u.2, true⟩)⟩ := by
  obtain ⟨u, hu, rfl⟩ := List.mem_map.mp h
  exact ⟨u, hu, rfl⟩

theorem Opened.queues {os : Option Operation} (h : Opened cfg m os m') :
    m'.incoming = m.incoming ∨ ∃ s a, m'.incoming = m.incoming ++ m.replays s a := by
  cases h with
  | kept hkept => exact Or.inl hkept.incoming
  | changed _ _ _ hchange => exact hchange.incoming.imp_right fun h => ⟨_, _, h.1⟩

theorem Asked.queues {name : String} {k : SessionKey} {a : Answers} (h : Asked cfg m name k a m') :
    m'.incoming = m.incoming ∨ ∃ s a, m'.incoming = m.incoming ++ m.replays s a := by
  cases h with
  | absent hkept => exact Or.inl hkept.incoming
  | unhealed _ _ hopened => exact hopened.queues
  | live _ _ hkept hprompted => exact Or.inl (hprompted.incoming.trans hkept.incoming)
  | healed _ _ hopened _ hprompted =>
      rw [hprompted.incoming]
      exact hopened.queues

theorem EndsReplay.step (h : EndsReplay m) (hone : ∀ s, OneEnd m s)
    (hstep : MarkStep cfg m l m') : EndsReplay m' := by
  have hsame : m'.incoming = m.incoming → EndsReplay m' := by
    intro hincoming
    unfold EndsReplay
    rw [hincoming]
    exact h
  have hqueues : (m'.incoming = m.incoming ∨
      ∃ s a, m'.incoming = m.incoming ++ m.replays s a) → EndsReplay m' := by
    rintro (hincoming | ⟨s, a, hincoming⟩)
    · exact hsame hincoming
    · refine h.append hincoming (pairwise_updates fun msg hmsg => ?_) ?_
      · obtain ⟨_, u, _, rfl⟩ := mem_replays hmsg
        exact Option.some_ne_none _
      · intro msg hmsg s' id hreplayed
        obtain ⟨hreader, u, _, rfl⟩ := mem_replays hmsg
        cases hreplayed
        exact (hone s).reading hreader
  cases hstep with
  | kept hkept => exact hsame hkept.incoming
  | @queued s msg hreader =>
      refine h.append (show _ = _ ++ [_] from rfl) (List.pairwise_singleton _ _) ?_
      intro msg' hmsg' s' id hreplayed
      rw [List.mem_singleton.mp hmsg'] at hreplayed
      cases msg with
      | sessionUpdate u =>
          obtain ⟨_, heq⟩ := Option.ite_none_right_eq_some.mp hreplayed
          cases heq
          exact (hone s).reading hreader
      | _ => cases hreplayed
  | @ended s hreader =>
      refine h.append (show _ = _ ++ [_] from rfl) (List.pairwise_singleton _ _) ?_
      intro msg hmsg s' id hreplayed
      rw [List.mem_singleton.mp hmsg] at hreplayed
      cases hreplayed
  | opened _ hopened => exact hqueues hopened.queues
  | asked _ hasked => exact hqueues hasked.queues
  | drained hafter =>
      unfold EndsReplay
      rw [hafter]
      exact List.Pairwise.nil
  | heard hincoming hkept =>
      unfold EndsReplay at h ⊢
      rw [hincoming] at h
      rw [hkept.incoming]
      exact (List.pairwise_cons.mp h).2
  | @crashed _ s a rest _ _ hincoming houtcome =>
      have hrest : EndsReplay { m with incoming := rest } := by
        unfold EndsReplay at h ⊢
        rw [hincoming] at h
        exact (List.pairwise_cons.mp h).2
      obtain ⟨t, news, hchange⟩ := houtcome.change
      rcases hchange.incoming with hafter | ⟨hafter, _⟩
      · unfold EndsReplay
        rw [hafter]
        exact hrest
      · refine hrest.append hafter (pairwise_updates fun msg hmsg => ?_) ?_
        · obtain ⟨u, _, rfl⟩ := mem_replayed hmsg
          exact Option.some_ne_none _
        · intro msg hmsg s' id hreplayed
          obtain ⟨u, _, rfl⟩ := mem_replayed hmsg
          cases hreplayed
          -- the end that is handled was the only one
          have hends := endsToCome_dequeue s hincoming
          have hhead : SlotIncoming.ends s ⟨s, none⟩ = true := by
            simp [SlotIncoming.ends]
          rw [hhead, if_pos rfl] at hends
          have hle := (hone s).one
          have hzero : endsToCome { m with incoming := rest } s = 0 := by omega
          exact (Nat.add_eq_zero_iff.mp hzero).1
  | stopped => exact hsame rfl

theorem endsReplay_of_reachable (h : (life cfg).Reachable m) : EndsReplay m := by
  refine h.invariant (I := fun m => EndsReplay m) ?_ ?_
  · rintro m ⟨sender, store, b, hstart⟩
    unfold EndsReplay
    rw [(start_booted (fun _ => rfl) hstart).incoming]
    exact List.Pairwise.nil
  · intro m l m' hreach hI _ hstep
    exact hI.step (oneEnd_of_reachable hreach)
      (step_marks (orderly_of_reachable hreach).plain hstep)

/-! ### What is queued stays hidden -/

/-- Every queued replay is of a session whose updates are dropped. -/
def Hidden (m : AgentsManager n) : Prop := ∀ e ∈ m.replaying, (m.slots e.1).Hides e.2

theorem mem_replaying {s : Fin n} {id : AcpSessionId} :
    (s, id) ∈ m.replaying ↔ ∃ msg ∈ m.incoming, msg.replayed = some (s, id) :=
  List.mem_filterMap

/-- A session that no key owned has no key, and a marked one keeps its mark. -/
theorem hides_mono {slot slot' : AgentSlot} {id : AcpSessionId}
    (h : slot.Hides id) (hawait : slot.awaitingFirstPrompt ⊆ slot'.awaitingFirstPrompt)
    (hroute : slot.reverseMap.get? id = none → slot'.reverseMap.get? id = none) :
    slot'.Hides id :=
  h.imp (fun hmarked => hawait hmarked) hroute

theorem reverseMap_of_tables {s s' : Fin n} {t : SessionTables}
    (h : (m'.slots s').tables = if s' = s then t else (m.slots s').tables) (hs : s' ≠ s) :
    (m'.slots s').reverseMap = (m.slots s').reverseMap := by
  rw [if_neg hs] at h
  exact congrArg SessionTables.reverseMap h

theorem SessionsKept.hides (h : SessionsKept m m') {s : Fin n} {id : AcpSessionId} :
    (m'.slots s).Hides id ↔ (m.slots s).Hides id := by
  have hroute := congrArg SessionTables.reverseMap (h.tables s)
  rw [AgentSlot.tables_reverseMap, AgentSlot.tables_reverseMap] at hroute
  unfold AgentSlot.Hides
  rw [h.awaiting s, hroute]

theorem SessionsKept.hidden (h : SessionsKept m m') (hhidden : Hidden m) : Hidden m' := by
  intro e he
  unfold replaying at he
  rw [h.incoming] at he
  exact h.hides.mpr (hhidden e he)

/-- An operation gives an owner only to the session that an answer names. -/
theorem tablesOp_unrouted {slot : AgentSlot} {s : Fin n} {o : Operation} {t : SessionTables}
    {row : Option WrittenRow} {news : List (Output n)} (h : TablesOp slot s o t row news)
    {id : AcpSessionId} (hmaps : ¬ o.Maps id) (hroute : slot.reverseMap.get? id = none) :
    t.reverseMap.get? id = none := by
  obtain ⟨kind, name, k, a⟩ := o
  cases h with
  | @created t conn id₀ hcleared _ hid =>
      have hne : id ≠ id₀ := by
        rintro rfl
        cases hcleared with
        | same => exact hmaps (Or.inl hid)
        | forgotten => exact hmaps (Or.inl hid)
        | unmapped => exact hmaps hid
      rw [SessionTables.register_reverseMap, KeyedMap.get?_set, if_neg hne]
      cases hcleared with
      | same => exact hroute
      | forgotten => exact hroute
      | unmapped => simp [hroute]
  | @recovered _ id₀ _ _ hkind _ _ hid =>
      have hne : id ≠ id₀ := by
        rintro rfl
        cases hkind
        exact hmaps (Or.inr hid)
      simp [hroute, hne]
  | forgotten _ _ _ => exact hroute
  | unmapped _ _ => simp [hroute]
  | @forked _ id₀ hkind _ hid =>
      have hne : id ≠ id₀ := by
        rintro rfl
        cases hkind
        exact hmaps hid
      simp [hroute, hne]

/-- A session that an operation does not map stays hidden. -/
theorem SessionChange.hides {s : Fin n} {o : Operation} {t : SessionTables}
    {row : Option WrittenRow} {news : List (Output n)} (hop : TablesOp (m.slots s) s o t row news)
    (h : SessionChange o.answers m m' s t row news) {s' : Fin n} {id : AcpSessionId}
    (hhides : (m.slots s').Hides id)
    (hmaps : s' = s → o.Maps id → id ∈ (m'.slots s).awaitingFirstPrompt) :
    (m'.slots s').Hides id := by
  have htables := h.tables s'
  by_cases hs : s' = s
  · subst hs
    by_cases hmap : o.Maps id
    · exact Or.inl (hmaps rfl hmap)
    · refine hides_mono hhides (h.awaiting s') fun hroute => ?_
      have hafter := congrArg SessionTables.reverseMap (htables.trans (if_pos rfl))
      rw [AgentSlot.tables_reverseMap] at hafter
      rw [hafter]
      exact tablesOp_unrouted hop hmap hroute
  · refine hides_mono hhides (h.awaiting s') fun hroute => ?_
    rw [reverseMap_of_tables htables hs, hroute]

theorem Opened.hidden {os : Option Operation} (h : Opened cfg m os m') (hhidden : Hidden m)
    (hguard : ∀ o ∈ os, ∀ s ∈ findSlotByName cfg o.agentName, m.MapsHidden s o)
    (hloads : ∀ o ∈ os, ∀ s ∈ findSlotByName cfg o.agentName, ∀ e ∈ m.replaying, e.1 = s →
      o.Loads (m.slots s) e.2 → e.2 ∈ (m'.slots s).awaitingFirstPrompt) : Hidden m' := by
  cases h with
  | kept hkept => exact hkept.hidden hhidden
  | @changed o s t row news _ ho hfind hop hchange =>
      obtain ⟨hnamed, hreplayed⟩ := hguard o ho s hfind
      have hold : ∀ e ∈ m.replaying, (m'.slots e.1).Hides e.2 := by
        intro e he
        refine hchange.hides hop (hhidden e he) fun hs hmap => ?_
        rcases hnamed e he hs hmap with hmarked | hload
        · exact hchange.awaiting s hmarked
        · exact hloads o ho s hfind e he hs hload
      rintro ⟨s', id⟩ he
      obtain ⟨msg, hmsg, hmsgid⟩ := mem_replaying.mp he
      rcases hchange.incoming with hsame | ⟨hload, hmarks⟩
      · rw [hsame] at hmsg
        exact hold _ (mem_replaying.mpr ⟨msg, hmsg, hmsgid⟩)
      · rw [hload] at hmsg
        rcases List.mem_append.mp hmsg with hmsg | hmsg
        · exact hold _ (mem_replaying.mpr ⟨msg, hmsg, hmsgid⟩)
        · obtain ⟨_, u, hu, rfl⟩ := mem_replays hmsg
          cases hmsgid
          rcases hreplayed u hu with hid | ⟨hhides, hmarked⟩
          · exact Or.inl (hmarks u.1 hid)
          · exact hchange.hides hop hhides fun _ hmap => hchange.awaiting s (hmarked hmap)

/-- A prompt removes the mark of a session of which no replay is queued. -/
theorem Prompted.hidden {s : Fin n} {id : AcpSessionId} (h : Prompted m m' s id)
    (hhidden : Hidden m) (hnot : (s, id) ∉ m.replaying) : Hidden m' := by
  rintro ⟨s', id'⟩ he
  unfold replaying at he
  rw [h.incoming] at he
  have hroute := congrArg SessionTables.reverseMap (h.tables s')
  rw [AgentSlot.tables_reverseMap, AgentSlot.tables_reverseMap] at hroute
  refine (hhidden (s', id') he).imp (fun hmarked => ?_) fun hnone => by rw [hroute, hnone]
  rw [h.awaiting s']
  split
  · rename_i hs
    subst hs
    refine Finset.mem_erase.mpr ⟨?_, hmarked⟩
    rintro rfl
    exact hnot he
  · exact hmarked

section Asked

variable {s : Fin n} {name : String} {k : SessionKey} {a : Answers}

/-- Opening a session of which nothing is replayed. -/
theorem Opened.unreplayed (h : Opened cfg m (some ⟨.opens, name, k, a⟩) m')
    (hfind : findSlotByName cfg name = some s) (hhidden : Hidden m)
    (hguard : m.MapsUnreplayed s ⟨.opens, name, k, a⟩) : Hidden m' := by
  obtain ⟨hqueued, hreplayed⟩ := hguard
  refine h.hidden hhidden ?_ ?_
  · rintro _ ho s' hs'
    cases ho
    rw [hfind] at hs'
    cases hs'
    exact ⟨fun e he hs hmap => absurd hmap (hqueued e he hs), fun u hu =>
      Or.inr ⟨(hreplayed u hu).1, fun hmap => absurd hmap (hreplayed u hu).2⟩⟩
  · rintro _ ho s' hs' e he hs ⟨_, _, _, hid⟩
    cases ho
    rw [hfind] at hs'
    cases hs'
    exact absurd (Or.inr hid) (hqueued e he hs)

/-- Nor is a replay of the opened session queued afterwards. -/
theorem Opened.notReplaying (h : Opened cfg m (some ⟨.opens, name, k, a⟩) m')
    (hfind : findSlotByName cfg name = some s)
    (hguard : m.MapsUnreplayed s ⟨.opens, name, k, a⟩) {id : AcpSessionId}
    (hmap : Operation.Maps id ⟨.opens, name, k, a⟩) : (s, id) ∉ m'.replaying := by
  obtain ⟨hqueued, hreplayed⟩ := hguard
  intro he
  obtain ⟨msg, hmsg, hmsgid⟩ := mem_replaying.mp he
  have hold : msg ∉ m.incoming := fun hmsg =>
    hqueued (s, id) (mem_replaying.mpr ⟨msg, hmsg, hmsgid⟩) rfl hmap
  cases h with
  | kept hkept =>
      rw [hkept.incoming] at hmsg
      exact hold hmsg
  | changed ho _ _ hchange =>
      cases ho
      rcases hchange.incoming with hsame | ⟨hload, _⟩
      · rw [hsame] at hmsg
        exact hold hmsg
      · rw [hload] at hmsg
        rcases List.mem_append.mp hmsg with hmsg | hmsg
        · exact hold hmsg
        · obtain ⟨_, u, hu, rfl⟩ := mem_replays hmsg
          cases hmsgid
          exact (hreplayed u hu).2 hmap

/-- A key that was not live is mapped to a session that an answer names. -/
theorem Opened.maps (h : Opened cfg m (some ⟨.opens, name, k, a⟩) m')
    (hfind : findSlotByName cfg name = some s) (hdead : (m.slots s).sessionMap.get? k = none)
    {id : AcpSessionId} (hlive : (m'.slots s).sessionMap.get? k = some id) :
    Operation.Maps id ⟨.opens, name, k, a⟩ := by
  cases h with
  | kept hkept =>
      have hmap := congrArg SessionTables.sessionMap (hkept.tables s)
      rw [AgentSlot.tables_sessionMap, AgentSlot.tables_sessionMap] at hmap
      rw [hmap, hdead] at hlive
      cases hlive
  | @changed o s' t row news _ ho hfind' hop hchange =>
      cases ho
      rw [hfind] at hfind'
      cases hfind'
      have hmap := congrArg SessionTables.sessionMap ((hchange.tables s).trans (if_pos rfl))
      rw [AgentSlot.tables_sessionMap] at hmap
      rw [hmap] at hlive
      cases hop with
      | created hcleared _ hid =>
          rw [SessionTables.register_sessionMap, KeyedMap.get?_set, if_pos rfl] at hlive
          cases hlive
          exact Or.inl hid
      | recovered _ _ _ hid =>
          rw [SessionTables.register_sessionMap, KeyedMap.get?_set, if_pos rfl] at hlive
          cases hlive
          exact Or.inr hid
      | forgotten _ _ _ =>
          rw [SessionTables.forget_sessionMap, AgentSlot.tables_sessionMap, hdead] at hlive
          cases hlive
      | unmapped hkind _ => cases hkind
      | forked hkind _ _ => cases hkind

theorem Asked.hidden (h : Asked cfg m name k a m') (hhidden : Hidden m)
    (hguard : PromptsUnreplayed cfg m name k a) : Hidden m' := by
  cases h with
  | absent hkept => exact hkept.hidden hhidden
  | unhealed hfind hdead hopened =>
      exact hopened.unreplayed hfind hhidden ((hguard _ hfind).2 hdead)
  | live hfind hlive hkept hprompted =>
      refine hprompted.hidden (hkept.hidden hhidden) ?_
      unfold replaying
      rw [hkept.incoming]
      exact (hguard _ hfind).1 _ hlive
  | healed hfind hdead hopened hlive hprompted =>
      have hmaps := (hguard _ hfind).2 hdead
      exact hprompted.hidden (hopened.unreplayed hfind hhidden hmaps)
        (hopened.notReplaying hfind hmaps (hopened.maps hfind hdead hlive))

end Asked

/-! ### Crashes -/

/-- What the new process of a crashed slot replays. -/
theorem CrashOutcome.hides_replayed {s : Fin n} {a : Answers} (h : CrashOutcome cfg m s a m')
    (hload : ∀ id, a.recovery.result? = some id → id ∈ (m'.slots s).awaitingFirstPrompt)
    (hguard : RestoresHidden (m.slots s) a) {u : AcpSessionId × SessionUpdateType}
    (hu : u ∈ a.replayed) : (m'.slots s).Hides u.1 := by
  rcases hguard u hu with hid | ⟨hnew, hdropped⟩
  · exact Or.inl (hload u.1 hid)
  · refine Or.inr ?_
    have hroute : ∀ {t : SessionTables} {news : List (Output n)}, CrashChange a m m' s t news →
        (m'.slots s).reverseMap = t.reverseMap := fun hchange =>
      congrArg SessionTables.reverseMap ((hchange.tables s).trans (if_pos rfl))
    cases h with
    | down hcannot _ hchange =>
        rw [hroute hchange]
        rcases hdropped with hnone | ⟨_, hback⟩
        · exact hnone
        · rcases hback with hrestore | ⟨hrestart, _⟩
          · exact absurd hrestore.1 hcannot
          · exact absurd hrestart hcannot
    | restored _ _ hid _ hchange =>
        rw [hroute hchange]
        rcases hdropped with hnone | ⟨hfailed, _⟩
        · exact hnone
        · rw [hfailed] at hid
          cases hid
    | @restarted id _ _ _ _ hid _ hchange _ =>
        rw [hroute hchange]
        have hne : u.1 ≠ id := by
          rintro rfl
          exact hnew hid
        unfold SessionTables.restart
        simp [hne]
    | retired hcan hnot _ hchange hcannot =>
        rw [hroute hchange]
        rcases hdropped with hnone | ⟨_, hback⟩
        · exact hnone
        · rcases hback with hrestore | ⟨_, hstart⟩
          · exact absurd hrestore hnot
          · exact absurd hstart hcannot

theorem CrashOutcome.hidden {s : Fin n} {a : Answers} {rest : List (SlotIncoming n)}
    (h : CrashOutcome cfg { m with incoming := rest } s a m')
    (hincoming : m.incoming = ⟨s, none⟩ :: rest) (hends : EndsReplay m) (hhidden : Hidden m)
    (hguard : RestoresHidden (m.slots s) a) : Hidden m' := by
  obtain ⟨t, news, hchange⟩ := h.change
  -- what was queued before is of other slots
  have hold : ∀ msg ∈ rest, ∀ s' id, msg.replayed = some (s', id) → (m'.slots s').Hides id := by
    intro msg hmsg s' id hmsgid
    have hother : s' ≠ s := by
      rintro rfl
      unfold EndsReplay at hends
      rw [hincoming] at hends
      exact (List.pairwise_cons.mp hends).1 msg hmsg rfl id hmsgid
    have hbefore : (m.slots s').Hides id := by
      refine hhidden (s', id) (mem_replaying.mpr ⟨msg, ?_, hmsgid⟩)
      rw [hincoming]
      exact List.mem_cons_of_mem _ hmsg
    refine hides_mono hbefore (by rw [hchange.awaiting s' hother]) fun hnone => ?_
    rw [reverseMap_of_tables (hchange.tables s') hother, hnone]
  rintro ⟨s', id⟩ he
  obtain ⟨msg, hmsg, hmsgid⟩ := mem_replaying.mp he
  rcases hchange.incoming with hsame | ⟨hload, hmarks⟩
  · rw [hsame] at hmsg
    exact hold msg hmsg s' id hmsgid
  · rw [hload] at hmsg
    rcases List.mem_append.mp hmsg with hmsg | hmsg
    · exact hold msg hmsg s' id hmsgid
    · obtain ⟨u, hu, rfl⟩ := mem_replayed hmsg
      cases hmsgid
      exact h.hides_replayed hmarks hguard hu

/-! ### Steps and runs -/

theorem Hidden.step (hhidden : Hidden m) (hends : EndsReplay m) (hguard : HidesReplays cfg m l)
    (hstep : MarkStep cfg m l m') : Hidden m' := by
  cases hstep with
  | kept hkept => exact hkept.hidden hhidden
  | @queued s msg _ =>
      rintro ⟨s', id⟩ he
      obtain ⟨msg', hmsg, hmsgid⟩ := mem_replaying.mp he
      rcases List.mem_append.mp hmsg with hmsg | hmsg
      · exact hhidden (s', id) (mem_replaying.mpr ⟨msg', hmsg, hmsgid⟩)
      · rw [List.mem_singleton.mp hmsg] at hmsgid
        cases msg with
        | sessionUpdate u =>
            obtain ⟨hreplay, heq⟩ := Option.ite_none_right_eq_some.mp hmsgid
            cases heq
            exact hguard.arrives (s, u) rfl hreplay
        | _ => cases hmsgid
  | @ended s _ =>
      rintro ⟨s', id⟩ he
      have hbefore : (m.slots s').Hides id := by
        obtain ⟨msg, hmsg, hmsgid⟩ := mem_replaying.mp he
        rcases List.mem_append.mp hmsg with hmsg | hmsg
        · exact hhidden (s', id) (mem_replaying.mpr ⟨msg, hmsg, hmsgid⟩)
        · rw [List.mem_singleton.mp hmsg] at hmsgid
          cases hmsgid
      dsimp only
      rw [slots_modifySlot]
      split
      · rename_i hs
        subst hs
        exact hbefore
      · exact hbefore
  | opened hprompting hopened hloads =>
      exact hopened.hidden hhidden (hguard.maps hprompting) fun o ho s hs e _ _ hload =>
        hloads o ho s hs e.2 hload
  | asked hprompting hasked => exact hasked.hidden hhidden (hguard.prompts _ hprompting)
  | drained hafter =>
      rintro ⟨s, id⟩ he
      obtain ⟨msg, hmsg, _⟩ := mem_replaying.mp he
      rw [hafter] at hmsg
      cases hmsg
  | @heard _ msg rest _ hincoming hkept =>
      refine hkept.hidden fun e he => hhidden e ?_
      unfold replaying
      rw [hincoming]
      exact (List.sublist_cons_self msg rest).filterMap _ |>.subset he
  | crashed hcrash hincoming houtcome =>
      exact houtcome.hidden hincoming hends hhidden (hguard.restores _ hcrash)
  | stopped => exact hhidden

/-- **Replayed history is never shown**, in every run in which no session is prompted while
    a replay of it is queued, and replayed updates are of sessions that are marked or dropped
    anyway. -/
theorem replay_hidden (h : (life cfg).ReachableUnder (HidesReplays cfg) m) :
    ∀ k u, Output.event (.deliverMessage k (.update u)) ∈ m.trace → u.replay = false := by
  suffices hinv : Hidden m ∧ ∀ u ∈ m.trace.filterMap Output.update, u.replay = false by
    intro k u hmem
    exact hinv.2 u (List.mem_filterMap.mpr ⟨_, hmem, rfl⟩)
  refine h.invariant (I := fun m => Hidden m ∧
    ∀ u ∈ m.trace.filterMap Output.update, u.replay = false) ?_ ?_
  · intro m hinit
    obtain ⟨os, hos, hbacklog⟩ := life_init hinit
    obtain ⟨sender, store, b, hstart⟩ := hinit
    refine ⟨?_, fun u hu => ?_⟩
    · rintro ⟨s, id⟩ he
      obtain ⟨msg, hmsg, _⟩ := mem_replaying.mp he
      rw [(start_booted (fun _ => rfl) hstart).incoming] at hmsg
      cases hmsg
    · have hmessages := congrArg Backlog.messages hbacklog
      rw [← filterMap_messages m update_of_not_isMessage, hmessages] at hu
      obtain ⟨o, ho, hupdate⟩ := List.mem_filterMap.mp hu
      have hspawn := hos o ho
      cases o <;> first | cases hupdate | cases hspawn
  · rintro m l m' hreach ⟨hhidden, hshown⟩ hguard hstep
    have hplain := (orderly_of_reachable hreach.reachable).plain
    refine ⟨hhidden.step (endsReplay_of_reachable hreach.reachable) hguard
      (step_marks hplain hstep), fun u hu => ?_⟩
    rcases step_shows hplain hstep u hu with hbefore | ⟨s, rest, hincoming, hmarked, hroute⟩
    · exact hshown u hbefore
    · rw [← Bool.not_eq_true]
      intro hreplay
      have hqueued : (s, u.sessionId) ∈ m.replaying := by
        refine mem_replaying.mpr ⟨⟨s, some (.sessionUpdate u)⟩, ?_, if_pos hreplay⟩
        rw [hincoming]
        exact List.mem_cons_self
      exact (hhidden _ hqueued).elim hmarked hroute

/-! ### A stored session -/

end AgentsManager

namespace Sample

/-- The row of a session of `bob` from an earlier life. -/
def storedSession : PersistedSession where
  sessionKey := bob.text
  agentName := "a"
  acpSessionId := "old"
  createdAt := 0
  lastActiveAt := 0
  closed := false

/-- The agent answers `session/load` after it has replayed one message. -/
def loads : Answers :=
  { answers "new" with
    recovery := .answered (some "old")
    replayed := [("old", .agentMessageChunk)] }

/-- Boot with the stored session, then take labels. -/
def executeStored (G : AgentsManager 1 → Label 1 → Prop) [∀ m l, Decidable (G m l)]
    (ls : List (Label 1)) : Option (AgentsManager 1) :=
  AgentsManager.execute cfg G true (SessionStore.upsertSession ∅ storedSession)
    { boot with openSessions := some [storedSession] } ls

end Sample

namespace AgentsManager

/-- `bob`'s session is loaded by a `CreateSession`; its replay is taken before the prompt. -/
theorem replay_hidden_created :
    ∃ m : AgentsManager 1, (m.slots 0).sessionMap.get? Sample.bob = some "old" ∧
      m.incoming = [] ∧ ∀ k u, Output.event (.deliverMessage k (.update u)) ∈ m.trace →
        u.replay = false := by
  have hrun : ∃ m ∈ Sample.executeStored (HidesReplays Sample.cfg)
      [.command (.createSession "a" Sample.bob) Sample.loads, .recvIncoming Sample.loads,
        Sample.send "hello" (Sample.answers "new")],
      (m.slots 0).sessionMap.get? Sample.bob = some "old" ∧ m.incoming = [] := by
    decide
  obtain ⟨m, hm, hlive, hempty⟩ := hrun
  exact ⟨m, hlive, hempty, replay_hidden (reachable_of_execute Sample.cfg hm)⟩

/-- `bob`'s first message loads his session and prompts it; then the run loop takes the
    replayed message from the queue and forwards it. -/
theorem loaded_and_prompted_shows_replay :
    ¬ ∀ m, (life Sample.cfg).Reachable m →
      ∀ k u, Output.event (.deliverMessage k (.update u)) ∈ m.trace → u.replay = false := by
  intro hall
  have hrun : ∃ m ∈ Sample.executeStored (fun _ _ => True)
      [Sample.send "hello" Sample.loads, .recvIncoming Sample.loads],
      (⟨"old", .agentMessageChunk, true⟩ : SessionUpdate) ∈ m.trace.filterMap Output.update := by
    decide
  obtain ⟨m, hm, hshown⟩ := hrun
  obtain ⟨o, ho, hupdate⟩ := List.mem_filterMap.mp hshown
  have hreach := reachable_of_execute Sample.cfg hm
  unfold Output.update at hupdate
  split at hupdate
  · rename_i k u
    cases hupdate
    cases hall m hreach k _ ho
  · cases hupdate

end AgentsManager

end Anyclaw
