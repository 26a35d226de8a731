import Anyclaw.Agents.CrashOutcomes
import Anyclaw.Agents.SessionHandlers

/-!
# What a step does to the sessions

`step_sessions` sums up what one step of the manager does to the session tables, the
connections, the stored rows and the named sessions, in five cases; the statements
about sessions are case analyses over them.  `step_prompts` says that a prompt is only
handed over for a live session of a connected slot.

A step is a turn of the run loop of `crates/anyclaw-agents/src/manager.rs`, or an event of the
environment.
-/

namespace Anyclaw.AgentsManager

variable {n : Nat} (cfg : AgentsManagerConfig n) (m : AgentsManager n)

/-! ### Labels -/

def operation : Label n → Option Operation
  | .command (.createSession name k) a => some ⟨.opens, name, k, a⟩
  | .command (.enqueueMessage name k content _) a =>
      match platformCommandOf content with
      | some .new => some ⟨.renews, name, k, a⟩
      | some .cancel => none
      | none => if k ∈ m.queue.active then none else some ⟨.opens, name, k, a⟩
  | .command (.forkSession name k) a => some ⟨.forks, name, k, a⟩
  | _ => none

def crash : Label n → Option (Fin n × Answers)
  | .recvIncoming a =>
      (m.incoming.head?.filter fun msg =>
        msg.msg.isNone && !(m.slots msg.slotIdx).lifecycle.disabled).map fun msg =>
          (msg.slotIdx, a)
  | .drainIncoming a =>
      (m.incoming.head?.filter fun msg => msg.msg.isNone).map fun msg => (msg.slotIdx, a)
  | _ => none

/-- The key of an expired session: every slot in which it is live forgets it. -/
structure Expired (m m' : AgentsManager n) (k : SessionKey) : Prop where
  tables : ∀ s, (m'.slots s).tables = (m.slots s).tables.expire k
  connection : ∀ s, (m'.slots s).connection = (m.slots s).connection
  reader : ∀ s, (m'.slots s).readerAlive = (m.slots s).readerAlive
  awaiting : ∀ s, (m'.slots s).awaitingFirstPrompt = (m.slots s).awaitingFirstPrompt
  rows : ∀ key, m'.sessionStore.openRow key = m.sessionStore.openRow key
  incoming : m'.incoming = m.incoming
  naming : ∃ os, m'.trace = m.trace ++ os ∧ os.filter Output.isNaming = []

inductive SessionStep : Label n → AgentsManager n → Prop
  | kept {l : Label n} {m' : AgentsManager n} (hkept : TablesKept m m') : SessionStep l m'
  | changed {l : Label n} {o : Operation} {s : Fin n} {t : SessionTables}
      {row : Option WrittenRow} {news : List (Output n)} {m' : AgentsManager n}
      (ho : m.operation l = some o) (hfind : findSlotByName cfg o.agentName = some s)
      (hop : TablesOp (m.slots s) s o t row news)
      (hchange : TablesChange o.answers m m' s t row news) : SessionStep l m'
  | expired {a : Answers} {c : PromptCompletion} {m' : AgentsManager n}
      (hc : m.completing = some c) (hexpired : Expired m m' c.sessionKey) :
      SessionStep (.finishCompletion a) m'
  | crashed {l : Label n} {s : Fin n} {a : Answers} {msg : SlotIncoming n}
      {rest : List (SlotIncoming n)} {m' : AgentsManager n} (hl : m.crash l = some (s, a))
      (hincoming : m.incoming = msg :: rest)
      (hcrash : CrashOutcome cfg { m with incoming := rest } s a m') : SessionStep l m'
  | shutdown {l : Label n} : SessionStep l m.shutdown

variable {cfg m} {m' : AgentsManager n} {l : Label n}

/-! ### `EnqueueMessage` -/

section Enqueue

variable {name : String} {k : SessionKey} {content : List ContentPart}
  {metadata : Option MessageMetadata} {a : Answers}

theorem takeNumber_kept (m : AgentsManager n) : SessionsKept m m.takeNumber :=
  ⟨⟨fun _ => rfl, fun _ => rfl, fun _ => rfl, [], by simp, rfl⟩, fun _ => rfl, fun _ => rfl, rfl⟩

theorem withQueue_kept (m : AgentsManager n) (q : SessionQueue) : SessionsKept m (m.withQueue q) :=
  ⟨⟨fun _ => rfl, fun _ => rfl, fun _ => rfl, [], by simp, rfl⟩, fun _ => rfl, fun _ => rfl, rfl⟩

theorem emit_reply_kept (m : AgentsManager n) (no : MessageNo) (k : SessionKey) (plain : Bool)
    (result : Except AgentsError Unit) : SessionsKept m (m.emit (.reply no k plain result)) :=
  (SessionsKept.refl m).emit rfl

/-- On an idle key a message is prompted, together with what waits. -/
theorem idleMessage_prompts (cfg : AgentsManagerConfig n) (name : String) (a : Answers)
    (hplain : m.backlog.Plain) (hcontent : IsPlain content) (hidle : k ∉ m.queue.active)
    (payload : RichPayload) (hpayload : payload.content = content) :
    ∃ (m₀ : AgentsManager n) (merged : RichPayload), SessionsKept m m₀ ∧ m₀.slots = m.slots ∧
      m₀.prompts = m.prompts ∧ IsPlain merged.content ∧
      flushAndDispatch cfg (m.takeNumber.withQueue (m.queue.pushOnly k payload).2) name k a =
        promptSession cfg m₀ name k merged a := by
  have hmerged : IsPlain
      (SessionQueue.mergePending (m.queue.queued k ++ [payload])).content := by
    refine isPlain_mergePending fun p hp => ?_
    rcases List.mem_append.mp hp with hp | hp
    · exact hplain k p hp
    · rw [List.mem_singleton.mp hp, hpayload]
      exact hcontent
  have hdispatch := flushAndDispatch_idle cfg
    (m.takeNumber.withQueue (m.queue.pushOnly k payload).2) name a hidle
    (pushOnly_ne_nil m.queue payload)
  rw [withQueue_queue, queued_pushOnly, withQueue_withQueue] at hdispatch
  have hflushed := ((takeNumber_kept m).trans (withQueue_kept m.takeNumber
    ((m.queue.pushOnly k payload).2.flushPending k).2)).sendEvents [.dispatchStarted k]
  exact ⟨_, _, hflushed, rfl, rfl, hmerged, hdispatch⟩

/-- On an idle key a message opens the key. -/
theorem idleMessage_handled (hplain : m.backlog.Plain) (hcontent : IsPlain content)
    (hidle : k ∉ m.queue.active) (payload : RichPayload) (hpayload : payload.content = content) :
    Handled cfg m (some ⟨.opens, name, k, a⟩)
      (flushAndDispatch cfg (m.takeNumber.withQueue (m.queue.pushOnly k payload).2) name k a).2 := by
  obtain ⟨m₀, merged, hkept, hslots, hprompts, hmerged, heq⟩ :=
    idleMessage_prompts cfg name a hplain hcontent hidle payload hpayload
  rw [heq]
  exact hkept.then_handled hslots hprompts (promptSession_handled hmerged fun _ _ _ => rfl)

theorem enqueueMessage_handled (hplain : m.backlog.Plain) :
    Handled cfg m (m.operation (.command (.enqueueMessage name k content metadata) a))
      (enqueueMessage cfg m name k content metadata a) := by
  have htake := takeNumber_kept m
  unfold enqueueMessage operation
  dsimp only
  cases hcommand : platformCommandOf content with
  | some command =>
      cases hfind : findSlotByName cfg name with
      | none => exact .of_kept (htake.trans (emit_reply_kept _ _ _ _ _)) rfl
      | some s =>
          refine Handled.trans_kept ?_ (emit_reply_kept _ _ _ _ _) rfl
          refine htake.then_handled rfl rfl (handlePlatformCommand_handled hfind command ?_)
          rintro rfl
          rfl
  | none =>
      dsimp only
      by_cases hactive : k ∈ m.queue.active
      · rw [takeNumber_queue, if_pos ((SessionQueue.isActive_iff m.queue k).mpr hactive)]
        exact .of_kept ((htake.trans (withQueue_kept _ _)).trans (emit_reply_kept _ _ _ _ _)) rfl
      · rw [takeNumber_queue,
          if_neg fun h => hactive ((SessionQueue.isActive_iff m.queue k).mp h), if_neg hactive]
        exact (idleMessage_handled hplain hcommand hactive _ rfl).trans_kept
          (emit_reply_kept _ _ _ _ _) rfl

end Enqueue

/-! ### Completions -/

section Completion

variable {k : SessionKey} {c : PromptCompletion} {a : Answers}

theorem Expired.trans_kept {m₁ : AgentsManager n} (h : Expired m m₁ k) (h' : SessionsKept m₁ m') :
    Expired m m' k := by
  obtain ⟨os, hos, hnone⟩ := h.naming
  obtain ⟨os', hos', hnone'⟩ := h'.naming
  exact
    { tables := fun s => (h'.tables s).trans (h.tables s)
      connection := fun s => (h'.connection s).trans (h.connection s)
      reader := fun s => (h'.reader s).trans (h.reader s)
      awaiting := fun s => (h'.awaiting s).trans (h.awaiting s)
      rows := fun key => (h'.rows key).trans (h.rows key)
      incoming := h'.incoming.trans h.incoming
      naming := ⟨os ++ os', by rw [hos', hos, List.append_assoc], by
        rw [List.filter_append, hnone, hnone', List.append_nil]⟩ }

theorem expireSession_expired {m₁ : AgentsManager n} (h : SessionsKept m m₁) (k : SessionKey) :
    Expired m (m₁.expireSession k) k := by
  have hslot : ∀ slot : AgentSlot, (slot.expireSession k).connection = slot.connection ∧
      (slot.expireSession k).readerAlive = slot.readerAlive ∧
      (slot.expireSession k).awaitingFirstPrompt = slot.awaitingFirstPrompt := by
    intro slot
    unfold AgentSlot.expireSession
    split <;> exact ⟨rfl, rfl, rfl⟩
  exact
    { tables := fun s => by
        rw [← h.tables s]
        exact AgentSlot.tables_expireSession (m₁.slots s) k
      connection := fun s => (hslot (m₁.slots s)).1.trans (h.connection s)
      reader := fun s => (hslot (m₁.slots s)).2.1.trans (h.reader s)
      awaiting := fun s => (hslot (m₁.slots s)).2.2.trans (h.awaiting s)
      rows := h.rows
      incoming := h.incoming
      naming := h.naming }

theorem reportCompletion_expired (m : AgentsManager n) (hexpired : c.sessionExpired = true)
    (a : Answers) : Expired m (m.reportCompletion c a) c.sessionKey := by
  have herase : SessionsKept m
      { m with streamingCompleted := m.streamingCompleted.erase c.sessionKey } :=
    ⟨⟨fun _ => rfl, fun _ => rfl, fun _ => rfl, [], by simp, rfl⟩, fun _ => rfl,
      fun _ => rfl, rfl⟩
  unfold reportCompletion
  rw [hexpired]
  refine Expired.trans_kept ?_ ((SessionsKept.refl _).sendEvents _)
  rw [if_pos rfl]
  refine expireSession_expired ?_ _
  split
  · exact herase.trans (cancelSessionByKey_kept _ c.sessionKey a)
  · exact herase

/-- What waits for an expired key has no slot to go to. -/
theorem dispatchQueued_expired (cfg : AgentsManagerConfig n) (a : Answers)
    (h : m.slotOfKey k = none) :
    SessionsKept m (dispatchQueued cfg m k a) ∧ (dispatchQueued cfg m k a).prompts = m.prompts := by
  by_cases hempty : m.queue.queued k = []
  · rw [dispatchQueued_empty m hempty]
    exact ⟨releaseKey_kept m k, rfl⟩
  · obtain ⟨q, payload, _, _, _, heq⟩ := dispatchQueued_waiting cfg m a hempty
    have hname : (nextAgentName cfg m k).isEmpty = true := by
      unfold nextAgentName
      rw [h]
      rfl
    rw [heq, if_pos hname]
    exact ⟨withQueue_kept m q, rfl⟩

/-- What waits for a live key goes to its slot; no session is opened. -/
theorem dispatchQueued_handled (hplain : m.backlog.Plain) :
    Handled cfg m none (dispatchQueued cfg m k a) := by
  by_cases hempty : m.queue.queued k = []
  · rw [dispatchQueued_empty m hempty]
    exact .of_kept (releaseKey_kept m k) rfl
  · obtain ⟨q, payload, hcontent, _, _, heq⟩ := dispatchQueued_waiting cfg m a hempty
    have hpayload : IsPlain payload.content := by
      rw [hcontent]
      exact isPlain_flatMap (hplain k)
    rw [heq]
    by_cases hname : (nextAgentName cfg m k).isEmpty = true
    · rw [if_pos hname]
      exact .of_kept (withQueue_kept m q) rfl
    · rw [if_neg hname]
      refine ((withQueue_kept m q).sendEvents [.dispatchStarted k]).then_handled rfl rfl
        (promptSession_handled hpayload ?_)
      intro s hfind hnone
      have hdead : (m.slots s).sessionMap.get? k = none := hnone
      unfold nextAgentName at hname hfind
      cases hslot : m.slotOfKey k with
      | none => simp [hslot] at hname
      | some s' =>
          rw [hslot, Option.map_some, Option.getD_some, findSlotByName_name] at hfind
          cases hfind
          have hlive := slotOfKey_contains hslot
          rw [KeyedMap.contains, hdead] at hlive
          cases hlive

theorem finishPromptCompletion_sessions (hplain : m.backlog.Plain) :
    (Expired m (finishPromptCompletion cfg { m with completing := none } c a) c.sessionKey ∧
        (finishPromptCompletion cfg { m with completing := none } c a).prompts = m.prompts) ∨
      Handled cfg m none (finishPromptCompletion cfg { m with completing := none } c a) := by
  have hnext : SessionsKept m { m with completing := none } :=
    ⟨⟨fun _ => rfl, fun _ => rfl, fun _ => rfl, [], by simp, rfl⟩, fun _ => rfl,
      fun _ => rfl, rfl⟩
  obtain ⟨d, _, hreport⟩ := reportCompletion_spoken { m with completing := none } c a
  unfold finishPromptCompletion
  cases hexpired : c.sessionExpired with
  | true =>
      have hreported := reportCompletion_expired { m with completing := none } hexpired a
      obtain ⟨hkept, hprompts⟩ := dispatchQueued_expired cfg a
        (slotOfKey_expired (m := { m with completing := none }) (a := a) hexpired)
      refine Or.inl ⟨Expired.trans_kept ?_ hkept, hprompts.trans hreport.prompts⟩
      exact ⟨hreported.tables, hreported.connection, hreported.reader, hreported.awaiting,
        hreported.rows, hreported.incoming, hreported.naming⟩
  | false =>
      have hslots : (reportCompletion { m with completing := none } c a).slots = m.slots := by
        rw [reportCompletion_slots, hexpired]
        rfl
      have hplain' : (reportCompletion { m with completing := none } c a).backlog.Plain := by
        rw [hreport.backlog]
        exact hplain
      exact Or.inr ((hnext.trans (reportCompletion_kept _ hexpired a)).then_handled hslots
        hreport.prompts (dispatchQueued_handled hplain'))

end Completion

/-! ### Every step -/

theorem Opened.sessionStep (h : Opened cfg m (m.operation l) m') : SessionStep cfg m l m' := by
  cases h with
  | kept hkept => exact .kept hkept.toTablesKept
  | changed ho hfind hop hchange => exact .changed ho hfind hop hchange.toTablesChange

theorem Handled.sessionStep (h : Handled cfg m (m.operation l) m') : SessionStep cfg m l m' := by
  cases h with
  | opened hopened _ => exact hopened.sessionStep
  | prompted hopened _ hprompted _ =>
      cases hopened with
      | kept hkept => exact .kept (hkept.toTablesKept.trans hprompted.toTablesKept)
      | changed ho hfind hop hchange =>
          exact .changed ho hfind hop (hchange.toTablesChange.trans_kept hprompted.toTablesKept)

/-- An update of what the session tables do not depend on. -/
theorem TablesKept.of_eq (hslots : m'.slots = m.slots) (hstore : m'.sessionStore = m.sessionStore)
    (htrace : m'.trace = m.trace) : TablesKept m m' where
  tables := fun s => by rw [hslots]
  connection := fun s => by rw [hslots]
  rows := fun key => by rw [hstore]
  naming := ⟨[], by rw [htrace, List.append_nil], rfl⟩

/-- An update of a slot that leaves its tables and its connection alone. -/
theorem TablesKept.modifySlot (h : TablesKept m m') {s : Fin n} {f : AgentSlot → AgentSlot}
    (htables : (f (m'.slots s)).tables = (m'.slots s).tables)
    (hconn : (f (m'.slots s)).connection = (m'.slots s).connection) :
    TablesKept m (m'.modifySlot s f) := by
  refine h.trans
    { tables := fun s' => ?_
      connection := fun s' => ?_
      rows := fun _ => rfl
      naming := ⟨[], by simp, rfl⟩ }
  all_goals
    rw [slots_modifySlot]
    split
    · rename_i hs
      subst hs
      assumption
    · rfl

/-- A message, or the crash of its slot. -/
theorem handleSlotIncoming_sessionStep {msg : SlotIncoming n} {rest : List (SlotIncoming n)}
    {a : Answers} (hincoming : m.incoming = msg :: rest)
    (hcrash : msg.msg = none → m.crash l = some (msg.slotIdx, a)) :
    SessionStep cfg m l (handleSlotIncoming cfg { m with incoming := rest } msg a) := by
  have hdequeue : TablesKept m { m with incoming := rest } := TablesKept.of_eq rfl rfl rfl
  unfold handleSlotIncoming
  cases hmsg : msg.msg with
  | some incoming =>
      exact .kept (hdequeue.trans
        (handleIncoming_kept { m with incoming := rest } msg.slotIdx incoming).toTablesKept)
  | none => exact .crashed (hcrash hmsg) hincoming (handleCrash_outcome cfg _ msg.slotIdx a)

theorem handleCommand_handled (hplain : m.backlog.Plain) {c : AgentsCommand} {a : Answers}
    (hsend : ∀ message, c ≠ .sendPrompt message) (hshutdown : c ≠ .shutdown) :
    Handled cfg m (m.operation (.command c a)) (handleCommand cfg m a c) := by
  cases c with
  | sendPrompt message => exact absurd rfl (hsend message)
  | shutdown => exact absurd rfl hshutdown
  | cancelOperation =>
      exact .of_kept (cancelOperation_kept m a) (cancelOperation_quiet m a).prompts
  | respondPermission requestId optionId =>
      exact .of_kept (respondPermission_kept m requestId optionId)
        (by
          obtain ⟨os, hspoken, _⟩ := respondPermission_saysAside m requestId optionId
          exact hspoken.prompts)
  | createSession name k => exact createOrHeal_handled m name k a
  | enqueueMessage name k content metadata => exact enqueueMessage_handled hplain
  | forkSession name k => exact forkSession_handled m name k a
  | listSessions name =>
      exact .of_kept (listSessions_kept m name a) (listSessions_quiet cfg m name a).prompts
  | cancelSession name k =>
      exact .of_kept (cancelSession_kept cfg m name k a) (cancelSession_quiet cfg m name k a).prompts

/-- **One step of the manager, seen from the sessions.** -/
theorem step_sessions (hplain : m.backlog.Plain) (h : step cfg m l = some m') :
    SessionStep cfg m l m' := by
  cases turn_of_step cfg m h with
  | incoming _ => exact .kept (TablesKept.of_eq rfl rfl rfl)
  | eof _ =>
      have hreceive : ∀ msgs, TablesKept m (m.receive msgs) := fun _ =>
        TablesKept.of_eq rfl rfl rfl
      exact .kept ((hreceive _).modifySlot rfl rfl)
  | promptAnswered _ _ _ => exact .kept (TablesKept.of_eq rfl rfl rfl)
  | promptLost _ _ => exact .kept (TablesKept.of_eq rfl rfl rfl)
  | promptIdle _ _ _ => exact .kept (TablesKept.of_eq rfl rfl rfl)
  | @command c a _ =>
      by_cases hshutdown : c = .shutdown
      · subst hshutdown
        exact .shutdown
      · by_cases hsend : ∃ message, c = .sendPrompt message
        · obtain ⟨message, rfl⟩ := hsend
          refine .kept ?_
          rw [handleCommand]
          split
          · exact (sendPromptToSlot_kept m _ message a).toTablesKept
          · exact TablesKept.refl m
        · exact (handleCommand_handled hplain (fun message hc => hsend ⟨message, hc⟩)
            hshutdown).sessionStep
  | recvIncoming _ hincoming henabled =>
      refine handleSlotIncoming_sessionStep hincoming fun hmsg => ?_
      simp [crash, hincoming, hmsg, henabled hmsg]
  | recvDisabled _ _ _ _ => exact .kept (TablesKept.of_eq rfl rfl rfl)
  | recvCompletion _ _ => exact .kept (TablesKept.of_eq rfl rfl rfl)
  | drainIncoming _ hincoming =>
      refine handleSlotIncoming_sessionStep hincoming fun hmsg => ?_
      simp [crash, hincoming, hmsg]
  | @finishCompletion c a hc _ =>
      rcases finishPromptCompletion_sessions (c := c) (a := a) hplain with ⟨hexpired, _⟩ | hhandled
      · exact .expired hc hexpired
      · exact hhandled.sessionStep
  | cancelled _ => exact .shutdown

/-! ### Prompts -/

/-- A prompt for a live session of the process that runs. -/
def Targets (m : AgentsManager n) (p : OutstandingPrompt n) : Prop :=
  (m.slots p.slotIdx).connection = some ⟨p.connection⟩ ∧
    ∃ k, (m.slots p.slotIdx).sessionMap.get? k = some p.acpSessionId

def SameTarget (p p' : OutstandingPrompt n) : Prop :=
  p.slotIdx = p'.slotIdx ∧ p.connection = p'.connection ∧ p.acpSessionId = p'.acpSessionId

theorem Handled.prompts {os : Option Operation} (h : Handled cfg m os m') :
    ∀ p ∈ m'.prompts, p ∈ m.prompts ∨ m'.Targets p := by
  intro p hp
  cases h with
  | opened _ hsame => exact Or.inl (hsame ▸ hp)
  | @prompted m₁ _ s k id _ hlive hprompted hnew =>
      rcases hnew p hp with hold | ⟨hslot, hid, hconn⟩
      · exact Or.inl hold
      · refine Or.inr ⟨?_, k, ?_⟩
        · rw [hprompted.connection, hslot, hconn]
        · have htables := congrArg SessionTables.sessionMap (hprompted.tables s)
          rw [AgentSlot.tables_sessionMap, AgentSlot.tables_sessionMap] at htables
          rw [hslot, htables, hlive, hid]

theorem firstLiveSession_eq_some {slot : AgentSlot} {a : Answers} {k : SessionKey}
    {id : AcpSessionId} (h : firstLiveSession slot a = some (k, id)) :
    slot.sessionMap.get? k = some id := by
  unfold firstLiveSession at h
  split at h
  · rename_i hget
    cases h
    exact hget
  · obtain ⟨e, he, heq⟩ := Option.map_eq_some_iff.mp h
    cases heq
    exact AList.mem_lookup_iff.mpr (List.mem_of_mem_head? he)

theorem sendPromptToSlot_prompts (m : AgentsManager n) (s : Fin n) (message : String)
    (a : Answers) : ∀ p ∈ (m.sendPromptToSlot s message a).prompts,
      p ∈ m.prompts ∨ (m.sendPromptToSlot s message a).Targets p := by
  intro p hp
  unfold sendPromptToSlot at hp ⊢
  split at hp
  · rename_i conn k id hconn hfirst
    split at hp
    · rename_i hsent
      rw [if_pos hsent]
      rcases List.mem_append.mp hp with hold | hnew
      · exact Or.inl hold
      · rw [List.mem_singleton.mp hnew]
        exact Or.inr ⟨hconn, k, firstLiveSession_eq_some hfirst⟩
    · exact Or.inl hp
  · exact Or.inl hp

/-- **A prompt is handed over for a live session of the process that runs.** -/
theorem step_prompts (hplain : m.backlog.Plain) (h : step cfg m l = some m') :
    ∀ p ∈ m'.prompts, (∃ p₀ ∈ m.prompts, SameTarget p p₀) ∨ m'.Targets p := by
  have hsame : ∀ {p : OutstandingPrompt n}, p ∈ m.prompts → ∃ p₀ ∈ m.prompts, SameTarget p p₀ :=
    fun hp => ⟨_, hp, rfl, rfl, rfl⟩
  have hquiet : Quiet m m' → ∀ p ∈ m'.prompts,
      (∃ p₀ ∈ m.prompts, SameTarget p p₀) ∨ m'.Targets p :=
    fun hq p hp => Or.inl (hsame (hq.prompts ▸ hp))
  have hended : ∀ (p₁ : OutstandingPrompt n) (c : PromptCompletion),
      ∀ p ∈ (m.endPrompt p₁ c).prompts, ∃ p₀ ∈ m.prompts, SameTarget p p₀ :=
    fun p₁ c p hp => hsame (List.mem_filter.mp hp).1
  have hhandled : ∀ {os : Option Operation}, Handled cfg m os m' → ∀ p ∈ m'.prompts,
      (∃ p₀ ∈ m.prompts, SameTarget p p₀) ∨ m'.Targets p :=
    fun hh p hp => (hh.prompts p hp).imp hsame fun h => h
  have hheard : ∀ {msg : SlotIncoming n} {rest : List (SlotIncoming n)} {a : Answers},
      m.incoming = msg :: rest →
      ∀ p ∈ (handleSlotIncoming cfg { m with incoming := rest } msg a).prompts,
        (∃ p₀ ∈ m.prompts, SameTarget p p₀) ∨
          (handleSlotIncoming cfg { m with incoming := rest } msg a).Targets p := by
    intro msg rest a hincoming p hp
    obtain ⟨os, ks, hbacklog, _⟩ := (handleSlotIncoming_talk cfg (l := .drainIncoming a)
      (Or.inr rfl) hincoming fun h => nomatch h).1.talks
    have hsameprompts := congrArg Backlog.prompts hbacklog
    rw [backlog_prompts] at hsameprompts
    rw [hsameprompts] at hp
    exact Or.inl (hsame hp)
  cases turn_of_step cfg m h with
  | incoming _ => exact hquiet ((Quiet.refl m).receive _)
  | eof _ => exact hquiet (((Quiet.refl m).receive _).modifySlot rfl)
  | promptAnswered _ _ _ => exact fun p hp => Or.inl (hended _ _ p hp)
  | promptLost _ _ => exact fun p hp => Or.inl (hended _ _ p hp)
  | promptIdle _ _ _ =>
      intro p hp
      obtain ⟨p₀, hp₀, rfl⟩ := List.mem_map.mp hp
      refine Or.inl ⟨p₀, hp₀, ?_⟩
      split <;> exact ⟨rfl, rfl, rfl⟩
  | @command c a _ =>
      by_cases hshutdown : c = .shutdown
      · subst hshutdown
        exact fun p hp => Or.inl (hsame hp)
      · by_cases hsend : ∃ message, c = .sendPrompt message
        · obtain ⟨message, rfl⟩ := hsend
          rw [handleCommand]
          split
          · exact fun p hp => (sendPromptToSlot_prompts m _ message a p hp).imp hsame fun h => h
          · exact fun p hp => Or.inl (hsame hp)
        · exact hhandled (handleCommand_handled hplain (fun message hc => hsend ⟨message, hc⟩)
            hshutdown)
  | recvIncoming _ hincoming _ => exact hheard hincoming
  | recvDisabled _ _ _ _ => exact hquiet (dequeue_quiet m _)
  | recvCompletion _ _ => exact fun p hp => Or.inl (hsame hp)
  | drainIncoming _ hincoming => exact hheard hincoming
  | @finishCompletion c a hc _ =>
      rcases finishPromptCompletion_sessions (c := c) (a := a) hplain with ⟨_, hprompts⟩ | hh
      · exact fun p hp => Or.inl (hsame (hprompts ▸ hp))
      · exact hhandled hh
  | cancelled _ => exact fun p hp => Or.inl (hsame hp)

end Anyclaw.AgentsManager
