import Anyclaw.Agents.Run

/-!
# Frames

`Spoken os m m'` says that nothing that concerns the queueing of messages has happened
between two states: the queue, the prompts and the completions are the same, no message
number was freed, and of the outputs that are followed exactly `os` were added to the
trace.  `Quiet m m'` says in addition that nothing was spoken, and that the slots are as
they were but for their sessions and connections.  Creating and recovering sessions and
cancellations are quiet; crashes and the messages of the agents are not.

The handlers are those of `commands.rs`, `incoming.rs` and `session_recovery.rs` in
`crates/anyclaw-agents/src`.
-/

namespace Anyclaw

variable {n : Nat}

/-- The outputs that are followed: all but the traffic about sessions and the replies to
    platform commands. -/
def Output.isMessage : Output n → Bool
  | .event _ => true
  | .prompt _ _ _ => true
  | .reply _ _ plain _ => plain
  | .spawned _ _ => true
  | .respond _ _ _ _ => true
  | _ => false

/-- Outputs that concern neither the prompts of a key nor their results. -/
def Output.isAside : Output n → Bool
  | .respond _ _ _ _ => true
  | .event (.routePermission _ _ _ _) => true
  | .event (.deliverMessage _ (.pushed _)) => true
  | _ => false

def Output.isSpawn : Output n → Bool
  | .spawned _ _ => true
  | _ => false

/-- What a slot keeps besides its sessions and its connection. -/
structure SlotStatus where
  lifecycle : SlotLifecycle
  pendingPermissions : KeyedMap String PendingPermission
  activePrompts : KeyedMap AcpSessionId Nat

@[simps] def AgentSlot.status (slot : AgentSlot) : SlotStatus where
  lifecycle := slot.lifecycle
  pendingPermissions := slot.pendingPermissions
  activePrompts := slot.activePrompts

namespace AgentsManager

/-- Of the outputs that are followed, exactly `os` were appended to the trace. -/
def SpokenTrace (os t t' : List (Output n)) : Prop :=
  ∃ added, t' = t ++ added ∧ added.filter Output.isMessage = os

structure Spoken (os : List (Output n)) (m m' : AgentsManager n) : Prop where
  queue : m'.queue = m.queue
  prompts : m'.prompts = m.prompts
  completions : m'.completions = m.completions
  completing : m'.completing = m.completing
  nextPrompt : m'.nextPrompt = m.nextPrompt
  nextMessage : m.nextMessage ≤ m'.nextMessage
  sender : m'.channelsSender = m.channelsSender
  streaming : m'.streamingCompleted = m.streamingCompleted
  running : m'.running = m.running
  trace : SpokenTrace os m.trace m'.trace

structure Quiet (m m' : AgentsManager n) : Prop extends Spoken [] m m' where
  status : ∀ s, (m'.slots s).status = (m.slots s).status
  nextConnection : m'.nextConnection = m.nextConnection

/-- The events as outputs; none without a channels manager. -/
def told (m : AgentsManager n) (es : List ChannelEvent) : List (Output n) :=
  if m.channelsSender then es.map Output.event else []

theorem sendEvents_eq (m : AgentsManager n) (es : List ChannelEvent) :
    m.sendEvents es = m.emitAll (m.told es) := rfl

@[simp] theorem told_nil (m : AgentsManager n) : m.told [] = [] := by
  unfold told
  split <;> rfl

theorem exists_of_mem_told {m : AgentsManager n} {es : List ChannelEvent} {o : Output n}
    (h : o ∈ m.told es) : ∃ e ∈ es, o = .event e := by
  unfold told at h
  split at h
  · obtain ⟨e, he, rfl⟩ := List.mem_map.mp h
    exact ⟨e, he, rfl⟩
  · cases h

/-- What is told is followed. -/
theorem isMessage_told (m : AgentsManager n) (es : List ChannelEvent) :
    ∀ o ∈ m.told es, o.isMessage = true := by
  intro o ho
  obtain ⟨e, _, rfl⟩ := exists_of_mem_told ho
  rfl

/-! ### Composition -/

section Composition

variable {m m' m'' : AgentsManager n} {t t' t'' os os' : List (Output n)}

theorem SpokenTrace.refl (t : List (Output n)) : SpokenTrace [] t t :=
  ⟨[], by simp, by simp⟩

theorem SpokenTrace.trans (h : SpokenTrace os t t') (h' : SpokenTrace os' t' t'') :
    SpokenTrace (os ++ os') t t'' := by
  obtain ⟨added, rfl, rfl⟩ := h
  obtain ⟨added', rfl, rfl⟩ := h'
  exact ⟨added ++ added', by rw [List.append_assoc], List.filter_append _ _⟩

theorem SpokenTrace.extends (h : SpokenTrace os t t') : t <+: t' := by
  obtain ⟨added, rfl, _⟩ := h
  exact List.prefix_append _ _

theorem SpokenTrace.messages (h : SpokenTrace os t t') :
    t'.filter Output.isMessage = t.filter Output.isMessage ++ os := by
  obtain ⟨added, rfl, rfl⟩ := h
  exact List.filter_append _ _

theorem Spoken.refl (m : AgentsManager n) : Spoken [] m m :=
  ⟨rfl, rfl, rfl, rfl, rfl, le_rfl, rfl, rfl, rfl, SpokenTrace.refl _⟩

theorem Spoken.trans (h : Spoken os m m') (h' : Spoken os' m' m'') :
    Spoken (os ++ os') m m'' where
  queue := h'.queue.trans h.queue
  prompts := h'.prompts.trans h.prompts
  completions := h'.completions.trans h.completions
  completing := h'.completing.trans h.completing
  nextPrompt := h'.nextPrompt.trans h.nextPrompt
  nextMessage := h.nextMessage.trans h'.nextMessage
  sender := h'.sender.trans h.sender
  streaming := h'.streaming.trans h.streaming
  running := h'.running.trans h.running
  trace := h.trace.trans h'.trace

theorem Quiet.refl (m : AgentsManager n) : Quiet m m :=
  ⟨Spoken.refl m, fun _ => rfl, rfl⟩

theorem Quiet.trans (h : Quiet m m') (h' : Quiet m' m'') : Quiet m m'' where
  toSpoken := h.toSpoken.trans h'.toSpoken
  status := fun s => (h'.status s).trans (h.status s)
  nextConnection := h'.nextConnection.trans h.nextConnection

theorem Quiet.trans_spoken (h : Quiet m m') (h' : Spoken os m' m'') : Spoken os m m'' :=
  h.toSpoken.trans h'

theorem Spoken.trans_quiet (h : Spoken os m m') (h' : Quiet m' m'') : Spoken os m m'' := by
  have hboth := h.trans h'.toSpoken
  rwa [List.append_nil] at hboth

theorem Quiet.told (h : Quiet m m') (es : List ChannelEvent) : m'.told es = m.told es := by
  unfold AgentsManager.told
  rw [h.sender]

end Composition

/-! ### Primitive updates -/

section Primitives

variable {m m' : AgentsManager n} {os : List (Output n)}

/-- Outputs that are not followed. -/
theorem Quiet.emitAll (h : Quiet m m') {added : List (Output n)}
    (hadded : ∀ o ∈ added, o.isMessage = false) : Quiet m (m'.emitAll added) := by
  have hnone : added.filter Output.isMessage = [] := by
    rw [List.filter_eq_nil_iff]
    intro o ho
    simp [hadded o ho]
  exact h.trans ⟨⟨rfl, rfl, rfl, rfl, rfl, le_rfl, rfl, rfl, rfl, added, rfl, hnone⟩, fun _ => rfl, rfl⟩

theorem Quiet.emit (h : Quiet m m') {o : Output n} (ho : o.isMessage = false) :
    Quiet m (m'.emit o) :=
  h.emitAll (List.forall_mem_singleton.mpr ho)

theorem Quiet.modifySlot (h : Quiet m m') {s : Fin n} {f : AgentSlot → AgentSlot}
    (hf : (f (m'.slots s)).status = (m'.slots s).status) : Quiet m (m'.modifySlot s f) := by
  refine h.trans ⟨⟨rfl, rfl, rfl, rfl, rfl, le_rfl, rfl, rfl, rfl, SpokenTrace.refl _⟩, ?_, rfl⟩
  intro s'
  rw [modifySlot_slots, Function.update_apply]
  split
  · rename_i hs
    rw [hs, hf]
  · rfl

theorem Quiet.receive (h : Quiet m m') (msgs : List (SlotIncoming n)) :
    Quiet m (m'.receive msgs) :=
  h.trans ⟨⟨rfl, rfl, rfl, rfl, rfl, le_rfl, rfl, rfl, rfl, SpokenTrace.refl _⟩, fun _ => rfl, rfl⟩

theorem Quiet.writeStore (h : Quiet m m') (a : Answers) (f : SessionStore → SessionStore) :
    Quiet m (m'.writeStore a f) :=
  h.trans ⟨⟨rfl, rfl, rfl, rfl, rfl, le_rfl, rfl, rfl, rfl, SpokenTrace.refl _⟩, fun _ => rfl, rfl⟩

/-- Outputs that are followed. -/
theorem Spoken.emitAll (h : Spoken os m m') {added : List (Output n)}
    (hadded : ∀ o ∈ added, o.isMessage = true) : Spoken (os ++ added) m (m'.emitAll added) :=
  h.trans ⟨rfl, rfl, rfl, rfl, rfl, le_rfl, rfl, rfl, rfl, added, rfl,
    List.filter_eq_self.mpr hadded⟩

theorem Spoken.emit (h : Spoken os m m') {o : Output n} (ho : o.isMessage = true) :
    Spoken (os ++ [o]) m (m'.emit o) :=
  h.emitAll (List.forall_mem_singleton.mpr ho)

theorem Spoken.sendEvents (h : Spoken os m m') (es : List ChannelEvent) :
    Spoken (os ++ m'.told es) m (m'.sendEvents es) :=
  h.emitAll (isMessage_told m' es)

theorem Spoken.modifySlot (h : Spoken os m m') (s : Fin n) (f : AgentSlot → AgentSlot) :
    Spoken os m (m'.modifySlot s f) := by
  have hmodify : Spoken [] m' (m'.modifySlot s f) :=
    ⟨rfl, rfl, rfl, rfl, rfl, le_rfl, rfl, rfl, rfl, SpokenTrace.refl _⟩
  have hboth := h.trans hmodify
  rwa [List.append_nil] at hboth

end Primitives

/-! ### Sessions -/

variable (cfg : AgentsManagerConfig n) (m : AgentsManager n)

theorem request_quiet {α : Type} (s : Fin n) (conn : AgentConnection) (r : AcpRequest)
    (answer : RpcAnswer α) : Quiet m (request cfg m s conn r answer).2 := by
  unfold request
  split
  · exact Quiet.refl m
  all_goals exact (Quiet.refl m).emit rfl

theorem initializeAgent_quiet (s : Fin n) (a : Answers) :
    Quiet m (initializeAgent cfg m s a).2 := by
  unfold initializeAgent
  split
  · exact Quiet.refl m
  · rename_i conn _
    have hreq := request_quiet cfg m s conn .initializeAgent a.initializeAnswer
    split
    · rename_i heq
      rwa [heq] at hreq
    · rename_i heq
      simp only [heq] at hreq
      split
      · exact hreq
      · dsimp only
        exact hreq.modifySlot rfl

theorem startSession_quiet (s : Fin n) (a : Answers) : Quiet m (startSession cfg m s a).2 := by
  unfold startSession
  split
  · exact Quiet.refl m
  · split
    · exact Quiet.refl m
    · rename_i conn _
      have hreq := request_quiet cfg m s conn
        (.sessionNew (cfg.agents s).cwd (mcpServers a.newMcpUrls)) a.sessionNew
      split
      · rename_i heq
        rwa [heq] at hreq
      · rename_i heq
        simp only [heq] at hreq
        exact hreq.emit rfl

theorem requestRecovery_quiet (s : Fin n) (conn : AgentConnection) (r : AcpRequest)
    (how : SessionOrigin) (a : Answers) : Quiet m (requestRecovery cfg m s conn r how a).2 := by
  unfold requestRecovery
  have hreq := request_quiet cfg m s conn r a.recovery
  split
  · rename_i heq
    rwa [heq] at hreq
  · rename_i heq
    simp only [heq] at hreq
    exact hreq.emit rfl

theorem loadSession_quiet (s : Fin n) (conn : AgentConnection) (id : AcpSessionId)
    (a : Answers) : Quiet m (loadSession cfg m s conn id a).2 :=
  ((Quiet.refl m).receive _).trans (requestRecovery_quiet cfg _ s conn _ _ a)

theorem openSession_quiet (s : Fin n) (name : String) (k : SessionKey) (a : Answers) :
    Quiet m (openSession cfg m s name k a).2 := by
  unfold openSession
  have hstart := startSession_quiet cfg m s a
  split
  · rename_i heq
    rwa [heq] at hstart
  · rename_i m' heq
    simp only [heq] at hstart
    have hcache : Quiet m (m'.cacheToolContext s a) := by
      unfold cacheToolContext
      split
      · exact hstart.modifySlot rfl
      · exact hstart
    exact (hcache.modifySlot rfl).writeStore _ _

theorem createSession_quiet (name : String) (k : SessionKey) (a : Answers) :
    Quiet m (createSession cfg m name k a).2 := by
  unfold createSession
  split
  · exact Quiet.refl m
  · split
    · exact Quiet.refl m
    · exact openSession_quiet cfg m _ name k a

theorem recoverSession_quiet (s : Fin n) (name : String) (k : SessionKey) (id : AcpSessionId)
    (a : Answers) : Quiet m (m.recoverSession s name k id a) :=
  ((Quiet.refl m).modifySlot rfl).writeStore _ _

theorem healByCreating_quiet (s : Fin n) (name : String) (k : SessionKey) (a : Answers) :
    Quiet m (healByCreating cfg m s name k a).2 := by
  unfold healByCreating
  have hcreate := ((Quiet.refl m).modifySlot (s := s) (f := fun slot => slot.forgetStale k) rfl).trans
    (createSession_quiet cfg _ name k a)
  split
  · rename_i heq
    rwa [heq] at hcreate
  · rename_i heq
    rwa [heq] at hcreate

theorem healSession_quiet (s : Fin n) (name : String) (k : SessionKey) (a : Answers) :
    Quiet m (healSession cfg m s name k a).2 := by
  unfold healSession
  split
  · exact healByCreating_quiet cfg m s name k a
  · rename_i staleId _
    split
    · split
      · exact Quiet.refl m
      · rename_i conn _
        have hresume := requestRecovery_quiet cfg m s conn
          (.sessionResume staleId (cfg.agents s).cwd (mcpServers a.mcpUrls)) .resumed a
        rw [← resumeSession] at hresume
        split
        · rename_i heq
          simp only [heq] at hresume
          exact hresume.trans (recoverSession_quiet _ s name k _ a)
        · rename_i heq
          simp only [heq] at hresume
          exact hresume.trans (healByCreating_quiet cfg _ s name k a)
    · split
      · split
        · exact Quiet.refl m
        · rename_i conn _
          have hload := loadSession_quiet cfg m s conn staleId a
          split
          · rename_i heq
            simp only [heq] at hload
            exact (hload.modifySlot rfl).trans (recoverSession_quiet _ s name k _ a)
          · rename_i heq
            simp only [heq] at hload
            exact hload.trans (healByCreating_quiet cfg _ s name k a)
      · exact healByCreating_quiet cfg m s name k a

theorem forkSession_quiet (name : String) (k : SessionKey) (a : Answers) :
    Quiet m (forkSession cfg m name k a).2 := by
  unfold forkSession
  split
  · exact Quiet.refl m
  · rename_i s _
    split
    · exact Quiet.refl m
    · split
      · rename_i parent conn _ _
        have hreq := request_quiet cfg m s conn (.sessionFork parent) a.fork
        split
        · rename_i heq
          rwa [heq] at hreq
        · rename_i heq
          simp only [heq] at hreq
          dsimp only
          exact (Quiet.emit hreq rfl).modifySlot rfl
      · exact Quiet.refl m

theorem createOrHeal_quiet (name : String) (k : SessionKey) (a : Answers) :
    Quiet m (createOrHeal cfg m name k a) := by
  unfold createOrHeal
  split
  · rename_i s _
    split
    · exact healSession_quiet cfg m s name k a
    · exact createSession_quiet cfg m name k a
  · exact Quiet.refl m

theorem ensureMapped_quiet (s : Fin n) (name : String) (k : SessionKey) (a : Answers) :
    Quiet m (ensureMapped cfg m s name k a).2 := by
  unfold ensureMapped
  split
  · exact Quiet.refl m
  · exact healSession_quiet cfg m s name k a

theorem listSessions_quiet (name : String) (a : Answers) :
    Quiet m (listSessions cfg m name a).2 := by
  unfold listSessions
  split
  · exact Quiet.refl m
  · rename_i s _
    split
    · exact Quiet.refl m
    · split
      · exact Quiet.refl m
      · rename_i conn _
        exact request_quiet cfg m s conn .sessionList a.list

/-! ### Cancellations and responses -/

theorem sendCancel_quiet (s : Fin n) (id : AcpSessionId) (a : Answers) :
    Quiet m (m.sendCancel s id a).2 := by
  unfold sendCancel
  split
  · exact Quiet.refl m
  · split
    · exact (Quiet.refl m).emit rfl
    · exact Quiet.refl m

theorem cancelSession_quiet (name : String) (k : SessionKey) (a : Answers) :
    Quiet m (cancelSession cfg m name k a).2 := by
  unfold cancelSession
  split
  · exact Quiet.refl m
  · split
    · exact Quiet.refl m
    · exact sendCancel_quiet m _ _ a

theorem cancelSessionByKey_quiet (k : SessionKey) (a : Answers) :
    Quiet m (m.cancelSessionByKey k a).2 := by
  unfold cancelSessionByKey
  split
  · exact Quiet.refl m
  · split
    · exact Quiet.refl m
    · exact sendCancel_quiet m _ _ a

theorem cancelOperation_quiet (a : Answers) : Quiet m (m.cancelOperation a) := by
  refine (Quiet.refl m).emitAll ?_
  intro o ho
  obtain ⟨s, _, ho⟩ := List.mem_flatMap.mp ho
  split at ho
  · split at ho
    · obtain ⟨id, _, rfl⟩ := List.mem_map.mp ho
      rfl
    · cases ho
  · cases ho

/-- A step that only says outputs of one kind. -/
def SaysOnly (kind : Output n → Bool) (m m' : AgentsManager n) : Prop :=
  ∃ os, Spoken os m m' ∧ ∀ o ∈ os, kind o = true

abbrev SaysAside (m m' : AgentsManager n) : Prop := SaysOnly Output.isAside m m'

theorem Quiet.saysOnly {kind : Output n → Bool} {m m' : AgentsManager n} (h : Quiet m m') :
    SaysOnly kind m m' :=
  ⟨[], h.toSpoken, fun _ ho => nomatch ho⟩

theorem Quiet.saysAside {m m' : AgentsManager n} (h : Quiet m m') : SaysAside m m' := h.saysOnly

theorem SaysOnly.trans {kind : Output n → Bool} {m m' m'' : AgentsManager n}
    (h : SaysOnly kind m m') (h' : SaysOnly kind m' m'') : SaysOnly kind m m'' := by
  obtain ⟨os, hspoken, hos⟩ := h
  obtain ⟨os', hspoken', hos'⟩ := h'
  refine ⟨os ++ os', hspoken.trans hspoken', ?_⟩
  intro o ho
  rcases List.mem_append.mp ho with ho | ho
  · exact hos o ho
  · exact hos' o ho

theorem respond_saysAside (s : Fin n) (rpcId : Option RequestId) (r : AgentResponse) :
    SaysAside m (m.respond s rpcId r) := by
  unfold respond
  split
  · exact ⟨_, (Spoken.refl m).emit rfl, List.forall_mem_singleton.mpr rfl⟩
  · exact (Quiet.refl m).saysAside

theorem respondPermission_saysAside (requestId optionId : String) :
    SaysAside m (m.respondPermission requestId optionId) := by
  unfold respondPermission
  split
  · exact (Quiet.refl m).saysAside
  · rename_i s _
    have hmodify := (Spoken.refl m).modifySlot s fun slot =>
      { slot with pendingPermissions := slot.pendingPermissions.remove requestId }
    dsimp only
    split
    · exact ⟨_, hmodify.emit rfl, List.forall_mem_singleton.mpr rfl⟩
    · exact ⟨[], hmodify, fun _ ho => nomatch ho⟩

/-! ### Crashes -/

/-- The crash does not disable the slot. -/
def Restarts (s : Fin n) (a : Answers) : Prop :=
  ((m.slots s).lifecycle.recordCrashAndCheck a.crashRecordedAt a.crashCheckedAt).1 ≠ .disabled

instance (s : Fin n) (a : Answers) : Decidable (m.Restarts s a) :=
  inferInstanceAs (Decidable (_ ≠ _))

def crashed (slot : AgentSlot) (a : Answers) : AgentSlot :=
  { slot with
    lifecycle := (slot.lifecycle.recordCrashAndCheck a.crashRecordedAt a.crashCheckedAt).2
    connection := none
    readerAlive := slot.connection.isNone && slot.readerAlive }

theorem prepareRestart_eq (s : Fin n) (a : Answers) :
    m.prepareRestart s a =
      (decide (m.Restarts s a), m.modifySlot s fun slot => crashed slot a) := by
  have hmodify : (m.modifySlot s fun slot =>
      { slot with
        lifecycle := ((m.slots s).lifecycle.recordCrashAndCheck a.crashRecordedAt
          a.crashCheckedAt).2
        connection := none
        readerAlive := slot.connection.isNone && slot.readerAlive }) =
      m.modifySlot s fun slot => crashed slot a := rfl
  unfold prepareRestart Restarts
  dsimp only
  rw [hmodify]
  split
  · rename_i haction
    simp [haction]
  · rename_i haction
    simp [haction]

theorem spawnConnection_spoken (s : Fin n) :
    Spoken [.spawned s m.nextConnection] m (m.spawnConnection s) :=
  ⟨rfl, rfl, rfl, rfl, rfl, le_rfl, rfl, rfl, rfl, [.spawned s m.nextConnection], rfl, rfl⟩

theorem dropConnection_quiet (s : Fin n) : Quiet m (m.dropConnection s) :=
  (Quiet.refl m).modifySlot rfl

def spawns (s : Fin n) (a : Answers) : List (Output n) :=
  if a.spawned then [.spawned s m.nextConnection] else []

theorem respawnAndInitialize_spoken (s : Fin n) (a : Answers) :
    Spoken (m.spawns s a) m (respawnAndInitialize cfg m s a).2 := by
  unfold respawnAndInitialize spawns
  by_cases hspawned : a.spawned = true
  · rw [if_pos hspawned, if_pos hspawned]
    have hinit := (spawnConnection_spoken m s).trans_quiet
      (initializeAgent_quiet cfg (m.spawnConnection s) s a)
    split
    · rename_i heq
      simp only [heq] at hinit
      exact hinit.trans_quiet (dropConnection_quiet _ s)
    · rename_i heq
      simp only [heq] at hinit
      exact hinit
  · rw [if_neg hspawned, if_neg hspawned]
    exact Spoken.refl m

theorem tryRestoreSession_spoken (s : Fin n) (a : Answers) :
    Spoken [] m (tryRestoreSession cfg m s a).2 := by
  unfold tryRestoreSession
  split
  · rename_i firstAcpId conn _ _
    split
    · have hresume := requestRecovery_quiet cfg m s conn
        (.sessionResume firstAcpId (cfg.agents s).cwd (mcpServers a.mcpUrls)) .resumed a
      rw [← resumeSession] at hresume
      split
      · rename_i heq
        simp only [heq] at hresume
        dsimp only
        exact hresume.toSpoken.modifySlot _ _
      · rename_i heq
        simp only [heq] at hresume
        exact hresume.toSpoken
    · split
      · have hload := loadSession_quiet cfg m s conn firstAcpId a
        split
        · rename_i heq
          simp only [heq] at hload
          dsimp only
          exact hload.toSpoken.modifySlot _ _
        · rename_i heq
          simp only [heq] at hload
          exact hload.toSpoken
      · exact Spoken.refl m
  · exact Spoken.refl m

theorem restoreOrStartSession_spoken (s : Fin n) (a : Answers) :
    Spoken [] m (restoreOrStartSession cfg m s a) := by
  unfold restoreOrStartSession
  have hrestore := ((Spoken.refl m).modifySlot s AgentSlot.retireSessions).trans
    (tryRestoreSession_spoken cfg _ s a)
  dsimp only
  split
  · rename_i heq
    simp only [heq] at hrestore
    exact hrestore
  · rename_i m' heq
    simp only [heq] at hrestore
    have hstart := hrestore.trans_quiet (startSession_quiet cfg m' s a)
    split
    · rename_i hstarted
      simp only [hstarted] at hstart
      exact hstart.modifySlot _ _
    · rename_i hfailed
      simp only [hfailed] at hstart
      exact hstart.trans_quiet (dropConnection_quiet _ s)

/-- What is spoken about a crash of slot `s`. -/
def crashOutputs (s : Fin n) (a : Answers) : List (Output n) :=
  if m.Restarts s a then
    m.told (crashNotices (m.slots s) (cfg.agents s).name) ++ m.spawns s a
  else []

theorem handleCrash_spoken (s : Fin n) (a : Answers) :
    Spoken (crashOutputs cfg m s a) m (handleCrash cfg m s a) := by
  unfold handleCrash crashOutputs
  rw [prepareRestart_eq]
  have hcrashed := (Spoken.refl m).modifySlot s fun slot => crashed slot a
  by_cases hrestarts : m.Restarts s a
  · rw [decide_eq_true hrestarts, if_pos hrestarts]
    dsimp only
    have hnotices : crashNotices ((m.modifySlot s fun slot => crashed slot a).slots s)
        (cfg.agents s).name = crashNotices (m.slots s) (cfg.agents s).name := by
      simp [crashNotices, crashed]
    have hnotify := (hcrashed.sendEvents (crashNotices
      ((m.modifySlot s fun slot => crashed slot a).slots s) (cfg.agents s).name)).modifySlot s
        fun slot => { slot with activePrompts := ∅ }
    rw [← notifyCrashToChannels, hnotices, List.nil_append] at hnotify
    have hrespawn := hnotify.trans (respawnAndInitialize_spoken cfg
      (notifyCrashToChannels cfg (m.modifySlot s fun slot => crashed slot a) s) s a)
    split
    · rename_i hfailed
      simp only [hfailed] at hrespawn
      exact hrespawn
    · rename_i hdone
      simp only [hdone] at hrespawn
      have hrestore := hrespawn.trans (restoreOrStartSession_spoken cfg _ s a)
      rwa [List.append_nil] at hrestore
  · rw [decide_eq_false hrestarts, if_neg hrestarts]
    exact hcrashed

/-! ### Messages of the agents -/

/-- What a message of slot `s` may have done. -/
inductive Heard (s : Fin n) : IncomingMessage → AgentsManager n → Prop
  | forwarded {u : SessionUpdate} {k : SessionKey}
      (hawait : u.sessionId ∉ (m.slots s).awaitingFirstPrompt)
      (hroute : (m.slots s).reverseMap.get? u.sessionId = some k)
      (hsender : m.channelsSender = true) :
      Heard s (.sessionUpdate u)
        { m.emit (.event (.deliverMessage k (.update u))) with
          streamingCompleted :=
            if u.update.isResult then insert k m.streamingCompleted else m.streamingCompleted }
  | malformed {sessionId : Option AcpSessionId} {error : String} {k : SessionKey}
      (hroute : sessionId.bind (m.slots s).reverseMap.get? = some k) :
      Heard s (.malformedUpdate sessionId error)
        (m.sendEvents
          [.deliverMessage k (.errorResult ("Agent sent malformed update: " ++ error))])
  | aside {msg : IncomingMessage} {m' : AgentsManager n} (haside : SaysAside m m') :
      Heard s msg m'

theorem handleIncoming_heard (s : Fin n) (msg : IncomingMessage) :
    Heard m s msg (m.handleIncoming s msg) := by
  have hquiet : Heard m s msg m := .aside (Quiet.refl m).saysAside
  cases msg with
  | sessionUpdate u =>
      rw [handleIncoming, forwardSessionUpdate]
      split
      · exact hquiet
      · rename_i hawait
        split
        · rename_i k hroute hsender
          have hforwarded := Heard.forwarded hawait hroute hsender
          dsimp only
          by_cases hresult : u.update.isResult = true
          · simp only [if_pos hresult] at hforwarded ⊢
            exact hforwarded
          · simp only [if_neg hresult] at hforwarded ⊢
            exact hforwarded
        · exact hquiet
  | malformedUpdate sessionId error =>
      rw [handleIncoming, forwardMalformedUpdateError]
      split
      · exact hquiet
      · rename_i k hroute
        exact .malformed hroute
  | requestPermission r =>
      rw [handleIncoming, handlePermissionRequest]
      dsimp only
      split
      · exact .aside ⟨_, ((Spoken.refl m).emit rfl).modifySlot _ _,
          List.forall_mem_singleton.mpr rfl⟩
      · exact .aside (respond_saysAside m s r.rpcId _)
  | sessionPush rpcId params =>
      rw [handleIncoming]
      cases params with
      | missing => exact .aside (respond_saysAside m s rpcId _)
      | invalid => exact .aside (respond_saysAside m s rpcId _)
      | valid sessionId content =>
          rw [handleSessionPush]
          split
          · exact .aside (respond_saysAside m s rpcId _)
          · rename_i k _
            split
            · have hpush : SaysAside m (m.sendEvents
                  (content.map fun part => .deliverMessage k (.pushed part))) := by
                refine ⟨_, (Spoken.refl m).sendEvents _, ?_⟩
                intro o ho
                obtain ⟨e, he, rfl⟩ := exists_of_mem_told ho
                obtain ⟨part, _, rfl⟩ := List.mem_map.mp he
                rfl
              exact .aside (hpush.trans (respond_saysAside _ s rpcId _))
            · exact .aside (respond_saysAside m s rpcId _)
  | fsRequest rpcId outcome => exact .aside (respond_saysAside m s rpcId _)
  | otherMethod rpcId => exact .aside (respond_saysAside m s rpcId _)

/-! ### Boot -/

/-- What a boot does: processes are spawned; the slots keep their status. -/
def Boots (m m' : AgentsManager n) : Prop :=
  SaysOnly Output.isSpawn m m' ∧ ∀ s, (m'.slots s).status = (m.slots s).status

theorem Quiet.boots {m m' : AgentsManager n} (h : Quiet m m') : Boots m m' :=
  ⟨h.saysOnly, h.status⟩

theorem Boots.trans {m m' m'' : AgentsManager n} (h : Boots m m') (h' : Boots m' m'') :
    Boots m m'' :=
  ⟨h.1.trans h'.1, fun s => (h'.2 s).trans (h.2 s)⟩

theorem spawnConnection_boots (s : Fin n) : Boots m (m.spawnConnection s) := by
  refine ⟨⟨_, spawnConnection_spoken m s, List.forall_mem_singleton.mpr rfl⟩, fun s' => ?_⟩
  unfold spawnConnection
  simp only [emit_slots, modifySlot_slots, Function.update_apply]
  split
  · rename_i hs
    rw [hs]
    rfl
  · rfl

theorem buildStartedSlot_boots (s : Fin n) (a : Answers) :
    Boots m (buildStartedSlot cfg m s a).2 := by
  unfold buildStartedSlot
  split
  · have hinit := (spawnConnection_boots m s).trans
      (initializeAgent_quiet cfg (m.spawnConnection s) s a).boots
    split
    · rename_i heq
      simp only [heq] at hinit
      exact hinit
    · rename_i m' heq
      simp only [heq] at hinit
      have hstart := hinit.trans (startSession_quiet cfg m' s a).boots
      split
      · rename_i hfailed
        simp only [hfailed] at hstart
        exact hstart
      · rename_i hstarted
        simp only [hstarted] at hstart
        dsimp only
        exact hstart.trans ((Quiet.refl _).modifySlot rfl).boots
  · exact (Quiet.refl m).boots

theorem startSlots_boots (b : StartAnswers n) :
    ∀ (slots : List (Fin n)) (m : AgentsManager n) {m' : AgentsManager n},
      startSlots cfg b slots m = some m' → Boots m m'
  | [], m, m', h => by
      cases h
      exact (Quiet.refl m).boots
  | s :: rest, m, m', h => by
      have hslot := buildStartedSlot_boots cfg m s (b.agents s)
      rw [startSlots] at h
      split at h
      · rename_i m₁ heq
        simp only [heq] at hslot
        exact hslot.trans (startSlots_boots b rest m₁ h)
      · cases h

theorem loadRow_quiet (row : PersistedSession) : Quiet m (loadRow cfg m row) := by
  unfold loadRow
  split
  · exact Quiet.refl m
  · exact (Quiet.modifySlot (Quiet.refl m) rfl).emit rfl

theorem loadRows_quiet (rows : List PersistedSession) (m : AgentsManager n) :
    Quiet m (rows.foldl (loadRow cfg) m) := by
  induction rows generalizing m with
  | nil => exact Quiet.refl m
  | cons row rows ih => exact (loadRow_quiet cfg m row).trans (ih _)

theorem loadStore_quiet (b : StartAnswers n) {m' : AgentsManager n}
    (h : loadStore cfg m b = some m') : Quiet m m' := by
  unfold loadStore at h
  have hexpired : Quiet m (if b.expiryOk then
      { m with sessionStore := m.sessionStore.deleteExpired b.now cfg.sessionTtlSecs }
      else m) := by
    split
    · exact ⟨⟨rfl, rfl, rfl, rfl, rfl, le_rfl, rfl, rfl, rfl, SpokenTrace.refl _⟩, fun _ => rfl, rfl⟩
    · exact Quiet.refl m
  dsimp only at h
  split at h
  · cases h
    exact hexpired
  · obtain ⟨_, hm⟩ := Option.ite_none_right_eq_some.mp h
    cases hm
    exact hexpired.trans (loadRows_quiet cfg _ _)

theorem start_boots (b : StartAnswers n) {m' : AgentsManager n}
    (h : start cfg m b = some m') : Boots m m' := by
  obtain ⟨m₁, hslots, hload⟩ := Option.bind_eq_some_iff.mp h
  exact (startSlots_boots cfg b _ m hslots).trans (loadStore_quiet cfg m₁ b hload).boots

end AgentsManager

end Anyclaw
