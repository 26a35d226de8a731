import Anyclaw.Agents.Processes

/-!
# Where the tool context goes

A slot caches one tool context and remembers the sessions that have received it.  `given` are
the prompts that were handed to processes, with their parts.  `step_contexts` sums up what a
step does to the marks and which prompt it hands over.

The cache is `tool_context` of `AgentSlot` (`crates/anyclaw-agents/src/slot.rs`), filled by
`create_session` (`commands.rs`); the sessions are remembered in `tool_context_sent`.
-/

namespace Anyclaw

variable {n : Nat}

/-- A `session/prompt` that was handed to a process. -/
structure GivenPrompt (n : Nat) where
  slotIdx : Fin n
  connection : Nat
  acpSessionId : AcpSessionId
  parts : List ContentPart
deriving DecidableEq

def Output.given : Output n → Option (GivenPrompt n)
  | .prompt p parts _ => some ⟨p.slotIdx, p.connection, p.acpSessionId, parts⟩
  | .request s no (.sessionPrompt id parts) => some ⟨s, no, id, parts⟩
  | _ => none

def Label.isSendPrompt : Label n → Bool
  | .command (.sendPrompt _) _ => true
  | _ => false

/-- The parts that the messages of a payload bring themselves. -/
def messageParts (payload : RichPayload) : List ContentPart :=
  (payload.metadata.bind buildReplyContext).toList.map ContentPart.text ++ payload.content

namespace AgentsManager

variable (cfg : AgentsManagerConfig n) (m : AgentsManager n)

def given : List (GivenPrompt n) := m.trace.filterMap Output.given

/-- The parts that the messages of a prompt bring themselves, when a step hands one over. -/
def ownParts : Label n → List ContentPart
  | .command (.sendPrompt message) _ => [.text message]
  | .command (.enqueueMessage _ k content metadata) _ =>
      messageParts (SessionQueue.mergePending
        (m.queue.queued k ++ [⟨content, metadata, [m.nextMessage]⟩]))
  | .finishCompletion _ =>
      match m.completing.map fun c => m.queue.queued c.sessionKey with
      | some (first :: rest) => messageParts (SessionQueue.mergeRemaining first rest)
      | _ => []
  | _ => []

/-- Nothing is handed over, and the marks are as they were. -/
structure ContextsKept (m m' : AgentsManager n) : Prop where
  marks : ∀ s, (m'.slots s).toolContextSent = (m.slots s).toolContextSent
  given : m'.given = m.given

variable {m} {m' m'' : AgentsManager n}

/-! ### Composition -/

theorem ContextsKept.refl (m : AgentsManager n) : ContextsKept m m := ⟨fun _ => rfl, rfl⟩

theorem ContextsKept.trans (h : ContextsKept m m') (h' : ContextsKept m' m'') :
    ContextsKept m m'' :=
  ⟨fun s => (h'.marks s).trans (h.marks s), h'.given.trans h.given⟩

theorem ContextsKept.of_eq (hslots : m'.slots = m.slots) (htrace : m'.trace = m.trace) :
    ContextsKept m m' := by
  refine ⟨fun s => by rw [hslots], ?_⟩
  unfold AgentsManager.given
  rw [htrace]

theorem given_emitAll (m : AgentsManager n) (os : List (Output n)) :
    (m.emitAll os).given = m.given ++ os.filterMap Output.given :=
  List.filterMap_append

theorem ContextsKept.emitAll (h : ContextsKept m m') {os : List (Output n)}
    (hos : ∀ o ∈ os, o.given = none) : ContextsKept m (m'.emitAll os) := by
  refine h.trans ⟨fun _ => rfl, ?_⟩
  rw [given_emitAll, List.filterMap_eq_nil_iff.mpr hos, List.append_nil]

theorem ContextsKept.emit (h : ContextsKept m m') {o : Output n} (ho : o.given = none) :
    ContextsKept m (m'.emit o) :=
  h.emitAll (List.forall_mem_singleton.mpr ho)

theorem ContextsKept.sendEvents (h : ContextsKept m m') (es : List ChannelEvent) :
    ContextsKept m (m'.sendEvents es) := by
  refine h.emitAll fun o ho => ?_
  obtain ⟨e, _, rfl⟩ := exists_of_mem_told ho
  rfl

theorem ContextsKept.modifySlot (h : ContextsKept m m') {s : Fin n} {f : AgentSlot → AgentSlot}
    (hf : (f (m'.slots s)).toolContextSent = (m'.slots s).toolContextSent) :
    ContextsKept m (m'.modifySlot s f) := by
  refine h.trans ⟨fun s' => ?_, rfl⟩
  rw [slots_modifySlot]
  split
  · rename_i hs
    rw [hs, hf]
  · rfl

theorem ContextsKept.writeStore (h : ContextsKept m m') (a : Answers)
    (f : SessionStore → SessionStore) : ContextsKept m (m'.writeStore a f) :=
  h.trans (.of_eq rfl rfl)

/-! ### Sessions -/

section Sessions

variable (m)

theorem request_contexts {α : Type} (s : Fin n) (conn : AgentConnection) {r : AcpRequest}
    (answer : RpcAnswer α) (hr : ∀ id parts, r ≠ .sessionPrompt id parts) :
    ContextsKept m (request cfg m s conn r answer).2 := by
  have hgiven : (Output.request s conn.no r : Output n).given = none := by
    cases r with
    | sessionPrompt id parts => exact absurd rfl (hr id parts)
    | _ => rfl
  unfold request
  split
  · exact .refl m
  all_goals exact (ContextsKept.refl m).emit hgiven

theorem initializeAgent_contexts (s : Fin n) (a : Answers) :
    ContextsKept m (initializeAgent cfg m s a).2 := by
  unfold initializeAgent
  split
  · exact .refl m
  · rename_i conn _
    have hreq := request_contexts cfg m s conn a.initializeAnswer (r := .initializeAgent) nofun
    split
    · rename_i heq
      rwa [heq] at hreq
    · rename_i heq
      simp only [heq] at hreq
      split
      · exact hreq
      · dsimp only
        exact hreq.modifySlot rfl

theorem startSession_contexts (s : Fin n) (a : Answers) :
    ContextsKept m (startSession cfg m s a).2 := by
  unfold startSession
  split
  · exact .refl m
  · split
    · exact .refl m
    · rename_i conn _
      have hreq := request_contexts cfg m s conn a.sessionNew
        (r := .sessionNew (cfg.agents s).cwd (mcpServers a.newMcpUrls)) nofun
      split
      · rename_i heq
        rwa [heq] at hreq
      · rename_i heq
        simp only [heq] at hreq
        exact hreq.emit rfl

theorem requestRecovery_contexts (s : Fin n) (conn : AgentConnection) {r : AcpRequest}
    (how : SessionOrigin) (a : Answers) (hr : ∀ id parts, r ≠ .sessionPrompt id parts) :
    ContextsKept m (requestRecovery cfg m s conn r how a).2 := by
  have hreq := request_contexts cfg m s conn a.recovery hr
  unfold requestRecovery
  split
  · rename_i heq
    rwa [heq] at hreq
  · rename_i heq
    simp only [heq] at hreq
    exact hreq.emit rfl

theorem resumeSession_contexts (s : Fin n) (conn : AgentConnection) (id : AcpSessionId)
    (a : Answers) : ContextsKept m (resumeSession cfg m s conn id a).2 :=
  requestRecovery_contexts cfg m s conn .resumed a nofun

theorem loadSession_contexts (s : Fin n) (conn : AgentConnection) (id : AcpSessionId)
    (a : Answers) : ContextsKept m (loadSession cfg m s conn id a).2 := by
  have hreceived : ContextsKept m (m.receive (m.replays s a)) := .of_eq rfl rfl
  exact hreceived.trans (requestRecovery_contexts cfg _ s conn .loaded a nofun)

theorem openSession_contexts (s : Fin n) (name : String) (k : SessionKey) (a : Answers) :
    ContextsKept m (openSession cfg m s name k a).2 := by
  have hstart := startSession_contexts cfg m s a
  unfold openSession
  split
  · rename_i heq
    rwa [heq] at hstart
  · rename_i m' heq
    simp only [heq] at hstart
    have hcache : ContextsKept m (m'.cacheToolContext s a) := by
      unfold cacheToolContext
      split
      · exact hstart.modifySlot rfl
      · exact hstart
    exact (hcache.modifySlot rfl).writeStore _ _

theorem createSession_contexts (name : String) (k : SessionKey) (a : Answers) :
    ContextsKept m (createSession cfg m name k a).2 := by
  unfold createSession
  split
  · exact .refl m
  · split
    · exact .refl m
    · exact openSession_contexts cfg m _ name k a

theorem recoverSession_contexts (s : Fin n) (name : String) (k : SessionKey) (id : AcpSessionId)
    (a : Answers) : ContextsKept m (m.recoverSession s name k id a) :=
  ((ContextsKept.refl m).modifySlot rfl).writeStore _ _

theorem healByCreating_contexts (s : Fin n) (name : String) (k : SessionKey) (a : Answers) :
    ContextsKept m (healByCreating cfg m s name k a).2 := by
  have hforgotten : ContextsKept m (m.modifySlot s fun slot => slot.forgetStale k) :=
    (ContextsKept.refl m).modifySlot rfl
  have hcreate := hforgotten.trans (createSession_contexts cfg _ name k a)
  unfold healByCreating
  split
  · rename_i heq
    rwa [heq] at hcreate
  · rename_i heq
    rwa [heq] at hcreate

theorem healSession_contexts (s : Fin n) (name : String) (k : SessionKey) (a : Answers) :
    ContextsKept m (healSession cfg m s name k a).2 := by
  unfold healSession
  split
  · exact healByCreating_contexts cfg m s name k a
  · rename_i staleId _
    split
    · split
      · exact .refl m
      · rename_i conn _
        have hresume := resumeSession_contexts cfg m s conn staleId a
        split
        · rename_i heq
          rw [heq] at hresume
          exact hresume.trans (recoverSession_contexts _ s name k _ a)
        · rename_i heq
          rw [heq] at hresume
          exact hresume.trans (healByCreating_contexts cfg _ s name k a)
    · split
      · split
        · exact .refl m
        · rename_i conn _
          have hload := loadSession_contexts cfg m s conn staleId a
          split
          · rename_i heq
            rw [heq] at hload
            exact (hload.modifySlot rfl).trans (recoverSession_contexts _ s name k _ a)
          · rename_i heq
            rw [heq] at hload
            exact hload.trans (healByCreating_contexts cfg _ s name k a)
      · exact healByCreating_contexts cfg m s name k a

theorem ensureMapped_contexts (s : Fin n) (name : String) (k : SessionKey) (a : Answers) :
    ContextsKept m (ensureMapped cfg m s name k a).2 := by
  unfold ensureMapped
  split
  · exact .refl m
  · exact healSession_contexts cfg m s name k a

theorem createOrHeal_contexts (name : String) (k : SessionKey) (a : Answers) :
    ContextsKept m (createOrHeal cfg m name k a) := by
  unfold createOrHeal
  split
  · split
    · exact healSession_contexts cfg m _ name k a
    · exact createSession_contexts cfg m name k a
  · exact .refl m

theorem forkSession_contexts (name : String) (k : SessionKey) (a : Answers) :
    ContextsKept m (forkSession cfg m name k a).2 := by
  unfold forkSession
  split
  · exact .refl m
  · rename_i s _
    split
    · exact .refl m
    · split
      · rename_i parent conn _ _
        have hreq := request_contexts cfg m s conn a.fork (r := .sessionFork parent) nofun
        split
        · rename_i heq
          rwa [heq] at hreq
        · rename_i heq
          simp only [heq] at hreq
          dsimp only
          exact ContextsKept.modifySlot (hreq.emit rfl) rfl
      · exact .refl m

theorem listSessions_contexts (name : String) (a : Answers) :
    ContextsKept m (listSessions cfg m name a).2 := by
  unfold listSessions
  split
  · exact .refl m
  · split
    · exact .refl m
    · split
      · exact .refl m
      · exact request_contexts cfg m _ _ a.list nofun

end Sessions

/-! ### Other handlers -/

section Handlers

variable (m)

theorem sendCancel_contexts (s : Fin n) (id : AcpSessionId) (a : Answers) :
    ContextsKept m (m.sendCancel s id a).2 := by
  unfold sendCancel
  split
  · exact .refl m
  · split
    · exact (ContextsKept.refl m).emit rfl
    · exact .refl m

theorem cancelSession_contexts (name : String) (k : SessionKey) (a : Answers) :
    ContextsKept m (cancelSession cfg m name k a).2 := by
  unfold cancelSession
  split
  · exact .refl m
  · split
    · exact .refl m
    · exact sendCancel_contexts m _ _ a

theorem cancelSessionByKey_contexts (k : SessionKey) (a : Answers) :
    ContextsKept m (m.cancelSessionByKey k a).2 := by
  unfold cancelSessionByKey
  split
  · exact .refl m
  · split
    · exact .refl m
    · exact sendCancel_contexts m _ _ a

theorem cancelOperation_contexts (a : Answers) : ContextsKept m (m.cancelOperation a) := by
  refine (ContextsKept.refl m).emitAll fun o ho => ?_
  obtain ⟨s, _, ho⟩ := List.mem_flatMap.mp ho
  split at ho
  · split at ho
    · obtain ⟨id, _, rfl⟩ := List.mem_map.mp ho
      rfl
    · cases ho
  · cases ho

theorem respond_contexts (s : Fin n) (rpcId : Option RequestId) (r : AgentResponse) :
    ContextsKept m (m.respond s rpcId r) := by
  unfold respond
  split
  · exact (ContextsKept.refl m).emit rfl
  · exact .refl m

theorem respondPermission_contexts (requestId optionId : String) :
    ContextsKept m (m.respondPermission requestId optionId) := by
  unfold respondPermission
  split
  · exact .refl m
  · rename_i s _
    have hmodify : ContextsKept m (m.modifySlot s fun slot =>
        { slot with pendingPermissions := slot.pendingPermissions.remove requestId }) :=
      (ContextsKept.refl m).modifySlot rfl
    dsimp only
    split
    · exact hmodify.emit rfl
    · exact hmodify

theorem handleIncoming_contexts (s : Fin n) (msg : IncomingMessage) :
    ContextsKept m (m.handleIncoming s msg) := by
  cases msg with
  | sessionUpdate u =>
      rw [handleIncoming, forwardSessionUpdate]
      split
      · exact .refl m
      · split
        · rename_i k _ _
          have hemit : ContextsKept m (m.emit (.event (.deliverMessage k (.update u)))) :=
            (ContextsKept.refl m).emit rfl
          dsimp only
          split
          · exact hemit.trans (.of_eq rfl rfl)
          · exact hemit
        · exact .refl m
  | malformedUpdate sessionId error =>
      rw [handleIncoming, forwardMalformedUpdateError]
      split
      · exact .refl m
      · exact (ContextsKept.refl m).sendEvents _
  | requestPermission r =>
      rw [handleIncoming, handlePermissionRequest]
      dsimp only
      split
      · refine ContextsKept.modifySlot (ContextsKept.emit (ContextsKept.refl m) ?_) rfl
        rfl
      · exact respond_contexts m s r.rpcId _
  | sessionPush rpcId params =>
      rw [handleIncoming]
      cases params with
      | missing => exact respond_contexts m s rpcId _
      | invalid => exact respond_contexts m s rpcId _
      | valid sessionId content =>
          rw [handleSessionPush]
          split
          · exact respond_contexts m s rpcId _
          · split
            · exact ((ContextsKept.refl m).sendEvents _).trans (respond_contexts _ s rpcId _)
            · exact respond_contexts m s rpcId _
  | fsRequest rpcId outcome => exact respond_contexts m s rpcId _
  | otherMethod rpcId => exact respond_contexts m s rpcId _

theorem handlePlatformCommand_contexts (command : PlatformCommand) (s : Fin n) (name : String)
    (k : SessionKey) (a : Answers) :
    ContextsKept m (handlePlatformCommand cfg m command s name k a).2 := by
  have hrelease : ∀ m₁ : AgentsManager n, ContextsKept m₁ (m₁.releaseKey k) := fun _ =>
    .of_eq rfl rfl
  unfold handlePlatformCommand
  cases command with
  | new =>
      have hcleared : ContextsKept m (m.modifySlot s fun slot => slot.unmapSession k) :=
        (ContextsKept.refl m).modifySlot rfl
      have hcreate := hcleared.trans (createSession_contexts cfg _ name k a)
      dsimp only
      split
      · rename_i heq
        rwa [heq] at hcreate
      · rename_i heq
        rw [heq] at hcreate
        exact (hcreate.sendEvents _).trans (hrelease _)
  | cancel =>
      have hcancel := cancelSession_contexts cfg m name k a
      dsimp only
      split
      · rename_i heq
        rw [heq] at hcancel
        exact (hcancel.sendEvents _).trans (hrelease _)
      · rename_i heq
        rw [heq] at hcancel
        exact hcancel.sendEvents _

end Handlers

/-! ### Crashes -/

/-- A slot that is up after its crash has a new process, which has received nothing. -/
structure ContextsCleared (m m' : AgentsManager n) (s : Fin n) : Prop where
  cleared : (m'.slots s).connection ≠ none → (m'.slots s).toolContextSent = ∅
  given : m'.given = m.given

theorem ContextsKept.then_cleared {s : Fin n} (h : ContextsKept m m')
    (h' : ContextsCleared m' m'' s) : ContextsCleared m m'' s where
  cleared := h'.cleared
  given := h'.given.trans h.given

theorem ContextsKept.of_down {s : Fin n} (h : ContextsKept m m')
    (hdown : (m'.slots s).connection = none) : ContextsCleared m m' s where
  cleared hup := absurd hdown hup
  given := h.given

theorem tryRestoreSession_contexts (m : AgentsManager n) (s : Fin n) (a : Answers) :
    ContextsKept m (tryRestoreSession cfg m s a).2 := by
  unfold tryRestoreSession
  split
  · rename_i first conn _ _
    split
    · have hresume := resumeSession_contexts cfg m s conn first a
      split
      · rename_i heq
        simp only [heq] at hresume
        dsimp only
        exact hresume.modifySlot rfl
      · rename_i heq
        rwa [heq] at hresume
    · split
      · have hload := loadSession_contexts cfg m s conn first a
        split
        · rename_i heq
          simp only [heq] at hload
          dsimp only
          exact hload.modifySlot rfl
        · rename_i heq
          rwa [heq] at hload
      · exact .refl m
  · exact .refl m

theorem restoreOrStartSession_contexts (m : AgentsManager n) (s : Fin n) (a : Answers) :
    ContextsCleared m (restoreOrStartSession cfg m s a) s := by
  have hkept : ∀ m' : AgentsManager n, ContextsKept (m.modifySlot s AgentSlot.retireSessions) m' →
      ContextsCleared m m' s := by
    intro m' h
    refine ⟨fun _ => ?_, h.given⟩
    rw [h.marks s, slots_modifySlot, if_pos rfl]
    rfl
  have hrestore := tryRestoreSession_contexts cfg (m.modifySlot s AgentSlot.retireSessions) s a
  unfold restoreOrStartSession
  dsimp only
  split
  · rename_i heq
    rw [heq] at hrestore
    exact hkept _ hrestore
  · rename_i m₁ heq
    rw [heq] at hrestore
    have hstart := hrestore.trans (startSession_contexts cfg m₁ s a)
    split
    · rename_i heq'
      rw [heq'] at hstart
      exact hkept _ (hstart.modifySlot rfl)
    · rename_i heq'
      rw [heq'] at hstart
      exact hkept _ (hstart.modifySlot rfl)

theorem spawnConnection_contexts (m : AgentsManager n) (s : Fin n) :
    ContextsKept m (m.spawnConnection s) := by
  have hmodified : ContextsKept m (m.modifySlot s fun slot =>
      { slot with connection := some ⟨m.nextConnection⟩, readerAlive := true }) :=
    (ContextsKept.refl m).modifySlot rfl
  have hnumbered : ContextsKept _ { (m.modifySlot s fun slot =>
      { slot with connection := some ⟨m.nextConnection⟩, readerAlive := true }) with
        nextConnection := m.nextConnection + 1 } := hmodified.trans (.of_eq rfl rfl)
  exact hnumbered.emit (o := .spawned s m.nextConnection) rfl

theorem respawnAndInitialize_contexts (m : AgentsManager n) (s : Fin n) (a : Answers)
    (hdown : (m.slots s).connection = none) :
    ContextsKept m (respawnAndInitialize cfg m s a).2 ∧
      ((respawnAndInitialize cfg m s a).1 = false →
        ((respawnAndInitialize cfg m s a).2.slots s).connection = none) := by
  unfold respawnAndInitialize
  split
  · have hinit := (spawnConnection_contexts m s).trans
      (initializeAgent_contexts cfg (m.spawnConnection s) s a)
    split
    · rename_i heq
      simp only [heq] at hinit
      unfold dropConnection
      dsimp only
      refine ⟨hinit.modifySlot rfl, fun _ => ?_⟩
      rw [slots_modifySlot, if_pos rfl]
    · rename_i heq
      rw [heq] at hinit
      exact ⟨hinit, nofun⟩
  · exact ⟨.refl m, fun _ => hdown⟩

theorem handleCrash_contexts (m : AgentsManager n) (s : Fin n) (a : Answers) :
    ContextsCleared m (handleCrash cfg m s a) s := by
  have hprepared : ContextsKept m (m.prepareRestart s a).2 ∧
      ((m.prepareRestart s a).2.slots s).connection = none := by
    unfold prepareRestart
    dsimp only
    split
    all_goals
      dsimp only
      refine ⟨(ContextsKept.refl m).modifySlot rfl, ?_⟩
      rw [slots_modifySlot, if_pos rfl]
  unfold handleCrash
  split
  · rename_i heq
    rw [heq] at hprepared
    exact hprepared.1.of_down hprepared.2
  · rename_i m₁ heq
    rw [heq] at hprepared
    have hnotified : ContextsKept m (notifyCrashToChannels cfg m₁ s) :=
      (hprepared.1.sendEvents _).modifySlot rfl
    have hdown : ((notifyCrashToChannels cfg m₁ s).slots s).connection = none := by
      unfold notifyCrashToChannels
      rw [slots_modifySlot, if_pos rfl]
      exact hprepared.2
    obtain ⟨hspawned, hfailed⟩ :=
      respawnAndInitialize_contexts cfg (notifyCrashToChannels cfg m₁ s) s a hdown
    split
    · rename_i heq'
      rw [heq'] at hspawned hfailed
      exact (hnotified.trans hspawned).of_down (hfailed rfl)
    · rename_i heq'
      rw [heq'] at hspawned
      exact (hnotified.trans hspawned).then_cleared (restoreOrStartSession_contexts cfg _ s a)

/-! ### Prompts -/

/-- A prompt for the live session `id` of slot `s` was built, with the tool context unless the
    session is marked, and handed over if the process takes it. -/
structure Wrote (m m' : AgentsManager n) (s : Fin n) (id : AcpSessionId)
    (own : List ContentPart) (a : Answers) : Prop where
  live : ∃ k, (m'.slots s).sessionMap.get? k = some id
  connection : (m'.slots s).connection = (m.slots s).connection
  marks : ∀ s', (m'.slots s').toolContextSent =
    if s' = s ∧ (m'.slots s).toolContext.isSome then insert id (m.slots s).toolContextSent
    else (m.slots s').toolContextSent
  given : m'.given = m.given ++
    ((m.slots s).connection.filter fun _ => a.promptSent).toList.map fun conn =>
      ⟨s, conn.no, id,
        (if id ∈ (m.slots s).toolContextSent then none else (m'.slots s).toolContext).toList.map
          ContentPart.text ++ own⟩

section Wrote

variable {s : Fin n} {id : AcpSessionId} {own : List ContentPart} {a : Answers}

theorem ContextsKept.then_wrote {m₁ : AgentsManager n} (h : ContextsKept m m₁)
    (hconn : (m₁.slots s).connection = (m.slots s).connection) (h' : Wrote m₁ m' s id own a) :
    Wrote m m' s id own a where
  live := h'.live
  connection := h'.connection.trans hconn
  marks s' := by rw [h'.marks s', h.marks s, h.marks s']
  given := by rw [h'.given, h.given, h.marks s, hconn]

theorem Wrote.emitAll (h : Wrote m m' s id own a) {os : List (Output n)}
    (hos : ∀ o ∈ os, o.given = none) : Wrote m (m'.emitAll os) s id own a where
  live := h.live
  connection := h.connection
  marks := h.marks
  given := ((ContextsKept.refl m').emitAll hos).given.trans h.given

theorem toolContextSent_preparePrompt (slot : AgentSlot) (id : AcpSessionId) :
    (preparePrompt slot id).toolContextSent =
      if slot.toolContext.isSome then insert id slot.toolContextSent else slot.toolContextSent := by
  unfold preparePrompt pendingToolContext
  by_cases hmarked : id ∈ slot.toolContextSent
  · rw [if_pos hmarked, Finset.insert_eq_self.mpr hmarked]
    exact (ite_self _).symm
  · rw [if_neg hmarked]

theorem trackPrompt_slots (m : AgentsManager n) (s : Fin n) (conn : AgentConnection)
    (k : SessionKey) (id : AcpSessionId) (parts : List ContentPart) (origin : List MessageNo)
    (a : Answers) (s' : Fin n) : ∃ active,
    (m.trackPrompt s conn k id parts origin a).slots s' =
      { m.slots s' with activePrompts := active } := by
  simp only [trackPrompt, emit_slots, modifySlot_slots, writeStore_slots, Function.update_apply]
  split
  · rename_i hs
    rw [hs]
    exact ⟨_, rfl⟩
  · exact ⟨(m.slots s').activePrompts, rfl⟩

/-- The mark is set whether or not the prompt can be handed over. -/
theorem writePrompt_wrote (m : AgentsManager n) (s : Fin n) {k : SessionKey} {id : AcpSessionId}
    (payload : RichPayload) (a : Answers) (hlive : (m.slots s).sessionMap.get? k = some id) :
    Wrote m (m.writePrompt s k id payload a).2 s id (messageParts payload) a := by
  have hparts : promptParts (m.slots s) id payload =
      (if id ∈ (m.slots s).toolContextSent then none else (m.slots s).toolContext).toList.map
        ContentPart.text ++ messageParts payload := by
    unfold promptParts pendingToolContext messageParts
    rw [List.map_append, List.append_assoc]
  have hslot : ∀ s', (m.modifySlot s fun slot => preparePrompt slot id).slots s' =
      if s' = s then preparePrompt (m.slots s) id else m.slots s' :=
    fun s' => slots_modifySlot m s s' _
  have hwrote : ∀ m₁ : AgentsManager n, (∀ s', ∃ active, m₁.slots s' =
      { (m.modifySlot s fun slot => preparePrompt slot id).slots s' with
        activePrompts := active }) →
      m₁.given = m.given ++
        ((m.slots s).connection.filter fun _ => a.promptSent).toList.map (fun conn =>
          ⟨s, conn.no, id, promptParts (m.slots s) id payload⟩) →
      Wrote m m₁ s id (messageParts payload) a := by
    intro m₁ hslots hgiven
    have hcontext : (m₁.slots s).toolContext = (m.slots s).toolContext := by
      obtain ⟨active, hs⟩ := hslots s
      rw [hs, hslot, if_pos rfl]
      rfl
    refine ⟨⟨k, ?_⟩, ?_, fun s' => ?_, ?_⟩
    · obtain ⟨active, hs⟩ := hslots s
      rw [hs, hslot, if_pos rfl]
      exact hlive
    · obtain ⟨active, hs⟩ := hslots s
      rw [hs, hslot, if_pos rfl]
      rfl
    · obtain ⟨active, hs⟩ := hslots s'
      rw [hs, hslot, hcontext]
      by_cases hsame : s' = s
      · rw [if_pos hsame]
        simp only [hsame, true_and]
        exact toolContextSent_preparePrompt (m.slots s) id
      · rw [if_neg hsame, if_neg fun h => hsame h.1]
    · rw [hgiven, hparts, hcontext]
  have hconn : ((m.modifySlot s fun slot => preparePrompt slot id).slots s).connection =
      (m.slots s).connection := by
    rw [hslot, if_pos rfl]
    rfl
  unfold writePrompt
  dsimp only
  rw [hconn]
  split
  · rename_i hdown
    refine hwrote _ (fun s' => ⟨_, rfl⟩) ?_
    rw [hdown]
    exact (List.append_nil _).symm
  · rename_i conn hup
    split
    · rename_i hsent
      refine hwrote _ (fun s' => trackPrompt_slots _ s conn k id _ payload.origin a s') ?_
      rw [hup, hsent]
      exact List.filterMap_append
    · rename_i hrefused
      refine hwrote _ (fun s' => ⟨_, rfl⟩) ?_
      rw [hup, Bool.eq_false_iff.mpr hrefused]
      exact (List.append_nil _).symm

theorem promptSession_contexts {name : String} {k : SessionKey} {payload : RichPayload}
    (a : Answers) (hfind : findSlotByName cfg name = some s) (hplain : IsPlain payload.content) :
    ContextsKept m (promptSession cfg m name k payload a).2 ∨
      ∃ id, Wrote m (promptSession cfg m name k payload a).2 s id (messageParts payload) a := by
  have hkept := ensureMapped_contexts cfg m s name k a
  unfold IsPlain at hplain
  unfold promptSession
  simp only [hfind, hplain]
  rcases ensureMapped_outcome cfg (m := m) (k := k) (a := a) hfind with
    ⟨m₁, heq, hensured⟩ | ⟨e, m₁, heq, -, -⟩
  · obtain ⟨⟨id, hlive⟩, hsame⟩ := hensured.live
    simp only [heq] at hkept
    simp only [heq, hlive]
    exact Or.inr ⟨id, hkept.then_wrote hsame (writePrompt_wrote m₁ s payload a hlive)⟩
  · simp only [heq] at hkept
    simp only [heq]
    exact Or.inl hkept

end Wrote

/-! ### Every step -/

variable (m) in
/-- The slot that a label hands a prompt to, and what it answers.  An answer that a handler
    does not use can be taken to be `true`. -/
def promptTarget : Label n → Option (Fin n × Answers)
  | .command (.sendPrompt _) a => if h : 0 < n then some (⟨0, h⟩, a) else none
  | .command (.enqueueMessage name k content _) a =>
      if IsPlain content ∧ k ∉ m.queue.active then
        (findSlotByName cfg name).map fun s => (s, a)
      else none
  | .finishCompletion a =>
      m.completing.bind fun c =>
        if c.sessionExpired = false ∧ m.queue.queued c.sessionKey ≠ [] then
          (m.slotOfKey c.sessionKey).map fun s => (s, a)
        else none
  | _ => none

variable (m) in
def expiredSessions : Label n → List (Fin n × AcpSessionId)
  | .finishCompletion _ =>
      match m.completing with
      | some c =>
          if c.sessionExpired then
            (List.finRange n).filterMap fun s =>
              ((m.slots s).sessionMap.get? c.sessionKey).map fun id => (s, id)
          else []
      | none => []
  | _ => []

variable (m) in
/-- What a step does to the marks, and the prompt that it hands over. -/
inductive ContextStep : Label n → AgentsManager n → Prop
  | kept {l : Label n} {m' : AgentsManager n} (hl : m.crash l = none)
      (hexpired : m.expiredSessions l = []) (hkept : ContextsKept m m') : ContextStep l m'
  | wrote {l : Label n} {m' : AgentsManager n} {s : Fin n} {id : AcpSessionId} {a : Answers}
      (hl : l.isSendPrompt = false) (htarget : promptTarget cfg m l = some (s, a))
      (hwrote : Wrote m m' s id (m.ownParts l) a) : ContextStep l m'
  /-- `SendPrompt` neither brings the context nor sets the mark. -/
  | unmarked {message : String} {a : Answers} {s : Fin n} {conn : AgentConnection}
      {k : SessionKey} {id : AcpSessionId} {m' : AgentsManager n}
      (htarget : promptTarget cfg m (.command (.sendPrompt message) a) = some (s, a))
      (hconn : (m.slots s).connection = some conn)
      (hlive : firstLiveSession (m.slots s) a = some (k, id)) (hsent : a.promptSent = true)
      (hslots : m'.slots = m.slots)
      (hgiven : m'.given = m.given ++ [⟨s, conn.no, id, [.text message]⟩]) :
      ContextStep (.command (.sendPrompt message) a) m'
  | expired {a : Answers} {c : PromptCompletion} {m' : AgentsManager n}
      (hc : m.completing = some c) (hexpired : c.sessionExpired = true)
      (hslots : m'.slots = fun s => (m.slots s).expireSession c.sessionKey)
      (hgiven : m'.given = m.given) : ContextStep (.finishCompletion a) m'
  | crashed {l : Label n} {s : Fin n} {a : Answers} {m' : AgentsManager n}
      (hl : m.crash l = some (s, a)) (hcleared : ContextsCleared m m' s)
      (hothers : ∀ s', s' ≠ s → m'.slots s' = m.slots s')
      (hnew : ∀ conn, (m'.slots s).connection = some conn → conn.no = m.nextConnection) :
      ContextStep l m'

variable {cfg} {l : Label n}

theorem sendPromptToSlot_contexts (m : AgentsManager n) {s : Fin n} {message : String}
    {a : Answers} (htarget : promptTarget cfg m (.command (.sendPrompt message) a) = some (s, a)) :
    ContextStep cfg m (.command (.sendPrompt message) a) (m.sendPromptToSlot s message a) := by
  unfold sendPromptToSlot
  split
  · rename_i conn k id hconn hlive
    split
    · rename_i hsent
      exact .unmarked htarget hconn hlive hsent rfl List.filterMap_append
    · exact .kept rfl rfl (.refl m)
  · exact .kept rfl rfl (.refl m)

theorem ContextStep.emit (h : ContextStep cfg m l m') {o : Output n} (ho : o.given = none) :
    ContextStep cfg m l (m'.emit o) := by
  have hquiet : (m'.emit o).given = m'.given := ((ContextsKept.refl m').emit ho).given
  cases h with
  | kept hl hexpired hkept => exact .kept hl hexpired (hkept.emit ho)
  | wrote hl htarget hwrote =>
      exact .wrote hl htarget (hwrote.emitAll (List.forall_mem_singleton.mpr ho))
  | unmarked htarget hconn hlive hsent hslots hgiven =>
      exact .unmarked htarget hconn hlive hsent hslots (hquiet.trans hgiven)
  | expired hc hexpired hslots hgiven => exact .expired hc hexpired hslots (hquiet.trans hgiven)
  | crashed hl hcleared hothers hnew =>
      exact .crashed hl ⟨hcleared.cleared, hquiet.trans hcleared.given⟩ hothers hnew

/-- What a prompt that a label hands over does to the marks. -/
theorem ContextStep.of_prompt {m₀ : AgentsManager n} {name : String} {k : SessionKey}
    {payload : RichPayload} {a : Answers} (hcrash : m.crash l = none)
    (hexpired : m.expiredSessions l = []) (hmessage : l.isSendPrompt = false)
    (hkept : ContextsKept m m₀) (hslots : m₀.slots = m.slots) (hplain : IsPlain payload.content)
    (hown : m.ownParts l = messageParts payload)
    (htarget : promptTarget cfg m l = (findSlotByName cfg name).map fun s => (s, a)) :
    ContextStep cfg m l (promptSession cfg m₀ name k payload a).2 := by
  cases hfind : findSlotByName cfg name with
  | none =>
      unfold promptSession
      rw [hfind]
      exact .kept hcrash hexpired hkept
  | some s =>
      rw [hfind] at htarget
      rcases promptSession_contexts cfg (m := m₀) (k := k) a hfind hplain with hsame | ⟨id, hwrote⟩
      · exact .kept hcrash hexpired (hkept.trans hsame)
      · rw [← hown] at hwrote
        have hconn : (m₀.slots s).connection = (m.slots s).connection := by rw [hslots]
        exact .wrote hmessage htarget (hkept.then_wrote hconn hwrote)

/-- On an idle key a message is prompted, together with what waits. -/
theorem enqueueMessage_contexts {name : String} {k : SessionKey} {content : List ContentPart}
    {metadata : Option MessageMetadata} {a : Answers} (hplain : m.backlog.Plain) :
    ContextStep cfg m (.command (.enqueueMessage name k content metadata) a)
      (enqueueMessage cfg m name k content metadata a) := by
  have htake : ContextsKept m m.takeNumber := .of_eq rfl rfl
  have hqueue : ∀ q, ContextsKept m (m.takeNumber.withQueue q) := fun _ => .of_eq rfl rfl
  unfold enqueueMessage
  dsimp only
  cases hcommand : platformCommandOf content with
  | some command =>
      dsimp only
      split
      · exact .kept rfl rfl (htake.emit rfl)
      · rename_i s _
        have hhandled := handlePlatformCommand_contexts cfg m.takeNumber command s name k a
        exact .kept rfl rfl ((htake.trans hhandled).emit rfl)
  | none =>
      dsimp only
      by_cases hactive : k ∈ m.queue.active
      · rw [takeNumber_queue, if_pos ((SessionQueue.isActive_iff m.queue k).mpr hactive)]
        exact .kept rfl rfl ((hqueue _).emit rfl)
      · rw [takeNumber_queue, if_neg fun h => hactive ((SessionQueue.isActive_iff m.queue k).mp h)]
        have hmerged : IsPlain (SessionQueue.mergePending
            (m.queue.queued k ++ [⟨content, metadata, [m.nextMessage]⟩])).content := by
          refine isPlain_mergePending fun p hp => ?_
          rcases List.mem_append.mp hp with hp | hp
          · exact hplain k p hp
          · rw [List.mem_singleton.mp hp]
            exact hcommand
        have hdispatch := flushAndDispatch_idle cfg (m.takeNumber.withQueue (m.queue.pushOnly k
          ⟨content, metadata, [m.nextMessage]⟩).2) name a hactive (pushOnly_ne_nil m.queue _)
        rw [withQueue_queue, queued_pushOnly, withQueue_withQueue] at hdispatch
        rw [hdispatch]
        refine ContextStep.emit ?_ rfl
        refine ContextStep.of_prompt rfl rfl rfl ?_ rfl hmerged rfl ?_
        · exact (hqueue _).sendEvents _
        · exact if_pos ⟨hcommand, hactive⟩

/-- Everything that waits is prompted as one payload, when a slot has the key. -/
theorem dispatchQueued_first (cfg : AgentsManagerConfig n) (m : AgentsManager n) {k : SessionKey}
    (a : Answers) {first : RichPayload} {rest : List RichPayload}
    (h : m.queue.queued k = first :: rest) : ∃ q,
    dispatchQueued cfg m k a =
      if (nextAgentName cfg m k).isEmpty then m.withQueue q
      else (promptSession cfg ((m.withQueue q).sendEvents [.dispatchStarted k])
        (nextAgentName cfg m k) k (SessionQueue.mergeRemaining first rest) a).2 := by
  have hfst := SessionQueue.fst_markIdle m.queue k
  have hsnd := SessionQueue.queued_markIdle m.queue k k
  unfold dispatchQueued
  rcases hmark : m.queue.markIdle k with ⟨next, q⟩
  rw [hmark, h] at hfst
  cases hfst
  have hrest : (q.drainQueued k).1 = rest := by
    rw [hmark, if_pos rfl, h] at hsnd
    rw [SessionQueue.fst_drainQueued]
    exact hsnd
  refine ⟨(q.drainQueued k).2, ?_⟩
  rw [← hrest]
  rfl

theorem given_reportCompletion (m : AgentsManager n) (c : PromptCompletion) (a : Answers) :
    (m.reportCompletion c a).given = m.given := by
  have herased : ContextsKept m
      { m with streamingCompleted := m.streamingCompleted.erase c.sessionKey } := .of_eq rfl rfl
  unfold reportCompletion
  dsimp only
  refine ((ContextsKept.refl _).sendEvents _).given.trans ?_
  have hcancelled : (if c.idleTimedOut = true then (cancelSessionByKey
      { m with streamingCompleted := m.streamingCompleted.erase c.sessionKey } c.sessionKey a).2
      else { m with streamingCompleted := m.streamingCompleted.erase c.sessionKey }).given =
        m.given := by
    split
    · exact (herased.trans (cancelSessionByKey_contexts _ c.sessionKey a)).given
    · exact herased.given
  split
  · exact hcancelled
  · exact hcancelled

/-- A session that is not there any more takes its mark with it; the others may be prompted. -/
theorem finishPromptCompletion_contexts {c : PromptCompletion} {a : Answers}
    (hplain : m.backlog.Plain) (hc : m.completing = some c) :
    ContextStep cfg m (.finishCompletion a)
      (finishPromptCompletion cfg { m with completing := none } c a) := by
  have hslots := reportCompletion_slots { m with completing := none } c a
  have hgiven := given_reportCompletion { m with completing := none } c a
  obtain ⟨d, -, hspoken⟩ := reportCompletion_spoken { m with completing := none } c a
  unfold finishPromptCompletion
  generalize hm₁ : reportCompletion { m with completing := none } c a = m₁ at *
  have hqueue : m₁.queue = m.queue := hspoken.queue
  cases hexpired : c.sessionExpired with
  | true =>
      rw [hexpired, if_pos rfl] at hslots
      have hnone : m₁.slotOfKey c.sessionKey = none := by
        rw [← hm₁]
        exact slotOfKey_expired hexpired
      cases hqueued : m₁.queue.queued c.sessionKey with
      | nil =>
          rw [dispatchQueued_empty m₁ hqueued]
          exact .expired hc hexpired hslots hgiven
      | cons first rest =>
          obtain ⟨q, heq⟩ := dispatchQueued_first cfg m₁ a hqueued
          have hname : (nextAgentName cfg m₁ c.sessionKey).isEmpty = true := by
            unfold nextAgentName
            rw [hnone]
            rfl
          rw [heq, if_pos hname]
          exact .expired hc hexpired hslots hgiven
  | false =>
      rw [hexpired, if_neg Bool.false_ne_true] at hslots
      have hkept : ContextsKept m m₁ := ⟨fun s => by rw [hslots], hgiven⟩
      have hlive : m.expiredSessions (.finishCompletion a) = [] := by
        unfold expiredSessions
        rw [hc]
        exact if_neg (Bool.eq_false_iff.mp hexpired)
      cases hqueued : m₁.queue.queued c.sessionKey with
      | nil =>
          rw [dispatchQueued_empty m₁ hqueued]
          exact .kept rfl hlive (hkept.trans (.of_eq rfl rfl))
      | cons first rest =>
          obtain ⟨q, heq⟩ := dispatchQueued_first cfg m₁ a hqueued
          have hwith : ContextsKept m (m₁.withQueue q) := hkept.trans (.of_eq rfl rfl)
          rw [heq]
          split
          · exact .kept rfl hlive hwith
          · rename_i hname
            rw [hqueue] at hqueued
            refine ContextStep.of_prompt rfl hlive rfl (hwith.sendEvents _) hslots ?_ ?_ ?_
            · rw [SessionQueue.content_mergeRemaining, ← hqueued]
              exact isPlain_flatMap (hplain c.sessionKey)
            · simp only [ownParts, hc, Option.map_some, hqueued]
            · have hwaits : m.queue.queued c.sessionKey ≠ [] := by
                rw [hqueued]
                exact List.cons_ne_nil _ _
              have hsame : m₁.slotOfKey c.sessionKey = m.slotOfKey c.sessionKey := by
                unfold slotOfKey
                rw [hslots]
              unfold nextAgentName at hname ⊢
              have htarget : promptTarget cfg m (.finishCompletion a) =
                  (m.slotOfKey c.sessionKey).map fun s => (s, a) := by
                unfold promptTarget
                rw [hc]
                exact if_pos ⟨hexpired, hwaits⟩
              rw [htarget]
              rw [hsame] at hname ⊢
              cases hslot : m.slotOfKey c.sessionKey with
              | none => simp [hslot] at hname
              | some s =>
                  change some (s, a) =
                    (findSlotByName cfg (cfg.agents s).name).map fun s => (s, a)
                  rw [findSlotByName_name]
                  rfl

theorem handleSlotIncoming_contexts {msg : SlotIncoming n} {rest : List (SlotIncoming n)}
    {a : Answers} (hlive : m.expiredSessions l = []) (hsome : msg.msg ≠ none → m.crash l = none)
    (hnone : msg.msg = none → m.crash l = some (msg.slotIdx, a)) :
    ContextStep cfg m l (handleSlotIncoming cfg { m with incoming := rest } msg a) := by
  have hdequeue : ContextsKept m { m with incoming := rest } := .of_eq rfl rfl
  unfold handleSlotIncoming
  cases hmsg : msg.msg with
  | some incoming =>
      have hcalm : m.crash l = none := hsome (hmsg ▸ Option.some_ne_none incoming)
      exact .kept hcalm hlive
        (hdequeue.trans (handleIncoming_contexts _ msg.slotIdx incoming))
  | none =>
      have hcrash := handleCrash_process cfg { m with incoming := rest } msg.slotIdx a
      refine .crashed (hnone hmsg)
        (hdequeue.then_cleared (handleCrash_contexts cfg _ msg.slotIdx a)) hcrash.others ?_
      intro conn hconn
      rw [hcrash.connection] at hconn
      obtain ⟨-, hnew⟩ := Option.ite_none_right_eq_some.mp hconn
      cases hnew
      rfl

/-- **One step of the manager, seen from the tool contexts.** -/
theorem step_contexts (hplain : m.backlog.Plain) (h : step cfg m l = some m') :
    ContextStep cfg m l m' := by
  cases turn_of_step cfg m h with
  | incoming _ => exact .kept rfl rfl (.of_eq rfl rfl)
  | eof _ =>
      have hreceive : ∀ msgs, ContextsKept m (m.receive msgs) := fun _ => .of_eq rfl rfl
      exact .kept rfl rfl ((hreceive _).modifySlot rfl)
  | promptAnswered _ _ _ => exact .kept rfl rfl (.of_eq rfl rfl)
  | promptLost _ _ => exact .kept rfl rfl (.of_eq rfl rfl)
  | promptIdle _ _ _ => exact .kept rfl rfl (.of_eq rfl rfl)
  | @command c a _ =>
      cases c with
      | sendPrompt message =>
          rw [handleCommand]
          split
          · rename_i hpos
            exact sendPromptToSlot_contexts m (dif_pos hpos)
          · exact .kept rfl rfl (.refl m)
      | cancelOperation => exact .kept rfl rfl (cancelOperation_contexts m a)
      | respondPermission requestId optionId =>
          exact .kept rfl rfl (respondPermission_contexts m requestId optionId)
      | shutdown => exact .kept rfl rfl ⟨fun _ => rfl, rfl⟩
      | createSession name k => exact .kept rfl rfl (createOrHeal_contexts cfg m name k a)
      | enqueueMessage name k content metadata => exact enqueueMessage_contexts hplain
      | forkSession name k => exact .kept rfl rfl (forkSession_contexts cfg m name k a)
      | listSessions name => exact .kept rfl rfl (listSessions_contexts cfg m name a)
      | cancelSession name k => exact .kept rfl rfl (cancelSession_contexts cfg m name k a)
  | recvIncoming _ hincoming henabled =>
      refine handleSlotIncoming_contexts rfl (fun hmsg => ?_) fun hmsg => ?_
      · simp [crash, hincoming, hmsg]
      · simp [crash, hincoming, hmsg, henabled hmsg]
  | recvDisabled _ hincoming _ hdisabled =>
      refine .kept ?_ rfl (.of_eq rfl rfl)
      simp [crash, hincoming, hdisabled]
  | recvCompletion _ _ => exact .kept rfl rfl (.of_eq rfl rfl)
  | drainIncoming _ hincoming =>
      refine handleSlotIncoming_contexts rfl (fun hmsg => ?_) fun hmsg => ?_
      · simp [crash, hincoming, hmsg]
      · simp [crash, hincoming, hmsg]
  | finishCompletion hc _ => exact finishPromptCompletion_contexts hplain hc
  | cancelled _ => exact .kept rfl rfl ⟨fun _ => rfl, rfl⟩

/-! ### Boot -/

theorem buildStartedSlot_contexts {s : Fin n} {a : Answers}
    (h : buildStartedSlot cfg m s a = (.ok (), m')) : ContextsKept m m' := by
  unfold buildStartedSlot at h
  split at h
  · have hinit := (spawnConnection_contexts m s).trans
      (initializeAgent_contexts cfg (m.spawnConnection s) s a)
    split at h
    · cases h
    · rename_i m₁ heq
      rw [heq] at hinit
      have hstart := hinit.trans (startSession_contexts cfg m₁ s a)
      split at h
      · cases h
      · rename_i heq'
        rw [heq'] at hstart
        cases h
        exact hstart.modifySlot rfl
  · cases h

theorem startSlots_contexts {b : StartAnswers n} :
    ∀ (ss : List (Fin n)) (m : AgentsManager n), startSlots cfg b ss m = some m' →
      ContextsKept m m'
  | [], m, h => by
      cases h
      exact .refl _
  | s :: ss, m, h => by
      unfold startSlots at h
      split at h
      · rename_i m₁ heq
        exact (buildStartedSlot_contexts heq).trans (startSlots_contexts ss m₁ h)
      · cases h

theorem loadRow_contexts (m : AgentsManager n) (row : PersistedSession) :
    ContextsKept m (loadRow cfg m row) := by
  unfold loadRow
  split
  · exact .refl m
  · exact ContextsKept.emit ((ContextsKept.refl m).modifySlot rfl) rfl

theorem foldl_loadRow_contexts (rows : List PersistedSession) (m : AgentsManager n) :
    ContextsKept m (rows.foldl (loadRow cfg) m) := by
  induction rows generalizing m with
  | nil => exact .refl m
  | cons row rows ih => exact (loadRow_contexts m row).trans (ih _)

theorem loadStore_contexts {b : StartAnswers n} (h : loadStore cfg m b = some m') :
    ContextsKept m m' := by
  have hexpiry : ContextsKept m (if b.expiryOk then
      { m with sessionStore := m.sessionStore.deleteExpired b.now cfg.sessionTtlSecs } else m) := by
    split
    · exact .of_eq rfl rfl
    · exact .refl m
  unfold loadStore at h
  dsimp only at h
  split at h
  · cases h
    exact hexpiry
  · obtain ⟨_, hm⟩ := Option.ite_none_right_eq_some.mp h
    cases hm
    exact hexpiry.trans (foldl_loadRow_contexts _ _)

theorem start_contexts {b : StartAnswers n} (h : start cfg m b = some m') : ContextsKept m m' := by
  obtain ⟨m₁, hslots, hload⟩ := Option.bind_eq_some_iff.mp h
  exact (startSlots_contexts _ m hslots).trans (loadStore_contexts hload)

/-- No session has received the context at first. -/
theorem unmarked_of_init (h : (life cfg).init m) (s : Fin n) :
    (m.slots s).toolContextSent = ∅ := by
  obtain ⟨channelsSender, store, b, hstart⟩ := h
  exact (start_contexts hstart).marks s

end AgentsManager

end Anyclaw
