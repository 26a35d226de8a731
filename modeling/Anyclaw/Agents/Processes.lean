import Anyclaw.Agents.Boot
import Anyclaw.Agents.SessionSteps

/-!
# Processes and their readers

What one step does to the connections of the slots, to the reader tasks, to the end
marks in the incoming queue and to the status of the slots (crash tracker, pending
permissions, active prompts).  `step_processes` lists the ways; a process is started in
one of them only, when the end of the output of its slot is handled.

The connections are those of `crates/anyclaw-agents/src/connection.rs`; `handle_crash`
(`session_recovery.rs`) replaces them, and `shutdown_all` (`manager.rs`) kills them.
-/

namespace Anyclaw.AgentsManager

variable {n : Nat} (cfg : AgentsManagerConfig n) (m : AgentsManager n)

/-! ### Handlers that start and end no process -/

/-- Only session updates were queued. -/
def Appends (m m' : AgentsManager n) : Prop :=
  ∃ msgs, m'.incoming = m.incoming ++ msgs ∧
    ∀ msg ∈ msgs, ∃ u, msg.msg = some (.sessionUpdate u)

/-- The connections and the readers are as before. -/
structure Linked (m m' : AgentsManager n) : Prop where
  connection : ∀ s, (m'.slots s).connection = (m.slots s).connection
  reader : ∀ s, (m'.slots s).readerAlive = (m.slots s).readerAlive
  incoming : Appends m m'

section Linked

variable {m} {m' m'' : AgentsManager n}

theorem Appends.of_eq (h : m'.incoming = m.incoming) : Appends m m' :=
  ⟨[], by rw [h, List.append_nil], fun _ hmsg => nomatch hmsg⟩

theorem Appends.trans (h : Appends m m') (h' : Appends m' m'') : Appends m m'' := by
  obtain ⟨msgs, heq, hmsgs⟩ := h
  obtain ⟨msgs', heq', hmsgs'⟩ := h'
  refine ⟨msgs ++ msgs', by rw [heq', heq, List.append_assoc], ?_⟩
  intro msg hmsg
  rcases List.mem_append.mp hmsg with hmsg | hmsg
  · exact hmsgs msg hmsg
  · exact hmsgs' msg hmsg

theorem appends_replays (s : Fin n) (a : Answers) (h : m'.incoming = m.incoming ++ m.replays s a) :
    Appends m m' := by
  refine ⟨_, h, ?_⟩
  intro msg hmsg
  unfold replays at hmsg
  split at hmsg
  · obtain ⟨u, _, rfl⟩ := List.mem_map.mp hmsg
    exact ⟨_, rfl⟩
  · cases hmsg

theorem Linked.refl (m : AgentsManager n) : Linked m m :=
  ⟨fun _ => rfl, fun _ => rfl, .of_eq rfl⟩

theorem Linked.trans (h : Linked m m') (h' : Linked m' m'') : Linked m m'' where
  connection s := (h'.connection s).trans (h.connection s)
  reader s := (h'.reader s).trans (h.reader s)
  incoming := h.incoming.trans h'.incoming

theorem SessionsKept.linked (h : SessionsKept m m') : Linked m m' :=
  ⟨h.connection, h.reader, .of_eq h.incoming⟩

theorem SessionChange.linked {a : Answers} {s : Fin n} {t : SessionTables}
    {row : Option WrittenRow} {news : List (Output n)} (h : SessionChange a m m' s t row news) :
    Linked m m' where
  connection := h.connection
  reader := h.reader
  incoming := by
    rcases h.incoming with hsame | ⟨hload, _⟩
    · exact .of_eq hsame
    · exact appends_replays s a hload

theorem Prompted.linked {s : Fin n} {id : AcpSessionId} (h : Prompted m m' s id) : Linked m m' :=
  ⟨h.connection, h.reader, .of_eq h.incoming⟩

theorem Expired.linked {k : SessionKey} (h : Expired m m' k) : Linked m m' :=
  ⟨h.connection, h.reader, .of_eq h.incoming⟩

variable {cfg}

theorem Opened.linked {os : Option Operation} (h : Opened cfg m os m') : Linked m m' := by
  cases h with
  | kept hkept => exact hkept.linked
  | changed _ _ _ hchange => exact hchange.linked

theorem Handled.linked {os : Option Operation} (h : Handled cfg m os m') : Linked m m' := by
  cases h with
  | opened hopened _ => exact hopened.linked
  | prompted hopened _ hprompted _ => exact hopened.linked.trans hprompted.linked

end Linked

/-! ### The status of the slots -/

/-- At most one prompt was handed over; otherwise the slots keep their status. -/
inductive Tracks : AgentsManager n → Prop
  | kept {m' : AgentsManager n} (hstatus : ∀ s, (m'.slots s).status = (m.slots s).status)
      (hprompts : m'.prompts = m.prompts) (hnext : m'.nextConnection = m.nextConnection)
      (hrunning : m'.running = m.running) : Tracks m'
  | prompted {m' : AgentsManager n} {p : OutstandingPrompt n} (hawaited : p.awaited = true)
      (hconn : (m.slots p.slotIdx).connection = some ⟨p.connection⟩)
      (hprompts : m'.prompts = m.prompts ++ [p])
      (hstatus : ∀ s, (m'.slots s).status =
        if s = p.slotIdx then
          { (m.slots s).status with
            activePrompts := (m.slots s).activePrompts.set p.acpSessionId p.no }
        else (m.slots s).status)
      (hnext : m'.nextConnection = m.nextConnection) (hrunning : m'.running = m.running) :
      Tracks m'

/-- What `Tracks` speaks of is the same. -/
structure SameStatus (m m' : AgentsManager n) : Prop where
  slots : m'.slots = m.slots
  prompts : m'.prompts = m.prompts
  nextConnection : m'.nextConnection = m.nextConnection
  running : m'.running = m.running

section Tracks

variable {m} {m' m'' : AgentsManager n}

theorem Quiet.tracks (h : Quiet m m') : Tracks m m' :=
  .kept h.status h.prompts h.nextConnection h.running

theorem Handed.tracks {k : SessionKey} {p : OutstandingPrompt n} {origin : List MessageNo}
    (h : Handed m m' k p origin) (hconn : (m.slots p.slotIdx).connection = some ⟨p.connection⟩) :
    Tracks m m' :=
  .prompted h.awaited hconn h.prompts h.status h.nextConnection h.running

theorem SameStatus.tracks (h : SameStatus m m') : Tracks m m' :=
  .kept (fun s => by rw [h.slots]) h.prompts h.nextConnection h.running

theorem SameStatus.then (h : SameStatus m m') (h' : Tracks m' m'') : Tracks m m'' := by
  cases h' with
  | kept hstatus hprompts hnext hrunning =>
      refine .kept ?_ (hprompts.trans h.prompts) (hnext.trans h.nextConnection)
        (hrunning.trans h.running)
      intro s
      rw [hstatus s, h.slots]
  | prompted hawaited hconn hprompts hstatus hnext hrunning =>
      refine .prompted hawaited ?_ ?_ ?_ (hnext.trans h.nextConnection)
        (hrunning.trans h.running)
      · rw [← h.slots]
        exact hconn
      · rw [hprompts, h.prompts]
      · intro s
        rw [hstatus s, h.slots]

theorem Tracks.then (h : Tracks m m') (h' : SameStatus m' m'') : Tracks m m'' := by
  cases h with
  | kept hstatus hprompts hnext hrunning =>
      refine .kept ?_ (h'.prompts.trans hprompts) (h'.nextConnection.trans hnext)
        (h'.running.trans hrunning)
      intro s
      rw [h'.slots, hstatus s]
  | prompted hawaited hconn hprompts hstatus hnext hrunning =>
      refine .prompted hawaited hconn (h'.prompts.trans hprompts) ?_
        (h'.nextConnection.trans hnext) (h'.running.trans hrunning)
      intro s
      rw [h'.slots, hstatus s]

theorem Quiet.then (h : Quiet m m')
    (hsame : ∀ s, (m'.slots s).connection = (m.slots s).connection) (h' : Tracks m' m'') :
    Tracks m m'' := by
  cases h' with
  | kept hstatus hprompts hnext hrunning =>
      exact .kept (fun s => (hstatus s).trans (h.status s)) (hprompts.trans h.prompts)
        (hnext.trans h.nextConnection) (hrunning.trans h.running)
  | prompted hawaited hconn hprompts hstatus hnext hrunning =>
      refine .prompted hawaited ?_ ?_ ?_ (hnext.trans h.nextConnection)
        (hrunning.trans h.running)
      · rw [← hsame]
        exact hconn
      · rw [hprompts, h.prompts]
      · intro s
        have hactive : (m'.slots s).activePrompts = (m.slots s).activePrompts :=
          congrArg SlotStatus.activePrompts (h.status s)
        rw [hstatus s, h.status s, hactive]

variable {cfg}

/-- A plain message is handed over or not. -/
theorem promptSession_tracks (name : String) (k : SessionKey) {payload : RichPayload}
    (a : Answers) (hplain : IsPlain payload.content) :
    Tracks m (promptSession cfg m name k payload a).2 := by
  cases hfind : findSlotByName cfg name with
  | none =>
      unfold promptSession
      rw [hfind]
      exact (Quiet.refl m).tracks
  | some s =>
      have houtcome := promptSession_outcome cfg (m := m) (k := k) (a := a) hfind hplain
      generalize promptSession cfg m name k payload a = r at houtcome
      cases houtcome with
      | sent hensured _ hconn _ hslot hno _ _ hhanded =>
          refine hhanded.tracks ?_
          rw [hslot, ← hensured.live.2, hconn, hno]
      | unsent _ _ _ _ hquiet => exact hquiet.tracks
      | unhealed _ _ hquiet => exact hquiet.tracks

theorem sendEvents_same (m : AgentsManager n) (es : List ChannelEvent) :
    SameStatus m (m.sendEvents es) := ⟨rfl, rfl, rfl, rfl⟩

theorem platformCommand_tracks {s : Fin n} {name : String} {k : SessionKey} {a : Answers}
    (hfind : findSlotByName cfg name = some s) (command : PlatformCommand) :
    Tracks m (handlePlatformCommand cfg m command s name k a).2 := by
  have hreleased : ∀ {es : List ChannelEvent} {m' : AgentsManager n}, Released es m m' k →
      Tracks m m' := by
    rintro es m' ⟨m₁, hquiet, rfl⟩
    exact hquiet.tracks.then ⟨rfl, rfl, rfl, rfl⟩
  have houtcome := handlePlatformCommand_outcome cfg (m := m) (k := k) (a := a) hfind command
  generalize handlePlatformCommand cfg m command s name k a = r at houtcome
  cases houtcome with
  | renewed _ _ _ _ _ h => exact hreleased h
  | unmapped _ _ _ hquiet => exact hquiet.tracks
  | cancelled _ _ h => exact hreleased h
  | notCancelled _ _ htold =>
      obtain ⟨m₁, hquiet, rfl⟩ := htold
      exact hquiet.tracks.then (sendEvents_same m₁ _)

theorem enqueueMessage_tracks (hplain : m.backlog.Plain) (name : String) (k : SessionKey)
    (content : List ContentPart) (metadata : Option MessageMetadata) (a : Answers) :
    Tracks m (enqueueMessage cfg m name k content metadata a) := by
  have htake : SameStatus m m.takeNumber := ⟨rfl, rfl, rfl, rfl⟩
  unfold enqueueMessage
  dsimp only
  cases hcommand : platformCommandOf content with
  | some command =>
      cases hfind : findSlotByName cfg name with
      | none => exact SameStatus.tracks ⟨rfl, rfl, rfl, rfl⟩
      | some s =>
          exact htake.then ((platformCommand_tracks hfind command).then ⟨rfl, rfl, rfl, rfl⟩)
  | none =>
      dsimp only
      by_cases hactive : k ∈ m.queue.active
      · rw [takeNumber_queue, if_pos ((SessionQueue.isActive_iff m.queue k).mpr hactive)]
        exact SameStatus.tracks ⟨rfl, rfl, rfl, rfl⟩
      · rw [takeNumber_queue,
          if_neg fun h => hactive ((SessionQueue.isActive_iff m.queue k).mp h)]
        have hmerged : ∀ payload : RichPayload, payload.content = content → IsPlain
            (SessionQueue.mergePending (m.queue.queued k ++ [payload])).content := by
          intro payload hpayload
          refine isPlain_mergePending fun p hp => ?_
          rcases List.mem_append.mp hp with hp | hp
          · exact hplain k p hp
          · rw [List.mem_singleton.mp hp, hpayload]
            exact hcommand
        have hdispatch := flushAndDispatch_idle cfg
          (m.takeNumber.withQueue (m.queue.pushOnly k ⟨content, metadata, [m.nextMessage]⟩).2)
          name a hactive (pushOnly_ne_nil m.queue _)
        rw [withQueue_queue, queued_pushOnly, withQueue_withQueue] at hdispatch
        rw [hdispatch]
        refine SameStatus.then ?_ ((promptSession_tracks name k a (hmerged _ rfl)).then
          ⟨rfl, rfl, rfl, rfl⟩)
        exact ⟨rfl, rfl, rfl, rfl⟩

theorem finishPromptCompletion_tracks (hplain : m.backlog.Plain) (c : PromptCompletion)
    (a : Answers) : Tracks m (finishPromptCompletion cfg { m with completing := none } c a) := by
  obtain ⟨m₁, d, hquiet, _, hreport⟩ := reportCompletion_eq { m with completing := none } c a
  have hreported : Tracks m ((reportCompletion { m with completing := none } c a)) := by
    rw [hreport]
    have hstart : SameStatus m { m with
        completing := none
        streamingCompleted := m.streamingCompleted.erase c.sessionKey } := ⟨rfl, rfl, rfl, rfl⟩
    exact (hstart.then hquiet.tracks).then (sendEvents_same _ _)
  have hconn : ∀ s, (m₁.slots s).connection = (m.slots s).connection := by
    intro s
    have hslots : m₁.slots s = (reportCompletion { m with completing := none } c a).slots s := by
      rw [hreport]
      rfl
    rw [hslots, reportCompletion_slots]
    split
    · exact AgentSlot.connection_expireSession (m.slots s) c.sessionKey
    · rfl
  have hsame : ∀ {m₂ : AgentsManager n}, Tracks m₁ m₂ →
      Tracks m m₂ := by
    intro m₂ h
    have hstart : SameStatus m { m with
        completing := none
        streamingCompleted := m.streamingCompleted.erase c.sessionKey } := ⟨rfl, rfl, rfl, rfl⟩
    exact hstart.then (hquiet.then hconn h)
  have hreportPlain : (reportCompletion { m with completing := none } c a).backlog.Plain := by
    obtain ⟨d, _, hspoken⟩ := reportCompletion_spoken { m with completing := none } c a
    rw [hspoken.backlog]
    exact hplain
  unfold finishPromptCompletion
  by_cases hempty : (reportCompletion { m with completing := none } c a).queue.queued
      c.sessionKey = []
  · rw [dispatchQueued_empty _ hempty]
    exact hreported.then ⟨rfl, rfl, rfl, rfl⟩
  · obtain ⟨q, payload, hcontent, _, _, heq⟩ := dispatchQueued_waiting cfg
      (reportCompletion { m with completing := none } c a) a hempty
    have hpayload : IsPlain payload.content := by
      rw [hcontent]
      exact isPlain_flatMap (hreportPlain c.sessionKey)
    rw [heq]
    split
    · exact hreported.then ⟨rfl, rfl, rfl, rfl⟩
    · refine hsame (SameStatus.then ?_ (promptSession_tracks _ _ a hpayload))
      rw [hreport]
      exact ⟨rfl, rfl, rfl, rfl⟩

end Tracks

/-! ### Messages and permissions -/

/-- Nothing was started, handed over or disabled; permissions may have been taken up or
    answered. -/
structure Calm (m m' : AgentsManager n) : Prop where
  linked : Linked m m'
  lifecycle : ∀ s, (m'.slots s).lifecycle = (m.slots s).lifecycle
  active : ∀ s, (m'.slots s).activePrompts = (m.slots s).activePrompts
  prompts : m'.prompts = m.prompts
  nextConnection : m'.nextConnection = m.nextConnection
  running : m'.running = m.running

section Calm

theorem Calm.of_eq {m m' : AgentsManager n} (hslots : m'.slots = m.slots)
    (hincoming : m'.incoming = m.incoming) (hprompts : m'.prompts = m.prompts)
    (hnext : m'.nextConnection = m.nextConnection) (hrunning : m'.running = m.running) :
    Calm m m' where
  linked := ⟨fun s => by rw [hslots], fun s => by rw [hslots], .of_eq hincoming⟩
  lifecycle s := by rw [hslots]
  active s := by rw [hslots]
  prompts := hprompts
  nextConnection := hnext
  running := hrunning

/-- An update of the pending permissions of a slot. -/
theorem calm_permissions (m : AgentsManager n) (s : Fin n)
    (f : KeyedMap String PendingPermission → KeyedMap String PendingPermission) :
    Calm m (m.modifySlot s fun slot =>
      { slot with pendingPermissions := f slot.pendingPermissions }) := by
  refine ⟨⟨fun s' => ?_, fun s' => ?_, .of_eq rfl⟩, fun s' => ?_, fun s' => ?_, rfl, rfl, rfl⟩
  all_goals
    rw [slots_modifySlot]
    split
    · rename_i hs
      rw [hs]
    · rfl

theorem respond_calm (m : AgentsManager n) (s : Fin n) (rpcId : Option RequestId)
    (r : AgentResponse) : Calm m (m.respond s rpcId r) := by
  unfold respond
  split
  · exact .of_eq rfl rfl rfl rfl rfl
  · exact .of_eq rfl rfl rfl rfl rfl

theorem Calm.trans {m m' m'' : AgentsManager n} (h : Calm m m') (h' : Calm m' m'') :
    Calm m m'' where
  linked := h.linked.trans h'.linked
  lifecycle s := (h'.lifecycle s).trans (h.lifecycle s)
  active s := (h'.active s).trans (h.active s)
  prompts := h'.prompts.trans h.prompts
  nextConnection := h'.nextConnection.trans h.nextConnection
  running := h'.running.trans h.running

theorem calm_emitAll (m : AgentsManager n) (os : List (Output n)) : Calm m (m.emitAll os) :=
  .of_eq rfl rfl rfl rfl rfl

theorem handleIncoming_calm (m : AgentsManager n) (s : Fin n) (msg : IncomingMessage) :
    Calm m (m.handleIncoming s msg) := by
  have hrefl : Calm m m := .of_eq rfl rfl rfl rfl rfl
  cases msg with
  | sessionUpdate u =>
      rw [handleIncoming, forwardSessionUpdate]
      split
      · exact hrefl
      · split
        · dsimp only
          split
          · exact .of_eq rfl rfl rfl rfl rfl
          · exact .of_eq rfl rfl rfl rfl rfl
        · exact hrefl
  | malformedUpdate sessionId error =>
      rw [handleIncoming, forwardMalformedUpdateError]
      split
      · exact hrefl
      · exact calm_emitAll m _
  | requestPermission r =>
      rw [handleIncoming, handlePermissionRequest]
      dsimp only
      split
      · exact (calm_emitAll m [_]).trans (calm_permissions _ s fun pending =>
          pending.set (permissionId r)
            ⟨r.rpcId, permissionDescription r, r.options.getD []⟩)
      · exact respond_calm m s r.rpcId _
  | sessionPush rpcId params =>
      rw [handleIncoming]
      cases params with
      | missing => exact respond_calm m s rpcId _
      | invalid => exact respond_calm m s rpcId _
      | valid sessionId content =>
          rw [handleSessionPush]
          split
          · exact respond_calm m s rpcId _
          · split
            · exact (calm_emitAll m _).trans (respond_calm (m.sendEvents _) s rpcId _)
            · exact respond_calm m s rpcId _
  | fsRequest rpcId outcome => exact respond_calm m s rpcId _
  | otherMethod rpcId => exact respond_calm m s rpcId _

theorem respondPermission_calm (m : AgentsManager n) (requestId optionId : String) :
    Calm m (m.respondPermission requestId optionId) := by
  unfold respondPermission
  split
  · exact .of_eq rfl rfl rfl rfl rfl
  · rename_i s _
    have hremoved := calm_permissions m s fun pending => pending.remove requestId
    dsimp only
    split
    · exact hremoved.trans (calm_emitAll _ [_])
    · exact hremoved

end Calm

/-! ### Crashes -/

/-- What the start of a process leaves alone, but for the connection of slot `s`, which
    may be dropped. -/
structure Settles (m m' : AgentsManager n) (s : Fin n) : Prop where
  others : ∀ s', s' ≠ s → m'.slots s' = m.slots s'
  disabled : (m'.slots s).lifecycle.disabled = (m.slots s).lifecycle.disabled
  pending : (m'.slots s).pendingPermissions = (m.slots s).pendingPermissions
  active : (m'.slots s).activePrompts = (m.slots s).activePrompts
  reader : (m'.slots s).readerAlive = (m.slots s).readerAlive
  connection : (m'.slots s).connection = (m.slots s).connection ∨
    (m'.slots s).connection = none
  nextConnection : m'.nextConnection = m.nextConnection

section Settles

variable {m} {m' m'' : AgentsManager n} {s : Fin n}

theorem Settles.of_slots (s : Fin n) (hslots : m'.slots = m.slots)
    (hnext : m'.nextConnection = m.nextConnection) : Settles m m' s := by
  refine ⟨fun s' _ => ?_, ?_, ?_, ?_, ?_, Or.inl ?_, hnext⟩
  all_goals rw [hslots]

theorem Settles.trans (h : Settles m m' s) (h' : Settles m' m'' s) : Settles m m'' s where
  others s' hs := (h'.others s' hs).trans (h.others s' hs)
  disabled := h'.disabled.trans h.disabled
  pending := h'.pending.trans h.pending
  active := h'.active.trans h.active
  reader := h'.reader.trans h.reader
  connection := by
    rcases h'.connection with hsame | hnone
    · rw [hsame]
      exact h.connection
    · exact Or.inr hnone
  nextConnection := h'.nextConnection.trans h.nextConnection

/-- An update of the sessions, the capabilities or the backoff of slot `s`. -/
theorem settles_modifySlot (m : AgentsManager n) {f : AgentSlot → AgentSlot}
    (hdisabled : (f (m.slots s)).lifecycle.disabled = (m.slots s).lifecycle.disabled)
    (hpending : (f (m.slots s)).pendingPermissions = (m.slots s).pendingPermissions)
    (hactive : (f (m.slots s)).activePrompts = (m.slots s).activePrompts)
    (hreader : (f (m.slots s)).readerAlive = (m.slots s).readerAlive)
    (hconn : (f (m.slots s)).connection = (m.slots s).connection ∨
      (f (m.slots s)).connection = none) : Settles m (m.modifySlot s f) s := by
  have hslot : (m.modifySlot s f).slots s = f (m.slots s) := by
    rw [slots_modifySlot, if_pos rfl]
  refine ⟨fun s' hs => ?_, ?_, ?_, ?_, ?_, ?_, rfl⟩
  · rw [slots_modifySlot, if_neg hs]
  all_goals
    rw [hslot]
    assumption

theorem request_slots {α : Type} (cfg : AgentsManagerConfig n) (m : AgentsManager n) (s : Fin n)
    (conn : AgentConnection) (r : AcpRequest) (answer : RpcAnswer α) :
    (request cfg m s conn r answer).2.slots = m.slots := by
  unfold request
  split
  all_goals rfl

theorem request_settles {α : Type} (cfg : AgentsManagerConfig n) (m : AgentsManager n)
    (s s' : Fin n) (conn : AgentConnection) (r : AcpRequest) (answer : RpcAnswer α) :
    Settles m (request cfg m s conn r answer).2 s' :=
  .of_slots s' (request_slots cfg m s conn r answer) (request_quiet cfg m s conn r answer).nextConnection

theorem initializeAgent_settles (cfg : AgentsManagerConfig n) (m : AgentsManager n) (s : Fin n)
    (a : Answers) : Settles m (initializeAgent cfg m s a).2 s := by
  unfold initializeAgent
  split
  · exact .of_slots s rfl rfl
  · rename_i conn _
    have hreq := request_settles cfg m s s conn .initializeAgent a.initializeAnswer
    split
    · rename_i heq
      rwa [heq] at hreq
    · rename_i heq
      simp only [heq] at hreq
      split
      · exact hreq
      · dsimp only
        exact hreq.trans (settles_modifySlot _ rfl rfl rfl rfl (Or.inl rfl))

theorem startSession_settles (cfg : AgentsManagerConfig n) (m : AgentsManager n) (s : Fin n)
    (a : Answers) : Settles m (startSession cfg m s a).2 s := by
  by_cases hcan : (m.slots s).CanStart a
  · obtain ⟨_, _, m', _, _, heq, hslots, _⟩ := startSession_ok cfg m hcan
    have hnext := (startSession_quiet cfg m s a).nextConnection
    rw [heq] at hnext ⊢
    exact .of_slots s hslots hnext
  · obtain ⟨_, m', heq, hslots, _⟩ := startSession_error cfg m hcan
    have hnext := (startSession_quiet cfg m s a).nextConnection
    rw [heq] at hnext ⊢
    exact .of_slots s hslots hnext

theorem requestRecovery_settles (cfg : AgentsManagerConfig n) (m : AgentsManager n) (s : Fin n)
    (conn : AgentConnection) (r : AcpRequest) (how : SessionOrigin) (a : Answers) :
    Settles m (requestRecovery cfg m s conn r how a).2 s := by
  unfold requestRecovery
  have hreq := request_settles cfg m s s conn r a.recovery
  split
  · rename_i heq
    rwa [heq] at hreq
  · rename_i heq
    simp only [heq] at hreq
    exact hreq.trans (.of_slots s rfl rfl)

theorem tryRestoreSession_settles (cfg : AgentsManagerConfig n) (m : AgentsManager n)
    (s : Fin n) (a : Answers) : Settles m (tryRestoreSession cfg m s a).2 s := by
  have hreinstate : ∀ (m : AgentsManager n) first id,
      Settles m (m.modifySlot s fun slot => slot.reinstateSessions first id) s :=
    fun m _ _ => settles_modifySlot m rfl rfl rfl rfl (Or.inl rfl)
  have hload : ∀ (m : AgentsManager n) first id, Settles m
      (m.modifySlot s fun slot => (slot.reinstateSessions first id).awaitAllFirstPrompts) s :=
    fun m _ _ => settles_modifySlot m rfl rfl rfl rfl (Or.inl rfl)
  unfold tryRestoreSession
  split
  · rename_i firstAcpId conn _ _
    split
    · have hresumed := requestRecovery_settles cfg m s conn
        (.sessionResume firstAcpId (cfg.agents s).cwd (mcpServers a.mcpUrls)) .resumed a
      rw [← resumeSession] at hresumed
      split
      · rename_i heq
        simp only [heq] at hresumed
        exact hresumed.trans (hreinstate _ _ _)
      · rename_i heq
        simp only [heq] at hresumed
        exact hresumed
    · split
      · have hreceived : Settles m (m.receive (m.replays s a)) s := .of_slots s rfl rfl
        have hloaded := hreceived.trans (requestRecovery_settles cfg _ s conn
          (.sessionLoad firstAcpId (cfg.agents s).cwd (mcpServers a.mcpUrls)) .loaded a)
        rw [← loadSession] at hloaded
        split
        · rename_i heq
          simp only [heq] at hloaded
          exact hloaded.trans (hload _ _ _)
        · rename_i heq
          simp only [heq] at hloaded
          exact hloaded
      · exact .of_slots s rfl rfl
  · exact .of_slots s rfl rfl

theorem restoreOrStartSession_settles (cfg : AgentsManagerConfig n) (m : AgentsManager n)
    (s : Fin n) (a : Answers) : Settles m (restoreOrStartSession cfg m s a) s := by
  have hretired : Settles m (m.modifySlot s AgentSlot.retireSessions) s :=
    settles_modifySlot m rfl rfl rfl rfl (Or.inl rfl)
  have htried := hretired.trans
    (tryRestoreSession_settles cfg (m.modifySlot s AgentSlot.retireSessions) s a)
  unfold restoreOrStartSession
  dsimp only
  split
  · rename_i heq
    simp only [heq] at htried
    exact htried
  · rename_i m₁ heq
    simp only [heq] at htried
    have hstarted := htried.trans (startSession_settles cfg m₁ s a)
    split
    · rename_i hdone
      simp only [hdone] at hstarted
      exact hstarted.trans (settles_modifySlot _ rfl rfl rfl rfl (Or.inl rfl))
    · rename_i hfailed
      simp only [hfailed] at hstarted
      exact hstarted.trans (settles_modifySlot _ rfl rfl rfl rfl (Or.inr rfl))

end Settles

theorem disabled_recordCrashAndCheck (l : SlotLifecycle) (recordedAt checkedAt : Nat) :
    (l.recordCrashAndCheck recordedAt checkedAt).2.disabled =
      (l.disabled || decide ((l.recordCrashAndCheck recordedAt checkedAt).1 = .disabled)) := by
  unfold SlotLifecycle.recordCrashAndCheck
  dsimp only
  split
  · simp
  · simp

section Crash

variable {m} {m' : AgentsManager n} {s : Fin n} {a : Answers}

theorem CrashChange.appends {t : SessionTables} {news : List (Output n)}
    (h : CrashChange a m m' s t news) : Appends m m' := by
  rcases h.incoming with hsame | ⟨hload, _⟩
  · exact .of_eq hsame
  · refine ⟨_, hload, ?_⟩
    intro msg hmsg
    obtain ⟨u, _, rfl⟩ := List.mem_map.mp hmsg
    exact ⟨_, rfl⟩

variable {cfg}

theorem CrashOutcome.change (h : CrashOutcome cfg m s a m') :
    ∃ t news, CrashChange a m m' s t news := by
  cases h with
  | down _ _ hchange => exact ⟨_, _, hchange⟩
  | restored _ _ _ _ hchange => exact ⟨_, _, hchange⟩
  | restarted _ _ _ _ hchange _ => exact ⟨_, _, hchange⟩
  | retired _ _ _ hchange _ => exact ⟨_, _, hchange⟩

/-- After a crash the slot is connected if and only if its new process got a session. -/
theorem CrashOutcome.isSome_iff (h : CrashOutcome cfg m s a m') :
    (m'.slots s).connection.isSome ↔ (m.slots s).ComesBack a := by
  unfold AgentSlot.ComesBack
  cases h with
  | down hcannot hconn _ =>
      rw [hconn]
      constructor
      · intro hsome
        cases hsome
      · rintro (hrestore | ⟨hrestart, _⟩)
        · exact absurd hrestore.1 hcannot
        · exact absurd hrestart hcannot
  | restored hcan _ _ hconn _ =>
      rw [hconn]
      exact ⟨fun _ => Or.inl hcan, fun _ => rfl⟩
  | restarted hcan _ hid hconn _ hurls =>
      rw [hconn]
      refine ⟨fun _ => Or.inr ⟨hcan, hurls, ?_⟩, fun _ => rfl⟩
      rw [hid]
      rfl
  | retired hcan hnot hconn _ hcannot =>
      rw [hconn]
      constructor
      · intro hsome
        cases hsome
      · rintro (hrestore | ⟨_, hstart⟩)
        · exact absurd hrestore hnot
        · exact absurd hstart hcannot

end Crash

structure CrashProcess (m m' : AgentsManager n) (s : Fin n) (a : Answers) : Prop where
  others : ∀ s', s' ≠ s → m'.slots s' = m.slots s'
  incoming : Appends m m'
  disabled : (m'.slots s).lifecycle.disabled =
    ((m.slots s).lifecycle.disabled || !decide (m.Restarts s a))
  pending : (m'.slots s).pendingPermissions = (m.slots s).pendingPermissions
  active : (m'.slots s).activePrompts = if m.Restarts s a then ∅ else (m.slots s).activePrompts
  reader : (m'.slots s).readerAlive =
    if m.Restarts s a ∧ a.spawned = true then true
    else (m.slots s).connection.isNone && (m.slots s).readerAlive
  nextConnection : m'.nextConnection =
    if m.Restarts s a ∧ a.spawned = true then m.nextConnection + 1 else m.nextConnection
  connection : (m'.slots s).connection =
    if (m.slots s).ComesBack a then some ⟨m.nextConnection⟩ else none

section CrashProcess

variable (s : Fin n) (a : Answers)

theorem slots_spawnConnection_of_ne {s s' : Fin n} (hs : s' ≠ s) :
    (m.spawnConnection s).slots s' = m.slots s' := by
  have hmodify : (m.spawnConnection s).slots s' = (m.modifySlot s fun slot =>
      { slot with connection := some ⟨m.nextConnection⟩, readerAlive := true }).slots s' := rfl
  rw [hmodify, slots_modifySlot, if_neg hs]

/-- The manager when the crash of slot `s` has been recorded and the channels are told. -/
def notified : AgentsManager n :=
  notifyCrashToChannels cfg (m.modifySlot s fun slot => crashed slot a) s

theorem slots_notified (s' : Fin n) : (notified cfg m s a).slots s' =
    if s' = s then { crashed (m.slots s) a with activePrompts := ∅ } else m.slots s' := by
  unfold notified notifyCrashToChannels
  rw [slots_modifySlot]
  by_cases hs : s' = s
  · rw [if_pos hs, if_pos hs, sendEvents_eq, emitAll_slots, slots_modifySlot, if_pos rfl]
  · rw [if_neg hs, if_neg hs, sendEvents_eq, emitAll_slots, slots_modifySlot, if_neg hs]

theorem handleCrash_eq : handleCrash cfg m s a =
    if m.Restarts s a then
      match respawnAndInitialize cfg (notified cfg m s a) s a with
      | (false, m) => m
      | (true, m) => restoreOrStartSession cfg m s a
    else m.modifySlot s fun slot => crashed slot a := by
  unfold handleCrash
  rw [prepareRestart_eq]
  by_cases hrestarts : m.Restarts s a
  · rw [decide_eq_true hrestarts, if_pos hrestarts]
    rfl
  · rw [decide_eq_false hrestarts, if_neg hrestarts]

/-- After a spawn, what follows settles. -/
theorem handleCrash_spawned (hrestarts : m.Restarts s a) (hspawned : a.spawned = true) :
    Settles ((notified cfg m s a).spawnConnection s) (handleCrash cfg m s a) s := by
  rw [handleCrash_eq, if_pos hrestarts]
  unfold respawnAndInitialize
  rw [if_pos hspawned]
  have hinit := initializeAgent_settles cfg ((notified cfg m s a).spawnConnection s) s a
  cases hresult : initializeAgent cfg ((notified cfg m s a).spawnConnection s) s a with
  | mk result m₁ =>
      rw [hresult] at hinit
      cases result with
      | error e => exact hinit.trans (settles_modifySlot _ rfl rfl rfl rfl (Or.inr rfl))
      | ok _ => exact hinit.trans (restoreOrStartSession_settles cfg m₁ s a)

theorem handleCrash_unspawned (hrestarts : m.Restarts s a) (hspawned : ¬ a.spawned = true) :
    handleCrash cfg m s a = notified cfg m s a := by
  rw [handleCrash_eq, if_pos hrestarts]
  unfold respawnAndInitialize
  rw [if_neg hspawned]

theorem disabled_crashed : (crashed (m.slots s) a).lifecycle.disabled =
    ((m.slots s).lifecycle.disabled || !decide (m.Restarts s a)) := by
  have hrecorded := disabled_recordCrashAndCheck (m.slots s).lifecycle a.crashRecordedAt
    a.crashCheckedAt
  by_cases hrestarts : m.Restarts s a
  · rw [decide_eq_true hrestarts, crashed, hrecorded, decide_eq_false hrestarts]
    rfl
  · rw [decide_eq_false hrestarts, crashed, hrecorded, decide_eq_true (not_not.mp hrestarts)]
    rfl

theorem handleCrash_process : CrashProcess m (handleCrash cfg m s a) s a := by
  have houtcome := handleCrash_outcome cfg m s a
  obtain ⟨t, news, hchange⟩ := houtcome.change
  have hdisabled := disabled_crashed m s a
  have hdown : ¬ (m.slots s).ComesBack a → ((handleCrash cfg m s a).slots s).connection =
      if (m.slots s).ComesBack a then some ⟨m.nextConnection⟩ else none := by
    intro hnot
    rw [if_neg hnot, ← Option.not_isSome_iff_eq_none]
    exact fun hsome => hnot (houtcome.isSome_iff.mp hsome)
  have hcan : (m.slots s).ComesBack a → m.Restarts s a ∧ a.spawned = true := by
    rintro (hrestore | ⟨hrestart, _⟩)
    · exact ⟨hrestore.1.1, hrestore.1.2.1⟩
    · exact ⟨hrestart.1, hrestart.2.1⟩
  have hslots := slots_notified cfg m s a
  have hself : (notified cfg m s a).slots s =
      { crashed (m.slots s) a with activePrompts := ∅ } := by
    rw [hslots, if_pos rfl]
  by_cases hrestarts : m.Restarts s a
  · by_cases hspawned : a.spawned = true
    · have hsettles := handleCrash_spawned cfg m s a hrestarts hspawned
      have hslot : ((notified cfg m s a).spawnConnection s).slots s =
          { crashed (m.slots s) a with
            activePrompts := ∅
            connection := some ⟨m.nextConnection⟩
            readerAlive := true } := by
        rw [slots_spawnConnection, hself]
        rfl
      have hother : ∀ s', s' ≠ s → ((notified cfg m s a).spawnConnection s).slots s' =
          m.slots s' := by
        intro s' hs
        rw [slots_spawnConnection_of_ne _ hs, hslots, if_neg hs]
      refine ⟨fun s' hs => ?_, hchange.appends, ?_, ?_, ?_, ?_, ?_, ?_⟩
      · rw [hsettles.others s' hs, hother s' hs]
      · rw [hsettles.disabled, hslot]
        exact hdisabled
      · rw [hsettles.pending, hslot]
        rfl
      · rw [hsettles.active, hslot, if_pos hrestarts]
      · rw [hsettles.reader, hslot, if_pos ⟨hrestarts, hspawned⟩]
      · rw [hsettles.nextConnection, if_pos ⟨hrestarts, hspawned⟩]
        rfl
      · by_cases hback : (m.slots s).ComesBack a
        · rw [if_pos hback]
          rcases hsettles.connection with hsame | hnone
          · rw [hsame, hslot]
          · have hsome := houtcome.isSome_iff.mpr hback
            rw [hnone] at hsome
            cases hsome
        · exact hdown hback
    · have heq := handleCrash_unspawned cfg m s a hrestarts hspawned
      have hnot : ¬ (m.Restarts s a ∧ a.spawned = true) := fun h => hspawned h.2
      refine ⟨fun s' hs => ?_, hchange.appends, ?_, ?_, ?_, ?_, ?_,
        hdown fun hback => hnot (hcan hback)⟩
      · rw [heq, hslots, if_neg hs]
      · rw [heq, hself]
        exact hdisabled
      · rw [heq, hself]
        rfl
      · rw [heq, hself, if_pos hrestarts]
      · rw [heq, hself, if_neg hnot]
        rfl
      · rw [heq, if_neg hnot]
        rfl
  · have heq : handleCrash cfg m s a = m.modifySlot s fun slot => crashed slot a := by
      rw [handleCrash_eq, if_neg hrestarts]
    have hslot : (handleCrash cfg m s a).slots s = crashed (m.slots s) a := by
      rw [heq, slots_modifySlot, if_pos rfl]
    have hnot : ¬ (m.Restarts s a ∧ a.spawned = true) := fun h => hrestarts h.1
    refine ⟨fun s' hs => ?_, hchange.appends, ?_, ?_, ?_, ?_, ?_,
      hdown fun hback => hnot (hcan hback)⟩
    · rw [heq, slots_modifySlot, if_neg hs]
    · rw [hslot]
      exact hdisabled
    · rw [hslot]
      rfl
    · rw [hslot, if_neg hrestarts]
      rfl
    · rw [hslot, if_neg hnot]
      rfl
    · rw [heq, if_neg hnot]
      rfl

end CrashProcess

/-! ### Boot -/

/-- The process that was started for slot `s` is up. -/
structure Starts (m m' : AgentsManager n) (s : Fin n) : Prop where
  connection : (m'.slots s).connection = some ⟨m.nextConnection⟩
  reader : (m'.slots s).readerAlive = true
  others : ∀ s', s' ≠ s → m'.slots s' = m.slots s'
  nextConnection : m'.nextConnection = m.nextConnection + 1

/-- Slot `s` has a process whose output is read. -/
structure Up (m : AgentsManager n) (s : Fin n) : Prop where
  reader : (m.slots s).readerAlive = true
  connected : ∃ conn, (m.slots s).connection = some conn ∧ conn.no < m.nextConnection

section Boot

variable {cfg m} {m' : AgentsManager n}

theorem buildStartedSlot_starts {s : Fin n} {a : Answers}
    (h : buildStartedSlot cfg m s a = (.ok (), m')) : Starts m m' s := by
  obtain ⟨⟨id, hstarted⟩, _⟩ := buildStartedSlot_ok h
  obtain ⟨conn, hconn, _⟩ := hstarted.known
  have hsettles : Settles (m.spawnConnection s) m' s := by
    unfold buildStartedSlot at h
    split at h
    · have hinit := initializeAgent_settles cfg (m.spawnConnection s) s a
      split at h
      · cases h
      · rename_i m₁ hinitialized
        rw [hinitialized] at hinit
        have hstart := hinit.trans (startSession_settles cfg m₁ s a)
        split at h
        · cases h
        · rename_i hid
          rw [hid] at hstart
          cases h
          exact hstart.trans (settles_modifySlot _ rfl rfl rfl rfl (Or.inl rfl))
    · cases h
  have hslot := slots_spawnConnection m s
  refine ⟨?_, ?_, fun s' hs => ?_, hsettles.nextConnection⟩
  · rcases hsettles.connection with hsame | hnone
    · rw [hsame, hslot]
    · rw [hnone] at hconn
      cases hconn
  · rw [hsettles.reader, hslot]
  · rw [hsettles.others s' hs, slots_spawnConnection_of_ne m hs]

theorem startSlots_up {b : StartAnswers n} :
    ∀ (ss : List (Fin n)) (m : AgentsManager n), startSlots cfg b ss m = some m' →
      m.nextConnection ≤ m'.nextConnection ∧ ∀ s, Up m s ∨ s ∈ ss → Up m' s
  | [], m, h => by
      cases h
      refine ⟨le_rfl, fun s hs => ?_⟩
      rcases hs with hup | hnil
      · exact hup
      · cases hnil
  | s :: rest, m, h => by
      rw [startSlots] at h
      split at h
      · rename_i m₁ heq
        have hstarts := buildStartedSlot_starts heq
        obtain ⟨hnext, hup⟩ := startSlots_up rest m₁ h
        refine ⟨by rw [hstarts.nextConnection] at hnext; omega, fun s' hs' => hup s' ?_⟩
        by_cases hsame : s' = s
        · subst hsame
          refine Or.inl ⟨hstarts.reader, _, hstarts.connection, ?_⟩
          rw [hstarts.nextConnection]
          exact Nat.lt_succ_self m.nextConnection
        · rcases hs' with hold | hmem
          · obtain ⟨conn, hconn, hlt⟩ := hold.connected
            refine Or.inl ⟨?_, conn, ?_, ?_⟩
            · rw [hstarts.others s' hsame]
              exact hold.reader
            · rw [hstarts.others s' hsame]
              exact hconn
            · rw [hstarts.nextConnection]
              omega
          · rcases List.mem_cons.mp hmem with heq' | hrest
            · exact absurd heq' hsame
            · exact Or.inr hrest
      · cases h

def SameProcess (m m' : AgentsManager n) (s : Fin n) : Prop :=
  (m'.slots s).connection = (m.slots s).connection ∧
    (m'.slots s).readerAlive = (m.slots s).readerAlive

theorem loadRow_process (row : PersistedSession) (m : AgentsManager n) (s : Fin n) :
    SameProcess m (loadRow cfg m row) s := by
  unfold loadRow SameProcess
  split
  · exact ⟨rfl, rfl⟩
  · rename_i s' _
    rw [emit_slots, slots_modifySlot]
    split
    · rename_i hs
      rw [hs]
      exact ⟨rfl, rfl⟩
    · exact ⟨rfl, rfl⟩

theorem loadStore_process {b : StartAnswers n} (h : loadStore cfg m b = some m') (s : Fin n) :
    SameProcess m m' s := by
  have hrows : ∀ (rows : List PersistedSession) (m : AgentsManager n),
      SameProcess m (rows.foldl (loadRow cfg) m) s := by
    intro rows
    induction rows with
    | nil => exact fun _ => ⟨rfl, rfl⟩
    | cons row rows ih =>
        intro m
        obtain ⟨hconn, hreader⟩ := ih (loadRow cfg m row)
        have hrow : SameProcess m (loadRow cfg m row) s := loadRow_process row m s
        obtain ⟨hconn', hreader'⟩ := hrow
        exact ⟨hconn.trans hconn', hreader.trans hreader'⟩
  have hexpired : SameProcess m (if b.expiryOk then
      { m with sessionStore := m.sessionStore.deleteExpired b.now cfg.sessionTtlSecs }
      else m) s := by
    split <;> exact ⟨rfl, rfl⟩
  unfold loadStore at h
  dsimp only at h
  split at h
  · cases h
    exact hexpired
  · obtain ⟨_, hm⟩ := Option.ite_none_right_eq_some.mp h
    cases hm
    exact ⟨(hrows _ _).1.trans hexpired.1, (hrows _ _).2.trans hexpired.2⟩

/-- **After a boot every slot has a process.** -/
theorem start_up {b : StartAnswers n} (h : start cfg m b = some m') (s : Fin n) : Up m' s := by
  obtain ⟨m₁, hslots, hload⟩ := Option.bind_eq_some_iff.mp h
  have hup := (startSlots_up _ m hslots).2 s (Or.inr (List.mem_finRange s))
  obtain ⟨hconn, hreader⟩ := loadStore_process hload s
  obtain ⟨conn, hmem, hlt⟩ := hup.connected
  refine ⟨hreader.trans hup.reader, conn, hconn.trans hmem, ?_⟩
  rw [(loadStore_quiet cfg m₁ b hload).nextConnection]
  exact hlt

end Boot

/-! ### Every step -/

inductive ProcessStep : Label n → AgentsManager n → Prop
  | steady {l : Label n} {m' : AgentsManager n} (hl : l.speaks = false) (hlinked : Linked m m')
      (htracks : Tracks m m') : ProcessStep l m'
  /-- `SendPrompt`: nobody waits for the answer. -/
  | unqueued {message : String} {a : Answers} {p : OutstandingPrompt n} {m' : AgentsManager n}
      (hlinked : Linked m m') (hawaited : p.awaited = false)
      (hconn : (m.slots p.slotIdx).connection = some ⟨p.connection⟩)
      (hprompts : m'.prompts = m.prompts ++ [p]) (hslots : m'.slots = m.slots)
      (hnext : m'.nextConnection = m.nextConnection) (hrunning : m'.running = m.running) :
      ProcessStep (.command (.sendPrompt message) a) m'
  | permissionAnswered {requestId optionId : String} {a : Answers} :
      ProcessStep (.command (.respondPermission requestId optionId) a)
        (m.respondPermission requestId optionId)
  | promptAnswered {p : OutstandingPrompt n} {answer : PromptAnswer} (hp : p ∈ m.prompts)
      (hconn : (m.slots p.slotIdx).connection = some ⟨p.connection⟩) :
      ProcessStep (.promptAnswered p.no answer) (m.endPrompt p (answerCompletion p answer))
  | promptLost {p : OutstandingPrompt n} (hp : p ∈ m.prompts)
      (hconn : (m.slots p.slotIdx).connection ≠ some ⟨p.connection⟩) :
      ProcessStep (.promptLost p.no)
        (m.endPrompt p (errorCompletion p "Agent connection lost" false))
  | promptAbandoned {p : OutstandingPrompt n} (hp : p ∈ m.prompts)
      (hawaited : p.awaited = true) :
      ProcessStep (.promptIdle p.no) (m.abandonPrompt p (errorCompletion p (idleMessage cfg) true))
  | queued {s : Fin n} {msg : IncomingMessage} (hreader : (m.slots s).readerAlive) :
      ProcessStep (.incoming s msg) (m.receive [⟨s, some msg⟩])
  | ended {s : Fin n} (hreader : (m.slots s).readerAlive) :
      ProcessStep (.eof s)
        ((m.receive [⟨s, none⟩]).modifySlot s fun slot => { slot with readerAlive := false })
  | heard {l : Label n} {a : Answers} {s : Fin n} {msg : IncomingMessage}
      {rest : List (SlotIncoming n)} (hl : Receives l a)
      (hincoming : m.incoming = ⟨s, some msg⟩ :: rest) :
      ProcessStep l (AgentsManager.handleIncoming { m with incoming := rest } s msg)
  /-- The end of a disabled slot. -/
  | skipped {a : Answers} {s : Fin n} {rest : List (SlotIncoming n)}
      (hincoming : m.incoming = ⟨s, none⟩ :: rest) (hdisabled : (m.slots s).lifecycle.disabled) :
      ProcessStep (.recvIncoming a) { m with incoming := rest }
  | crashed {l : Label n} {a : Answers} {s : Fin n} {rest : List (SlotIncoming n)}
      (hl : Receives l a) (hincoming : m.incoming = ⟨s, none⟩ :: rest)
      (henabled : l = .recvIncoming a → (m.slots s).lifecycle.disabled = false) :
      ProcessStep l (handleCrash cfg { m with incoming := rest } s a)
  | stopped {l : Label n} (hl : l.speaks = false) (hidle : m.idle = true) :
      ProcessStep l m.shutdown

section Steps

variable {cfg m} {m' : AgentsManager n} {l : Label n}

/-- A message is handled, or a crash. -/
theorem handleSlotIncoming_processes {msg : SlotIncoming n} {rest : List (SlotIncoming n)}
    {a : Answers} (hl : Receives l a) (hincoming : m.incoming = msg :: rest)
    (henabled : l = .recvIncoming a → msg.msg = none →
      (m.slots msg.slotIdx).lifecycle.disabled = false) :
    ProcessStep cfg m l (handleSlotIncoming cfg { m with incoming := rest } msg a) := by
  obtain ⟨s, message⟩ := msg
  unfold handleSlotIncoming
  cases message with
  | none => exact .crashed hl hincoming fun h => henabled h rfl
  | some message => exact .heard hl hincoming

theorem sendPromptToSlot_processes (s : Fin n) (message : String) (a : Answers) :
    ProcessStep cfg m (.command (.sendPrompt message) a) (m.sendPromptToSlot s message a) := by
  have hlinked := (sendPromptToSlot_kept m s message a).linked
  have hsame : SameStatus m m := ⟨rfl, rfl, rfl, rfl⟩
  unfold sendPromptToSlot at hlinked ⊢
  split
  · split
    · rename_i hconn hfirst hsent
      simp only [hconn, hfirst, if_pos hsent] at hlinked
      exact .unqueued hlinked rfl hconn rfl rfl rfl rfl
    · exact .steady rfl (Linked.refl m) hsame.tracks
  · exact .steady rfl (Linked.refl m) hsame.tracks

theorem handleCommand_processes (hplain : m.backlog.Plain) (hidle : m.idle = true)
    (c : AgentsCommand) (a : Answers) :
    ProcessStep cfg m (.command c a) (handleCommand cfg m a c) := by
  have hsame : SameStatus m m := ⟨rfl, rfl, rfl, rfl⟩
  have hlinked : (∀ message, c ≠ .sendPrompt message) → c ≠ .shutdown →
      Linked m (handleCommand cfg m a c) :=
    fun hsend hshutdown => (handleCommand_handled hplain hsend hshutdown).linked
  cases c with
  | sendPrompt message =>
      rw [handleCommand]
      split
      · exact sendPromptToSlot_processes _ message a
      · exact .steady rfl (Linked.refl m) hsame.tracks
  | shutdown => exact .stopped rfl hidle
  | respondPermission requestId optionId => exact .permissionAnswered
  | cancelOperation =>
      exact .steady rfl (hlinked (by simp) (by simp)) (cancelOperation_quiet m a).tracks
  | createSession name k =>
      exact .steady rfl (hlinked (by simp) (by simp)) (createOrHeal_quiet cfg m name k a).tracks
  | enqueueMessage name k content metadata =>
      exact .steady rfl (hlinked (by simp) (by simp))
        (enqueueMessage_tracks hplain name k content metadata a)
  | forkSession name k =>
      exact .steady rfl (hlinked (by simp) (by simp)) (forkSession_quiet cfg m name k a).tracks
  | listSessions name =>
      exact .steady rfl (hlinked (by simp) (by simp)) (listSessions_quiet cfg m name a).tracks
  | cancelSession name k =>
      exact .steady rfl (hlinked (by simp) (by simp)) (cancelSession_quiet cfg m name k a).tracks

/-- **One step of the manager, seen from the processes.** -/
theorem step_processes (hplain : m.backlog.Plain) (h : step cfg m l = some m') :
    ProcessStep cfg m l m' := by
  cases turn_of_step cfg m h with
  | incoming hreader => exact .queued hreader
  | eof hreader => exact .ended hreader
  | promptAnswered hp _ hconn => exact .promptAnswered hp hconn
  | promptLost hp hconn => exact .promptLost hp hconn
  | promptIdle hp _ hawaited => exact .promptAbandoned hp hawaited
  | command hidle => exact handleCommand_processes hplain hidle _ _
  | recvIncoming _ hincoming henabled =>
      exact handleSlotIncoming_processes (Or.inl rfl) hincoming fun _ => henabled
  | @recvDisabled msg _ _ _ hincoming hmsg hdisabled =>
      obtain ⟨s, message⟩ := msg
      cases hmsg
      exact .skipped hincoming hdisabled
  | recvCompletion _ _ =>
      exact .steady rfl ⟨fun _ => rfl, fun _ => rfl, .of_eq rfl⟩ (.kept (fun _ => rfl) rfl rfl rfl)
  | drainIncoming _ hincoming =>
      exact handleSlotIncoming_processes (Or.inr rfl) hincoming fun h => nomatch h
  | @finishCompletion c a hc _ =>
      have hlinked : Linked m (finishPromptCompletion cfg { m with completing := none } c a) := by
        rcases finishPromptCompletion_sessions (c := c) (a := a) hplain with ⟨hexpired, _⟩ | hh
        · exact hexpired.linked
        · exact hh.linked
      exact .steady rfl hlinked (finishPromptCompletion_tracks hplain c a)
  | cancelled hidle => exact .stopped rfl hidle

end Steps

end Anyclaw.AgentsManager
