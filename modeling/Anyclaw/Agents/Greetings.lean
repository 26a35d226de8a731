import Anyclaw.Agents.Handshake

/-!
# Processes are greeted first

A new process is spawned and greeted in one handler, at boot and after a crash; whatever comes
of the greeting, the handler makes moves on the links.  With the other handlers this gives
every step, every run and every restart of the manager, and `handshaken_of_run` reads off the
trace what the protocol promises.

The handler at boot is `build_started_slot` (`crates/anyclaw-agents/src/manager.rs`), the one
after a crash `respawn_and_initialize` (`session_recovery.rs`); both call `initialize_agent`.
-/

namespace Anyclaw

namespace AgentsManager

variable {n : Nat} {cfg : AgentsManagerConfig n} {m m' : AgentsManager n}
  {G : Fin n → Nat → InitializeResult → Prop} {s : Fin n} {a : Answers}

/-! ### The greeting -/

/-- The process `no` of slot `s` was spawned and not yet greeted. -/
structure Spawned (G : Fin n → Nat → InitializeResult → Prop) (m : AgentsManager n) (s : Fin n)
    (no : Nat) (L : Links (Fin n) InitializeResult (Output n)) : Prop where
  connection : (m.slots s).connection = some ⟨no⟩
  link : L.link s = .opened no
  others : ∀ s', s' ≠ s → (m.slots s').OnLink (L.link s')
  next : L.next = m.nextConnection
  log : L.log.map LinkAct.shown = m.trace.filterMap Output.linkAct
  answers : ∀ s no c, .greeted s no (some c) ∈ L.log → G s no c

theorem OnLinks.spawn {L : Links (Fin n) InitializeResult (Output n)} (h : OnLinks G m L)
    (s : Fin n) : Spawned G (m.spawnConnection s) s m.nextConnection (L.connect s) where
  connection := by rw [slots_spawnConnection]
  link := by simp [Links.connect, h.next]
  others s' hs := by
    rw [slots_spawnConnection_of_ne m hs]
    simpa [Links.connect, hs] using h.links s'
  next := by simp [Links.connect, h.next, spawnConnection]
  log := by
    simp [Links.connect, LinkAct.shown, h.log, h.next, spawnConnection, List.filterMap_append,
      Output.linkAct]
  answers s' no c hmem := by
    rcases List.mem_append.mp hmem with hold | hnew
    · exact h.answers s' no c hold
    · cases List.mem_singleton.mp hnew

section Spawned

variable {no : Nat} {L : Links (Fin n) InitializeResult (Output n)}

/-- A process that could not be greeted is given up. -/
theorem Spawned.giveUp (h : Spawned G m s no L) :
    OnLinks G (m.dropConnection s) (L.close (· = s)) where
  links s' := by
    unfold dropConnection
    rw [slots_modifySlot]
    by_cases hs : s' = s
    · rw [if_pos hs]
      exact Or.inl ⟨rfl, if_pos hs⟩
    · rw [if_neg hs]
      simpa [Links.close, hs] using h.others s' hs
  next := h.next
  log := h.log
  answers := h.answers

theorem Spawned.log_greet (h : Spawned G m s no L) (answer : Option InitializeResult) :
    (L.greet s no answer).log.map LinkAct.shown =
      (m.emit (.request s no .initializeAgent)).trace.filterMap Output.linkAct := by
  simp [Links.greet, LinkAct.shown, h.log, List.filterMap_append, Output.linkAct]

/-- The greeting was not answered as it should be. -/
theorem Spawned.refuse (h : Spawned G m s no L) :
    OnLinks G ((m.emit (.request s no .initializeAgent)).dropConnection s)
      (L.greet s no none) where
  links s' := by
    unfold dropConnection
    rw [slots_modifySlot]
    by_cases hs : s' = s
    · rw [if_pos hs]
      exact Or.inl ⟨rfl, by simp [Links.greet, hs]⟩
    · rw [if_neg hs]
      simpa [Links.greet, hs] using h.others s' hs
  next := h.next
  log := h.log_greet none
  answers s' no' c hmem := by
    rcases List.mem_append.mp hmem with hold | hnew
    · exact h.answers s' no' c hold
    · cases List.mem_singleton.mp hnew

/-- The greeting was answered with `c`. -/
theorem Spawned.accept (h : Spawned G m s no L) {c : InitializeResult} (hc : G s no c) :
    OnLinks G ((m.emit (.request s no .initializeAgent)).modifySlot s fun slot =>
      { slot with protocolVersion := c.protocolVersion, agentCapabilities := some c })
      (L.greet s no (some c)) where
  links s' := by
    rw [slots_modifySlot]
    by_cases hs : s' = s
    · rw [if_pos hs]
      exact Or.inr ⟨⟨no⟩, c, h.connection, rfl, by simp [Links.greet, hs]⟩
    · rw [if_neg hs]
      simpa [Links.greet, hs] using h.others s' hs
  next := h.next
  log := h.log_greet (some c)
  answers s' no' c' hmem := by
    rcases List.mem_append.mp hmem with hold | hnew
    · exact h.answers s' no' c' hold
    · cases List.mem_singleton.mp hnew
      exact hc

end Spawned

/-- The greeting is not sent, or not answered as it should be, or answered with known terms. -/
theorem initializeAgent_cases (cfg : AgentsManagerConfig n) (m : AgentsManager n) {s : Fin n}
    {conn : AgentConnection} (a : Answers) (hconn : (m.slots s).connection = some conn) :
    (∃ e, initializeAgent cfg m s a = (.error e, m)) ∨
      (∃ e, initializeAgent cfg m s a =
        (.error e, m.emit (.request s conn.no .initializeAgent))) ∨
      ∃ c, a.initializeAnswer.result? = some c ∧ c.Known ∧
        initializeAgent cfg m s a =
          (.ok (), (m.emit (.request s conn.no .initializeAgent)).modifySlot s fun slot =>
            { slot with protocolVersion := c.protocolVersion, agentCapabilities := some c }) := by
  unfold initializeAgent
  simp only [hconn]
  cases hanswer : a.initializeAnswer with
  | unsent => exact Or.inl ⟨_, rfl⟩
  | timedOut => exact Or.inr (Or.inl ⟨_, rfl⟩)
  | closed => exact Or.inr (Or.inl ⟨_, rfl⟩)
  | answered result =>
      cases result with
      | none => exact Or.inr (Or.inl ⟨_, rfl⟩)
      | some c =>
          simp only [request]
          split
          · exact Or.inr (Or.inl ⟨_, rfl⟩)
          · rename_i hversion
            refine Or.inr (Or.inr ⟨c, rfl, ?_, rfl⟩)
            unfold InitializeResult.Known
            omega

/-- A process is spawned and greeted; without a good answer it is given up. -/
theorem initializeAgent_obeys (cfg : AgentsManagerConfig n)
    (hG : ∀ c, a.initializeAnswer.result? = some c → c.Known → G s m.nextConnection c) :
    (∀ m', initializeAgent cfg (m.spawnConnection s) s a = (.ok (), m') → Obeys G m m') ∧
      ∀ e m', initializeAgent cfg (m.spawnConnection s) s a = (.error e, m') →
        Obeys G m (m'.dropConnection s) := by
  have hconn : ((m.spawnConnection s).slots s).connection = some ⟨m.nextConnection⟩ := by
    rw [slots_spawnConnection]
  rcases initializeAgent_cases cfg (m.spawnConnection s) a hconn with
    ⟨e, heq⟩ | ⟨e, heq⟩ | ⟨c, hc, hknown, heq⟩
  · rw [heq]
    refine ⟨fun m' hsame => (nomatch (Prod.mk.inj hsame).1), fun e m' hsame => ?_⟩
    cases hsame
    intro L hL
    exact ⟨_, .tail (.single (.connect s)) (.close (· = s)), (hL.spawn s).giveUp⟩
  · rw [heq]
    refine ⟨fun m' hsame => (nomatch (Prod.mk.inj hsame).1), fun e m' hsame => ?_⟩
    cases hsame
    intro L hL
    have hspawned := hL.spawn s
    exact ⟨_, .tail (.single (.connect s)) (.greet none hspawned.link), hspawned.refuse⟩
  · rw [heq]
    refine ⟨fun m' hsame => ?_, fun e m' hsame => (nomatch (Prod.mk.inj hsame).1)⟩
    cases hsame
    intro L hL
    have hspawned := hL.spawn s
    exact ⟨_, .tail (.single (.connect s)) (.greet (some c) hspawned.link),
      hspawned.accept (hG c hc hknown)⟩

/-! ### Crashes -/

theorem tryRestoreSession_obeys (cfg : AgentsManagerConfig n) (m : AgentsManager n) (s : Fin n)
    (a : Answers) :
    Obeys G m (tryRestoreSession cfg m s a).2 := by
  unfold tryRestoreSession
  split
  · rename_i first conn _ hconn
    split
    · rename_i hsupports
      have hresume : Obeys G m (resumeSession cfg m s conn first a).2 :=
        resumeSession_obeys m cfg first a hconn hsupports
      split
      · rename_i heq
        simp only [heq] at hresume
        dsimp only
        exact hresume.modifySlot rfl rfl
      · rename_i heq
        rwa [heq] at hresume
    · split
      · rename_i hsupports
        have hload : Obeys G m (loadSession cfg m s conn first a).2 :=
          loadSession_obeys m cfg first a hconn hsupports
        split
        · rename_i heq
          simp only [heq] at hload
          dsimp only
          exact hload.modifySlot rfl rfl
        · rename_i heq
          rwa [heq] at hload
      · exact .refl m
  · exact .refl m

theorem restoreOrStartSession_obeys (m : AgentsManager n) (s : Fin n) (a : Answers) :
    Obeys G m (restoreOrStartSession cfg m s a) := by
  have hretired : Obeys G m (m.modifySlot s AgentSlot.retireSessions) :=
    (Obeys.refl m).modifySlot rfl rfl
  have hrestore := hretired.trans (tryRestoreSession_obeys cfg _ s a)
  unfold restoreOrStartSession
  dsimp only
  split
  · rename_i heq
    rwa [heq] at hrestore
  · rename_i m₁ heq
    rw [heq] at hrestore
    have hstart := hrestore.trans (startSession_obeys m₁ cfg s a)
    split
    · rename_i heq'
      rw [heq'] at hstart
      exact hstart.modifySlot rfl rfl
    · rename_i heq'
      rw [heq'] at hstart
      exact hstart.drop rfl

theorem handleCrash_obeys (m : AgentsManager n) (s : Fin n) (a : Answers)
    (hG : (handleCrash cfg m s a).nextConnection = m.nextConnection + 1 →
      ∀ c, a.initializeAnswer.result? = some c → c.Known → G s m.nextConnection c) :
    Obeys G m (handleCrash cfg m s a) := by
  have hnext := (handleCrash_process cfg m s a).nextConnection
  have hdropped : Obeys G m (m.modifySlot s fun slot => crashed slot a) :=
    (Obeys.refl m).drop rfl
  rw [handleCrash_eq] at hnext hG ⊢
  by_cases hrestarts : m.Restarts s a
  · rw [if_pos hrestarts] at hnext hG ⊢
    have hnotified : Obeys G m (notified cfg m s a) := by
      unfold notified notifyCrashToChannels
      exact Obeys.modifySlot (hdropped.sendEvents _) rfl rfl
    unfold respawnAndInitialize at hnext hG ⊢
    by_cases hspawned : a.spawned = true
    · rw [if_pos hspawned] at hnext hG ⊢
      have hinit := initializeAgent_obeys (m := notified cfg m s a) (G := G) cfg
        (hG (hnext.trans (if_pos ⟨hrestarts, hspawned⟩)))
      rcases heq : initializeAgent cfg ((notified cfg m s a).spawnConnection s) s a with
        ⟨result, m₁⟩
      rw [heq] at hinit
      cases result with
      | error e => exact hnotified.trans (hinit.2 e m₁ rfl)
      | ok _ =>
          exact (hnotified.trans (hinit.1 m₁ rfl)).trans (restoreOrStartSession_obeys m₁ s a)
    · rw [if_neg hspawned]
      exact hnotified
  · rw [if_neg hrestarts]
    exact hdropped

/-! ### Every step -/

/-- The answers that a new process of slot `s` gives in a step or at a restart. -/
def greeting (m : AgentsManager n) (s : Fin n) : Label n ⊕ StartAnswers n → Option Answers
  | .inl l => (m.crash l).bind fun (s', a) => if s' = s then some a else none
  | .inr b => some (b.agents s)

/-- The processes that a step spawns answer as `G` says. -/
def Greets (G : Fin n → Nat → InitializeResult → Prop) (m : AgentsManager n)
    (l : Label n ⊕ StartAnswers n) (m' : AgentsManager n) : Prop :=
  ∀ s no a c, m.greeting s l = some a → m.nextConnection ≤ no → no < m'.nextConnection →
    a.initializeAnswer.result? = some c → c.Known → G s no c

theorem handleSlotIncoming_obeys {msg : SlotIncoming n} {rest : List (SlotIncoming n)}
    {l : Label n} (hcrash : msg.msg = none → m.crash l = some (msg.slotIdx, a))
    (hG : Greets G m (.inl l) (handleSlotIncoming cfg { m with incoming := rest } msg a)) :
    Obeys G m (handleSlotIncoming cfg { m with incoming := rest } msg a) := by
  have hdequeue : Obeys G m { m with incoming := rest } := .of_eq rfl rfl rfl
  unfold handleSlotIncoming at hG ⊢
  cases hmsg : msg.msg with
  | some incoming => exact hdequeue.trans (handleIncoming_obeys _ msg.slotIdx incoming)
  | none =>
      rw [hmsg] at hG
      refine hdequeue.trans (handleCrash_obeys _ msg.slotIdx a fun hnext c hc hknown => ?_)
      refine hG msg.slotIdx m.nextConnection a c ?_ le_rfl ?_ hc hknown
      · simp [greeting, hcrash hmsg]
      · exact hnext ▸ Nat.lt_succ_self _

/-- **Every step of the manager obeys the protocol.** -/
theorem step_obeys {l : Label n} (h : AgentsManager.step cfg m l = some m')
    (hG : Greets G m (.inl l) m') : Obeys G m m' := by
  cases turn_of_step cfg m h with
  | incoming _ => exact .of_eq rfl rfl rfl
  | eof _ =>
      have hreceive : ∀ msgs, Obeys G m (m.receive msgs) := fun _ => .of_eq rfl rfl rfl
      exact (hreceive _).modifySlot rfl rfl
  | promptAnswered _ _ _ => exact .of_eq rfl rfl rfl
  | promptLost _ _ => exact .of_eq rfl rfl rfl
  | promptIdle _ _ _ => exact .of_eq rfl rfl rfl
  | command _ => exact handleCommand_obeys m cfg _ _
  | recvIncoming _ hincoming henabled =>
      refine handleSlotIncoming_obeys (fun hmsg => ?_) hG
      simp [crash, hincoming, hmsg, henabled hmsg]
  | recvDisabled _ _ _ _ => exact .of_eq rfl rfl rfl
  | recvCompletion _ _ => exact .of_eq rfl rfl rfl
  | drainIncoming _ hincoming =>
      refine handleSlotIncoming_obeys (fun hmsg => ?_) hG
      simp [crash, hincoming, hmsg]
  | @finishCompletion c a hc _ =>
      have hdone : Obeys G m { m with completing := none } := .of_eq rfl rfl rfl
      exact hdone.trans (finishPromptCompletion_obeys _ cfg c a)
  | cancelled _ => exact shutdown_obeys m

/-! ### Boot -/

theorem buildStartedSlot_obeys (h : buildStartedSlot cfg m s a = (.ok (), m'))
    (hG : ∀ c, a.initializeAnswer.result? = some c → c.Known → G s m.nextConnection c) :
    Obeys G m m' := by
  unfold buildStartedSlot at h
  split at h
  · have hinit := initializeAgent_obeys cfg hG
    split at h
    · cases h
    · rename_i m₁ heq
      rw [heq] at hinit
      have hstart := (hinit.1 m₁ rfl).trans (startSession_obeys m₁ cfg s a)
      split at h
      · cases h
      · rename_i heq'
        rw [heq'] at hstart
        cases h
        exact hstart.modifySlot rfl rfl
  · cases h

theorem startSlots_obeys {b : StartAnswers n} :
    ∀ (ss : List (Fin n)) (m : AgentsManager n), startSlots cfg b ss m = some m' →
      Greets G m (.inr b) m' → Obeys G m m'
  | [], m, h, _ => by
      cases h
      exact .refl _
  | s :: ss, m, h, hG => by
      unfold startSlots at h
      split at h
      · rename_i m₁ heq
        have hnext := (buildStartedSlot_starts heq).nextConnection
        have hlater := (startSlots_up ss m₁ h).1
        refine (buildStartedSlot_obeys heq fun c hc hknown => ?_).trans
          (startSlots_obeys ss m₁ h fun s' no a c ha hle hlt hc hknown => ?_)
        · exact hG s m.nextConnection (b.agents s) c rfl le_rfl (by omega) hc hknown
        · exact hG s' no a c ha (by omega) hlt hc hknown
      · cases h

theorem loadRow_obeys (m : AgentsManager n) (row : PersistedSession) :
    Obeys G m (loadRow cfg m row) := by
  unfold loadRow
  split
  · exact .refl m
  · exact Obeys.emit ((Obeys.refl m).modifySlot rfl rfl) rfl

theorem loadRows_obeys (rows : List PersistedSession) (m : AgentsManager n) :
    Obeys G m (rows.foldl (loadRow cfg) m) := by
  induction rows generalizing m with
  | nil => exact .refl m
  | cons row rows ih => exact (loadRow_obeys m row).trans (ih _)

theorem start_obeys {b : StartAnswers n} (h : start cfg m b = some m')
    (hG : Greets G m (.inr b) m') : Obeys G m m' := by
  obtain ⟨m₁, hslots, hload⟩ := Option.bind_eq_some_iff.mp h
  have hnext : m'.nextConnection = m₁.nextConnection :=
    (loadStore_quiet cfg m₁ b hload).nextConnection
  refine (startSlots_obeys _ m hslots fun s no a c ha hle hlt => ?_).trans ?_
  · exact hG s no a c ha hle (hnext ▸ hlt)
  · have hexpired : Obeys G m₁ (if b.expiryOk then
        { m₁ with sessionStore := m₁.sessionStore.deleteExpired b.now cfg.sessionTtlSecs }
        else m₁) := by
      split
      · exact .of_eq rfl rfl rfl
      · exact .refl m₁
    unfold loadStore at hload
    dsimp only at hload
    split at hload
    · cases hload
      exact hexpired
    · obtain ⟨-, hm⟩ := Option.ite_none_right_eq_some.mp hload
      cases hm
      exact hexpired.trans (loadRows_obeys _ _)

/-- A restart closes all links. -/
theorem reborn_obeys (cfg : AgentsManagerConfig n) (m : AgentsManager n) :
    Obeys G m (reborn cfg m) :=
  (Obeys.refl m).close (fun _ => True) (fun _ _ => rfl) (fun _ h => absurd trivial h)
    (fun _ h => absurd trivial h) rfl rfl

theorem lives_obeys {l : Label n ⊕ StartAnswers n} (h : (lives cfg).step m l = some m')
    (hG : Greets G m l m') : Obeys G m m' := by
  cases l with
  | inl l => exact step_obeys h hG
  | inr b => exact (reborn_obeys cfg m).trans (start_obeys h hG)

/-! ### All runs -/

abbrev LivesStep (n : Nat) := Machine.Taken (AgentsManager n) (Label n ⊕ StartAnswers n)

/-- The process `no` of slot `s` was spawned in one of the steps and answered `initialize` with
    `c`, which names a version that the manager speaks. -/
def Answered (steps : List (LivesStep n)) (s : Fin n) (no : Nat) (c : InitializeResult) : Prop :=
  ∃ t ∈ steps, ∃ a, t.before.greeting s t.label = some a ∧
    t.before.nextConnection ≤ no ∧ no < t.after.nextConnection ∧
    a.initializeAnswer.result? = some c ∧ c.Known

structure Handshaken (steps : List (LivesStep n)) (trace : List (Output n)) : Prop where
  /-- A process is spawned under a new number. -/
  spawned : ∀ before s no, before ++ [.spawned s no] <+: trace →
    ∀ act ∈ before.filterMap Output.linkAct, act.no < no
  /-- `initialize` is sent once, first, and to the newest process of its slot. -/
  initialized : ∀ before s no, before ++ [.request s no .initializeAgent] <+: trace →
    Links.on (before.filterMap Output.linkAct) no = [.opened s no] ∧
      Links.Newest (before.filterMap Output.linkAct) s no
  /-- Everything else is sent to the newest process of its slot, which has been initialized,
      and is something that its answer permits. -/
  spoken : ∀ before o s no, before ++ [o] <+: trace → o.linkAct = some (.said s no o) →
    Links.Newest (before.filterMap Output.linkAct) s no ∧
      (∃ c, Answered steps s no c ∧ Permits c o) ∧
      ∃ os : List (Output n), Links.on (before.filterMap Output.linkAct) no =
        .opened s no :: .greeted s no none :: os.map (.said s no)

theorem OnLinks.mono {G' : Fin n → Nat → InitializeResult → Prop}
    {L : Links (Fin n) InitializeResult (Output n)} (h : OnLinks G m L)
    (hG : ∀ s no c, G s no c → G' s no c) : OnLinks G' m L :=
  ⟨h.links, h.next, h.log, fun s no c hmem => hG s no c (h.answers s no c hmem)⟩

theorem onLinks_fresh (cfg : AgentsManagerConfig n) (sender : Bool) (store : SessionStore) :
    OnLinks G (fresh cfg sender store) Links.empty :=
  ⟨fun _ => Or.inl ⟨rfl, rfl⟩, rfl, rfl, fun _ _ _ hmem => (nomatch hmem)⟩

/-- A run is a run of moves on the links. -/
theorem onLinks_of_run {sender : Bool} {store : SessionStore} {b : StartAnswers n}
    {m₀ : AgentsManager n} {x : List (LivesStep n) × AgentsManager n}
    (hstart : start cfg (fresh cfg sender store) b = some m₀)
    (hrun : (lives cfg).recorded.RunUnder (fun _ _ => True) ([], m₀) x) :
    ∃ L, Links.Runs Permits Links.empty L ∧
      OnLinks (Answered (⟨fresh cfg sender store, .inr b, m₀⟩ :: x.1)) x.2 L := by
  refine hrun.preserves (I := fun x => ∃ L, Links.Runs Permits Links.empty L ∧
    OnLinks (Answered (⟨fresh cfg sender store, .inr b, m₀⟩ :: x.1)) x.2 L) ?_ ?_
  · rintro x l x' ⟨L, hruns, hL⟩ - hs
    obtain ⟨hstep, hsteps⟩ := Machine.of_recorded_step hs
    have hgreets : Greets (Answered (⟨fresh cfg sender store, .inr b, m₀⟩ :: x'.1)) x.2 l x'.2 := by
      intro s no a c ha hle hlt hc hknown
      exact ⟨⟨x.2, l, x'.2⟩, by simp [hsteps], a, ha, hle, hlt, hc, hknown⟩
    have hmono := hL.mono fun s no c ⟨t, ht, hrest⟩ =>
      (⟨t, by rw [hsteps, ← List.cons_append]; exact List.mem_append_left _ ht, hrest⟩ :
        Answered (⟨fresh cfg sender store, .inr b, m₀⟩ :: x'.1) s no c)
    obtain ⟨L', hruns', hL'⟩ := lives_obeys hstep hgreets L hmono
    exact ⟨L', hruns.trans hruns', hL'⟩
  · refine start_obeys hstart (fun s no a c ha hle hlt hc hknown => ?_) Links.empty
      (onLinks_fresh cfg sender store)
    exact ⟨_, List.mem_cons_self, a, ha, hle, hlt, hc, hknown⟩

/-- **The manager keeps the protocol with its processes**, over any number of crashes and
    restarts: it spawns each process under a new number, initializes it before anything else,
    asks it for nothing that its answer does not offer, and never writes to a process that its
    slot has replaced. -/
theorem handshaken_of_run {sender : Bool} {store : SessionStore} {b : StartAnswers n}
    {m₀ : AgentsManager n} {x : List (LivesStep n) × AgentsManager n}
    (hstart : start cfg (fresh cfg sender store) b = some m₀)
    (hrun : (lives cfg).recorded.RunUnder (fun _ _ => True) ([], m₀) x) :
    Handshaken (⟨fresh cfg sender store, .inr b, m₀⟩ :: x.1) x.2.trace := by
  obtain ⟨L, hruns, hL⟩ := onLinks_of_run hstart hrun
  have hproper := Links.proper_of_runs hruns
  have hseen : ∀ {before : List (Output n)} {o : Output n} {act : LinkAct (Fin n) Unit (Output n)},
      before ++ [o] <+: x.2.trace → o.linkAct = some act → ∃ before' a', before' ++ [a'] <+: L.log ∧
        before'.map LinkAct.shown = before.filterMap Output.linkAct ∧ a'.shown = act := by
    intro before o act hprefix hact
    refine Links.exists_of_shown ?_
    have hmapped := hprefix.filterMap Output.linkAct
    rwa [List.filterMap_append, List.filterMap_cons_some hact, List.filterMap_nil, ← hL.log]
      at hmapped
  refine ⟨fun before s no hprefix => ?_, fun before s no hprefix => ?_,
    fun before o s no hprefix hact => ?_⟩
  · obtain ⟨before', a', hlog, hbefore, ha'⟩ := hseen hprefix rfl
    have hjustified := hproper before' a' hlog
    cases a' <;> cases ha'
    intro act hmem
    rw [← hbefore] at hmem
    obtain ⟨a, ha, rfl⟩ := List.mem_map.mp hmem
    rw [LinkAct.no_shown]
    exact hjustified a ha
  · obtain ⟨before', a', hlog, hbefore, ha'⟩ := hseen hprefix rfl
    have hjustified := hproper before' a' hlog
    cases a' <;> cases ha'
    obtain ⟨hopened, hnewest⟩ := hjustified
    rw [← hbefore, Links.on_shown, hopened, Links.newest_shown]
    exact ⟨rfl, hnewest⟩
  · obtain ⟨before', a', hlog, hbefore, ha'⟩ := hseen hprefix hact
    have hjustified := hproper before' a' hlog
    cases a' <;> cases ha'
    obtain ⟨hnewest, c, hpermits, os, hon⟩ := hjustified
    rw [← hbefore, Links.newest_shown, Links.on_shown, hon]
    refine ⟨hnewest, ⟨c, hL.answers s no c ?_, hpermits⟩, os, ?_⟩
    · have hgreeted : .greeted s no (some c) ∈ Links.on before' no := by
        rw [hon]
        exact List.mem_cons_of_mem _ List.mem_cons_self
      exact hlog.subset (List.mem_append_left _ (List.mem_of_mem_filter hgreeted))
    · simp [LinkAct.shown, Function.comp_def]

/-- The agent crashes once; its second process is spawned, initialized and given a session. -/
theorem handshaken_of_run_crash :
    ∃ (m₀ : AgentsManager 1) (x : List (LivesStep 1) × AgentsManager 1),
      (Links.on (x.2.trace.filterMap Output.linkAct) 1).length = 3 ∧
        Handshaken (⟨fresh Sample.cfg true ∅, .inr Sample.boot, m₀⟩ :: x.1) x.2.trace := by
  have hrun : ∃ m₀ ∈ start Sample.cfg (fresh Sample.cfg true ∅) Sample.boot,
      ∃ x ∈ (lives Sample.cfg).recorded.run (fun _ _ => True) ([], m₀)
        ((Sample.crash (Sample.answers "s")).map Sum.inl),
        (Links.on (x.2.trace.filterMap Output.linkAct) 1).length = 3 := by
    decide +kernel
  obtain ⟨m₀, hstart, x, hx, hlength⟩ := hrun
  exact ⟨m₀, x, hlength, handshaken_of_run hstart (Machine.runUnder_of_run _ _ hx)⟩

end AgentsManager

end Anyclaw
