import Anyclaw.Agents.SessionOutcomes

/-!
# Outcomes of a crash

`handle_crash` for a slot: on which answers the slot gets a new process, what becomes
of its sessions, and what is left alone.

`handle_crash` calls `prepare_restart`, `notify_crash_to_channels`, `respawn_and_initialize`
and `restore_or_start_session` in this order, all of them in
`crates/anyclaw-agents/src/session_recovery.rs`.
-/

namespace Anyclaw

/-- The process can restore sessions that it did not create. -/
def InitializeResult.recovers (r : InitializeResult) : Bool :=
  match r.agentCapabilities with
  | some c => c.sessionCapabilities.resume || c.loadSession
  | none => false

def Answers.Initializes (a : Answers) : Prop :=
  a.spawned = true ∧
    ∃ r ∈ a.initializeAnswer.result?, r.protocolVersion = 1 ∨ r.protocolVersion = 2

instance (a : Answers) : Decidable a.Initializes :=
  inferInstanceAs (Decidable (_ ∧ ∃ r ∈ a.initializeAnswer.result?, _))

namespace AgentSlot

variable (slot : AgentSlot) (a : Answers)

def CanRestart : Prop :=
  (slot.lifecycle.recordCrashAndCheck a.crashRecordedAt a.crashCheckedAt).1 ≠ .disabled ∧
    a.Initializes

def CanRestore : Prop :=
  slot.CanRestart a ∧ (∃ r ∈ a.initializeAnswer.result?, r.recovers = true) ∧
    (AgentsManager.firstStaleId slot.retireSessions a).isSome ∧ a.recovery.result?.isSome

/-- The new process of a crashed slot gets a session, restored or created. -/
def ComesBack : Prop :=
  slot.CanRestore a ∨
    slot.CanRestart a ∧ a.newMcpUrls ≠ .unavailable ∧ a.sessionNew.result?.isSome

instance : Decidable (slot.CanRestart a) :=
  inferInstanceAs (Decidable (_ ∧ _))

instance : Decidable (slot.CanRestore a) :=
  inferInstanceAs (Decidable (_ ∧ (∃ r ∈ a.initializeAnswer.result?, _) ∧ _))

instance : Decidable (slot.ComesBack a) :=
  inferInstanceAs (Decidable (_ ∨ _))

end AgentSlot

namespace AgentsManager

variable {n : Nat} (cfg : AgentsManagerConfig n) (m : AgentsManager n)

/-! ### Until the new process runs -/

/-- Slot `s` gets a new process; its sessions are as they were. -/
structure Restarting (m m' : AgentsManager n) (s : Fin n) : Prop where
  tables : ∀ s', (m'.slots s').tables = (m.slots s').tables
  awaiting : ∀ s', (m'.slots s').awaitingFirstPrompt = (m.slots s').awaitingFirstPrompt
  connection : ∀ s', s' ≠ s → (m'.slots s').connection = (m.slots s').connection
  reader : ∀ s', s' ≠ s → (m'.slots s').readerAlive = (m.slots s').readerAlive
  rows : ∀ key, m'.sessionStore.openRow key = m.sessionStore.openRow key
  incoming : m'.incoming = m.incoming
  naming : ∃ os, m'.trace = m.trace ++ os ∧ os.filter Output.isNaming = []

section Restarting

variable {m} {m' m'' : AgentsManager n} {s : Fin n}

theorem Restarting.trans (h : Restarting m m' s) (h' : Restarting m' m'' s) :
    Restarting m m'' s := by
  obtain ⟨os, hos, hnone⟩ := h.naming
  obtain ⟨os', hos', hnone'⟩ := h'.naming
  exact
    { tables := fun s' => (h'.tables s').trans (h.tables s')
      awaiting := fun s' => (h'.awaiting s').trans (h.awaiting s')
      connection := fun s' hs => (h'.connection s' hs).trans (h.connection s' hs)
      reader := fun s' hs => (h'.reader s' hs).trans (h.reader s' hs)
      rows := fun key => (h'.rows key).trans (h.rows key)
      incoming := h'.incoming.trans h.incoming
      naming := ⟨os ++ os', by rw [hos', hos, List.append_assoc], by
        rw [List.filter_append, hnone, hnone', List.append_nil]⟩ }

theorem SessionsKept.restarting (h : SessionsKept m m') (s : Fin n) : Restarting m m' s where
  tables := h.tables
  awaiting := h.awaiting
  connection := fun s' _ => h.connection s'
  reader := fun s' _ => h.reader s'
  rows := h.rows
  incoming := h.incoming
  naming := h.naming

/-- An update of slot `s` that leaves its sessions alone. -/
theorem restarting_modifySlot (m : AgentsManager n) {f : AgentSlot → AgentSlot}
    (htables : (f (m.slots s)).tables = (m.slots s).tables)
    (hawait : (f (m.slots s)).awaitingFirstPrompt = (m.slots s).awaitingFirstPrompt) :
    Restarting m (m.modifySlot s f) s := by
  refine
    { tables := fun s' => ?_
      awaiting := fun s' => ?_
      connection := fun s' hs => ?_
      reader := fun s' hs => ?_
      rows := fun _ => rfl
      incoming := rfl
      naming := ⟨[], by simp, rfl⟩ }
  · rw [slots_modifySlot]
    split
    · rename_i hs
      rw [hs, htables]
    · rfl
  · rw [slots_modifySlot]
    split
    · rename_i hs
      rw [hs, hawait]
    · rfl
  · rw [slots_modifySlot, if_neg hs]
  · rw [slots_modifySlot, if_neg hs]

end Restarting

theorem initializeAgent_ok {s : Fin n} {conn : AgentConnection} {a : Answers}
    {r : InitializeResult} (hconn : (m.slots s).connection = some conn)
    (hr : a.initializeAnswer.result? = some r)
    (hversion : r.protocolVersion = 1 ∨ r.protocolVersion = 2) :
    ∃ m', initializeAgent cfg m s a = (.ok (), m') ∧ SessionsKept m m' ∧
      (m'.slots s).agentCapabilities = some r := by
  have hok : ¬ (r.protocolVersion ≠ 1 ∧ r.protocolVersion ≠ 2) := by
    rintro ⟨hone, htwo⟩
    rcases hversion with h | h
    · exact hone h
    · exact htwo h
  refine ⟨_, ?_, ((SessionsKept.refl m).emit (o := .request s conn.no .initializeAgent)
    rfl).modifySlot (s := s) (f := fun slot =>
      { slot with protocolVersion := r.protocolVersion, agentCapabilities := some r })
    rfl rfl rfl rfl, ?_⟩
  · unfold initializeAgent
    simp only [hconn, request_ok cfg m s conn _ hr, if_neg hok]
  · rw [slots_modifySlot, if_pos rfl]

theorem initializeAgent_error {s : Fin n} {a : Answers}
    (h : ¬ ∃ r ∈ a.initializeAnswer.result?, r.protocolVersion = 1 ∨ r.protocolVersion = 2) :
    ∃ e m', initializeAgent cfg m s a = (.error e, m') ∧ SessionsKept m m' := by
  unfold initializeAgent
  cases hconn : (m.slots s).connection with
  | none => exact ⟨_, _, rfl, SessionsKept.refl m⟩
  | some conn =>
      cases hr : a.initializeAnswer.result? with
      | none =>
          obtain ⟨e, m', heq, _, hkept⟩ := request_error cfg m s conn .initializeAgent hr
          simp only [heq]
          exact ⟨_, _, rfl, hkept⟩
      | some r =>
          have hbad : r.protocolVersion ≠ 1 ∧ r.protocolVersion ≠ 2 := by
            constructor
            · intro hone
              exact h ⟨r, hr, Or.inl hone⟩
            · intro htwo
              exact h ⟨r, hr, Or.inr htwo⟩
          simp only [request_ok cfg m s conn _ hr, if_pos hbad]
          exact ⟨_, _, rfl, (SessionsKept.refl m).emit rfl⟩

theorem spawnConnection_restarting (s : Fin n) : Restarting m (m.spawnConnection s) s := by
  have hmodify := restarting_modifySlot (s := s) m
    (f := fun slot => { slot with connection := some ⟨m.nextConnection⟩, readerAlive := true })
    rfl rfl
  refine hmodify.trans ?_
  exact ⟨fun _ => rfl, fun _ => rfl, fun _ _ => rfl, fun _ _ => rfl, fun _ => rfl, rfl,
    [.spawned s m.nextConnection], rfl, rfl⟩

theorem slots_spawnConnection (s : Fin n) :
    (m.spawnConnection s).slots s =
      { m.slots s with connection := some ⟨m.nextConnection⟩, readerAlive := true } := by
  unfold spawnConnection
  simp

/-- The process of slot `s` runs, with the capabilities it announced. -/
structure Running (m : AgentsManager n) (s : Fin n) (a : Answers) : Prop where
  connected : (m.slots s).connection.isSome
  reading : (m.slots s).readerAlive = true
  capabilities : (m.slots s).agentCapabilities = a.initializeAnswer.result?

theorem respawnAndInitialize_ok {s : Fin n} {a : Answers} (h : a.Initializes) :
    ∃ m', respawnAndInitialize cfg m s a = (true, m') ∧ Restarting m m' s ∧ Running m' s a := by
  obtain ⟨hspawned, r, hr, hversion⟩ := h
  have hslot := slots_spawnConnection m s
  obtain ⟨m', heq, hkept, hcaps⟩ := initializeAgent_ok cfg (m.spawnConnection s)
    (congrArg AgentSlot.connection hslot) hr hversion
  refine ⟨m', ?_, (spawnConnection_restarting m s).trans (hkept.restarting s), ?_, ?_, ?_⟩
  · unfold respawnAndInitialize
    rw [if_pos hspawned]
    simp only [heq]
  · rw [hkept.connection, hslot]
    rfl
  · rw [hkept.reader, hslot]
  · rw [hcaps]
    exact hr.symm

theorem respawnAndInitialize_error {s : Fin n} {a : Answers} (h : ¬ a.Initializes)
    (hdown : (m.slots s).connection = none) :
    ∃ m', respawnAndInitialize cfg m s a = (false, m') ∧ Restarting m m' s ∧
      (m'.slots s).connection = none := by
  unfold respawnAndInitialize
  by_cases hspawned : a.spawned = true
  · rw [if_pos hspawned]
    have hinit : ¬ ∃ r ∈ a.initializeAnswer.result?,
        r.protocolVersion = 1 ∨ r.protocolVersion = 2 := fun hinit => h ⟨hspawned, hinit⟩
    obtain ⟨e, m', heq, hkept⟩ := initializeAgent_error cfg (m.spawnConnection s)
      (s := s) hinit
    simp only [heq]
    refine ⟨_, rfl, ((spawnConnection_restarting m s).trans (hkept.restarting s)).trans
      (restarting_modifySlot m' rfl rfl), ?_⟩
    rw [dropConnection, slots_modifySlot, if_pos rfl]
  · rw [if_neg hspawned]
    exact ⟨m, rfl, (SessionsKept.refl m).restarting s, hdown⟩

/-- Before the new process: the old connection is dropped. -/
theorem prepareRestart_outcome (s : Fin n) (a : Answers) :
    ∃ m', m.prepareRestart s a =
        (decide (((m.slots s).lifecycle.recordCrashAndCheck a.crashRecordedAt
          a.crashCheckedAt).1 ≠ .disabled), m') ∧
      Restarting m m' s ∧ (m'.slots s).connection = none := by
  unfold prepareRestart
  dsimp only
  cases ((m.slots s).lifecycle.recordCrashAndCheck a.crashRecordedAt a.crashCheckedAt).1 with
  | disabled =>
      refine ⟨_, rfl, restarting_modifySlot m rfl rfl, ?_⟩
      rw [slots_modifySlot, if_pos rfl]
  | restartAfter delay =>
      refine ⟨_, rfl, restarting_modifySlot m rfl rfl, ?_⟩
      rw [slots_modifySlot, if_pos rfl]

theorem notifyCrashToChannels_restarting (s : Fin n) :
    Restarting m (notifyCrashToChannels cfg m s) s ∧
      ((notifyCrashToChannels cfg m s).slots s).connection = (m.slots s).connection := by
  have hsend := ((SessionsKept.refl m).sendEvents
    (crashNotices (m.slots s) (cfg.agents s).name)).restarting s
  refine ⟨hsend.trans (restarting_modifySlot _ rfl rfl), ?_⟩
  unfold notifyCrashToChannels
  rw [slots_modifySlot, if_pos rfl]
  rfl

/-! ### The sessions of the new process -/

def replayed (s : Fin n) (a : Answers) : List (SlotIncoming n) :=
  a.replayed.map fun u => { slotIdx := s, msg := some (.sessionUpdate ⟨u.1, u.2, true⟩) }

/-- Slot `s` has recovered from a crash with the tables `t`.  If a `session/load` was
    sent, the replayed updates are queued, and the session it answered with awaits its
    first prompt. -/
structure CrashChange (a : Answers) (m m' : AgentsManager n) (s : Fin n) (t : SessionTables)
    (news : List (Output n)) : Prop where
  tables : ∀ s', (m'.slots s').tables = if s' = s then t else (m.slots s').tables
  connection : ∀ s', s' ≠ s → (m'.slots s').connection = (m.slots s').connection
  reader : ∀ s', s' ≠ s → (m'.slots s').readerAlive = (m.slots s').readerAlive
  awaiting : ∀ s', s' ≠ s → (m'.slots s').awaitingFirstPrompt = (m.slots s').awaitingFirstPrompt
  rows : ∀ key, m'.sessionStore.openRow key = m.sessionStore.openRow key
  incoming : m'.incoming = m.incoming ∨ (m'.incoming = m.incoming ++ replayed s a ∧
    ∀ id, a.recovery.result? = some id → id ∈ (m'.slots s).awaitingFirstPrompt)
  naming : ∃ os, m'.trace = m.trace ++ os ∧ os.filter Output.isNaming = news

section CrashChange

variable {m} {m' m'' : AgentsManager n} {s : Fin n} {a : Answers} {t t' : SessionTables}
  {news : List (Output n)}

theorem Restarting.crashChange (h : Restarting m m' s) :
    CrashChange a m m' s (m.slots s).tables [] where
  tables := fun s' => by
    rw [h.tables s']
    split
    · rename_i hs
      rw [hs]
    · rfl
  connection := h.connection
  reader := h.reader
  awaiting := fun s' _ => h.awaiting s'
  rows := h.rows
  incoming := Or.inl h.incoming
  naming := h.naming

/-- A part that sends no `session/load`, before another. -/
theorem CrashChange.after (h : CrashChange a m m' s t []) (hincoming : m'.incoming = m.incoming)
    (h' : CrashChange a m' m'' s t' news) : CrashChange a m m'' s t' news := by
  obtain ⟨os, hos, hnone⟩ := h.naming
  obtain ⟨os', hos', hnews⟩ := h'.naming
  exact
    { tables := fun s' => by
        rw [h'.tables s', h.tables s']
        split <;> rfl
      connection := fun s' hs => (h'.connection s' hs).trans (h.connection s' hs)
      reader := fun s' hs => (h'.reader s' hs).trans (h.reader s' hs)
      awaiting := fun s' hs => (h'.awaiting s' hs).trans (h.awaiting s' hs)
      rows := fun key => (h'.rows key).trans (h.rows key)
      incoming := by rw [← hincoming]; exact h'.incoming
      naming := ⟨os ++ os', by rw [hos', hos, List.append_assoc], by
        rw [List.filter_append, hnone, hnews, List.nil_append]⟩ }

/-- A failed `session/load`, before another part. -/
theorem CrashChange.afterFailure (h : CrashChange a m m' s t [])
    (hfailed : a.recovery.result? = none) (h' : CrashChange a m' m'' s t' news)
    (hincoming : m''.incoming = m'.incoming) : CrashChange a m m'' s t' news := by
  obtain ⟨os, hos, hnone⟩ := h.naming
  obtain ⟨os', hos', hnews⟩ := h'.naming
  exact
    { tables := fun s' => by
        rw [h'.tables s', h.tables s']
        split <;> rfl
      connection := fun s' hs => (h'.connection s' hs).trans (h.connection s' hs)
      reader := fun s' hs => (h'.reader s' hs).trans (h.reader s' hs)
      awaiting := fun s' hs => (h'.awaiting s' hs).trans (h.awaiting s' hs)
      rows := fun key => (h'.rows key).trans (h.rows key)
      incoming := by
        rw [hincoming]
        rcases h.incoming with hsame | ⟨hload, _⟩
        · exact Or.inl hsame
        · exact Or.inr ⟨hload, fun id hid => by rw [hfailed] at hid; cases hid⟩
      naming := ⟨os ++ os', by rw [hos', hos, List.append_assoc], by
        rw [List.filter_append, hnone, hnews, List.nil_append]⟩ }

/-- An update of slot `s`. -/
theorem crashChange_modifySlot (a : Answers) (m : AgentsManager n) (s : Fin n)
    (f : AgentSlot → AgentSlot) :
    CrashChange a m (m.modifySlot s f) s (f (m.slots s)).tables [] := by
  refine
    { tables := fun s' => ?_
      connection := fun s' hs => ?_
      reader := fun s' hs => ?_
      awaiting := fun s' hs => ?_
      rows := fun _ => rfl
      incoming := Or.inl rfl
      naming := ⟨[], by simp, rfl⟩ }
  · rw [slots_modifySlot]
    split <;> rfl
  all_goals rw [slots_modifySlot, if_neg hs]

/-- The answer to a recovery request names a session; the tables are updated. -/
theorem crashChange_named (a : Answers) (m : AgentsManager n) (s : Fin n)
    (conn : AgentConnection) (r : AcpRequest) (how : SessionOrigin) (id : AcpSessionId)
    (f : AgentSlot → AgentSlot) :
    CrashChange a m (((m.emit (.request s conn.no r)).emit (.answered s conn.no how id)).modifySlot
      s f) s (f (m.slots s)).tables [.answered s conn.no how id] := by
  have hmodify := crashChange_modifySlot a
    ((m.emit (.request s conn.no r)).emit (.answered s conn.no how id)) s f
  refine
    { tables := hmodify.tables
      connection := hmodify.connection
      reader := hmodify.reader
      awaiting := hmodify.awaiting
      rows := fun _ => rfl
      incoming := Or.inl rfl
      naming := ⟨[.request s conn.no r, .answered s conn.no how id], by simp, rfl⟩ }

end CrashChange

inductive RestoreOutcome (s : Fin n) (a : Answers) : Bool × AgentsManager n → Prop
  | restored {first id : AcpSessionId} {conn : AgentConnection} {how : SessionOrigin}
      {m' : AgentsManager n} (hrecovers : ∃ r ∈ a.initializeAnswer.result?, r.recovers = true)
      (hfirst : firstStaleId (m.slots s) a = some first) (hid : a.recovery.result? = some id)
      (hconn : (m'.slots s).connection = some conn)
      (hchange : CrashChange a m m' s ((m.slots s).tables.reinstate first id)
        [.answered s conn.no how id]) :
      RestoreOutcome s a (true, m')
  | failed {m' : AgentsManager n}
      (hfails : ¬ ((∃ r ∈ a.initializeAnswer.result?, r.recovers = true) ∧
        (firstStaleId (m.slots s) a).isSome ∧ a.recovery.result?.isSome))
      (hslots : m'.slots = m.slots)
      (hchange : CrashChange a m m' s (m.slots s).tables [])
      (hload : m'.incoming = m.incoming ∨ a.recovery.result? = none) :
      RestoreOutcome s a (false, m')

theorem firstStaleId_mem {slot : AgentSlot} {a : Answers} {first : AcpSessionId}
    (h : firstStaleId slot a = some first) : ∃ k, slot.staleSessions.get? k = some first := by
  unfold firstStaleId at h
  cases hget : slot.staleSessions.get? a.firstStale with
  | some id =>
      rw [hget] at h
      cases h
      exact ⟨a.firstStale, hget⟩
  | none =>
      rw [hget] at h
      exact (KeyedMap.mem_values _ _).mp (List.mem_of_mem_head? h)

section Restore

variable {m} {s : Fin n} {a : Answers}

theorem supports_iff (h : Running m s a) :
    ((m.slots s).supportsResume = true ∨ (m.slots s).supportsLoad = true) ↔
      ∃ r ∈ a.initializeAnswer.result?, r.recovers = true := by
  unfold AgentSlot.supportsResume AgentSlot.supportsLoad AgentSlot.hasSessionCapability
    InitializeResult.recovers
  rw [h.capabilities]
  cases a.initializeAnswer.result? with
  | none => simp
  | some r =>
      cases hcaps : r.agentCapabilities with
      | none => simp [hcaps]
      | some c => simp [hcaps]

/-- `session/load` answered: the replayed updates are queued. -/
theorem load_crashChange (h : Running m s a) (conn : AgentConnection) (staleId : AcpSessionId)
    {id : AcpSessionId} (hid : a.recovery.result? = some id) {f : AgentSlot → AgentSlot}
    (hawait : id ∈ (f (m.slots s)).awaitingFirstPrompt) :
    ∃ m₁, loadSession cfg m s conn staleId a = (some id, m₁) ∧ m₁.slots = m.slots ∧
      CrashChange a m (m₁.modifySlot s f) s (f (m.slots s)).tables
        [.answered s conn.no .loaded id] := by
  have hreplays : m.replays s a = replayed s a := by
    unfold replays
    rw [if_pos ⟨h.reading, fun hunsent => by rw [hunsent] at hid; cases hid⟩]
    rfl
  refine ⟨((m.receive (m.replays s a)).emit (.request s conn.no
    (.sessionLoad staleId (cfg.agents s).cwd (mcpServers a.mcpUrls)))).emit
      (.answered s conn.no .loaded id), ?_, rfl, ?_⟩
  · unfold loadSession requestRecovery
    rw [request_ok cfg (m.receive (m.replays s a)) s conn _ hid]
  · have hnamed := crashChange_named a (m.receive (m.replays s a)) s conn
      (.sessionLoad staleId (cfg.agents s).cwd (mcpServers a.mcpUrls)) .loaded id f
    refine
      { tables := hnamed.tables
        connection := hnamed.connection
        reader := hnamed.reader
        awaiting := hnamed.awaiting
        rows := hnamed.rows
        incoming := Or.inr ⟨congrArg (m.incoming ++ ·) hreplays, fun id' hid' => ?_⟩
        naming := hnamed.naming }
    rw [hid] at hid'
    cases hid'
    rw [slots_modifySlot, if_pos rfl]
    exact hawait

/-- `session/load` failed. -/
theorem load_failed (s : Fin n) (conn : AgentConnection) (staleId : AcpSessionId)
    (hid : a.recovery.result? = none) :
    ∃ m₁, loadSession cfg m s conn staleId a = (none, m₁) ∧ m₁.slots = m.slots ∧
      CrashChange a m m₁ s (m.slots s).tables [] := by
  obtain ⟨e, m₁, heq, hslots, hkept⟩ := request_error cfg (m.receive (m.replays s a)) s conn
    (.sessionLoad staleId (cfg.agents s).cwd (mcpServers a.mcpUrls)) hid
  refine ⟨m₁, by simp only [loadSession, requestRecovery, heq], hslots, ?_⟩
  have hrest := (hkept.restarting s).crashChange (a := a)
  refine
    { tables := hrest.tables
      connection := hrest.connection
      reader := hrest.reader
      awaiting := hrest.awaiting
      rows := hrest.rows
      incoming := ?_
      naming := hrest.naming }
  rw [hkept.incoming, receive_incoming]
  unfold replays
  split
  · exact Or.inr ⟨rfl, fun id hid' => by rw [hid] at hid'; cases hid'⟩
  · exact Or.inl (List.append_nil _)

theorem tryRestoreSession_outcome (h : Running m s a) :
    RestoreOutcome m s a (tryRestoreSession cfg m s a) := by
  have hkeep := ((SessionsKept.refl m).restarting s).crashChange (a := a)
  unfold tryRestoreSession
  obtain ⟨conn, hconn⟩ := Option.isSome_iff_exists.mp h.connected
  cases hfirst : firstStaleId (m.slots s) a with
  | none =>
      refine .failed ?_ rfl hkeep (Or.inl rfl)
      rintro ⟨_, hsome, _⟩
      rw [hfirst] at hsome
      cases hsome
  | some first =>
      simp only [hconn]
      by_cases hresume : (m.slots s).supportsResume = true
      · rw [if_pos hresume]
        have hrecovers := (supports_iff h).mp (Or.inl hresume)
        cases hid : a.recovery.result? with
        | none =>
            obtain ⟨e, m₁, heq, hslots, hkept⟩ := request_error cfg m s conn
              (.sessionResume first (cfg.agents s).cwd (mcpServers a.mcpUrls)) hid
            simp only [resumeSession, requestRecovery, heq]
            refine .failed ?_ hslots (hkept.restarting s).crashChange (Or.inl hkept.incoming)
            rintro ⟨_, _, hsome⟩
            rw [hid] at hsome
            cases hsome
        | some id =>
            simp only [resumeSession, requestRecovery, request_ok cfg m s conn _ hid]
            refine .restored hrecovers hfirst hid ?_ (crashChange_named a m s conn _ .resumed id
              fun slot => slot.reinstateSessions first id)
            rw [slots_modifySlot, if_pos rfl]
            exact hconn
      · rw [if_neg hresume]
        by_cases hload : (m.slots s).supportsLoad = true
        · rw [if_pos hload]
          have hrecovers := (supports_iff h).mp (Or.inr hload)
          cases hid : a.recovery.result? with
          | none =>
              obtain ⟨m₁, heq, hslots, hchange⟩ := load_failed cfg (m := m) s conn first hid
              simp only [heq]
              refine .failed ?_ hslots hchange (Or.inr hid)
              rintro ⟨_, _, hsome⟩
              rw [hid] at hsome
              cases hsome
          | some id =>
              have hawait : id ∈ ((m.slots s).reinstateSessions first
                  id).awaitAllFirstPrompts.awaitingFirstPrompt := by
                obtain ⟨k, hk⟩ := firstStaleId_mem hfirst
                refine Finset.mem_union_right _ (List.mem_toFinset.mpr ?_)
                rw [KeyedMap.mem_values]
                refine ⟨k, ?_⟩
                simp [hk]
              obtain ⟨m₁, heq, hslots, hchange⟩ := load_crashChange cfg h conn first (f := fun slot =>
                (slot.reinstateSessions first id).awaitAllFirstPrompts) hid hawait
              simp only [heq]
              refine .restored hrecovers hfirst hid ?_ hchange
              rw [slots_modifySlot, if_pos rfl, hslots]
              exact hconn
        · rw [if_neg hload]
          refine .failed ?_ rfl hkeep (Or.inl rfl)
          rintro ⟨hrecovers, _⟩
          rcases (supports_iff h).mpr hrecovers with hyes | hyes
          · exact hresume hyes
          · exact hload hyes

end Restore

inductive CrashOutcome (s : Fin n) (a : Answers) : AgentsManager n → Prop
  /-- The slot is disabled, or no new process runs. -/
  | down {m' : AgentsManager n} (hcannot : ¬ (m.slots s).CanRestart a)
      (hconn : (m'.slots s).connection = none)
      (hchange : CrashChange a m m' s (m.slots s).tables []) : CrashOutcome s a m'
  | restored {first id : AcpSessionId} {conn : AgentConnection} {how : SessionOrigin}
      {m' : AgentsManager n} (hcan : (m.slots s).CanRestore a)
      (hfirst : firstStaleId (m.slots s).retireSessions a = some first)
      (hid : a.recovery.result? = some id) (hconn : (m'.slots s).connection = some conn)
      (hchange : CrashChange a m m' s ((m.slots s).tables.retire.reinstate first id)
        [.answered s conn.no how id]) : CrashOutcome s a m'
  | restarted {id : AcpSessionId} {conn : AgentConnection} {m' : AgentsManager n}
      (hcan : (m.slots s).CanRestart a) (hnot : ¬ (m.slots s).CanRestore a)
      (hid : a.sessionNew.result? = some id) (hconn : (m'.slots s).connection = some conn)
      (hchange : CrashChange a m m' s ((m.slots s).tables.retire.restart (cfg.agents s).name id)
        [.answered s conn.no .created id])
      (hurls : a.newMcpUrls ≠ .unavailable) : CrashOutcome s a m'
  /-- The new process has no session. -/
  | retired {m' : AgentsManager n} (hcan : (m.slots s).CanRestart a)
      (hnot : ¬ (m.slots s).CanRestore a) (hconn : (m'.slots s).connection = none)
      (hchange : CrashChange a m m' s (m.slots s).tables.retire [])
      (hcannot : ¬ (a.newMcpUrls ≠ .unavailable ∧ a.sessionNew.result?.isSome)) :
      CrashOutcome s a m'

theorem firstStaleId_tables {slot slot' : AgentSlot} (a : Answers)
    (h : slot'.tables = slot.tables) : firstStaleId slot' a = firstStaleId slot a := by
  have hstale : slot'.staleSessions = slot.staleSessions :=
    congrArg SessionTables.staleSessions h
  unfold firstStaleId
  rw [hstale]

/-- A request that names a session, then an update of slot `s`. -/
theorem SessionChange.crashChange {m₁ m₂ : AgentsManager n} {s : Fin n} {a : Answers}
    {t : SessionTables} {news : List (Output n)} (h : SessionChange a m₁ m₂ s t none news)
    (hslots : m₂.slots = m₁.slots) (hincoming : m₂.incoming = m₁.incoming)
    (f : AgentSlot → AgentSlot) :
    CrashChange a m₁ (m₂.modifySlot s f) s (f (m₁.slots s)).tables news := by
  have hmodify := crashChange_modifySlot a m₂ s f
  rw [hslots] at hmodify
  exact
    { tables := fun s' => by rw [hmodify.tables, hslots]
      connection := fun s' hs => by rw [hmodify.connection s' hs, hslots]
      reader := fun s' hs => by rw [hmodify.reader s' hs, hslots]
      awaiting := fun s' hs => by rw [hmodify.awaiting s' hs, hslots]
      rows := h.rows
      incoming := Or.inl hincoming
      naming := h.naming }

/-- The sessions become stale; one is restored, or a default session is started. -/
theorem restoreOrStartSession_outcome {m₁ : AgentsManager n} {s : Fin n} {a : Answers}
    (hrestarting : Restarting m m₁ s) (hrunning : Running m₁ s a)
    (hcan : (m.slots s).CanRestart a) :
    CrashOutcome cfg m s a (restoreOrStartSession cfg m₁ s a) := by
  have hretire : (m₁.slots s).retireSessions.tables = (m.slots s).tables.retire := by
    rw [AgentSlot.tables_retireSessions, hrestarting.tables]
  have hslot : (m₁.modifySlot s AgentSlot.retireSessions).slots s =
      (m₁.slots s).retireSessions := by
    rw [slots_modifySlot, if_pos rfl]
  have hbase := (hrestarting.crashChange (a := a)).after hrestarting.incoming
    (crashChange_modifySlot a m₁ s AgentSlot.retireSessions)
  have hincoming : (m₁.modifySlot s AgentSlot.retireSessions).incoming = m.incoming :=
    hrestarting.incoming
  have hrunning' : Running (m₁.modifySlot s AgentSlot.retireSessions) s a := by
    refine ⟨?_, ?_, ?_⟩
    · rw [hslot]
      exact hrunning.connected
    · rw [hslot]
      exact hrunning.reading
    · rw [hslot]
      exact hrunning.capabilities
  have hstale : firstStaleId ((m₁.modifySlot s AgentSlot.retireSessions).slots s) a =
      firstStaleId (m.slots s).retireSessions a := by
    rw [hslot]
    exact firstStaleId_tables a (hretire.trans (AgentSlot.tables_retireSessions _).symm)
  have houtcome := tryRestoreSession_outcome cfg hrunning'
  unfold restoreOrStartSession
  dsimp only
  generalize tryRestoreSession cfg (m₁.modifySlot s AgentSlot.retireSessions) s a = r at houtcome
  rw [hretire] at hbase
  cases houtcome with
  | restored hrecovers hfirst hid hconn hchange =>
      rw [hslot, hretire] at hchange
      rw [hstale] at hfirst
      refine .restored ⟨hcan, hrecovers, by rw [hfirst]; rfl, by rw [hid]; rfl⟩ hfirst hid hconn
        (hbase.after hincoming hchange)
  | @failed m₂ hfails hslots hchange hload =>
      rw [hslot, hretire] at hchange
      rw [hstale] at hfails
      have hnot : ¬ (m.slots s).CanRestore a := fun h => hfails h.2
      have hsofar := hbase.after hincoming hchange
      have htables : (m₂.slots s).tables = (m.slots s).tables.retire := by
        rw [hslots, hslot, hretire]
      -- whatever follows sends no `session/load`
      have hthen : ∀ {m₃ : AgentsManager n} {t : SessionTables} {news : List (Output n)},
          CrashChange a m₂ m₃ s t news → m₃.incoming = m₂.incoming →
          CrashChange a m m₃ s t news := by
        intro m₃ t news h hsame
        rcases hload with hinc | hnone
        · exact hsofar.after (hinc.trans hincoming) h
        · exact hsofar.afterFailure hnone h hsame
      dsimp only
      by_cases hstart : (m₂.slots s).CanStart a
      · obtain ⟨conn, id, m₃, hconn, hid, heq, hslots₃, hinc₃, hchange₃⟩ :=
          startSession_ok cfg m₂ hstart
        simp only [heq]
        have hlast := hchange₃.crashChange hslots₃ hinc₃
          (fun slot => slot.restartSessions (cfg.agents s).name id)
        rw [AgentSlot.tables_restartSessions, htables] at hlast
        have hconn₃ : (((m₃.modifySlot s fun slot =>
            slot.restartSessions (cfg.agents s).name id)).slots s).connection = some conn := by
          rw [slots_modifySlot, if_pos rfl, hslots₃]
          exact hconn
        exact .restarted hcan hnot hid hconn₃ (hthen hlast hinc₃) hstart.1
      · obtain ⟨e, m₃, heq, hslots₃, hkept₃⟩ := startSession_error cfg m₂ hstart
        simp only [heq]
        have hlast := (hkept₃.toChange a s).crashChange hslots₃ hkept₃.incoming
          (fun slot => { slot with connection := none })
        have hconnected : (m₂.slots s).connection.isSome := by
          rw [hslots]
          exact hrunning'.connected
        refine .retired hcan hnot ?_ (hthen ?_ hkept₃.incoming) ?_
        · rw [dropConnection, slots_modifySlot, if_pos rfl]
        · rw [← htables]
          exact hlast
        · exact fun hcan => hstart ⟨hcan.1, hconnected, hcan.2⟩

theorem handleCrash_outcome (s : Fin n) (a : Answers) :
    CrashOutcome cfg m s a (handleCrash cfg m s a) := by
  obtain ⟨m₁, heq, hprepare, hdown⟩ := prepareRestart_outcome m s a
  unfold handleCrash
  simp only [heq]
  by_cases haction : ((m.slots s).lifecycle.recordCrashAndCheck a.crashRecordedAt
      a.crashCheckedAt).1 ≠ .disabled
  · obtain ⟨hnotify, hsame⟩ := notifyCrashToChannels_restarting cfg m₁ s
    have hnotified := hprepare.trans hnotify
    have hdown' := hsame.trans hdown
    simp only [decide_eq_true haction]
    by_cases hinit : a.Initializes
    · obtain ⟨m₂, heq₂, hrespawn, hrunning⟩ := respawnAndInitialize_ok cfg
        (notifyCrashToChannels cfg m₁ s) (s := s) hinit
      simp only [heq₂]
      exact restoreOrStartSession_outcome cfg m (hnotified.trans hrespawn) hrunning
        ⟨haction, hinit⟩
    · obtain ⟨m₂, heq₂, hrespawn, hnone⟩ := respawnAndInitialize_error cfg
        (notifyCrashToChannels cfg m₁ s) hinit hdown'
      simp only [heq₂]
      exact .down (fun h => hinit h.2) hnone (hnotified.trans hrespawn).crashChange
  · simp only [decide_eq_false haction]
    exact .down (fun h => haction h.1) hdown hprepare.crashChange

end AgentsManager

end Anyclaw
