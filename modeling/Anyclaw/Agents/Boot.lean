import Anyclaw.Agents.CrashOutcomes
import Anyclaw.Agents.Dispatch

/-!
# Boot

What `start` leaves behind: every slot has a process with its default session, and the
stored sessions are stale sessions of their slots.

`AgentsManager::start` (`crates/anyclaw-agents/src/manager.rs`) builds the slots one after the
other with `build_started_slot`, and then reads the open sessions of the store.
-/

namespace Anyclaw.AgentsManager

variable {n : Nat} {cfg : AgentsManagerConfig n} {m m' : AgentsManager n}

/-! ### Slots -/

structure SlotStarted (cfg : AgentsManagerConfig n) (a : Answers) (m m' : AgentsManager n)
    (s : Fin n) (id : AcpSessionId) : Prop where
  answer : a.sessionNew.result? = some id
  tables : (m'.slots s).tables =
    (m.slots s).tables.register (AgentSlot.defaultKey (cfg.agents s).name) id
  known : ∃ conn, (m'.slots s).connection = some conn ∧
    Output.answered s conn.no .created id ∈ m'.trace

structure OthersKept (m m' : AgentsManager n) (s : Fin n) : Prop where
  slots : ∀ s', s' ≠ s → (m'.slots s').tables = (m.slots s').tables ∧
    (m'.slots s').connection = (m.slots s').connection
  rows : ∀ key, m'.sessionStore.openRow key = m.sessionStore.openRow key
  incoming : m'.incoming = m.incoming
  trace : m.trace <+: m'.trace

theorem buildStartedSlot_ok {s : Fin n} {a : Answers}
    (h : buildStartedSlot cfg m s a = (.ok (), m')) :
    (∃ id, SlotStarted cfg a m m' s id) ∧ OthersKept m m' s := by
  unfold buildStartedSlot at h
  by_cases hspawned : a.spawned = true
  · rw [if_pos hspawned] at h
    have hspawn := spawnConnection_restarting m s
    have hslot := slots_spawnConnection m s
    by_cases hinit : ∃ r ∈ a.initializeAnswer.result?, r.protocolVersion = 1 ∨ r.protocolVersion = 2
    · obtain ⟨r, hr, hversion⟩ := hinit
      obtain ⟨m₁, heq, hkept, _⟩ := initializeAgent_ok cfg (m.spawnConnection s)
        (congrArg AgentSlot.connection hslot) hr hversion
      simp only [heq] at h
      have hready := hspawn.trans (hkept.restarting s)
      by_cases hstart : (m₁.slots s).CanStart a
      · obtain ⟨conn, id, m₂, hconn, hid, heq₂, hslots₂, hinc₂, hchange⟩ :=
          startSession_ok cfg m₁ hstart
        simp only [heq₂] at h
        cases h
        have hall := (hready.crashChange (a := a)).after hready.incoming
          (hchange.crashChange hslots₂ hinc₂ fun slot =>
            slot.registerDefaultSession (cfg.agents s).name id)
        have hnamed : Output.answered s conn.no .created id ∈ m₂.trace := by
          obtain ⟨os, hos, hnews⟩ := hchange.naming
          rw [hos]
          refine List.mem_append_right _ (List.mem_of_mem_filter (p := Output.isNaming) ?_)
          rw [hnews]
          exact List.mem_singleton_self _
        refine ⟨⟨id, hid, ?_, conn, ?_, hnamed⟩, ?_, hall.rows, ?_, ?_⟩
        · rw [slots_modifySlot, if_pos rfl, AgentSlot.registerDefaultSession,
            AgentSlot.tables_registerSession, hslots₂, hready.tables]
        · rw [slots_modifySlot, if_pos rfl, hslots₂]
          exact hconn
        · intro s' hs
          exact ⟨(hall.tables s').trans (if_neg hs), hall.connection s' hs⟩
        · exact hinc₂.trans hready.incoming
        · obtain ⟨os, hos, _⟩ := hall.naming
          exact ⟨os, hos.symm⟩
      · obtain ⟨e, m₂, heq₂, _, _⟩ := startSession_error cfg m₁ hstart
        simp only [heq₂] at h
        cases h
    · obtain ⟨e, m₁, heq, _⟩ := initializeAgent_error cfg (m.spawnConnection s)
        (s := s) hinit
      simp only [heq] at h
      cases h
  · rw [if_neg hspawned] at h
    cases h

/-- The slots of the list were started, the others are as they were. -/
structure SlotsStarted (cfg : AgentsManagerConfig n) (b : StartAnswers n) (ss : List (Fin n))
    (m m' : AgentsManager n) : Prop where
  started : ∀ s ∈ ss, ∃ id, SlotStarted cfg (b.agents s) m m' s id
  others : ∀ s, s ∉ ss → (m'.slots s).tables = (m.slots s).tables ∧
    (m'.slots s).connection = (m.slots s).connection
  rows : ∀ key, m'.sessionStore.openRow key = m.sessionStore.openRow key
  incoming : m'.incoming = m.incoming
  trace : m.trace <+: m'.trace

theorem startSlots_ok {b : StartAnswers n} :
    ∀ (ss : List (Fin n)) (m : AgentsManager n), ss.Nodup → startSlots cfg b ss m = some m' →
      SlotsStarted cfg b ss m m'
  | [], m, _, h => by
      cases h
      exact ⟨fun s hs => absurd hs List.not_mem_nil, fun _ _ => ⟨rfl, rfl⟩, fun _ => rfl, rfl,
        List.prefix_refl _⟩
  | s :: rest, m, hnodup, h => by
      obtain ⟨hnot, hnodup'⟩ := List.nodup_cons.mp hnodup
      rw [startSlots] at h
      split at h
      · rename_i m₁ heq
        obtain ⟨⟨id, hstarted⟩, hothers⟩ := buildStartedSlot_ok heq
        have ih := startSlots_ok rest m₁ hnodup' h
        obtain ⟨htables, hconn⟩ := ih.others s hnot
        refine
          { started := fun s' hs' => ?_
            others := fun s' hs' => ?_
            rows := fun key => (ih.rows key).trans (hothers.rows key)
            incoming := ih.incoming.trans hothers.incoming
            trace := hothers.trace.trans ih.trace }
        · rcases List.mem_cons.mp hs' with rfl | hrest
          · obtain ⟨conn, hup, hnamed⟩ := hstarted.known
            exact ⟨id, hstarted.answer, htables.trans hstarted.tables, conn, hconn.trans hup,
              ih.trace.subset hnamed⟩
          · have hne : s' ≠ s := fun heq => hnot (heq ▸ hrest)
            obtain ⟨id', hstarted'⟩ := ih.started s' hrest
            refine ⟨id', hstarted'.answer, ?_, hstarted'.known⟩
            rw [hstarted'.tables, (hothers.slots s' hne).1]
        · obtain ⟨hne, hrest⟩ := not_or.mp (mt List.mem_cons.mpr hs')
          exact ⟨(ih.others s' hrest).1.trans (hothers.slots s' hne).1,
            (ih.others s' hrest).2.trans (hothers.slots s' hne).2⟩
      · cases h

/-! ### The store -/

structure RowsLoaded (cfg : AgentsManagerConfig n) (rows : List PersistedSession)
    (m m' : AgentsManager n) : Prop where
  sessionMap : ∀ s, (m'.slots s).sessionMap = (m.slots s).sessionMap
  reverseMap : ∀ s, (m'.slots s).reverseMap = (m.slots s).reverseMap
  connection : ∀ s, (m'.slots s).connection = (m.slots s).connection
  /-- A stale session was there before or comes from a row. -/
  origin : ∀ s k id, (m'.slots s).staleSessions.get? k = some id →
    (m.slots s).staleSessions.get? k = some id ∨ (Output.stored s id ∈ m'.trace ∧
      ∃ p ∈ rows, storedKey p = k ∧ findSlotByName cfg p.agentName = some s ∧
        p.acpSessionId = id)
  loaded : ∀ s k, ((m.slots s).staleSessions.get? k).isSome ∨
    (∃ p ∈ rows, storedKey p = k ∧ findSlotByName cfg p.agentName = some s) →
      ((m'.slots s).staleSessions.get? k).isSome
  sessionStore : m'.sessionStore = m.sessionStore
  incoming : m'.incoming = m.incoming
  trace : m.trace <+: m'.trace

theorem rowsLoaded_nil (cfg : AgentsManagerConfig n) (m : AgentsManager n) :
    RowsLoaded cfg [] m m where
  sessionMap := fun _ => rfl
  reverseMap := fun _ => rfl
  connection := fun _ => rfl
  origin := fun _ _ _ h => Or.inl h
  loaded := fun _ _ h => h.resolve_right fun ⟨_, hp, _⟩ => absurd hp List.not_mem_nil
  sessionStore := rfl
  incoming := rfl
  trace := List.prefix_refl _

/-- One row. -/
theorem loadRow_loaded (m : AgentsManager n) (p : PersistedSession) :
    RowsLoaded cfg [p] m (loadRow cfg m p) := by
  unfold loadRow
  cases hfind : findSlotByName cfg p.agentName with
  | none =>
      refine { rowsLoaded_nil cfg m with
        origin := fun _ _ _ h => Or.inl h
        loaded := fun s k h => h.resolve_right ?_ }
      rintro ⟨p', hp', _, hslot⟩
      rw [List.mem_singleton.mp hp', hfind] at hslot
      cases hslot
  | some s₀ =>
      have hslot : ∀ s, ((m.modifySlot s₀ fun slot => { slot with
          staleSessions := slot.staleSessions.setIfAbsent (storedKey p) p.acpSessionId }).slots s) =
          if s = s₀ then { m.slots s₀ with
            staleSessions := (m.slots s₀).staleSessions.setIfAbsent (storedKey p) p.acpSessionId }
          else m.slots s := fun s => slots_modifySlot m s₀ s _
      refine
        { sessionMap := fun s => ?_
          reverseMap := fun s => ?_
          connection := fun s => ?_
          origin := fun s k id h => ?_
          loaded := fun s k h => ?_
          sessionStore := rfl
          incoming := rfl
          trace := List.prefix_append _ _ }
      · rw [emit_slots, hslot]
        split
        · rename_i hs; rw [hs]
        · rfl
      · rw [emit_slots, hslot]
        split
        · rename_i hs; rw [hs]
        · rfl
      · rw [emit_slots, hslot]
        split
        · rename_i hs; rw [hs]
        · rfl
      · rw [emit_slots, hslot] at h
        by_cases hs : s = s₀
        · subst hs
          rw [if_pos rfl, KeyedMap.get?_setIfAbsent] at h
          by_cases hk : k = storedKey p
          · subst hk
            rw [if_pos rfl] at h
            cases hold : (m.slots s).staleSessions.get? (storedKey p) with
            | some id' =>
                rw [hold] at h
                exact Or.inl h
            | none =>
                rw [hold] at h
                cases h
                exact Or.inr ⟨List.mem_append_right _ (List.mem_singleton_self _), p,
                  List.mem_singleton_self p, rfl, hfind, rfl⟩
          · rw [if_neg hk] at h
            exact Or.inl h
        · rw [if_neg hs] at h
          exact Or.inl h
      · rw [emit_slots, hslot]
        by_cases hs : s = s₀
        · subst hs
          rw [if_pos rfl, KeyedMap.get?_setIfAbsent]
          by_cases hk : k = storedKey p
          · subst hk
            rw [if_pos rfl]
            cases (m.slots s).staleSessions.get? (storedKey p) <;> rfl
          · rw [if_neg hk]
            refine h.resolve_right ?_
            rintro ⟨p', hp', hkey, _⟩
            rw [List.mem_singleton.mp hp'] at hkey
            exact hk hkey.symm
        · rw [if_neg hs]
          refine h.resolve_right ?_
          rintro ⟨p', hp', _, hfind'⟩
          rw [List.mem_singleton.mp hp', hfind] at hfind'
          exact hs (Option.some.inj hfind').symm

theorem RowsLoaded.trans {rows rows' : List PersistedSession} {m₁ m₂ m₃ : AgentsManager n}
    (h : RowsLoaded cfg rows m₁ m₂) (h' : RowsLoaded cfg rows' m₂ m₃) :
    RowsLoaded cfg (rows ++ rows') m₁ m₃ where
  sessionMap := fun s => (h'.sessionMap s).trans (h.sessionMap s)
  reverseMap := fun s => (h'.reverseMap s).trans (h.reverseMap s)
  connection := fun s => (h'.connection s).trans (h.connection s)
  origin := fun s k id hstale => by
    rcases h'.origin s k id hstale with hmid | ⟨hnamed, p, hp, hrest⟩
    · rcases h.origin s k id hmid with hold | ⟨hnamed, p, hp, hrest⟩
      · exact Or.inl hold
      · exact Or.inr ⟨h'.trace.subset hnamed, p, List.mem_append_left _ hp, hrest⟩
    · exact Or.inr ⟨hnamed, p, List.mem_append_right _ hp, hrest⟩
  loaded := fun s k hsome => by
    refine h'.loaded s k ?_
    rcases hsome with hold | ⟨p, hp, hrest⟩
    · exact Or.inl (h.loaded s k (Or.inl hold))
    · rcases List.mem_append.mp hp with hp | hp
      · exact Or.inl (h.loaded s k (Or.inr ⟨p, hp, hrest⟩))
      · exact Or.inr ⟨p, hp, hrest⟩
  sessionStore := h'.sessionStore.trans h.sessionStore
  incoming := h'.incoming.trans h.incoming
  trace := h.trace.trans h'.trace

theorem foldl_loadRow_loaded (rows : List PersistedSession) (m : AgentsManager n) :
    RowsLoaded cfg rows m (rows.foldl (loadRow cfg) m) := by
  induction rows generalizing m with
  | nil => exact rowsLoaded_nil cfg m
  | cons p rows ih => exact (loadRow_loaded m p).trans (ih _)

/-! ### `start` -/

structure Booted (cfg : AgentsManagerConfig n) (b : StartAnswers n) (m m' : AgentsManager n) :
    Prop where
  /-- Only the default session is live, in the process that answered with it. -/
  slots : ∀ s, ∃ conn id, (m'.slots s).connection = some conn ∧
    (b.agents s).sessionNew.result? = some id ∧
    Output.answered s conn.no .created id ∈ m'.trace ∧
    (m'.slots s).sessionMap = KeyedMap.set ∅ (AgentSlot.defaultKey (cfg.agents s).name) id ∧
    (m'.slots s).reverseMap = KeyedMap.set ∅ id (AgentSlot.defaultKey (cfg.agents s).name)
  /-- The stale sessions come from the store. -/
  stale : ∀ s k id, (m'.slots s).staleSessions.get? k = some id →
    Output.stored s id ∈ m'.trace ∧ ∃ p ∈ m'.sessionStore.openSessions, storedKey p = k ∧
      findSlotByName cfg p.agentName = some s ∧ p.acpSessionId = id
  loaded : b.openSessions.isSome → ∀ s, ∀ p ∈ m'.sessionStore.openSessions,
    findSlotByName cfg p.agentName = some s →
      ((m'.slots s).staleSessions.get? (storedKey p)).isSome
  rows : ∀ key owner, m'.sessionStore.openRow key = some owner →
    m.sessionStore.openRow key = some owner
  incoming : m'.incoming = m.incoming
  trace : m.trace <+: m'.trace

theorem start_booted {b : StartAnswers n} (hnew : ∀ s, m.slots s = AgentSlot.new (cfg.agents s))
    (h : start cfg m b = some m') : Booted cfg b m m' := by
  obtain ⟨m₁, hslots, hload⟩ := Option.bind_eq_some_iff.mp h
  have hstarted := startSlots_ok _ m (List.nodup_finRange n) hslots
  have hslot : ∀ s, ∃ id, SlotStarted cfg (b.agents s) m m₁ s id := fun s =>
    hstarted.started s (List.mem_finRange s)
  have hstale : ∀ s, (m₁.slots s).staleSessions = ∅ := by
    intro s
    obtain ⟨id, hs⟩ := hslot s
    have htables := congrArg SessionTables.staleSessions hs.tables
    rw [hnew s] at htables
    exact htables
  -- the state from which the rows are loaded
  have hcore : ∀ m₂ : AgentsManager n, m₂.slots = m₁.slots → m₂.incoming = m₁.incoming →
      m₂.trace = m₁.trace → (∀ key owner, m₂.sessionStore.openRow key = some owner →
        m₁.sessionStore.openRow key = some owner) →
      ∀ rows, (∀ p ∈ rows, p ∈ m₂.sessionStore.openSessions) →
        (b.openSessions.isSome → ∀ p ∈ m₂.sessionStore.openSessions, p ∈ rows) →
        ∀ m₃, RowsLoaded cfg rows m₂ m₃ → Booted cfg b m m₃ := by
    intro m₂ hsame hinc htrace hrows rows hsub hall m₃ hloaded
    refine
      { slots := fun s => ?_
        stale := fun s k id hget => ?_
        loaded := fun hsome s p hp hfind => ?_
        rows := fun key owner howner => ?_
        incoming := hloaded.incoming.trans (hinc.trans hstarted.incoming)
        trace := hstarted.trace.trans (htrace ▸ hloaded.trace) }
    · obtain ⟨id, hs⟩ := hslot s
      obtain ⟨conn, hconn, hnamed⟩ := hs.known
      have htables := hs.tables
      rw [hnew s] at htables
      refine ⟨conn, id, ?_, hs.answer, hloaded.trace.subset (htrace ▸ hnamed), ?_, ?_⟩
      · rw [hloaded.connection, hsame, hconn]
      · rw [hloaded.sessionMap, hsame]
        exact congrArg SessionTables.sessionMap htables
      · rw [hloaded.reverseMap, hsame]
        exact congrArg SessionTables.reverseMap htables
    · rcases hloaded.origin s k id hget with hold | ⟨hnamed, p, hp, hrest⟩
      · rw [hsame, hstale s] at hold
        cases hold
      · rw [hloaded.sessionStore]
        exact ⟨hnamed, p, hsub p hp, hrest⟩
    · rw [hloaded.sessionStore] at hp
      exact hloaded.loaded s (storedKey p) (Or.inr ⟨p, hall hsome p hp, rfl, hfind⟩)
    · rw [hloaded.sessionStore] at howner
      rw [← hstarted.rows]
      exact hrows key owner howner
  have hexpired : ∀ key owner, (if b.expiryOk then
      { m₁ with sessionStore := m₁.sessionStore.deleteExpired b.now cfg.sessionTtlSecs }
      else m₁).sessionStore.openRow key = some owner →
        m₁.sessionStore.openRow key = some owner := by
    intro key owner howner
    split at howner
    · exact SessionStore.openRow_deleteExpired _ _ _ howner
    · exact howner
  have hcore' := hcore _ (by split <;> rfl) (by split <;> rfl) (by split <;> rfl) hexpired
  unfold loadStore at hload
  dsimp only at hload
  split at hload
  · rename_i hnone
    cases hload
    refine hcore' [] (fun _ hp => absurd hp List.not_mem_nil) (fun hsome => ?_) _
      (rowsLoaded_nil cfg _)
    rw [hnone] at hsome
    cases hsome
  · rename_i rows _
    obtain ⟨hperm, hm⟩ := Option.ite_none_right_eq_some.mp hload
    cases hm
    exact hcore' rows (fun p hp => hperm.mem_iff.mp hp) (fun _ p hp => hperm.mem_iff.mpr hp) _
      (foldl_loadRow_loaded rows _)

end Anyclaw.AgentsManager
