import Anyclaw.Agents.SessionChanges

/-!
# Outcomes of creating and recovering sessions

For each function: on which answers it succeeds, and what it then has done to the
sessions.

The functions are `create_session` of `crates/anyclaw-agents/src/commands.rs`, and
`heal_session` with `update_session_store` of `session_recovery.rs`.
-/

namespace Anyclaw.AgentsManager

variable {n : Nat} (cfg : AgentsManagerConfig n) (m : AgentsManager n)

/-! ### Requests -/

theorem request_ok {α : Type} (s : Fin n) (conn : AgentConnection) (r : AcpRequest)
    {answer : RpcAnswer α} {result : α} (h : answer.result? = some result) :
    request cfg m s conn r answer = (.ok result, m.emit (.request s conn.no r)) := by
  cases answer with
  | answered res =>
      cases res with
      | none => cases h
      | some res => cases h; rfl
  | _ => cases h

theorem request_error {α : Type} (s : Fin n) (conn : AgentConnection) (r : AcpRequest)
    {answer : RpcAnswer α} (h : answer.result? = none) :
    ∃ e m', request cfg m s conn r answer = (.error e, m') ∧ m'.slots = m.slots ∧
      SessionsKept m m' := by
  have hkept : SessionsKept m (m.emit (.request s conn.no r)) :=
    (SessionsKept.refl m).emit rfl
  cases answer with
  | unsent => exact ⟨_, _, rfl, rfl, SessionsKept.refl m⟩
  | timedOut => exact ⟨_, _, rfl, rfl, hkept⟩
  | closed => exact ⟨_, _, rfl, rfl, hkept⟩
  | answered res =>
      cases res with
      | none => exact ⟨_, _, rfl, rfl, hkept⟩
      | some res => cases h

/-- The answer to a request names a session. -/
theorem named_change (a : Answers) (s : Fin n) (conn : AgentConnection) (r : AcpRequest)
    (how : SessionOrigin) (id : AcpSessionId) :
    SessionChange a m ((m.emit (.request s conn.no r)).emit (.answered s conn.no how id)) s
      (m.slots s).tables none [.answered s conn.no how id] where
  tables := fun s' => by
    split
    · rename_i hs
      rw [hs]; rfl
    · rfl
  connection := fun _ => rfl
  reader := fun _ => rfl
  awaiting := fun _ => Finset.Subset.refl _
  incoming := Or.inl rfl
  rows := fun _ => rfl
  naming := ⟨[.request s conn.no r, .answered s conn.no how id], by simp, rfl⟩

/-! ### `session/new` -/

theorem startSession_ok {s : Fin n} {a : Answers} (h : (m.slots s).CanStart a) :
    ∃ conn id m', (m.slots s).connection = some conn ∧ a.sessionNew.result? = some id ∧
      startSession cfg m s a = (.ok id, m') ∧ m'.slots = m.slots ∧ m'.incoming = m.incoming ∧
      SessionChange a m m' s (m.slots s).tables none [.answered s conn.no .created id] := by
  obtain ⟨htools, hconn, hnew⟩ := h
  obtain ⟨conn, hconn⟩ := Option.isSome_iff_exists.mp hconn
  obtain ⟨id, hid⟩ := Option.isSome_iff_exists.mp hnew
  have heq : startSession cfg m s a = (.ok id,
      (m.emit (.request s conn.no (.sessionNew (cfg.agents s).cwd (mcpServers a.newMcpUrls)))).emit
        (.answered s conn.no .created id)) := by
    unfold startSession
    split
    · rename_i hgone
      exact absurd hgone htools
    · simp only [hconn, request_ok cfg m s conn _ hid]
  exact ⟨conn, id, _, hconn, hid, heq, rfl, rfl, named_change m a s conn _ .created id⟩

theorem startSession_error {s : Fin n} {a : Answers} (h : ¬ (m.slots s).CanStart a) :
    ∃ e m', startSession cfg m s a = (.error e, m') ∧ m'.slots = m.slots ∧
      SessionsKept m m' := by
  unfold startSession
  split
  · exact ⟨_, _, rfl, rfl, SessionsKept.refl m⟩
  · rename_i htools
    cases hconn : (m.slots s).connection with
    | none => exact ⟨_, _, rfl, rfl, SessionsKept.refl m⟩
    | some conn =>
        have hnew : a.sessionNew.result? = none := by
          by_contra hne
          exact h ⟨htools, by simp [hconn], Option.isSome_iff_ne_none.mpr hne⟩
        obtain ⟨e, m', heq, hslots, hkept⟩ := request_error cfg m s conn
          (.sessionNew (cfg.agents s).cwd (mcpServers a.newMcpUrls)) hnew
        simp only [heq]
        exact ⟨_, _, rfl, hslots, hkept⟩

/-! ### `create_session` -/

theorem cacheToolContext_kept (s : Fin n) (a : Answers) :
    SessionsKept m (m.cacheToolContext s a) := by
  unfold cacheToolContext
  split
  · exact (SessionsKept.refl m).modifySlot rfl rfl rfl rfl
  · exact SessionsKept.refl m

theorem incoming_cacheToolContext (s : Fin n) (a : Answers) :
    (m.cacheToolContext s a).incoming = m.incoming :=
  (cacheToolContext_kept m s a).incoming

/-- A session is created: the key is mapped to the new id, and its row is written. -/
theorem openSession_ok {s : Fin n} (name : String) (k : SessionKey) {a : Answers}
    (h : (m.slots s).CanStart a) :
    ∃ conn id m', (m.slots s).connection = some conn ∧ a.sessionNew.result? = some id ∧
      openSession cfg m s name k a = (.ok id, m') ∧ m'.incoming = m.incoming ∧
      SessionChange a m m' s ((m.slots s).tables.register k id) (some ⟨k, name, id⟩)
        [.answered s conn.no .created id] := by
  obtain ⟨conn, id, m₁, hconn, hid, heq, hslots, hinc, hstart⟩ := startSession_ok cfg m h
  refine ⟨conn, id, _, hconn, hid, by simp only [openSession, heq]; rfl, ?_, ?_⟩
  · exact (incoming_cacheToolContext m₁ s a).trans hinc
  · have hcache := (cacheToolContext_kept m₁ s a).toChange a s
    have hregister := SessionChange.modifySlot a (m₁.cacheToolContext s a) s
      (fun slot => slot.registerSession k id) rfl rfl (Finset.Subset.refl _)
    have hpersist := SessionChange.persistSession a
      ((m₁.cacheToolContext s a).modifySlot s fun slot => slot.registerSession k id) s name k id
    have hall := ((hstart.trans hcache (incoming_cacheToolContext m₁ s a)).trans hregister
      rfl).trans hpersist rfl
    have htables : (((m₁.cacheToolContext s a).modifySlot s fun slot =>
        slot.registerSession k id).slots s).tables = (m.slots s).tables.register k id := by
      rw [slots_modifySlot, if_pos rfl, AgentSlot.tables_registerSession,
        (cacheToolContext_kept m₁ s a).tables, hslots]
    rw [htables] at hall
    simpa using hall

theorem openSession_error {s : Fin n} (name : String) (k : SessionKey) {a : Answers}
    (h : ¬ (m.slots s).CanStart a) :
    ∃ e m', openSession cfg m s name k a = (.error e, m') ∧ SessionsKept m m' := by
  obtain ⟨e, m', heq, _, hkept⟩ := startSession_error cfg m h
  exact ⟨e, m', by simp only [openSession, heq], hkept⟩

inductive CreateOutcome (s : Fin n) (name : String) (k : SessionKey) (a : Answers) :
    Except AgentsError AcpSessionId × AgentsManager n → Prop
  | existing {id : AcpSessionId} (hlive : (m.slots s).sessionMap.get? k = some id) :
      CreateOutcome s name k a (.ok id, m)
  | created {conn : AgentConnection} {id : AcpSessionId} {m' : AgentsManager n}
      (hlive : (m.slots s).sessionMap.get? k = none) (hstart : (m.slots s).CanStart a)
      (hconn : (m.slots s).connection = some conn) (hid : a.sessionNew.result? = some id)
      (hincoming : m'.incoming = m.incoming)
      (hchange : SessionChange a m m' s ((m.slots s).tables.register k id) (some ⟨k, name, id⟩)
        [.answered s conn.no .created id]) :
      CreateOutcome s name k a (.ok id, m')
  | failed {e : AgentsError} {m' : AgentsManager n}
      (hlive : (m.slots s).sessionMap.get? k = none) (hstart : ¬ (m.slots s).CanStart a)
      (hkept : SessionsKept m m') :
      CreateOutcome s name k a (.error e, m')

theorem createSession_outcome {s : Fin n} {name : String}
    (hfind : findSlotByName cfg name = some s) (k : SessionKey) (a : Answers) :
    CreateOutcome m s name k a (createSession cfg m name k a) := by
  unfold createSession
  simp only [hfind]
  cases hlive : (m.slots s).sessionMap.get? k with
  | some id => exact .existing hlive
  | none =>
      by_cases hstart : (m.slots s).CanStart a
      · obtain ⟨conn, id, m', hconn, hid, heq, hinc, hchange⟩ :=
          openSession_ok cfg m name k hstart
        simp only [heq]
        exact .created hlive hstart hconn hid hinc hchange
      · obtain ⟨e, m', heq, hkept⟩ :=
          openSession_error cfg m name k hstart
        simp only [heq]
        exact .failed hlive hstart hkept

/-! ### `heal_session` -/

inductive HealOutcome (s : Fin n) (name : String) (k : SessionKey) (a : Answers) :
    Except AgentsError Unit × AgentsManager n → Prop
  | recovered {staleId id : AcpSessionId} {conn : AgentConnection} {how : SessionOrigin}
      {m' : AgentsManager n}
      (hstale : (m.slots s).staleSessions.get? k = some staleId)
      (hrecovers : (m.slots s).Recovers k a) (hconn : (m.slots s).connection = some conn)
      (hid : a.recovery.result? = some id)
      (hchange : SessionChange a m m' s (((m.slots s).tables.forget k).register k id)
        (some ⟨k, name, id⟩) [.answered s conn.no how id]) :
      HealOutcome s name k a (.ok (), m')
  | created {conn : AgentConnection} {id : AcpSessionId} {m' : AgentsManager n}
      (hlive : (m.slots s).sessionMap.get? k = none)
      (hrecovers : ¬ (m.slots s).Recovers k a) (hstart : (m.slots s).CanStart a)
      (hconn : (m.slots s).connection = some conn) (hid : a.sessionNew.result? = some id)
      (hchange : SessionChange a m m' s (((m.slots s).tables.forget k).register k id)
        (some ⟨k, name, id⟩) [.answered s conn.no .created id]) :
      HealOutcome s name k a (.ok (), m')
  | existing {id : AcpSessionId} {m' : AgentsManager n}
      (hlive : (m.slots s).sessionMap.get? k = some id)
      (hrecovers : ¬ (m.slots s).Recovers k a)
      (hchange : SessionChange a m m' s ((m.slots s).tables.forget k) none []) :
      HealOutcome s name k a (.ok (), m')
  | failed {e : AgentsError} {m' : AgentsManager n}
      (hlive : (m.slots s).sessionMap.get? k = none)
      (hrecovers : ¬ (m.slots s).Recovers k a) (hstart : ¬ (m.slots s).CanStart a)
      (hchange : SessionChange a m m' s ((m.slots s).tables.forget k) none []) :
      HealOutcome s name k a (.error e, m')
  | unreachable (hconn : (m.slots s).connection = none) :
      HealOutcome s name k a (.error .connectionClosed, m)

section Heal

variable {cfg m} {s : Fin n} {name : String} {k : SessionKey} {a : Answers}

/-- The row of a recovered session is written after its tables are updated. -/
theorem recoverSession_change (m₁ : AgentsManager n) (s : Fin n) (name : String)
    (k : SessionKey) (a : Answers) (id : AcpSessionId) :
    SessionChange a m₁ (m₁.recoverSession s name k id a) s
      (((m₁.slots s).tables.forget k).register k id) (some ⟨k, name, id⟩) [] := by
  have hmodify := SessionChange.modifySlot a m₁ s
    (fun slot => (slot.forgetStale k).registerSession k id) rfl rfl (Finset.Subset.refl _)
  have hpersist := SessionChange.persistSession a
    (m₁.modifySlot s fun slot => (slot.forgetStale k).registerSession k id) s name k id
  have hall := hmodify.trans hpersist rfl
  rw [slots_modifySlot, if_pos rfl] at hall
  exact hall

/-- The fallback, after requests that left the tables as they were. -/
theorem healByCreating_outcome (hfind : findSlotByName cfg name = some s)
    (hrecovers : ¬ (m.slots s).Recovers k a) {m₁ : AgentsManager n}
    (hslots : m₁.slots = m.slots)
    (h₁ : SessionChange a m m₁ s (m.slots s).tables none []) :
    HealOutcome m s name k a (healByCreating cfg m₁ s name k a) := by
  have hforget : SessionChange a m₁ (m₁.modifySlot s fun slot => slot.forgetStale k) s
      ((m.slots s).tables.forget k) none [] := by
    have h := SessionChange.modifySlot a m₁ s (fun slot => slot.forgetStale k) rfl rfl
      (Finset.Subset.refl _)
    rwa [AgentSlot.tables_forgetStale, hslots] at h
  have hboth := h₁.trans hforget rfl
  have hslot : (m₁.modifySlot s fun slot => slot.forgetStale k).slots s =
      (m.slots s).forgetStale k := by
    rw [slots_modifySlot, if_pos rfl, hslots]
  unfold healByCreating
  have hcreate := createSession_outcome cfg
    (m₁.modifySlot s fun slot => slot.forgetStale k) hfind k a
  generalize createSession cfg (m₁.modifySlot s fun slot => slot.forgetStale k) name k a = r
    at hcreate
  cases hcreate with
  | existing hlive =>
      rw [hslot] at hlive
      exact .existing hlive hrecovers hboth
  | created hlive hstart hconn hid hinc hchange =>
      rw [hslot] at hlive hstart hconn hchange
      exact .created hlive hrecovers hstart hconn hid (hboth.trans hchange hinc)
  | failed hlive hstart hkept =>
      rw [hslot] at hlive hstart
      have hchange := hboth.trans (hkept.toChange a s) hkept.incoming
      rw [hslot] at hchange
      exact .failed hlive hrecovers hstart hchange

/-- `session/load` was sent and did not name a session. -/
theorem load_change (cfg : AgentsManagerConfig n) (m : AgentsManager n) (s : Fin n)
    (conn : AgentConnection) (staleId : AcpSessionId)
    (h : a.recovery.result? = none) :
    ∃ m₁, loadSession cfg m s conn staleId a = (none, m₁) ∧ m₁.slots = m.slots ∧
      SessionChange a m m₁ s (m.slots s).tables none [] := by
  obtain ⟨e, m₁, heq, hslots, hkept⟩ := request_error cfg (m.receive (m.replays s a)) s conn
    (.sessionLoad staleId (cfg.agents s).cwd (mcpServers a.mcpUrls)) h
  refine ⟨m₁, by simp only [loadSession, requestRecovery, heq], hslots, ?_⟩
  have hreceive : SessionChange a m (m.receive (m.replays s a)) s (m.slots s).tables none [] :=
    { (SessionsKept.refl m).toChange a s with
      incoming := Or.inr ⟨rfl, fun id hid => by rw [h] at hid; cases hid⟩
      naming := ⟨[], by simp, rfl⟩ }
  exact hreceive.trans (hkept.toChange a s) hkept.incoming

/-- `session/load` named a session, which now awaits its first prompt. -/
theorem loaded_change (cfg : AgentsManagerConfig n) (m : AgentsManager n) (s : Fin n)
    (conn : AgentConnection) (staleId : AcpSessionId) {id : AcpSessionId}
    (hid : a.recovery.result? = some id) :
    ∃ m₁, loadSession cfg m s conn staleId a = (some id, m₁) ∧ m₁.slots = m.slots ∧
      SessionChange a m (m₁.modifySlot s fun slot => slot.awaitFirstPrompt id) s
        (m.slots s).tables none [.answered s conn.no .loaded id] := by
  have heq : loadSession cfg m s conn staleId a = (some id,
      ((m.receive (m.replays s a)).emit (.request s conn.no
        (.sessionLoad staleId (cfg.agents s).cwd (mcpServers a.mcpUrls)))).emit
          (.answered s conn.no .loaded id)) := by
    unfold loadSession requestRecovery
    rw [request_ok cfg (m.receive (m.replays s a)) s conn _ hid]
  refine ⟨_, heq, rfl, ?_⟩
  refine
    { tables := fun s' => ?_
      connection := fun s' => ?_
      reader := fun s' => ?_
      awaiting := fun s' => ?_
      incoming := Or.inr ⟨rfl, fun id' hid' => ?_⟩
      rows := fun _ => rfl
      naming := ⟨[.request s conn.no
          (.sessionLoad staleId (cfg.agents s).cwd (mcpServers a.mcpUrls)),
        .answered s conn.no .loaded id], by simp, rfl⟩ }
  · rw [slots_modifySlot]
    split <;> rfl
  · rw [slots_modifySlot]
    split
    · rename_i hs
      rw [hs]; rfl
    · rfl
  · rw [slots_modifySlot]
    split
    · rename_i hs
      rw [hs]; rfl
    · rfl
  · rw [slots_modifySlot]
    split
    · rename_i hs
      rw [hs]
      exact Finset.subset_insert id _
    · exact Finset.Subset.refl _
  · rw [hid] at hid'
    cases hid'
    rw [slots_modifySlot, if_pos rfl]
    exact Finset.mem_insert_self _ _

theorem healSession_outcome (cfg : AgentsManagerConfig n) (m : AgentsManager n)
    (k : SessionKey) (a : Answers) (hfind : findSlotByName cfg name = some s) :
    HealOutcome m s name k a (healSession cfg m s name k a) := by
  have hkeep := (SessionsKept.refl m).toChange a s
  unfold healSession
  cases hstale : (m.slots s).staleSessions.get? k with
  | none =>
      refine healByCreating_outcome hfind ?_ rfl hkeep
      rintro ⟨_, hcontains, _⟩
      simp [KeyedMap.contains, hstale] at hcontains
  | some staleId =>
      dsimp only
      by_cases hresume : (m.slots s).supportsResume = true
      · rw [if_pos hresume]
        cases hconn : (m.slots s).connection with
        | none => exact .unreachable hconn
        | some conn =>
            dsimp only
            cases hid : a.recovery.result? with
            | none =>
                obtain ⟨e, m₁, heq, hslots, hkept⟩ := request_error cfg m s conn
                  (.sessionResume staleId (cfg.agents s).cwd (mcpServers a.mcpUrls)) hid
                simp only [resumeSession, requestRecovery, heq]
                refine healByCreating_outcome hfind ?_ hslots (hkept.toChange a s)
                rintro ⟨_, _, _, hsome⟩
                simp [hid] at hsome
            | some id =>
                simp only [resumeSession, requestRecovery, request_ok cfg m s conn _ hid]
                refine .recovered hstale ?_ hconn hid
                  ((named_change m a s conn _ .resumed id).trans
                    (recoverSession_change _ s name k a id) rfl)
                exact ⟨by simp [hconn], by simp [KeyedMap.contains, hstale], Or.inl hresume,
                  by simp [hid]⟩
      · rw [if_neg hresume]
        by_cases hload : (m.slots s).supportsLoad = true
        · rw [if_pos hload]
          cases hconn : (m.slots s).connection with
          | none => exact .unreachable hconn
          | some conn =>
              dsimp only
              cases hid : a.recovery.result? with
              | none =>
                  obtain ⟨m₁, heq, hslots, hchange⟩ :=
                    load_change cfg m s conn staleId hid
                  simp only [heq]
                  refine healByCreating_outcome hfind ?_ hslots hchange
                  rintro ⟨_, _, _, hsome⟩
                  simp [hid] at hsome
              | some id =>
                  obtain ⟨m₁, heq, hslots, hchange⟩ :=
                    loaded_change cfg m s conn staleId hid
                  simp only [heq]
                  have hrecover := recoverSession_change
                    (m₁.modifySlot s fun slot => slot.awaitFirstPrompt id) s name k a id
                  rw [slots_modifySlot, if_pos rfl, hslots] at hrecover
                  refine .recovered hstale ?_ hconn hid (hchange.trans hrecover rfl)
                  exact ⟨by simp [hconn], by simp [KeyedMap.contains, hstale], Or.inr hload,
                    by simp [hid]⟩
        · rw [if_neg hload]
          refine healByCreating_outcome hfind ?_ rfl hkeep
          rintro ⟨_, _, hsupports, _⟩
          rcases hsupports with h | h
          · exact hresume h
          · exact hload h

end Heal

end Anyclaw.AgentsManager
