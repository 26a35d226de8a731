import Anyclaw.Agents.Boot
import Anyclaw.Agents.QueueInvariants
import Anyclaw.Agents.SessionSteps

/-!
# Who holds a session id

A slot holds an id for a key when the key is live or stale under that id.  A step adds
holders in one way only: the agent names a session.  When the agents name fresh ids, no
two keys of a slot hold the same one (`Owned`).

The maps are `session_map` and `stale_sessions` of `crates/anyclaw-agents/src/slot.rs`.
-/

namespace Anyclaw

/-! ### Tables -/

namespace SessionTables

variable {t : SessionTables} {k k₀ : SessionKey} {id id₀ : AcpSessionId}

theorem live_register (h : (t.register k₀ id₀).sessionMap.get? k = some id) :
    t.sessionMap.get? k = some id ∨ (k = k₀ ∧ id = id₀) := by
  rw [register_sessionMap, KeyedMap.get?_set] at h
  split at h
  · rename_i hk
    cases h
    exact Or.inr ⟨hk, rfl⟩
  · exact Or.inl h

theorem live_unmap (h : (t.unmap k₀).sessionMap.get? k = some id) :
    k ≠ k₀ ∧ t.sessionMap.get? k = some id := by
  rw [unmap_sessionMap, KeyedMap.get?_remove] at h
  exact Option.ite_none_left_eq_some.mp h

theorem live_cleared {kind : OperationKind} {t' : SessionTables} (h : Cleared t k₀ kind t')
    (h' : t'.sessionMap.get? k = some id) : t.sessionMap.get? k = some id := by
  cases h with
  | same => exact h'
  | forgotten => exact h'
  | unmapped => exact (live_unmap h').2

theorem live_expire (h : (t.expire k₀).sessionMap.get? k = some id) :
    t.sessionMap.get? k = some id := by
  unfold expire at h
  split at h
  · exact h
  · rw [KeyedMap.get?_remove] at h
    exact (Option.ite_none_left_eq_some.mp h).2

/-- `k` is live or stale under `id`. -/
def Holds (t : SessionTables) (k : SessionKey) (id : AcpSessionId) : Prop :=
  t.sessionMap.get? k = some id ∨ t.staleSessions.get? k = some id

theorem holds_register (h : (t.register k₀ id₀).Holds k id) :
    t.Holds k id ∨ (k = k₀ ∧ id = id₀) := by
  rcases h with hlive | hstale
  · exact (live_register hlive).imp Or.inl fun h => h
  · exact Or.inl (Or.inr hstale)

theorem holds_unmap (h : (t.unmap k₀).Holds k id) : t.Holds k id := by
  rcases h with hlive | hstale
  · exact Or.inl (live_unmap hlive).2
  · exact Or.inr hstale

theorem holds_forget (h : (t.forget k₀).Holds k id) : t.Holds k id := by
  rcases h with hlive | hstale
  · exact Or.inl hlive
  · rw [forget_staleSessions, KeyedMap.get?_remove] at hstale
    exact Or.inr (Option.ite_none_left_eq_some.mp hstale).2

theorem holds_cleared {kind : OperationKind} {t' : SessionTables} (h : Cleared t k₀ kind t')
    (h' : t'.Holds k id) : t.Holds k id := by
  cases h with
  | same => exact h'
  | forgotten => exact holds_forget h'
  | unmapped => exact holds_unmap h'

theorem holds_expire (h : (t.expire k₀).Holds k id) : t.Holds k id := by
  unfold expire at h
  split at h
  · exact h
  · rename_i id₁ hlive₁
    rcases h with hlive | hstale
    · rw [KeyedMap.get?_remove] at hlive
      exact Or.inl (Option.ite_none_left_eq_some.mp hlive).2
    · rw [KeyedMap.get?_set] at hstale
      split at hstale
      · rename_i hk
        cases hstale
        exact Or.inl (hk ▸ hlive₁)
      · exact Or.inr hstale

/-- After a crash a key holds what was live, else what was stale. -/
theorem retire_staleSessions_get? (t : SessionTables) (k : SessionKey) :
    t.retire.staleSessions.get? k = (t.sessionMap.get? k).or (t.staleSessions.get? k) := by
  rw [retire_staleSessions, KeyedMap.get?_extend]

theorem holds_retire (h : t.retire.Holds k id) : t.Holds k id := by
  rcases h with hlive | hstale
  · cases hlive
  · rw [retire_staleSessions_get?, Option.or_eq_some_iff] at hstale
    rcases hstale with hlive | ⟨_, hstale⟩
    · exact Or.inl hlive
    · exact Or.inr hstale

theorem retire_reinstate_get? (t : SessionTables) (first returned : AcpSessionId)
    (k : SessionKey) :
    (t.retire.reinstate first returned).sessionMap.get? k =
      (t.retire.staleSessions.get? k).map fun id => if id = first then returned else id := by
  rw [reinstate_sessionMap, KeyedMap.get?_extend, KeyedMap.get?_mapValues, retire_sessionMap,
    KeyedMap.get?_empty, Option.or_none]

theorem holds_reinstate {first returned : AcpSessionId}
    (h : (t.retire.reinstate first returned).Holds k id) :
    t.Holds k id ∨ (t.retire.staleSessions.get? k = some first ∧ id = returned) := by
  rcases h with hlive | hstale
  · rw [retire_reinstate_get?] at hlive
    obtain ⟨id₁, hid₁, heq⟩ := Option.map_eq_some_iff.mp hlive
    split at heq
    · rename_i hfirst
      exact Or.inr ⟨hfirst ▸ hid₁, heq.symm⟩
    · exact Or.inl (holds_retire (Or.inr (heq ▸ hid₁)))
  · cases hstale

theorem holds_restart {name : String} (h : (t.restart name id₀).Holds k id) :
    t.Holds k id ∨ (k = AgentSlot.defaultKey name ∧ id = id₀) :=
  (holds_register h).imp (fun h => h) fun h => h

end SessionTables

/-! ### Named ids -/

variable {n : Nat}

theorem namedSessions_mono {s : Fin n} {t t' : List (Output n)} (h : t <+: t') :
    namedSessions s t ⊆ namedSessions s t' := by
  obtain ⟨os, rfl⟩ := h
  rw [namedSessions_append]
  exact List.subset_append_left _ _

theorem mem_namedSessions_answered {s : Fin n} {no : Nat} {how : SessionOrigin}
    {id : AcpSessionId} {t : List (Output n)} (h : Output.answered s no how id ∈ t) :
    id ∈ namedSessions s t :=
  List.mem_filterMap.mpr ⟨_, h, if_pos rfl⟩

namespace AgentsManager

/-- The ids in the answers are fresh: a session that the agent creates or forks gets an
    id it has not named before, and a session that it recovers keeps the id that was
    asked for or also gets such an id. -/
def FreshIds (m : AgentsManager n) (s : Fin n) (requested : Option AcpSessionId)
    (a : Answers) : Prop :=
  (∀ id ∈ a.sessionNew.result?, id ∉ namedSessions s m.trace) ∧
    (∀ id ∈ a.fork.result?, id ∉ namedSessions s m.trace) ∧
    ∀ id ∈ a.recovery.result?, requested = some id ∨ id ∉ namedSessions s m.trace

instance (m : AgentsManager n) (s : Fin n) (requested : Option AcpSessionId) (a : Answers) :
    Decidable (FreshIds m s requested a) :=
  inferInstanceAs (Decidable (_ ∧ _))

def FreshAnswers (cfg : AgentsManagerConfig n) (m : AgentsManager n) (l : Label n) : Prop :=
  (∀ o ∈ m.operation l, ∀ s ∈ findSlotByName cfg o.agentName,
      FreshIds m s ((m.slots s).staleSessions.get? o.key) o.answers) ∧
    ∀ c ∈ m.crash l, FreshIds m c.1 (firstStaleId (m.slots c.1).retireSessions c.2) c.2

instance (cfg : AgentsManagerConfig n) (m : AgentsManager n) (l : Label n) :
    Decidable (FreshAnswers cfg m l) :=
  inferInstanceAs (Decidable (_ ∧ _))

def Holds (m : AgentsManager n) (s : Fin n) (k : SessionKey) (id : AcpSessionId) : Prop :=
  (m.slots s).tables.Holds k id

/-- The keys `K` of slot `s` get a fresh id in a step; keys that get one together held
    one id together. -/
structure Gains (m m' : AgentsManager n) (s : Fin n) (K : SessionKey → Prop) : Prop where
  alike : ∀ k k', K k → K k' → k = k' ∨ ∃ id, m.Holds s k id ∧ m.Holds s k' id
  holds : ∀ k id, m'.Holds s k id → m.Holds s k id ∨
    (K k ∧ id ∉ namedSessions s m.trace ∧ id ∈ namedSessions s m'.trace)

variable {cfg : AgentsManagerConfig n} {m m' : AgentsManager n} {l : Label n} {s : Fin n}

section Gains

theorem Gains.none (h : ∀ k id, m'.Holds s k id → m.Holds s k id) :
    ∃ K, Gains m m' s K :=
  ⟨fun _ => False, fun _ _ hk => hk.elim, fun k id hk => Or.inl (h k id hk)⟩

/-- One key gets a session that the agent has named. -/
theorem Gains.one (k₀ : SessionKey) (id₀ : AcpSessionId)
    (h : ∀ k id, m'.Holds s k id → m.Holds s k id ∨ (k = k₀ ∧ id = id₀))
    (hfresh : m.Holds s k₀ id₀ ∨ id₀ ∉ namedSessions s m.trace)
    (hnamed : id₀ ∈ namedSessions s m'.trace) : ∃ K, Gains m m' s K := by
  refine ⟨fun k => k = k₀, fun k k' hk hk' => Or.inl (hk.trans hk'.symm), fun k id hk => ?_⟩
  rcases h k id hk with hold | ⟨rfl, rfl⟩
  · exact Or.inl hold
  · rcases hfresh with hheld | hnot
    · exact Or.inl hheld
    · exact Or.inr ⟨rfl, hnot, hnamed⟩

theorem news_mem {m m' : AgentsManager n} {news : List (Output n)}
    (h : ∃ os, m'.trace = m.trace ++ os ∧ os.filter Output.isNaming = news) {o : Output n}
    (ho : o ∈ news) : o ∈ m'.trace := by
  obtain ⟨os, hos, rfl⟩ := h
  rw [hos]
  exact List.mem_append_right _ (List.mem_of_mem_filter ho)

/-- An operation adds at most its own key as a holder, or the key of a fork. -/
theorem gains_of_tablesOp {o : Operation} {t : SessionTables} {row : Option WrittenRow}
    {news : List (Output n)} (hop : TablesOp (m.slots s) s o t row news)
    (hchange : TablesChange o.answers m m' s t row news)
    (hfresh : FreshIds m s ((m.slots s).staleSessions.get? o.key) o.answers) :
    ∃ K, Gains m m' s K := by
  have htables : (m'.slots s).tables = t := (hchange.tables s).trans (if_pos rfl)
  have hnews : ∀ o ∈ news, o ∈ m'.trace := fun _ => news_mem hchange.naming
  cases hop with
  | created hcleared hconn hid =>
      refine Gains.one o.key _ (fun k id h => ?_) (Or.inr (hfresh.1 _ hid))
        (mem_namedSessions_answered (hnews _ (List.mem_singleton_self _)))
      rw [Holds, htables] at h
      exact (SessionTables.holds_register h).imp (SessionTables.holds_cleared hcleared) fun h => h
  | @recovered staleId id conn how hkind hstale hconn hid =>
      refine Gains.one o.key id (fun k id' h => ?_) ?_
        (mem_namedSessions_answered (hnews _ (List.mem_singleton_self _)))
      · rw [Holds, htables] at h
        exact (SessionTables.holds_register h).imp SessionTables.holds_forget fun h => h
      · exact (hfresh.2.2 _ hid).imp (fun h => Or.inr h) fun h => h
  | forgotten _ _ _ =>
      refine Gains.none fun k id h => ?_
      rw [Holds, htables] at h
      exact SessionTables.holds_forget h
  | unmapped _ _ =>
      refine Gains.none fun k id h => ?_
      rw [Holds, htables] at h
      exact SessionTables.holds_unmap h
  | @forked conn id _ hconn hid =>
      refine Gains.one (SessionKey.new o.key.channelName "fork" id) id (fun k id' h => ?_)
        (Or.inr (hfresh.2.1 _ hid))
        (mem_namedSessions_answered (hnews _ (List.mem_singleton_self _)))
      rw [Holds, htables] at h
      exact SessionTables.holds_register h

/-- Only the slot that an operation is about gains holders. -/
theorem Gains.of_tables (h : (m'.slots s).tables = (m.slots s).tables) : ∃ K, Gains m m' s K := by
  refine Gains.none fun k id hk => ?_
  rw [Holds, h] at hk
  exact hk

/-- After a crash: the keys of the restored session, or the default key. -/
theorem CrashOutcome.gains {a : Answers} (h : CrashOutcome cfg m s a m')
    (hfresh : FreshIds m s (firstStaleId (m.slots s).retireSessions a) a) :
    ∃ K, Gains m m' s K := by
  cases h with
  | down _ _ hchange => exact Gains.of_tables ((hchange.tables s).trans (if_pos rfl))
  | @restored first id conn how _ _ hfirst hid _ hchange =>
      have htables := (hchange.tables s).trans (if_pos rfl)
      have hnamed := mem_namedSessions_answered
        (news_mem hchange.naming (List.mem_singleton_self (Output.answered s conn.no how id)))
      have hheld : ∀ k, (m.slots s).tables.retire.staleSessions.get? k = some first →
          m.Holds s k first := fun k hk => SessionTables.holds_retire (Or.inr hk)
      refine ⟨fun k => (m.slots s).tables.retire.staleSessions.get? k = some first,
        fun k k' hk hk' => Or.inr ⟨first, hheld k hk, hheld k' hk'⟩, fun k id' h => ?_⟩
      rw [Holds, htables] at h
      rcases SessionTables.holds_reinstate h with hold | ⟨hk, rfl⟩
      · exact Or.inl hold
      · rcases hfresh.2.2 _ hid with hsame | hnot
        · rw [hfirst] at hsame
          cases hsame
          exact Or.inl (hheld k hk)
        · exact Or.inr ⟨hk, hnot, hnamed⟩
  | @restarted id conn _ _ _ hid _ hchange =>
      have htables := (hchange.tables s).trans (if_pos rfl)
      have hnamed := mem_namedSessions_answered
        (news_mem hchange.naming (List.mem_singleton_self (Output.answered s conn.no .created id)))
      refine Gains.one (AgentSlot.defaultKey (cfg.agents s).name) id (fun k id' h => ?_)
        (Or.inr (hfresh.1 _ hid)) hnamed
      rw [Holds, htables] at h
      exact (SessionTables.holds_restart h).imp SessionTables.holds_retire fun h => h
  | retired _ _ _ hchange =>
      have htables := (hchange.tables s).trans (if_pos rfl)
      refine Gains.none fun k id h => ?_
      rw [Holds, htables] at h
      exact SessionTables.holds_retire h

/-- **What a step adds.** -/
theorem SessionStep.gains (h : SessionStep cfg m l m') (hfresh : FreshAnswers cfg m l)
    (s : Fin n) : ∃ K, Gains m m' s K := by
  cases h with
  | kept hkept => exact Gains.of_tables (hkept.tables s)
  | @changed _ o s₀ t row news _ ho hfind hop hchange =>
      by_cases hs : s = s₀
      · subst hs
        exact gains_of_tablesOp hop hchange (hfresh.1 o ho s hfind)
      · exact Gains.of_tables ((hchange.tables s).trans (if_neg hs))
  | @expired _ c _ _ hexpired =>
      refine Gains.none fun k id h => ?_
      rw [Holds, hexpired.tables s] at h
      exact SessionTables.holds_expire h
  | @crashed _ s₀ a msg rest _ hl hincoming hcrash =>
      by_cases hs : s = s₀
      · subst hs
        obtain ⟨K, hK⟩ := hcrash.gains (hfresh.2 _ hl)
        exact ⟨K, hK.alike, hK.holds⟩
      · have hother : (m'.slots s).tables = (m.slots s).tables := by
          cases hcrash with
          | down _ _ hchange => exact (hchange.tables s).trans (if_neg hs)
          | restored _ _ _ _ hchange => exact (hchange.tables s).trans (if_neg hs)
          | restarted _ _ _ _ hchange => exact (hchange.tables s).trans (if_neg hs)
          | retired _ _ _ hchange => exact (hchange.tables s).trans (if_neg hs)
        exact Gains.of_tables hother
  | shutdown => exact Gains.of_tables rfl

end Gains

/-! ### Rows -/

/-- The store holds `id` for `k` and the agent of slot `s`. -/
def StoredAs (cfg : AgentsManagerConfig n) (m : AgentsManager n) (s : Fin n) (k : SessionKey)
    (id : AcpSessionId) : Prop :=
  m.sessionStore.openRow k.text = some ((cfg.agents s).name, id)

/-- Every open row is filed under a session key and belongs to an agent. -/
def RowsKeyed (cfg : AgentsManagerConfig n) (m : AgentsManager n) : Prop :=
  ∀ key name id, m.sessionStore.openRow key = some (name, id) →
    ∃ (k : SessionKey) (s : Fin n), key = k.text ∧ name = (cfg.agents s).name

/-- A row is written for a key and an agent that has it live under the same id. -/
theorem SessionStep.rows (h : SessionStep cfg m l m') (key name : String) (id : AcpSessionId)
    (hrow : m'.sessionStore.openRow key = some (name, id)) :
    m.sessionStore.openRow key = some (name, id) ∨
      ∃ (k : SessionKey) (s : Fin n), key = k.text ∧ name = (cfg.agents s).name ∧
        (m'.slots s).sessionMap.get? k = some id := by
  have hcrashed : ∀ {m₁ : AgentsManager n} {a : Answers} {s : Fin n},
      CrashOutcome cfg m₁ s a m' → ∀ key,
        m'.sessionStore.openRow key = m₁.sessionStore.openRow key := by
    intro m₁ a s hcrash
    cases hcrash with
    | down _ _ hchange => exact hchange.rows
    | restored _ _ _ _ hchange => exact hchange.rows
    | restarted _ _ _ _ hchange => exact hchange.rows
    | retired _ _ _ hchange => exact hchange.rows
  cases h with
  | kept hkept => exact Or.inl ((hkept.rows key).symm.trans hrow)
  | @changed _ o s₀ t row news _ ho hfind hop hchange =>
      rw [hchange.rows] at hrow
      unfold rowAfter at hrow
      split at hrow
      · exact Or.inl hrow
      · rename_i r
        split at hrow
        · rename_i hwritten
          cases hrow
          have hlive : r.agentName = o.agentName ∧
              t.sessionMap.get? r.key = some r.acpSessionId := by
            cases hop <;> exact ⟨rfl, by simp⟩
          have htables : (m'.slots s₀).tables = t := (hchange.tables s₀).trans (if_pos rfl)
          refine Or.inr ⟨r.key, s₀, hwritten.2, ?_, ?_⟩
          · rw [hlive.1, findSlotByName_eq_some cfg hfind]
          · rw [← AgentSlot.tables_sessionMap, htables]
            exact hlive.2
        · exact Or.inl hrow
  | expired _ hexpired => exact Or.inl ((hexpired.rows key).symm.trans hrow)
  | crashed _ _ hcrash => exact Or.inl ((hcrashed hcrash key).symm.trans hrow)
  | shutdown => exact Or.inl hrow

/-- The same, for the key and the slot of the row. -/
theorem SessionStep.storedAs (h : SessionStep cfg m l m') {k : SessionKey} {id : AcpSessionId}
    (hrow : StoredAs cfg m' s k id) : StoredAs cfg m s k id ∨ m'.Holds s k id := by
  rcases h.rows k.text (cfg.agents s).name id hrow with hold | ⟨k₁, s₁, htext, hname, hlive⟩
  · exact Or.inl hold
  · have hk := SessionKey.text_injective htext
    have hs : s = s₁ := cfg.names_distinct hname
    subst hk hs
    exact Or.inr (Or.inl hlive)

/-! ### Lives -/

/-- Fresh ids in every step and at every boot. -/
def FreshLives (cfg : AgentsManagerConfig n) (m : AgentsManager n) :
    Label n ⊕ StartAnswers n → Prop
  | .inl l => FreshAnswers cfg m l
  | .inr b => ∀ s, ∀ id ∈ (b.agents s).sessionNew.result?, id ∉ namedSessions s m.trace

instance (cfg : AgentsManagerConfig n) (m : AgentsManager n) (l : Label n ⊕ StartAnswers n) :
    Decidable (FreshLives cfg m l) := by
  cases l
  · exact inferInstanceAs (Decidable (FreshAnswers cfg m _))
  · exact inferInstanceAs (Decidable (∀ s, ∀ id ∈ _, id ∉ namedSessions s m.trace))

/-- A fact about the first boot, about steps and about restarts holds in every life. -/
theorem lives_invariant {G : AgentsManager n → Label n ⊕ StartAnswers n → Prop}
    {I : AgentsManager n → Prop}
    (hboot : ∀ m₀ b m, (∀ s, m₀.slots s = AgentSlot.new (cfg.agents s)) → m₀.sessionStore = ∅ →
      Booted cfg b m₀ m → I m)
    (hstep : ∀ m l m', (lives cfg).ReachableUnder G m → I m → G m (.inl l) →
      SessionStep cfg m l m' → m.trace <+: m'.trace → I m')
    (hreboot : ∀ m b m', (lives cfg).ReachableUnder G m → I m → G m (.inr b) →
      Booted cfg b (reborn cfg m) m' → I m')
    (h : (lives cfg).ReachableUnder G m) : I m := by
  suffices hboth : m.backlog.Plain ∧ I m from hboth.2
  have hempty : ∀ {m₀ : AgentsManager n} {b : StartAnswers n} {m : AgentsManager n},
      m₀.queue = SessionQueue.new → start cfg m₀ b = some m → m.backlog.Plain := by
    intro m₀ b m hqueue hstart k p hp
    obtain ⟨⟨os, hspoken, _⟩, _⟩ := start_boots cfg _ b hstart
    rw [hspoken.backlog, Backlog.sayAll_queued, backlog_queued, hqueue] at hp
    cases hp
  refine h.invariant (I := fun m => m.backlog.Plain ∧ I m) ?_ ?_
  · rintro m ⟨channelsSender, b, hstart⟩
    exact ⟨hempty rfl hstart, hboot _ b m (fun _ => rfl) rfl (start_booted (fun _ => rfl) hstart)⟩
  · rintro m (l | b) m' hreach ⟨hplain, hI⟩ hG hs
    · have hadvances := step_advances hplain hs
      exact ⟨hadvances.effect.plain hplain,
        hstep m l m' hreach hI hG (step_sessions hplain hs) hadvances.trace⟩
    · exact ⟨hempty rfl hs, hreboot m b m' hreach hI hG (start_booted (fun _ => rfl) hs)⟩

/-- At boot nothing is new in the store, and what is stale comes from it. -/
theorem Booted.storedAs {m₀ : AgentsManager n} {b : StartAnswers n} (h : Booted cfg b m₀ m)
    {k : SessionKey} {id : AcpSessionId} (hrow : StoredAs cfg m s k id) :
    StoredAs cfg m₀ s k id :=
  h.rows _ _ hrow

theorem rowsKeyed_of_reachable (h : (lives cfg).Reachable m) : RowsKeyed cfg m := by
  refine lives_invariant (I := fun m => RowsKeyed cfg m) ?_ ?_ ?_ h
  · intro m₀ b m _ hstore hbooted key name id hrow
    have hnone := hbooted.rows key (name, id) hrow
    rw [hstore] at hnone
    cases hnone
  · intro m l m' _ hI _ hstep _ key name id hrow
    rcases hstep.rows key name id hrow with hold | ⟨k, s, hk, hname, _⟩
    · exact hI key name id hold
    · exact ⟨k, s, hk, hname⟩
  · intro m b m' _ hI _ hbooted key name id hrow
    exact hI key name id (hbooted.rows key (name, id) hrow)

/-- The key of an open row is read back from its text. -/
theorem storedKey_eq (hrows : RowsKeyed cfg m) {p : PersistedSession}
    (hp : p ∈ m.sessionStore.openSessions) :
    p.sessionKey = (storedKey p).text ∧ ∃ s, p.agentName = (cfg.agents s).name := by
  have hrow := (SessionStore.openRow_eq_some m.sessionStore p.sessionKey p.agentName
    p.acpSessionId).mpr ⟨p, hp, rfl, rfl, rfl⟩
  obtain ⟨k, s, hk, hname⟩ := hrows _ _ _ hrow
  refine ⟨?_, s, hname⟩
  unfold storedKey
  rw [hk, SessionKey.parse_text]

/-- No id is held by two keys of a slot, and whatever is held was named. -/
structure Owned (cfg : AgentsManagerConfig n) (m : AgentsManager n) : Prop where
  rows : RowsKeyed cfg m
  named : ∀ s k id, m.Holds s k id ∨ StoredAs cfg m s k id → id ∈ namedSessions s m.trace
  unique : ∀ s k k' id, m.Holds s k id ∨ StoredAs cfg m s k id →
    m.Holds s k' id ∨ StoredAs cfg m s k' id → k = k'

/-- The holders after a step or a boot are holders before it, or the keys `K` with a
    fresh id. -/
theorem Owned.preserved (h : Owned cfg m) (hrows : RowsKeyed cfg m')
    (htrace : m.trace <+: m'.trace)
    (hgains : ∀ s, ∃ K : SessionKey → Prop,
      (∀ k k', K k → K k' → k = k' ∨ ∃ id, m.Holds s k id ∧ m.Holds s k' id) ∧
      ∀ k id, m'.Holds s k id ∨ StoredAs cfg m' s k id →
        (m.Holds s k id ∨ StoredAs cfg m s k id) ∨
          (K k ∧ id ∉ namedSessions s m.trace ∧ id ∈ namedSessions s m'.trace)) :
    Owned cfg m' := by
  refine ⟨hrows, fun s k id hk => ?_, fun s k k' id hk hk' => ?_⟩
  · obtain ⟨K, _, hK⟩ := hgains s
    rcases hK k id hk with hold | ⟨_, _, hnamed⟩
    · exact namedSessions_mono htrace (h.named s k id hold)
    · exact hnamed
  · obtain ⟨K, halike, hK⟩ := hgains s
    rcases hK k id hk with hold | ⟨hin, hnot, _⟩
    · rcases hK k' id hk' with hold' | ⟨_, hnot', _⟩
      · exact h.unique s k k' id hold hold'
      · exact absurd (h.named s k id hold) hnot'
    · rcases hK k' id hk' with hold' | ⟨hin', _, _⟩
      · exact absurd (h.named s k' id hold') hnot
      · rcases halike k k' hin hin' with heq | ⟨id₁, h₁, h₁'⟩
        · exact heq
        · exact h.unique s k k' id₁ (Or.inl h₁) (Or.inl h₁')

/-- At boot a key holds a new default session or what the store holds for it. -/
theorem Booted.holds {m₀ : AgentsManager n} {b : StartAnswers n} (h : Booted cfg b m₀ m)
    (hrows : RowsKeyed cfg m) {k : SessionKey} {id : AcpSessionId} (hk : m.Holds s k id) :
    StoredAs cfg m s k id ∨ (k = AgentSlot.defaultKey (cfg.agents s).name ∧
      (b.agents s).sessionNew.result? = some id ∧ id ∈ namedSessions s m.trace) := by
  obtain ⟨conn, id₀, _, hanswer, hnamed, hmap, _⟩ := h.slots s
  rcases hk with hlive | hstale
  · rw [AgentSlot.tables_sessionMap, hmap, KeyedMap.get?_set] at hlive
    split at hlive
    · rename_i hk
      cases hlive
      exact Or.inr ⟨hk, hanswer, mem_namedSessions_answered hnamed⟩
    · cases hlive
  · obtain ⟨_, p, hp, rfl, hfind, rfl⟩ := h.stale s k id hstale
    refine Or.inl ?_
    have hrow := (SessionStore.openRow_eq_some m.sessionStore p.sessionKey p.agentName
      p.acpSessionId).mpr ⟨p, hp, rfl, rfl, rfl⟩
    unfold StoredAs
    rw [← (storedKey_eq hrows hp).1, findSlotByName_eq_some cfg hfind]
    exact hrow

theorem owned_of_reachable {G : AgentsManager n → Label n ⊕ StartAnswers n → Prop}
    (hG : ∀ m l, G m l → FreshLives cfg m l) (h : (lives cfg).ReachableUnder G m) :
    Owned cfg m := by
  refine lives_invariant (I := fun m => Owned cfg m) ?_ ?_ ?_ h
  · intro m₀ b m _ hstore hbooted
    have hno : ∀ key name id, m.sessionStore.openRow key ≠ some (name, id) := by
      intro key name id hrow
      have hnone := hbooted.rows key (name, id) hrow
      rw [hstore] at hnone
      cases hnone
    have hrows : RowsKeyed cfg m := fun key name id hrow => absurd hrow (hno key name id)
    have hholds : ∀ s k id, m.Holds s k id ∨ StoredAs cfg m s k id →
        k = AgentSlot.defaultKey (cfg.agents s).name ∧ id ∈ namedSessions s m.trace := by
      rintro s k id (hk | hrow)
      · rcases hbooted.holds hrows hk with hrow | ⟨hk, _, hnamed⟩
        · exact absurd hrow (hno _ _ _)
        · exact ⟨hk, hnamed⟩
      · exact absurd hrow (hno _ _ _)
    exact ⟨hrows, fun s k id hk => (hholds s k id hk).2,
      fun s k k' id hk hk' => (hholds s k id hk).1.trans (hholds s k' id hk').1.symm⟩
  · intro m l m' _ hI hguard hstep htrace
    refine hI.preserved ?_ htrace fun s => ?_
    · intro key name id hrow
      rcases hstep.rows key name id hrow with hold | ⟨k, s, hk, hname, _⟩
      · exact hI.rows key name id hold
      · exact ⟨k, s, hk, hname⟩
    · obtain ⟨K, hK⟩ := hstep.gains (hG _ _ hguard) s
      have hheld : ∀ k id, m'.Holds s k id → (m.Holds s k id ∨ StoredAs cfg m s k id) ∨
          (K k ∧ id ∉ namedSessions s m.trace ∧ id ∈ namedSessions s m'.trace) :=
        fun k id hk => (hK.holds k id hk).imp Or.inl fun h => h
      refine ⟨K, hK.alike, fun k id hk => ?_⟩
      rcases hk with hk | hrow
      · exact hheld k id hk
      · rcases hstep.storedAs hrow with hold | hk
        · exact Or.inl (Or.inr hold)
        · exact hheld k id hk
  · intro m b m' _ hI hguard hbooted
    have hrows : RowsKeyed cfg m' := fun key name id hrow =>
      hI.rows key name id (hbooted.rows key (name, id) hrow)
    refine hI.preserved hrows hbooted.trace fun s => ⟨fun k =>
      k = AgentSlot.defaultKey (cfg.agents s).name, fun k k' hk hk' => Or.inl (hk.trans hk'.symm),
      fun k id hk => ?_⟩
    rcases hk with hk | hrow
    · rcases hbooted.holds hrows hk with hrow | ⟨hk, hanswer, hnamed⟩
      · exact Or.inl (Or.inr (hbooted.storedAs hrow))
      · exact Or.inr ⟨hk, hG _ _ hguard s id hanswer, hnamed⟩
    · exact Or.inl (Or.inr (hbooted.storedAs hrow))

end AgentsManager

end Anyclaw
