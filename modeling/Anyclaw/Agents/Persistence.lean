import Anyclaw.Agents.LiveSessions

/-!
# The stored rows follow the session maps

The owner of a key in a slot is its live session, else its stale one.  Opening and
recovering a session write the row together with the maps.  The other paths change the
owner of a key without a word to the store: a restore under a new id, a default session
that replaces one, a session that is given up and not replaced, a fork onto a key that
has a row.

The rows are written by `create_session` (`crates/anyclaw-agents/src/commands.rs`) and
`update_session_store` (`session_recovery.rs`); `try_restore_session` and
`restore_or_start_session` there, and `fork_session`, write none.
-/

namespace Anyclaw

/-! ### Tables -/

namespace SessionTables

variable {t : SessionTables} {k k₀ : SessionKey} {id₀ : AcpSessionId}

/-- The session of `k`: the live one, else the stale one. -/
def owner (t : SessionTables) (k : SessionKey) : Option AcpSessionId :=
  (t.sessionMap.get? k).or (t.staleSessions.get? k)

theorem owner_register (t : SessionTables) (k₀ : SessionKey) (id₀ : AcpSessionId)
    (k : SessionKey) : (t.register k₀ id₀).owner k = if k = k₀ then some id₀ else t.owner k := by
  unfold owner
  rw [register_sessionMap, register_staleSessions, KeyedMap.get?_set]
  split
  · rfl
  · rfl

theorem owner_unmap (hk : k ≠ k₀) : (t.unmap k₀).owner k = t.owner k := by
  unfold owner
  rw [unmap_sessionMap, unmap_staleSessions, KeyedMap.get?_remove, if_neg hk]

theorem owner_forget (hk : k ≠ k₀) : (t.forget k₀).owner k = t.owner k := by
  unfold owner
  rw [forget_sessionMap, forget_staleSessions, KeyedMap.get?_remove, if_neg hk]

/-- A live session is not given up with the stale one. -/
theorem owner_forget_live (hlive : (t.sessionMap.get? k).isSome) (k₀ : SessionKey) :
    (t.forget k₀).owner k = t.owner k := by
  obtain ⟨id, hid⟩ := Option.isSome_iff_exists.mp hlive
  unfold owner
  rw [forget_sessionMap, hid, Option.some_or, Option.some_or]

theorem owner_cleared {kind : OperationKind} {t' : SessionTables} (h : Cleared t k₀ kind t')
    (hk : k ≠ k₀) : t'.owner k = t.owner k := by
  cases h with
  | same => rfl
  | forgotten => exact owner_forget hk
  | unmapped => exact owner_unmap hk

theorem owner_expire (t : SessionTables) (k₀ k : SessionKey) :
    (t.expire k₀).owner k = t.owner k := by
  unfold expire
  split
  · rfl
  · rename_i id hlive
    unfold owner
    rw [KeyedMap.get?_remove, KeyedMap.get?_set]
    by_cases hk : k = k₀
    · rw [if_pos hk, if_pos hk, hk, hlive]
      rfl
    · rw [if_neg hk, if_neg hk]

theorem owner_retire (t : SessionTables) (k : SessionKey) : t.retire.owner k = t.owner k := by
  unfold owner
  rw [retire_sessionMap, retire_staleSessions_get?, KeyedMap.get?_empty, Option.none_or]

theorem owner_reinstate (t : SessionTables) (first returned : AcpSessionId) (k : SessionKey) :
    (t.retire.reinstate first returned).owner k =
      (t.owner k).map fun id => if id = first then returned else id := by
  have hretire := owner_retire t k
  unfold owner at hretire ⊢
  rw [retire_reinstate_get?, ← hretire, retire_sessionMap, KeyedMap.get?_empty, Option.none_or,
    reinstate_staleSessions, KeyedMap.get?_empty, Option.or_none]

end SessionTables

namespace AgentsManager

variable {n : Nat}

/-! ### Guards -/

/-- If there is a row for `k` and the agent of slot `s`, the tables `t` hold what it
    holds. -/
def RowHeld (cfg : AgentsManagerConfig n) (m : AgentsManager n) (s : Fin n) (t : SessionTables)
    (k : SessionKey) : Prop :=
  ∀ row ∈ m.sessionStore.openRow k.text, row.1 = (cfg.agents s).name → t.owner k = some row.2

instance (cfg : AgentsManagerConfig n) (m : AgentsManager n) (s : Fin n) (t : SessionTables)
    (k : SessionKey) : Decidable (RowHeld cfg m s t k) :=
  inferInstanceAs (Decidable (∀ row ∈ m.sessionStore.openRow k.text, _))

/-- Store writes succeed; no session with a row is given up without another; no fork
    takes a key that has a row. -/
def OperationStored (cfg : AgentsManagerConfig n) (m : AgentsManager n) (s : Fin n)
    (o : Operation) : Prop :=
  o.answers.storeOk = true ∧
    match o.kind with
    | .opens => (m.slots s).Recovers o.key o.answers ∨ (m.slots s).CanStart o.answers ∨
        RowHeld cfg m s ((m.slots s).tables.forget o.key) o.key
    | .renews => (m.slots s).CanStart o.answers ∨
        RowHeld cfg m s ((m.slots s).tables.unmap o.key) o.key
    | .forks => ∀ id ∈ o.answers.fork.result?,
        RowHeld cfg m s ((m.slots s).tables.register (SessionKey.new o.key.channelName "fork" id) id)
          (SessionKey.new o.key.channelName "fork" id)

instance (cfg : AgentsManagerConfig n) (m : AgentsManager n) (s : Fin n) (o : Operation) :
    Decidable (OperationStored cfg m s o) := by
  unfold OperationStored
  cases o.kind <;> infer_instance

/-- A session that has a row is restored under its own id; no new default session takes
    the place of one that has a row. -/
def CrashStored (cfg : AgentsManagerConfig n) (m : AgentsManager n) (s : Fin n) (a : Answers) :
    Prop :=
  ((m.slots s).CanRestore a →
      ∀ first ∈ firstStaleId (m.slots s).retireSessions a, ∀ id ∈ a.recovery.result?,
        ∀ p ∈ m.sessionStore.openSessions, p.agentName = (cfg.agents s).name →
          p.acpSessionId = first → id = first) ∧
    ((m.slots s).CanRestart a → ¬ (m.slots s).CanRestore a → ∀ id ∈ a.sessionNew.result?,
      RowHeld cfg m s ((m.slots s).tables.retire.restart (cfg.agents s).name id)
        (AgentSlot.defaultKey (cfg.agents s).name))

instance (cfg : AgentsManagerConfig n) (m : AgentsManager n) (s : Fin n) (a : Answers) :
    Decidable (CrashStored cfg m s a) :=
  inferInstanceAs (Decidable (_ ∧ _))

/-- At a restart the store can be read, and no default key has a row. -/
def BootStored (cfg : AgentsManagerConfig n) (m : AgentsManager n) (b : StartAnswers n) : Prop :=
  b.openSessions.isSome ∧
    ∀ s, ∀ row ∈ m.sessionStore.openRow (AgentSlot.defaultKey (cfg.agents s).name).text,
      row.1 ≠ (cfg.agents s).name

/-- Every change of an owner reaches the store. -/
def KeepsStore (cfg : AgentsManagerConfig n) (m : AgentsManager n) :
    Label n ⊕ StartAnswers n → Prop
  | .inl l =>
      (∀ o ∈ m.operation l, ∀ s ∈ findSlotByName cfg o.agentName, OperationStored cfg m s o) ∧
        ∀ c ∈ m.crash l, CrashStored cfg m c.1 c.2
  | .inr b => BootStored cfg m b

instance (cfg : AgentsManagerConfig n) (m : AgentsManager n) (l : Label n ⊕ StartAnswers n) :
    Decidable (KeepsStore cfg m l) := by
  induction l using Sum.casesOn
  · exact inferInstanceAs (Decidable (_ ∧ _))
  · exact inferInstanceAs (Decidable (_ ∧ ∀ s, ∀ row ∈ m.sessionStore.openRow _, _))

variable {cfg : AgentsManagerConfig n} {m m' : AgentsManager n} {l : Label n}

def WritesStore (_ : AgentsManagerConfig n) (m : AgentsManager n) :
    Label n ⊕ StartAnswers n → Prop
  | .inl l => ∀ o ∈ m.operation l, o.answers.storeOk = true
  | .inr b => b.expiryOk = true ∧ b.openSessions.isSome

instance (cfg : AgentsManagerConfig n) (m : AgentsManager n) (l : Label n ⊕ StartAnswers n) :
    Decidable (WritesStore cfg m l) := by
  induction l using Sum.casesOn
  · exact inferInstanceAs (Decidable (∀ o ∈ m.operation _, _))
  · exact inferInstanceAs (Decidable (_ ∧ _))

/-! ### One step -/

/-- The rows of one slot hold the owners of their keys. -/
def RowsFollow (cfg : AgentsManagerConfig n) (m : AgentsManager n) (s : Fin n) : Prop :=
  ∀ k id, StoredAs cfg m s k id → (m.slots s).tables.owner k = some id

/-- Neither the rows nor the owners have changed. -/
theorem RowsFollow.same {s : Fin n} (h : RowsFollow cfg m s)
    (hrows : ∀ key, m'.sessionStore.openRow key = m.sessionStore.openRow key)
    (howner : ∀ k, (m'.slots s).tables.owner k = (m.slots s).tables.owner k) :
    RowsFollow cfg m' s := by
  intro k id hrow
  rw [StoredAs, hrows] at hrow
  rw [howner]
  exact h k id hrow

/-- The rows have not changed, and only the owner of `k₀` has, which still holds what
    its row holds. -/
theorem RowsFollow.changed {s : Fin n} {t : SessionTables} {k₀ : SessionKey}
    (h : RowsFollow cfg m s)
    (hrows : ∀ key, m'.sessionStore.openRow key = m.sessionStore.openRow key)
    (htables : (m'.slots s).tables = t)
    (hothers : ∀ k, k ≠ k₀ → t.owner k = (m.slots s).tables.owner k)
    (hheld : RowHeld cfg m s t k₀) : RowsFollow cfg m' s := by
  intro k id hrow
  rw [StoredAs, hrows] at hrow
  rw [htables]
  by_cases hk : k = k₀
  · subst hk
    exact hheld _ hrow rfl
  · rw [hothers k hk]
    exact h k id hrow

/-- The row of `k₀` was written together with its live session. -/
theorem RowsFollow.written {s : Fin n} {o : Operation} {t : SessionTables} {id₀ : AcpSessionId}
    {news : List (Output n)} (h : RowsFollow cfg m s) (hstore : o.answers.storeOk = true)
    (hchange : TablesChange o.answers m m' s (t.register o.key id₀)
      (some ⟨o.key, o.agentName, id₀⟩) news)
    (hothers : ∀ k, k ≠ o.key → t.owner k = (m.slots s).tables.owner k) :
    RowsFollow cfg m' s := by
  intro k id hrow
  rw [StoredAs, hchange.rows, rowAfter] at hrow
  rw [hchange.tables s, if_pos rfl, SessionTables.owner_register]
  by_cases hk : k = o.key
  · rw [if_pos ⟨hstore, congrArg SessionKey.text hk⟩] at hrow
    have hid : id₀ = id := congrArg Prod.snd (Option.some.inj hrow)
    rw [if_pos hk, hid]
  · have htext : ¬ (o.answers.storeOk = true ∧ k.text = o.key.text) := fun hboth =>
      hk (SessionKey.text_injective hboth.2)
    rw [if_neg htext] at hrow
    rw [if_neg hk, hothers k hk]
    exact h k id hrow

theorem rowsFollow_of_tablesOp {s : Fin n} {o : Operation} {t : SessionTables}
    {row : Option WrittenRow} {news : List (Output n)} (h : RowsFollow cfg m s)
    (hop : TablesOp (m.slots s) s o t row news)
    (hchange : TablesChange o.answers m m' s t row news) (hstored : OperationStored cfg m s o) :
    RowsFollow cfg m' s := by
  have htables : (m'.slots s).tables = t := (hchange.tables s).trans (if_pos rfl)
  obtain ⟨hstore, hkind⟩ := hstored
  cases hop with
  | created hcleared _ _ =>
      exact h.written hstore hchange fun k hk => SessionTables.owner_cleared hcleared hk
  | recovered _ _ _ _ =>
      exact h.written hstore hchange fun k hk => SessionTables.owner_forget hk
  | forgotten hopens hrecovers hlost =>
      simp only [hopens] at hkind
      by_cases hlive : ((m.slots s).sessionMap.get? o.key).isSome
      · refine h.same hchange.rows fun k => ?_
        rw [htables]
        by_cases hk : k = o.key
        · rw [hk]
          exact SessionTables.owner_forget_live hlive o.key
        · exact SessionTables.owner_forget hk
      · have hheld := (hkind.resolve_left hrecovers).resolve_left (hlost.resolve_left hlive)
        exact h.changed hchange.rows htables (fun k hk => SessionTables.owner_forget hk) hheld
  | unmapped hrenews hstart =>
      simp only [hrenews] at hkind
      exact h.changed hchange.rows htables (fun k hk => SessionTables.owner_unmap hk)
        (hkind.resolve_left hstart)
  | forked hforks _ hid =>
      simp only [hforks] at hkind
      refine h.changed hchange.rows htables (fun k hk => ?_) (hkind _ hid)
      rw [SessionTables.owner_register, if_neg hk]

/-- An operation on another slot: its row is not of this slot's agent. -/
theorem RowsFollow.other {s s₀ : Fin n} {o : Operation} {t : SessionTables}
    {row : Option WrittenRow} {news : List (Output n)} (h : RowsFollow cfg m s) (hs : s ≠ s₀)
    (hfind : findSlotByName cfg o.agentName = some s₀) (hop : TablesOp (m.slots s₀) s₀ o t row news)
    (hchange : TablesChange o.answers m m' s₀ t row news) : RowsFollow cfg m' s := by
  have htables : (m'.slots s).tables = (m.slots s).tables :=
    (hchange.tables s).trans (if_neg hs)
  intro k id hrow
  rw [StoredAs, hchange.rows] at hrow
  rw [htables]
  unfold rowAfter at hrow
  split at hrow
  · exact h k id hrow
  · rename_i r
    split at hrow
    · have hname : r.agentName = o.agentName := by cases hop <;> rfl
      rw [hname, ← findSlotByName_eq_some cfg hfind] at hrow
      have hsame := cfg.names_distinct (congrArg Prod.fst (Option.some.inj hrow))
      exact absurd hsame.symm hs
    · exact h k id hrow

theorem rowsFollow_of_crash {m₁ : AgentsManager n} {s : Fin n} {a : Answers}
    (h : RowsFollow cfg m₁ s) (hcrash : CrashOutcome cfg m₁ s a m')
    (hstored : CrashStored cfg m₁ s a) : RowsFollow cfg m' s := by
  cases hcrash with
  | down _ _ hchange =>
      refine h.same hchange.rows fun k => ?_
      rw [hchange.tables s, if_pos rfl]
  | @restored first id conn how _ hcan hfirst hid hconn hchange =>
      intro k id' hrow
      rw [StoredAs, hchange.rows] at hrow
      rw [hchange.tables s, if_pos rfl, SessionTables.owner_reinstate, h k id' hrow,
        Option.map_some]
      obtain ⟨p, hp, _, hname, hacp⟩ := (SessionStore.openRow_eq_some _ _ _ _).mp hrow
      split
      · rename_i heq
        rw [hstored.1 hcan first hfirst id hid p hp hname (hacp.trans heq), heq]
      · rfl
  | restarted hcan hnot hid _ hchange =>
      refine h.changed hchange.rows ((hchange.tables s).trans (if_pos rfl)) (fun k hk => ?_)
        (hstored.2 hcan hnot _ hid)
      rw [SessionTables.restart, SessionTables.owner_register, if_neg hk]
      exact SessionTables.owner_retire _ k
  | retired _ _ _ hchange =>
      refine h.same hchange.rows fun k => ?_
      rw [hchange.tables s, if_pos rfl, SessionTables.owner_retire]

theorem crash_rows {m₁ : AgentsManager n} {s : Fin n} {a : Answers}
    (hcrash : CrashOutcome cfg m₁ s a m') (key : String) :
    m'.sessionStore.openRow key = m₁.sessionStore.openRow key := by
  cases hcrash with
  | down _ _ hchange => exact hchange.rows key
  | restored _ _ _ _ hchange => exact hchange.rows key
  | restarted _ _ _ _ hchange => exact hchange.rows key
  | retired _ _ _ hchange => exact hchange.rows key

theorem SessionStep.rowsFollow (h : SessionStep cfg m l m')
    (hstored : KeepsStore cfg m (.inl l)) (hfollow : ∀ s, RowsFollow cfg m s) :
    ∀ s, RowsFollow cfg m' s := by
  intro s
  cases h with
  | kept hkept => exact (hfollow s).same hkept.rows fun k => by rw [hkept.tables s]
  | @changed _ o s₀ t row news _ ho hfind hop hchange =>
      by_cases hs : s = s₀
      · subst hs
        exact rowsFollow_of_tablesOp (hfollow s) hop hchange (hstored.1 o ho s hfind)
      · exact (hfollow s).other hs hfind hop hchange
  | expired _ hexpired =>
      refine (hfollow s).same hexpired.rows fun k => ?_
      rw [hexpired.tables s, SessionTables.owner_expire]
  | @crashed _ s₀ a msg rest _ hl hincoming hcrash =>
      by_cases hs : s = s₀
      · subst hs
        have hbefore : RowsFollow cfg { m with incoming := rest } s := hfollow s
        exact rowsFollow_of_crash hbefore hcrash (hstored.2 (s, a) hl)
      · have hrows := crash_rows hcrash
        exact (hfollow s).same hrows fun k => by rw [(crash_others hcrash hs).1]
  | shutdown => exact hfollow s

/-! ### Runs -/

/-- After a boot the rows are what the stale sessions come from. -/
theorem Booted.rowsFollow {m₀ : AgentsManager n} {b : StartAnswers n} (h : Booted cfg b m₀ m)
    (hrows : RowsKeyed cfg m) (hstored : BootStored cfg m₀ b) (s : Fin n) :
    RowsFollow cfg m s := by
  intro k id hrow
  obtain ⟨p, hp, hkey, hname, hacp⟩ := (SessionStore.openRow_eq_some _ _ _ _).mp hrow
  obtain ⟨conn, id₀, _, _, _, hmap, _⟩ := h.slots s
  have hdefault : k ≠ AgentSlot.defaultKey (cfg.agents s).name := by
    rintro rfl
    exact hstored.2 s _ (h.rows _ _ hrow) rfl
  have hstoredKey : storedKey p = k :=
    SessionKey.text_injective ((storedKey_eq hrows hp).1.symm.trans hkey)
  have hfind : findSlotByName cfg p.agentName = some s := by
    rw [hname]
    exact findSlotByName_name cfg s
  obtain ⟨id', hstale⟩ := Option.isSome_iff_exists.mp (h.loaded hstored.1 s p hp hfind)
  rw [hstoredKey] at hstale
  obtain ⟨_, p', hp', hkey', hfind', hacp'⟩ := h.stale s k id' hstale
  have hrow' := (SessionStore.openRow_eq_some m.sessionStore p'.sessionKey p'.agentName
    p'.acpSessionId).mpr ⟨p', hp', rfl, rfl, rfl⟩
  rw [(storedKey_eq hrows hp').1, hkey', hrow, hacp'] at hrow'
  have hid : id' = id := (congrArg Prod.snd (Option.some.inj hrow')).symm
  unfold SessionTables.owner
  rw [AgentSlot.tables_sessionMap, hmap, KeyedMap.get?_set, if_neg hdefault]
  exact hid ▸ hstale

/-- **The stored rows follow the session maps**, in every run in which every change of an
    owner reaches the store. -/
theorem stored_of_keepsStore (h : (lives cfg).ReachableUnder (KeepsStore cfg) m) :
    ∀ key name id, m.sessionStore.openRow key = some (name, id) →
      ∃ (k : SessionKey) (s : Fin n), key = k.text ∧ name = (cfg.agents s).name ∧
        ((m.slots s).sessionMap.get? k).or ((m.slots s).staleSessions.get? k) = some id := by
  have hfollow : ∀ s, RowsFollow cfg m s := by
    refine lives_invariant (I := fun m => ∀ s, RowsFollow cfg m s) ?_ ?_ ?_ h
    · intro m₀ b m _ hstore hbooted s k id hrow
      have hnone := hbooted.storedAs hrow
      rw [StoredAs, hstore] at hnone
      cases hnone
    · intro m l m' _ hI hguard hstep _
      exact hstep.rowsFollow hguard hI
    · intro m b m' hreach _ hguard hbooted
      have hrows : RowsKeyed cfg m' := fun key name id hrow =>
        rowsKeyed_of_reachable hreach.reachable key name id (hbooted.rows key (name, id) hrow)
      exact hbooted.rowsFollow hrows hguard
  intro key name id hrow
  obtain ⟨k, s, rfl, rfl⟩ := rowsKeyed_of_reachable h.reachable key name id hrow
  exact ⟨k, s, rfl, rfl, hfollow s k id hrow⟩

/-- The session of `bob` is stale after a restart, as the store has it. -/
theorem stored_of_keepsStore_restarted :
    ∃ m : AgentsManager 1, m.sessionStore.openRow Sample.bob.text = some ("a", "s") ∧
      ((m.slots 0).sessionMap.get? Sample.bob).or ((m.slots 0).staleSessions.get? Sample.bob) =
        some "s" := by
  have hrun : ∃ m ∈ Sample.executeLives (KeepsStore Sample.cfg)
      [.inl (Sample.send "hello" (Sample.answers "s")),
        .inr { Sample.boot with
          openSessions := some [⟨Sample.bob.text, "a", "s", 5, 5, false⟩] }],
      m.sessionStore.openRow Sample.bob.text = some ("a", "s") := by
    decide
  obtain ⟨m, hm, hrow⟩ := hrun
  obtain ⟨k, s, hk, _, howner⟩ := stored_of_keepsStore (reachable_of_executeLives Sample.cfg hm)
    _ _ _ hrow
  cases SessionKey.text_injective hk
  exact ⟨m, hrow, by rw [Subsingleton.elim (0 : Fin 1) s]; exact howner⟩

/-- After a crash the session is loaded under a new id, and the row keeps the old one. -/
theorem row_outdated_after_restore :
    ¬ ∀ m, (lives Sample.cfg).ReachableUnder (WritesStore Sample.cfg) m → ∀ key name id,
      m.sessionStore.openRow key = some (name, id) →
        ∃ (k : SessionKey) (s : Fin 1), key = k.text ∧ name = (Sample.cfg.agents s).name ∧
          ((m.slots s).sessionMap.get? k).or ((m.slots s).staleSessions.get? k) = some id := by
  intro hall
  have hrun : ∃ m ∈ Sample.executeLives (WritesStore Sample.cfg)
      (List.map .inl (Sample.send "hello" (Sample.answers "s") ::
        Sample.crash { Sample.answers "t" with recovery := .answered (some "u") })),
      m.sessionStore.openRow Sample.bob.text = some ("a", "s") ∧
        (m.slots 0).sessionMap.get? Sample.bob = some "u" := by
    decide
  obtain ⟨m, hm, hrow, hlive⟩ := hrun
  obtain ⟨k, s, hk, _, howner⟩ := hall m (reachable_of_executeLives Sample.cfg hm) _ _ _ hrow
  cases SessionKey.text_injective hk
  rw [Subsingleton.elim s 0, hlive, Option.some_or] at howner
  exact absurd howner (by decide)

end AgentsManager

end Anyclaw
