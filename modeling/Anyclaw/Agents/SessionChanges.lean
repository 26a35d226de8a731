import Anyclaw.Agents.SessionTables

/-!
# What handlers do to sessions

`TablesKept` says that a handler has not touched the tables of the slots;
`TablesChange` says that it has changed those of one slot, perhaps written one row of
the store and perhaps learned one session id.  `SessionsKept` and `SessionChange` also
say what has happened to the incoming queue and to the sessions that await their first
prompt.

The tables are those of `AgentSlot` (`crates/anyclaw-agents/src/slot.rs`), the rows those of
the `sessions` table.
-/

namespace Anyclaw.AgentsManager

variable {n : Nat}

/-- The tables, the connections and the stored rows are the same, and no session was
    named. -/
structure TablesKept (m m' : AgentsManager n) : Prop where
  tables : ∀ s, (m'.slots s).tables = (m.slots s).tables
  connection : ∀ s, (m'.slots s).connection = (m.slots s).connection
  rows : ∀ key, m'.sessionStore.openRow key = m.sessionStore.openRow key
  naming : ∃ os, m'.trace = m.trace ++ os ∧ os.filter Output.isNaming = []

/-- Nor has the incoming queue or a waiting session been touched. -/
structure SessionsKept (m m' : AgentsManager n) : Prop extends TablesKept m m' where
  reader : ∀ s, (m'.slots s).readerAlive = (m.slots s).readerAlive
  awaiting : ∀ s, (m'.slots s).awaitingFirstPrompt = (m.slots s).awaitingFirstPrompt
  incoming : m'.incoming = m.incoming

/-- A row that a handler writes if the store works. -/
structure WrittenRow where
  key : SessionKey
  agentName : String
  acpSessionId : AcpSessionId

def rowAfter (m : AgentsManager n) (a : Answers) (row : Option WrittenRow) (key : String) :
    Option (String × AcpSessionId) :=
  match row with
  | none => m.sessionStore.openRow key
  | some r =>
      if a.storeOk = true ∧ key = r.key.text then some (r.agentName, r.acpSessionId)
      else m.sessionStore.openRow key

/-- The tables of slot `s` become `t`, `row` is written, the naming outputs are `news`. -/
structure TablesChange (a : Answers) (m m' : AgentsManager n) (s : Fin n)
    (t : SessionTables) (row : Option WrittenRow) (news : List (Output n)) : Prop where
  tables : ∀ s', (m'.slots s').tables = if s' = s then t else (m.slots s').tables
  connection : ∀ s', (m'.slots s').connection = (m.slots s').connection
  rows : ∀ key, m'.sessionStore.openRow key = m.rowAfter a row key
  naming : ∃ os, m'.trace = m.trace ++ os ∧ os.filter Output.isNaming = news

/-- If a `session/load` was sent, the replayed updates are queued, and the session it
    answered with awaits its first prompt. -/
structure SessionChange (a : Answers) (m m' : AgentsManager n) (s : Fin n)
    (t : SessionTables) (row : Option WrittenRow) (news : List (Output n)) : Prop
    extends TablesChange a m m' s t row news where
  reader : ∀ s', (m'.slots s').readerAlive = (m.slots s').readerAlive
  awaiting : ∀ s', (m.slots s').awaitingFirstPrompt ⊆ (m'.slots s').awaitingFirstPrompt
  incoming : m'.incoming = m.incoming ∨
    (m'.incoming = m.incoming ++ m.replays s a ∧
      ∀ id, a.recovery.result? = some id → id ∈ (m'.slots s).awaitingFirstPrompt)

section Composition

variable {a : Answers} {m m' m'' : AgentsManager n} {s : Fin n} {t t' : SessionTables}
  {row : Option WrittenRow} {news news' : List (Output n)}

theorem TablesKept.refl (m : AgentsManager n) : TablesKept m m :=
  ⟨fun _ => rfl, fun _ => rfl, fun _ => rfl, [], by simp, rfl⟩

theorem TablesKept.trans (h : TablesKept m m') (h' : TablesKept m' m'') :
    TablesKept m m'' := by
  obtain ⟨os, hos, hnone⟩ := h.naming
  obtain ⟨os', hos', hnone'⟩ := h'.naming
  exact
    { tables := fun s => (h'.tables s).trans (h.tables s)
      connection := fun s => (h'.connection s).trans (h.connection s)
      rows := fun key => (h'.rows key).trans (h.rows key)
      naming := ⟨os ++ os', by rw [hos', hos, List.append_assoc], by
        rw [List.filter_append, hnone, hnone', List.append_nil]⟩ }

theorem SessionsKept.refl (m : AgentsManager n) : SessionsKept m m :=
  ⟨TablesKept.refl m, fun _ => rfl, fun _ => rfl, rfl⟩

theorem SessionsKept.trans (h : SessionsKept m m') (h' : SessionsKept m' m'') :
    SessionsKept m m'' where
  toTablesKept := h.toTablesKept.trans h'.toTablesKept
  reader := fun s => (h'.reader s).trans (h.reader s)
  awaiting := fun s => (h'.awaiting s).trans (h.awaiting s)
  incoming := h'.incoming.trans h.incoming

/-- A change of the tables, followed by a handler that does not touch them. -/
theorem TablesChange.trans_kept (h : TablesChange a m m' s t row news)
    (h' : TablesKept m' m'') : TablesChange a m m'' s t row news := by
  obtain ⟨os, hos, hnews⟩ := h.naming
  obtain ⟨os', hos', hnone⟩ := h'.naming
  exact
    { tables := fun s' => (h'.tables s').trans (h.tables s')
      connection := fun s' => (h'.connection s').trans (h.connection s')
      rows := fun key => (h'.rows key).trans (h.rows key)
      naming := ⟨os ++ os', by rw [hos', hos, List.append_assoc], by
        rw [List.filter_append, hnews, hnone, List.append_nil]⟩ }

theorem SessionsKept.toChange (h : SessionsKept m m') (a : Answers) (s : Fin n) :
    SessionChange a m m' s (m.slots s).tables none [] where
  tables := fun s' => by
    rw [h.tables s']
    split
    · rename_i hs
      rw [hs]
    · rfl
  connection := h.connection
  reader := h.reader
  awaiting := fun s' => by rw [h.awaiting s']
  incoming := Or.inl h.incoming
  rows := h.rows
  naming := h.naming

/-- A change that writes no row, followed by another change of the same slot. -/
theorem TablesChange.trans (h : TablesChange a m m' s t none news)
    (h' : TablesChange a m' m'' s t' row news') :
    TablesChange a m m'' s t' row (news ++ news') := by
  obtain ⟨os, hos, hnews⟩ := h.naming
  obtain ⟨os', hos', hnews'⟩ := h'.naming
  refine
    { tables := fun s' => ?_
      connection := fun s' => (h'.connection s').trans (h.connection s')
      rows := fun key => ?_
      naming := ⟨os ++ os', by rw [hos', hos, List.append_assoc], by
        rw [List.filter_append, hnews, hnews']⟩ }
  · rw [h'.tables s', h.tables s']
    split <;> rfl
  · rw [h'.rows key]
    unfold rowAfter
    split
    · exact h.rows key
    · split
      · rfl
      · exact h.rows key

/-- A change that writes no row, followed by a change that sends no `session/load`. -/
theorem SessionChange.trans (h : SessionChange a m m' s t none news)
    (h' : SessionChange a m' m'' s t' row news') (hincoming : m''.incoming = m'.incoming) :
    SessionChange a m m'' s t' row (news ++ news') where
  toTablesChange := h.toTablesChange.trans h'.toTablesChange
  reader := fun s' => (h'.reader s').trans (h.reader s')
  awaiting := fun s' => (h.awaiting s').trans (h'.awaiting s')
  incoming := by
    rw [hincoming]
    rcases h.incoming with hsame | ⟨hload, hawait⟩
    · exact Or.inl hsame
    · exact Or.inr ⟨hload, fun id hid => h'.awaiting s (hawait id hid)⟩

/-- A change, followed by a handler that does not touch the sessions. -/
theorem SessionChange.trans_sessionsKept (h : SessionChange a m m' s t row news)
    (h' : SessionsKept m' m'') : SessionChange a m m'' s t row news where
  toTablesChange := h.toTablesChange.trans_kept h'.toTablesKept
  reader := fun s' => (h'.reader s').trans (h.reader s')
  awaiting := fun s' => by rw [h'.awaiting s']; exact h.awaiting s'
  incoming := by rw [h'.incoming, h'.awaiting s]; exact h.incoming

end Composition

/-! ### Primitive updates -/

section Primitives

variable {m m' : AgentsManager n}

theorem SessionsKept.emitAll (h : SessionsKept m m') {os : List (Output n)}
    (hos : ∀ o ∈ os, o.isNaming = false) : SessionsKept m (m'.emitAll os) := by
  refine h.trans ⟨⟨fun _ => rfl, fun _ => rfl, fun _ => rfl, os, rfl, ?_⟩, fun _ => rfl,
    fun _ => rfl, rfl⟩
  rw [List.filter_eq_nil_iff]
  intro o ho
  simp [hos o ho]

theorem SessionsKept.emit (h : SessionsKept m m') {o : Output n} (ho : o.isNaming = false) :
    SessionsKept m (m'.emit o) :=
  h.emitAll (List.forall_mem_singleton.mpr ho)

theorem SessionsKept.sendEvents (h : SessionsKept m m') (es : List ChannelEvent) :
    SessionsKept m (m'.sendEvents es) := by
  refine h.emitAll ?_
  intro o ho
  split at ho
  · obtain ⟨e, _, rfl⟩ := List.mem_map.mp ho
    rfl
  · cases ho

theorem slots_modifySlot (m : AgentsManager n) (s s' : Fin n) (f : AgentSlot → AgentSlot) :
    (m.modifySlot s f).slots s' = if s' = s then f (m.slots s) else m.slots s' := by
  rw [modifySlot_slots, Function.update_apply]

/-- An update of a slot that leaves its tables, its connection and its waiting
    sessions alone. -/
theorem SessionsKept.modifySlot (h : SessionsKept m m') {s : Fin n}
    {f : AgentSlot → AgentSlot} (htables : (f (m'.slots s)).tables = (m'.slots s).tables)
    (hconn : (f (m'.slots s)).connection = (m'.slots s).connection)
    (hreader : (f (m'.slots s)).readerAlive = (m'.slots s).readerAlive)
    (hawait : (f (m'.slots s)).awaitingFirstPrompt = (m'.slots s).awaitingFirstPrompt) :
    SessionsKept m (m'.modifySlot s f) := by
  refine h.trans
    { tables := fun s' => ?_
      connection := fun s' => ?_
      reader := fun s' => ?_
      awaiting := fun s' => ?_
      incoming := rfl
      rows := fun _ => rfl
      naming := ⟨[], by simp, rfl⟩ }
  all_goals
    rw [slots_modifySlot]
    split
    · rename_i hs
      subst hs
      assumption
    · rfl

/-- The tables of one slot are changed. -/
theorem SessionChange.modifySlot (a : Answers) (m : AgentsManager n) (s : Fin n)
    (f : AgentSlot → AgentSlot) (hconn : (f (m.slots s)).connection = (m.slots s).connection)
    (hreader : (f (m.slots s)).readerAlive = (m.slots s).readerAlive)
    (hawait : (m.slots s).awaitingFirstPrompt ⊆ (f (m.slots s)).awaitingFirstPrompt) :
    SessionChange a m (m.modifySlot s f) s (f (m.slots s)).tables none [] := by
  refine
    { tables := fun s' => ?_
      connection := fun s' => ?_
      reader := fun s' => ?_
      awaiting := fun s' => ?_
      incoming := Or.inl rfl
      rows := fun _ => rfl
      naming := ⟨[], by simp, rfl⟩ }
  · rw [slots_modifySlot]
    split <;> rfl
  all_goals
    rw [slots_modifySlot]
    split
    · rename_i hs
      subst hs
      assumption
    · rfl

theorem SessionChange.persistSession (a : Answers) (m : AgentsManager n) (s : Fin n)
    (agentName : String) (k : SessionKey) (id : AcpSessionId) :
    SessionChange a m (m.persistSession a agentName k id) s (m.slots s).tables
      (some ⟨k, agentName, id⟩) [] where
  tables := fun s' => by
    by_cases hs : s' = s
    · rw [if_pos hs, hs]; rfl
    · rw [if_neg hs]; rfl
  connection := fun _ => rfl
  reader := fun _ => rfl
  awaiting := fun _ => Finset.Subset.refl _
  incoming := Or.inl rfl
  rows := fun key => by
    unfold AgentsManager.persistSession rowAfter
    by_cases hok : a.storeOk = true
    · simp [hok]
    · simp [hok]
  naming := ⟨[], by simp [AgentsManager.persistSession], rfl⟩

end Primitives

end Anyclaw.AgentsManager
