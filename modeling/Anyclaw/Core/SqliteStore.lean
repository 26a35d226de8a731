import Anyclaw.Library.Service
import Anyclaw.Library.Table
import Anyclaw.Core.ContextStore
import Anyclaw.Core.SessionStore

/-!
# The stores as the database keeps them

The managers are modelled over a map of sessions and a map of buffered messages.  The
program keeps both in one SQLite database, and each operation is one or two statements on
its tables, made under a lock.  A statement may fail, and what the one before it did stays.

The statements are those of `crates/anyclaw-core/src/sqlite_session_store.rs`.

* `SqliteSessionStore`: the tables, and the statements of each operation.
* `Stores`: the maps, with the same operations.
* `Represents`: the rows of the tables are the entries of the maps.
* `replies_refined`: a client of the tables sees what a client of the maps sees.
-/

namespace Anyclaw

/-! ### Calls and replies -/

/-- A call of the stores, and which of its statements succeed. -/
inductive StoreCall where
  | loadOpenSessions (loaded : Bool)
  | upsertSession (session : PersistedSession) (written : Bool)
  | markClosed (sessionKey : String) (written : Bool)
  | updateLastActive (sessionKey : String) (timestamp : Nat) (written : Bool)
  | deleteExpired (now maxAgeSecs : Nat) (written : Bool)
  | storeContext (msg : ContextMessage) (limit : UInt64) (inserted trimmed : Bool)
  | takeContext (groupKey : String) (selected deleted : Bool)
deriving DecidableEq

inductive StoreReply where
  | ok
  | failed
  | sessions (listed : List PersistedSession)
  | deleted (count : Nat)
  | messages (context : List ContextMessage)
deriving DecidableEq

/-- The same reply, when no order of the sessions is promised. -/
inductive StoreReply.Same : StoreReply → StoreReply → Prop where
  | refl (reply : StoreReply) : Same reply reply
  | sessions {listed listed' : List PersistedSession} (h : listed.Perm listed') :
      Same (.sessions listed) (.sessions listed')

/-! ### The maps -/

structure Stores where
  sessions : SessionStore
  contexts : ContextStore

namespace Stores

def empty : Stores := ⟨∅, .empty⟩

/-- A write, when it succeeds. -/
def writing (st : Stores) (written : Bool) (reply : StoreReply) (sessions : SessionStore) :
    StoreReply × Stores :=
  if written then (reply, { st with sessions := sessions }) else (.failed, st)

def storeContext (st : Stores) (msg : ContextMessage) (limit : UInt64)
    (inserted trimmed : Bool) : StoreReply × Stores :=
  (if limit = 0 ∨ (inserted ∧ trimmed) then .ok else .failed,
    { st with contexts := st.contexts.storeContext msg limit.toNat inserted trimmed })

def takeContext (st : Stores) (groupKey : String) (taken : Bool) : StoreReply × Stores :=
  let result := st.contexts.takeContext groupKey taken
  (if taken then .messages result.1 else .failed, { st with contexts := result.2 })

def call (st : Stores) : StoreCall → StoreReply × Stores
  | .loadOpenSessions loaded =>
      (if loaded then .sessions st.sessions.openSessions else .failed, st)
  | .upsertSession session written =>
      st.writing written .ok (st.sessions.upsertSession session)
  | .markClosed sessionKey written => st.writing written .ok (st.sessions.markClosed sessionKey)
  | .updateLastActive sessionKey timestamp written =>
      st.writing written .ok (st.sessions.updateLastActive sessionKey timestamp)
  | .deleteExpired now maxAgeSecs written =>
      let kept := st.sessions.deleteExpired now maxAgeSecs
      st.writing written (.deleted (st.sessions.entries.length - kept.entries.length)) kept
  | .storeContext msg limit inserted trimmed => st.storeContext msg limit inserted trimmed
  | .takeContext groupKey selected deleted => st.takeContext groupKey (selected && deleted)

def service : Service Stores StoreCall StoreReply := ⟨empty, call⟩

end Stores

/-! ### The tables -/

structure SessionColumns where
  sessionKey : String
  agentName : String
  acpSessionId : String
  createdAt : Nat
  lastActiveAt : Nat
  closed : Int
deriving DecidableEq

def PersistedSession.columns (p : PersistedSession) : SessionColumns where
  sessionKey := p.sessionKey
  agentName := p.agentName
  acpSessionId := p.acpSessionId
  createdAt := p.createdAt
  lastActiveAt := p.lastActiveAt
  closed := if p.closed then 1 else 0

def SessionColumns.persisted (r : SessionColumns) : PersistedSession where
  sessionKey := r.sessionKey
  agentName := r.agentName
  acpSessionId := r.acpSessionId
  createdAt := r.createdAt
  lastActiveAt := r.lastActiveAt
  closed := r.closed ≠ 0

/-- The tables; `sessions` has its session key as primary key, and the rows of
    `context_messages` are numbered. -/
structure SqliteSessionStore where
  sessions : List SessionColumns
  primaryKey : (sessions.map SessionColumns.sessionKey).Nodup
  contextMessages : Table ContextMessage

/-- The largest number that a row can have. -/
def maxRowId : Nat := 2 ^ 63 - 1

namespace SqliteSessionStore

def empty : SqliteSessionStore := ⟨[], List.nodup_nil, .empty⟩

theorem sessionKeys_filter {sessions : List SessionColumns} (p : SessionColumns → Bool)
    (h : (sessions.map SessionColumns.sessionKey).Nodup) :
    ((sessions.filter p).map SessionColumns.sessionKey).Nodup :=
  h.sublist (List.filter_sublist.map _)

/-! ### Sessions -/

/-- `SELECT … WHERE closed = 0`. -/
def loadOpenSessions (db : SqliteSessionStore) : List PersistedSession :=
  (db.sessions.filter fun r => r.closed = 0).map SessionColumns.persisted

/-- `INSERT OR REPLACE`. -/
def upsertSession (db : SqliteSessionStore) (session : PersistedSession) : SqliteSessionStore where
  sessions := (db.sessions.filter fun r => r.sessionKey ≠ session.sessionKey) ++ [session.columns]
  primaryKey := by
    rw [List.map_append, List.nodup_append]
    refine ⟨sessionKeys_filter _ db.primaryKey, List.nodup_singleton _, ?_⟩
    intro key hkey key' hkey' heq
    obtain ⟨r, hr, rfl⟩ := List.mem_map.mp hkey
    have hne := List.of_mem_filter hr
    rw [heq, List.mem_singleton.mp hkey'] at hne
    simp [PersistedSession.columns] at hne
  contextMessages := db.contextMessages

/-- `UPDATE … WHERE session_key = …`, which leaves the key alone. -/
def updating (db : SqliteSessionStore) (sessionKey : String)
    (set : SessionColumns → SessionColumns) (h : ∀ r, (set r).sessionKey = r.sessionKey) :
    SqliteSessionStore where
  sessions := db.sessions.map fun r => if r.sessionKey = sessionKey then set r else r
  primaryKey := by
    have hkeys : (db.sessions.map fun r => if r.sessionKey = sessionKey then set r else r).map
        SessionColumns.sessionKey = db.sessions.map SessionColumns.sessionKey := by
      rw [List.map_map]
      refine List.map_congr_left fun r _ => ?_
      by_cases hr : r.sessionKey = sessionKey <;> simp [hr, h]
    rw [hkeys]
    exact db.primaryKey
  contextMessages := db.contextMessages

def markClosed (db : SqliteSessionStore) (sessionKey : String) : SqliteSessionStore :=
  db.updating sessionKey (fun r => { r with closed := 1 }) fun _ => rfl

def updateLastActive (db : SqliteSessionStore) (sessionKey : String) (timestamp : Nat) :
    SqliteSessionStore :=
  db.updating sessionKey (fun r => { r with lastActiveAt := timestamp }) fun _ => rfl

/-- A row was last active before the cutoff. -/
def expired (now maxAgeSecs : Nat) (r : SessionColumns) : Bool :=
  (r.lastActiveAt : Int) < (now : Int) - (maxAgeSecs : Int)

/-- The number of rows deleted, and the tables without them. -/
def deleteExpired (db : SqliteSessionStore) (now maxAgeSecs : Nat) : Nat × SqliteSessionStore :=
  ((db.sessions.filter (expired now maxAgeSecs)).length,
    { db with
      sessions := db.sessions.filter fun r => !expired now maxAgeSecs r
      primaryKey := sessionKeys_filter _ db.primaryKey })

/-! ### Context messages -/

/-- `WHERE group_key = …`. -/
def ofGroup (groupKey : String) (r : Row ContextMessage) : Bool := r.data.groupKey = groupKey

/-- Insert the message, then delete all messages of its group but the latest. -/
def storeContext (db : SqliteSessionStore) (msg : ContextMessage) (limit : UInt64)
    (inserted trimmed : Bool) : StoreReply × SqliteSessionStore :=
  if limit = 0 then (.ok, db)
  else
    match if inserted then db.contextMessages.insert maxRowId msg else none with
    | none => (.failed, db)
    | some table =>
        if trimmed then
          (.ok, { db with
            contextMessages := table.keepLatest (ofGroup msg.groupKey) limit.toInt64.toInt })
        else (.failed, { db with contextMessages := table })

theorem storeContext_eq (db : SqliteSessionStore) (msg : ContextMessage) (limit : UInt64)
    (inserted trimmed : Bool) :
    db.storeContext msg limit inserted trimmed =
      if limit = 0 then (.ok, db)
      else if inserted = true ∧ db.contextMessages.sequence < maxRowId then
        (if trimmed then .ok else .failed, { db with
          contextMessages := if trimmed then (db.contextMessages.appended msg).keepLatest
            (ofGroup msg.groupKey) limit.toInt64.toInt else db.contextMessages.appended msg })
      else (.failed, db) := by
  unfold storeContext Table.insert
  by_cases hroom : db.contextMessages.sequence < maxRowId <;>
    cases inserted <;> cases trimmed <;> simp [hroom]

/-- Read the messages of the group, then delete them. -/
def takeContext (db : SqliteSessionStore) (groupKey : String) (selected deleted : Bool) :
    StoreReply × SqliteSessionStore :=
  if selected && deleted then
    (.messages ((db.contextMessages.select (ofGroup groupKey)).map Row.data),
      { db with contextMessages := db.contextMessages.deleteWhere (ofGroup groupKey) })
  else (.failed, db)

/-! ### The service -/

/-- A write, when it succeeds. -/
def writing (db : SqliteSessionStore) (written : Bool) (reply : StoreReply)
    (db' : SqliteSessionStore) : StoreReply × SqliteSessionStore :=
  if written then (reply, db') else (.failed, db)

def call (db : SqliteSessionStore) : StoreCall → StoreReply × SqliteSessionStore
  | .loadOpenSessions loaded =>
      (if loaded then .sessions db.loadOpenSessions else .failed, db)
  | .upsertSession session written => db.writing written .ok (db.upsertSession session)
  | .markClosed sessionKey written => db.writing written .ok (db.markClosed sessionKey)
  | .updateLastActive sessionKey timestamp written =>
      db.writing written .ok (db.updateLastActive sessionKey timestamp)
  | .deleteExpired now maxAgeSecs written =>
      let result := db.deleteExpired now maxAgeSecs
      db.writing written (.deleted result.1) result.2
  | .storeContext msg limit inserted trimmed => db.storeContext msg limit inserted trimmed
  | .takeContext groupKey selected deleted => db.takeContext groupKey selected deleted

def service : Service SqliteSessionStore StoreCall StoreReply := ⟨empty, call⟩

end SqliteSessionStore

/-! ### The rows of the table of sessions -/

/-- The rows are the entries of the map. -/
def Lists (sessions : List SessionColumns) (st : SessionStore) : Prop :=
  ∀ r, r ∈ sessions ↔ ∃ row, KeyedMap.get? st r.sessionKey = some row ∧
    (row.persisted r.sessionKey).columns = r

@[simp] theorem sessionKey_columns (p : PersistedSession) :
    p.columns.sessionKey = p.sessionKey := rfl

@[simp] theorem persisted_columns (p : PersistedSession) : p.columns.persisted = p := by
  cases p with
  | mk _ _ _ _ _ closed => cases closed <;> rfl

@[simp] theorem persisted_row (p : PersistedSession) : p.row.persisted p.sessionKey = p := rfl

theorem closed_columns (p : PersistedSession) : p.columns.closed = 0 ↔ p.closed = false := by
  cases h : p.closed <;> simp [PersistedSession.columns, h]

namespace Lists

variable {sessions : List SessionColumns} {st : SessionStore}

theorem empty : Lists [] ∅ := by
  intro r
  simp

theorem upsert (h : Lists sessions st) (p : PersistedSession) :
    Lists ((sessions.filter fun r => r.sessionKey ≠ p.sessionKey) ++ [p.columns])
      (st.upsertSession p) := by
  intro r
  rw [SessionStore.upsertSession, KeyedMap.get?_set, List.mem_append, List.mem_singleton,
    List.mem_filter, h r]
  by_cases hkey : r.sessionKey = p.sessionKey
  · simp only [hkey, ne_eq, not_true_eq_false, decide_false, Bool.false_eq_true, and_false,
      false_or, if_true, Option.some.injEq, exists_eq_left', persisted_row]
    exact eq_comm
  · have hne : r ≠ p.columns := fun heq => hkey (by rw [heq, sessionKey_columns])
    simp [hkey, hne]

theorem update (h : Lists sessions st) (key : String) {set : SessionColumns → SessionColumns}
    {f : SessionRow → SessionRow} {st' : SessionStore}
    (hset : ∀ row, set (SessionRow.persisted row key).columns = ((f row).persisted key).columns)
    (hst : ∀ k, KeyedMap.get? st' k =
      if k = key then (KeyedMap.get? st key).map f else KeyedMap.get? st k) :
    Lists (sessions.map fun r => if r.sessionKey = key then set r else r) st' := by
  intro r
  rw [hst, List.mem_map]
  constructor
  · rintro ⟨r₀, hr₀, heq⟩
    obtain ⟨row, hrow, hcolumns⟩ := (h r₀).mp hr₀
    by_cases hkey : r₀.sessionKey = key
    · rw [if_pos hkey, ← hcolumns, hkey, hset] at heq
      rw [hkey] at hrow
      subst heq
      exact ⟨f row, by simp [hrow], rfl⟩
    · rw [if_neg hkey] at heq
      subst heq
      exact ⟨row, by simp [hkey, hrow], hcolumns⟩
  · rintro ⟨row', hrow', hcolumns⟩
    by_cases hkey : r.sessionKey = key
    · rw [if_pos hkey] at hrow'
      obtain ⟨row, hrow, rfl⟩ := Option.map_eq_some_iff.mp hrow'
      refine ⟨(row.persisted key).columns, (h _).mpr ⟨row, hrow, rfl⟩, ?_⟩
      simpa [hset, hkey] using hcolumns
    · rw [if_neg hkey] at hrow'
      exact ⟨r, (h r).mpr ⟨row', hrow', hcolumns⟩, if_neg hkey⟩

theorem retain (h : Lists sessions st) {keep : SessionColumns → Bool} {p : SessionRow → Bool}
    (hkeep : ∀ row key, keep (SessionRow.persisted row key).columns = p row) :
    Lists (sessions.filter keep) (KeyedMap.retain st fun _ row => p row) := by
  intro r
  rw [KeyedMap.get?_retain, List.mem_filter, h r]
  constructor
  · rintro ⟨⟨row, hrow, hcolumns⟩, hkept⟩
    rw [← hcolumns, hkeep] at hkept
    exact ⟨row, by simp [hrow, hkept], hcolumns⟩
  · rintro ⟨row, hrow, hcolumns⟩
    obtain ⟨hrow, hkept⟩ := Option.filter_eq_some_iff.mp hrow
    exact ⟨⟨row, hrow, hcolumns⟩, by rw [← hcolumns, hkeep]; exact hkept⟩

/-- The rows are the entries, in some order. -/
theorem perm (h : Lists sessions st) (hkeys : (sessions.map SessionColumns.sessionKey).Nodup) :
    sessions.Perm (st.entries.map fun e => (e.2.persisted e.1).columns) := by
  have hentries : ((st.entries.map fun e => (e.2.persisted e.1).columns).map
      SessionColumns.sessionKey).Nodup := by
    rw [List.map_map]
    exact st.nodupKeys
  rw [List.perm_ext_iff_of_nodup hkeys.of_map hentries.of_map]
  intro r
  rw [h r, List.mem_map]
  constructor
  · rintro ⟨row, hrow, hcolumns⟩
    exact ⟨⟨r.sessionKey, row⟩, AList.mem_lookup_iff.mp hrow, hcolumns⟩
  · rintro ⟨⟨key, row⟩, hmem, rfl⟩
    exact ⟨row, AList.mem_lookup_iff.mpr hmem, rfl⟩

end Lists

/-! ### The tables represent the maps -/

structure Represents (db : SqliteSessionStore) (st : Stores) : Prop where
  sessions : Lists db.sessions st.sessions
  contexts : ∀ groupKey,
    (db.contextMessages.select (SqliteSessionStore.ofGroup groupKey)).map Row.data =
      st.contexts.buffered groupKey

/-- The call as the maps take it: an insertion fails, too, when the numbers have run out. -/
def SqliteSessionStore.performed (db : SqliteSessionStore) : StoreCall → StoreCall
  | .storeContext msg limit inserted trimmed =>
      .storeContext msg limit (inserted && decide (db.contextMessages.sequence < maxRowId)) trimmed
  | c => c

/-- The same call, in which an insertion may fail that was to succeed. -/
def StoreCall.PerformedAs (c c' : StoreCall) : Prop :=
  c' = c ∨ ∃ msg limit trimmed, c = .storeContext msg limit true trimmed ∧
    c' = .storeContext msg limit false trimmed

section Refinement

variable {db : SqliteSessionStore} {st : Stores}

theorem represents_empty : Represents .empty .empty := ⟨Lists.empty, fun _ => rfl⟩

/-- A write of sessions changes nothing else. -/
theorem represents_writing (h : Represents db st) {written : Bool} {reply reply' : StoreReply}
    {db' : SqliteSessionStore} {sessions : SessionStore} (hreply : reply = reply')
    (hcontexts : db'.contextMessages = db.contextMessages) (hlists : Lists db'.sessions sessions) :
    StoreReply.Same (db.writing written reply db').1 (st.writing written reply' sessions).1 ∧
      Represents (db.writing written reply db').2 (st.writing written reply' sessions).2 := by
  subst hreply
  cases written with
  | false => exact ⟨.refl _, h⟩
  | true =>
      refine ⟨.refl _, hlists, fun groupKey => ?_⟩
      simp only [SqliteSessionStore.writing, if_true, hcontexts]
      exact h.contexts groupKey

/-! #### Sessions -/

theorem perm_openSessions (h : Represents db st) :
    db.loadOpenSessions.Perm st.sessions.openSessions := by
  have hperm := ((h.sessions.perm db.primaryKey).filter fun r => r.closed = 0).map
    SessionColumns.persisted
  rw [List.filter_map, List.map_map] at hperm
  refine hperm.trans (.of_eq ?_)
  unfold SessionStore.openSessions
  have hfilter : (st.sessions.entries.filter ((fun r => decide (r.closed = 0)) ∘
      fun e => (e.2.persisted e.1).columns)) = st.sessions.entries.filter fun e => !e.2.closed := by
    refine List.filter_congr fun e _ => ?_
    simp [closed_columns, SessionRow.persisted]
  rw [hfilter]
  exact List.map_congr_left fun e _ => persisted_columns _

/-- A row is kept in both when it was active recently enough. -/
theorem expired_columns (now maxAgeSecs : Nat) (row : SessionRow) (key : String) :
    (!SqliteSessionStore.expired now maxAgeSecs (row.persisted key).columns) =
      decide (now ≤ row.lastActiveAt + maxAgeSecs) := by
  unfold SqliteSessionStore.expired
  have hactive : (row.persisted key).columns.lastActiveAt = row.lastActiveAt := rfl
  rw [hactive, ← decide_not, decide_eq_decide]
  omega

theorem length_deleteExpired (h : Represents db st) (now maxAgeSecs : Nat) :
    (db.deleteExpired now maxAgeSecs).1 = st.sessions.entries.length -
      (st.sessions.deleteExpired now maxAgeSecs).entries.length := by
  have hperm := (h.sessions.perm db.primaryKey).filter
    (SqliteSessionStore.expired now maxAgeSecs)
  have hsplit := List.length_eq_countP_add_countP (l := st.sessions.entries)
    fun e => decide (now ≤ e.2.lastActiveAt + maxAgeSecs)
  have hexpired : ((st.sessions.entries.map fun e => (e.2.persisted e.1).columns).filter
      (SqliteSessionStore.expired now maxAgeSecs)).length =
        st.sessions.entries.countP fun e => ¬ decide (now ≤ e.2.lastActiveAt + maxAgeSecs) := by
    rw [List.filter_map, List.length_map, ← List.countP_eq_length_filter]
    refine List.countP_congr fun e _ => ?_
    simp [← expired_columns now maxAgeSecs e.2 e.1]
  have hkept : (st.sessions.deleteExpired now maxAgeSecs).entries.length =
      st.sessions.entries.countP fun e => decide (now ≤ e.2.lastActiveAt + maxAgeSecs) :=
    List.countP_eq_length_filter.symm
  have hdeleted : (db.deleteExpired now maxAgeSecs).1 = _ := hperm.length_eq
  omega

/-! #### Context messages -/

/-- `limit as i64`. -/
theorem toInt_toInt64 (limit : UInt64) :
    limit.toInt64.toInt = if limit.toNat < 2 ^ 63 then (limit.toNat : Int)
      else (limit.toNat : Int) - 2 ^ 64 := by
  have hcond := BitVec.toInt_eq_toNat_cond limit.toBitVec
  have hnat : limit.toBitVec.toNat = limit.toNat := rfl
  rw [hnat] at hcond
  refine Eq.trans (show limit.toInt64.toInt = limit.toBitVec.toInt from rfl) (hcond.trans ?_)
  by_cases hsmall : limit.toNat < 2 ^ 63
  · rw [if_pos (by omega), if_pos hsmall]
  · rw [if_neg (by omega), if_neg hsmall]
    rfl

theorem buffered_storing (store : ContextStore) (msg : ContextMessage) {limit : Nat}
    (trimmed : Bool) (hlimit : limit ≠ 0) (groupKey : String) :
    (store.storeContext msg limit true trimmed).buffered groupKey =
      if groupKey = msg.groupKey then store.inserting msg limit trimmed
      else store.buffered groupKey := by
  unfold ContextStore.storeContext
  rw [if_neg (by simp [hlimit])]
  unfold ContextStore.buffered
  rw [KeyedMap.get?_set]
  by_cases hkey : groupKey = msg.groupKey <;> simp [hkey]

/-- What a group has after its message was inserted. -/
theorem contexts_appended (h : Represents db st) (msg : ContextMessage) (groupKey : String) :
    ((db.contextMessages.appended msg).select (SqliteSessionStore.ofGroup groupKey)).map Row.data =
      st.contexts.buffered groupKey ++ if msg.groupKey = groupKey then [msg] else [] := by
  rw [Table.select_appended, List.map_append, h.contexts]
  by_cases hkey : msg.groupKey = groupKey <;> simp [SqliteSessionStore.ofGroup, hkey]

/-- The latest messages are those that the map keeps. -/
theorem contexts_trimmed (h : Represents db st) (msg : ContextMessage) (limit : UInt64)
    (hroom : db.contextMessages.sequence < maxRowId) :
    (((db.contextMessages.appended msg).keepLatest (SqliteSessionStore.ofGroup msg.groupKey)
        limit.toInt64.toInt).select (SqliteSessionStore.ofGroup msg.groupKey)).map Row.data =
      st.contexts.inserting msg limit.toNat true := by
  have hrows := contexts_appended h msg msg.groupKey
  rw [if_pos rfl] at hrows
  have hlength : (st.contexts.buffered msg.groupKey ++ [msg]).length ≤ maxRowId := by
    have hle := (db.contextMessages.appended msg).length_select_le
      (SqliteSessionStore.ofGroup msg.groupKey)
    rw [← hrows, List.length_map]
    rw [Table.sequence_appended] at hle
    omega
  rw [Table.select_keepLatest, List.map_drop, hrows]
  unfold ContextStore.inserting
  rw [if_pos rfl]
  have hlen := congrArg List.length hrows
  rw [List.length_map] at hlen
  rw [hlen, toInt_toInt64]
  unfold maxRowId at hlength
  congr 1
  have hbound := limit.toNat_lt
  split <;> split <;> omega

theorem represents_storeContext (h : Represents db st) (msg : ContextMessage) (limit : UInt64)
    (inserted trimmed : Bool) :
    StoreReply.Same (db.storeContext msg limit inserted trimmed).1
        (st.storeContext msg limit (inserted && decide (db.contextMessages.sequence < maxRowId))
          trimmed).1 ∧
      Represents (db.storeContext msg limit inserted trimmed).2
        (st.storeContext msg limit (inserted && decide (db.contextMessages.sequence < maxRowId))
          trimmed).2 := by
  rw [SqliteSessionStore.storeContext_eq]
  by_cases hlimit : limit = 0
  · subst hlimit
    refine ⟨.refl _, h.sessions, fun groupKey => ?_⟩
    simpa [Stores.storeContext, ContextStore.storeContext] using h.contexts groupKey
  have hnat : limit.toNat ≠ 0 := fun heq => hlimit (UInt64.toNat.inj heq)
  rw [if_neg hlimit]
  by_cases hdone : inserted = true ∧ db.contextMessages.sequence < maxRowId
  · obtain ⟨rfl, hroom⟩ := hdone
    rw [if_pos ⟨rfl, hroom⟩, Bool.true_and, decide_eq_true hroom]
    refine ⟨by simp [Stores.storeContext, hlimit, StoreReply.Same.refl], h.sessions,
      fun groupKey => ?_⟩
    rw [Stores.storeContext, buffered_storing _ _ _ hnat]
    cases trimmed with
    | false =>
        refine (contexts_appended h msg groupKey).trans ?_
        by_cases hkey : groupKey = msg.groupKey
        · simp [hkey, ContextStore.inserting]
        · simp [hkey, Ne.symm hkey]
    | true =>
        by_cases hkey : groupKey = msg.groupKey
        · subst hkey
          simpa using contexts_trimmed h msg limit hroom
        · have hother : ∀ r, SqliteSessionStore.ofGroup groupKey r = true →
              SqliteSessionStore.ofGroup msg.groupKey r = false := by
            intro r hr
            simp only [SqliteSessionStore.ofGroup, decide_eq_true_eq, decide_eq_false_iff_not]
              at hr ⊢
            exact hr ▸ hkey
          simpa [hkey, Ne.symm hkey, Table.select_keepLatest_of_disjoint _ _ hother]
            using contexts_appended h msg groupKey
  · have hinserted : (inserted && decide (db.contextMessages.sequence < maxRowId)) = false := by
      simpa using hdone
    rw [if_neg hdone, hinserted]
    refine ⟨by simp [Stores.storeContext, hlimit, StoreReply.Same.refl], h.sessions,
      fun groupKey => ?_⟩
    simpa [Stores.storeContext, ContextStore.storeContext] using h.contexts groupKey

/-- The messages of a group after those of another, or of the same, were deleted. -/
theorem contexts_deleted (h : Represents db st) (groupKey groupKey' : String) :
    ((db.contextMessages.deleteWhere (SqliteSessionStore.ofGroup groupKey)).select
        (SqliteSessionStore.ofGroup groupKey')).map Row.data =
      if groupKey' = groupKey then [] else st.contexts.buffered groupKey' := by
  rw [Table.select_deleteWhere, ← h.contexts]
  have hgroup : ∀ r ∈ db.contextMessages.select (SqliteSessionStore.ofGroup groupKey'),
      r.data.groupKey = groupKey' := by
    intro r hr
    simpa [SqliteSessionStore.ofGroup] using List.of_mem_filter hr
  by_cases hkey : groupKey' = groupKey
  · rw [if_pos hkey, List.filter_eq_nil_iff.mpr, List.map_nil]
    intro r hr
    simp [SqliteSessionStore.ofGroup, hgroup r hr, hkey]
  · rw [if_neg hkey, List.filter_eq_self.mpr]
    intro r hr
    simp [SqliteSessionStore.ofGroup, hgroup r hr, hkey]

theorem represents_takeContext (h : Represents db st) (groupKey : String)
    (selected deleted : Bool) :
    StoreReply.Same (db.takeContext groupKey selected deleted).1
        (st.takeContext groupKey (selected && deleted)).1 ∧
      Represents (db.takeContext groupKey selected deleted).2
        (st.takeContext groupKey (selected && deleted)).2 := by
  unfold SqliteSessionStore.takeContext Stores.takeContext
  cases selected && deleted with
  | false =>
      refine ⟨.refl _, h.sessions, fun groupKey' => ?_⟩
      simpa [ContextStore.takeContext] using h.contexts groupKey'
  | true =>
      refine ⟨?_, h.sessions, fun groupKey' => ?_⟩
      · simp only [if_true, h.contexts groupKey]
        exact .refl _
      · rw [ContextStore.buffered_takeContext]
        exact contexts_deleted h groupKey groupKey'

/-- Each call is answered alike, and leaves the same entries. -/
theorem represents_call (h : Represents db st) (c : StoreCall) :
    StoreReply.Same (db.call c).1 (st.call (db.performed c)).1 ∧
      Represents (db.call c).2 (st.call (db.performed c)).2 := by
  cases c with
  | loadOpenSessions loaded =>
      cases loaded with
      | false => exact ⟨.refl _, h⟩
      | true => exact ⟨.sessions (perm_openSessions h), h⟩
  | upsertSession session written =>
      exact represents_writing h rfl rfl (h.sessions.upsert session)
  | markClosed sessionKey written =>
      refine represents_writing h rfl rfl
        (h.sessions.update sessionKey (f := fun row => { row with closed := true })
          (fun _ => rfl) fun k => ?_)
      unfold SessionStore.markClosed
      cases hrow : KeyedMap.get? st.sessions sessionKey with
      | none => by_cases hk : k = sessionKey <;> simp [hk, hrow]
      | some row => simp
  | updateLastActive sessionKey timestamp written =>
      refine represents_writing h rfl rfl
        (h.sessions.update sessionKey (f := fun row => { row with lastActiveAt := timestamp })
          (fun _ => rfl) fun k => ?_)
      unfold SessionStore.updateLastActive
      cases hrow : KeyedMap.get? st.sessions sessionKey with
      | none => by_cases hk : k = sessionKey <;> simp [hk, hrow]
      | some row => simp
  | deleteExpired now maxAgeSecs written =>
      exact represents_writing h (congrArg StoreReply.deleted (length_deleteExpired h _ _)) rfl
        (h.sessions.retain (expired_columns now maxAgeSecs))
  | storeContext msg limit inserted trimmed =>
      exact represents_storeContext h msg limit inserted trimmed
  | takeContext groupKey selected deleted =>
      exact represents_takeContext h groupKey selected deleted

end Refinement

/-! ### Runs -/

theorem performedAs (db : SqliteSessionStore) (c : StoreCall) : c.PerformedAs (db.performed c) := by
  cases c with
  | storeContext msg limit inserted trimmed =>
      cases inserted with
      | false => exact .inl rfl
      | true =>
          by_cases hroom : db.contextMessages.sequence < maxRowId
          · exact .inl (by simp [SqliteSessionStore.performed, hroom])
          · exact .inr ⟨msg, limit, trimmed, rfl, by simp [SqliteSessionStore.performed, hroom]⟩
  | _ => exact .inl rfl

theorem performed_eq_self {db : SqliteSessionStore}
    (hroom : db.contextMessages.sequence < maxRowId) (c : StoreCall) : db.performed c = c := by
  cases c <;> simp [SqliteSessionStore.performed, hroom]

/-- A call gives one number at most. -/
theorem sequence_call (db : SqliteSessionStore) (c : StoreCall) :
    (db.call c).2.contextMessages.sequence ≤ db.contextMessages.sequence + 1 := by
  cases c with
  | storeContext msg limit inserted trimmed =>
      rw [SqliteSessionStore.call, SqliteSessionStore.storeContext_eq]
      by_cases hlimit : limit = 0
      · simp [hlimit]
      · by_cases hdone : inserted = true ∧ db.contextMessages.sequence < maxRowId
        · cases trimmed <;> simp [hlimit, hdone, Table.sequence_keepLatest]
        · simp [hlimit, hdone]
  | takeContext groupKey selected deleted =>
      unfold SqliteSessionStore.call SqliteSessionStore.takeContext
      dsimp only
      split <;> simp [Table.sequence_deleteWhere]
  | loadOpenSessions loaded => exact Nat.le_succ _
  | upsertSession session written => cases written <;> exact Nat.le_succ _
  | markClosed sessionKey written => cases written <;> exact Nat.le_succ _
  | updateLastActive sessionKey timestamp written => cases written <;> exact Nat.le_succ _
  | deleteExpired now maxAgeSecs written => cases written <;> exact Nat.le_succ _

/-- **The tables refine the maps.**  Whatever calls are made and whichever statements fail,
    the replies are those of the maps for the same calls; an insertion fails on its own account
    only after 2^63 - 1 others. -/
theorem replies_refined (calls : List StoreCall) :
    ∃ calls', List.Forall₂ StoreCall.PerformedAs calls calls' ∧
      (calls.length ≤ maxRowId → calls' = calls) ∧
      List.Forall₂ StoreReply.Same (SqliteSessionStore.service.replies .empty calls)
        (Stores.service.replies .empty calls') := by
  refine ⟨SqliteSessionStore.service.translated SqliteSessionStore.performed .empty calls,
    Service.forall₂_translated performedAs _ _, fun hlength => ?_,
    Service.replies_refine (R := Represents) (fun _ _ c h => represents_call h c)
      represents_empty calls⟩
  exact Service.translated_eq_self (fun db => db.contextMessages.sequence) sequence_call
    (fun _ c hroom => performed_eq_self hroom c)
    (by simpa [SqliteSessionStore.empty, Table.empty] using hlength)

end Anyclaw
