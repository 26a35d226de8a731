import Anyclaw.Library.KeyedMap

/-!
# The session store

The `sessions` table: one row per session key text, its primary key.  The key is the key
of the map, so that no row can be filed under another key than its own.

The operations are those of the trait `SessionStore` of
`crates/anyclaw-core/src/session_store.rs`.
-/

namespace Anyclaw

structure PersistedSession where
  sessionKey : String
  agentName : String
  acpSessionId : String
  createdAt : Nat
  lastActiveAt : Nat
  closed : Bool
deriving DecidableEq

/-- The columns of a row besides the primary key. -/
structure SessionRow where
  agentName : String
  acpSessionId : String
  createdAt : Nat
  lastActiveAt : Nat
  closed : Bool
deriving DecidableEq

@[simps] def PersistedSession.row (p : PersistedSession) : SessionRow where
  agentName := p.agentName
  acpSessionId := p.acpSessionId
  createdAt := p.createdAt
  lastActiveAt := p.lastActiveAt
  closed := p.closed

@[simps] def SessionRow.persisted (row : SessionRow) (key : String) : PersistedSession where
  sessionKey := key
  agentName := row.agentName
  acpSessionId := row.acpSessionId
  createdAt := row.createdAt
  lastActiveAt := row.lastActiveAt
  closed := row.closed

/-- The `sessions` table. -/
abbrev SessionStore := KeyedMap String SessionRow

namespace SessionStore

/-- `INSERT OR REPLACE`. -/
def upsertSession (st : SessionStore) (p : PersistedSession) : SessionStore :=
  KeyedMap.set st p.sessionKey p.row

def markClosed (st : SessionStore) (key : String) : SessionStore :=
  match KeyedMap.get? st key with
  | some row => KeyedMap.set st key { row with closed := true }
  | none => st

def updateLastActive (st : SessionStore) (key : String) (timestamp : Nat) : SessionStore :=
  match KeyedMap.get? st key with
  | some row => KeyedMap.set st key { row with lastActiveAt := timestamp }
  | none => st

/-- Rows last active before `now - maxAge` are deleted. -/
def deleteExpired (st : SessionStore) (now maxAge : Nat) : SessionStore :=
  KeyedMap.retain st fun _ row => now ≤ row.lastActiveAt + maxAge

def openSessions (st : SessionStore) : List PersistedSession :=
  (st.entries.filter fun e => !e.2.closed).map fun e => e.2.persisted e.1

/-- The agent and the ACP session id that the open row for `key` holds. -/
def openRow (st : SessionStore) (key : String) : Option (String × String) :=
  ((KeyedMap.get? st key).filter fun row => !row.closed).map fun row =>
    (row.agentName, row.acpSessionId)

@[simp] theorem openRow_upsertSession (st : SessionStore) (p : PersistedSession)
    (hopen : p.closed = false) (key : String) :
    (st.upsertSession p).openRow key =
      if key = p.sessionKey then some (p.agentName, p.acpSessionId) else st.openRow key := by
  unfold openRow upsertSession
  rw [KeyedMap.get?_set]
  by_cases hk : key = p.sessionKey
  · simp [hk, hopen]
  · simp [hk]

@[simp] theorem openRow_updateLastActive (st : SessionStore) (key key' : String)
    (timestamp : Nat) :
    (st.updateLastActive key timestamp).openRow key' = st.openRow key' := by
  unfold openRow updateLastActive
  cases hget : KeyedMap.get? st key with
  | none => rfl
  | some row =>
      by_cases hk : key' = key
      · subst hk
        by_cases hclosed : row.closed = true <;> simp [hget, Option.filter, hclosed]
      · simp [hk]

theorem mem_openSessions (st : SessionStore) (p : PersistedSession) :
    p ∈ st.openSessions ↔ KeyedMap.get? st p.sessionKey = some p.row ∧ p.closed = false := by
  unfold openSessions KeyedMap.get?
  rw [List.mem_map]
  constructor
  · rintro ⟨⟨key, row⟩, hmem, rfl⟩
    obtain ⟨hentry, hopen⟩ := List.mem_filter.mp hmem
    exact ⟨AList.mem_lookup_iff.mpr hentry, by simpa using hopen⟩
  · rintro ⟨hrow, hopen⟩
    refine ⟨⟨p.sessionKey, p.row⟩, List.mem_filter.mpr ⟨AList.mem_lookup_iff.mp hrow, ?_⟩, rfl⟩
    simpa using hopen

/-- The open sessions are the open rows. -/
theorem openRow_eq_some (st : SessionStore) (key name id : String) :
    st.openRow key = some (name, id) ↔
      ∃ p ∈ st.openSessions, p.sessionKey = key ∧ p.agentName = name ∧ p.acpSessionId = id := by
  unfold openRow
  simp only [mem_openSessions, Option.map_eq_some_iff, Option.filter_eq_some_iff,
    Prod.mk.injEq]
  constructor
  · rintro ⟨row, ⟨hrow, hopen⟩, rfl, rfl⟩
    exact ⟨row.persisted key, ⟨hrow, by simpa using hopen⟩, rfl, rfl, rfl⟩
  · rintro ⟨p, ⟨hrow, hopen⟩, rfl, rfl, rfl⟩
    exact ⟨p.row, ⟨hrow, by simpa using hopen⟩, rfl, rfl⟩

/-- Expiry only deletes rows. -/
theorem openRow_deleteExpired (st : SessionStore) (now maxAge : Nat) {key : String}
    {owner : String × String} (h : (st.deleteExpired now maxAge).openRow key = some owner) :
    st.openRow key = some owner := by
  unfold openRow deleteExpired at h
  rw [KeyedMap.get?_retain] at h
  cases hget : KeyedMap.get? st key with
  | none => simp [hget] at h
  | some row =>
      by_cases hkeep : now ≤ row.lastActiveAt + maxAge
      · unfold openRow
        simpa [hget, Option.filter, hkeep] using h
      · simp [hget, Option.filter, hkeep] at h

end SessionStore

end Anyclaw
