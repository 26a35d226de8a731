import Anyclaw.Library.KeyedMap

/-!
# The context store

Messages of a group in which the bot was not mentioned are buffered under the key of the
group, oldest first, and handed out together when it is.  A buffer is trimmed after each
message.  The statements of the database may fail one by one.

The operations are `store_context` and `take_context` of
`crates/anyclaw-core/src/context_store.rs`.
-/

namespace Anyclaw

structure ContextMessage where
  groupKey : String
  sender : String
  content : String
  /-- Seconds since 1970. -/
  timestamp : Nat
deriving DecidableEq

/-- The buffered messages of each group. -/
structure ContextStore where
  rows : KeyedMap String (List ContextMessage)
  keyed : ∀ groupKey, ∀ m ∈ (rows.get? groupKey).getD [], m.groupKey = groupKey

namespace ContextStore

def empty : ContextStore := ⟨∅, fun _ _ h => nomatch h⟩

def buffered (store : ContextStore) (groupKey : String) : List ContextMessage :=
  (store.rows.get? groupKey).getD []

def inserting (store : ContextStore) (msg : ContextMessage) (limit : Nat) (trimmed : Bool) :
    List ContextMessage :=
  let rows := store.buffered msg.groupKey ++ [msg]
  if trimmed then rows.drop (rows.length - limit) else rows

theorem mem_inserting {store : ContextStore} {msg m : ContextMessage} {limit : Nat}
    {trimmed : Bool} (h : m ∈ store.inserting msg limit trimmed) :
    m ∈ store.buffered msg.groupKey ∨ m = msg := by
  have hrows : m ∈ store.buffered msg.groupKey ++ [msg] := by
    unfold inserting at h
    dsimp only at h
    split at h
    · exact List.mem_of_mem_drop h
    · exact h
  rcases List.mem_append.mp hrows with hold | hnew
  · exact .inl hold
  · exact .inr (List.mem_singleton.mp hnew)

/-- Append the message, and keep the last `limit` messages of its group. -/
def storeContext (store : ContextStore) (msg : ContextMessage) (limit : Nat)
    (inserted trimmed : Bool) : ContextStore :=
  if limit = 0 ∨ inserted = false then store
  else
    { rows := store.rows.set msg.groupKey (store.inserting msg limit trimmed)
      keyed := by
        intro groupKey m hm
        rw [KeyedMap.get?_set] at hm
        split at hm
        · rename_i hkey
          rcases mem_inserting hm with hold | rfl
          · exact (store.keyed msg.groupKey m hold).trans hkey.symm
          · exact hkey.symm
        · exact store.keyed groupKey m hm }

/-- Remove and return the messages of a group; none are returned when it fails. -/
def takeContext (store : ContextStore) (groupKey : String) (taken : Bool) :
    List ContextMessage × ContextStore :=
  if taken then
    (store.buffered groupKey,
      { rows := store.rows.remove groupKey
        keyed := by
          intro groupKey' m hm
          rw [KeyedMap.get?_remove] at hm
          split at hm
          · cases hm
          · exact store.keyed groupKey' m hm })
  else ([], store)

/-! ### What a buffer holds -/

theorem mem_takeContext {store : ContextStore} {m : ContextMessage} {groupKey : String}
    {taken : Bool} (h : m ∈ (store.takeContext groupKey taken).1) :
    m ∈ store.buffered groupKey := by
  unfold takeContext at h
  split at h
  · exact h
  · cases h

theorem buffered_takeContext (store : ContextStore) (groupKey groupKey' : String) :
    (store.takeContext groupKey true).2.buffered groupKey' =
      if groupKey' = groupKey then [] else store.buffered groupKey' := by
  unfold takeContext buffered
  by_cases hkey : groupKey' = groupKey <;> simp [hkey]

theorem groupKey_of_takeContext {store : ContextStore} {m : ContextMessage} {groupKey : String}
    {taken : Bool} (h : m ∈ (store.takeContext groupKey taken).1) : m.groupKey = groupKey :=
  store.keyed groupKey m (mem_takeContext h)

end ContextStore

end Anyclaw
