import Mathlib.Data.Finset.Basic
import Anyclaw.Library.KeyedMap
import Anyclaw.Sdk.Content

/-!
# The session queue

One FIFO per session key, and the set of keys that have a prompt running.  A
payload carries `origin`, the numbers of the `EnqueueMessage` commands it was made
from; the code does not have this field, it follows a message through merges.

Every operation has one specification lemma, stated with `queued`, the payloads
waiting for a key, and `active`.

The source is `crates/anyclaw-agents/src/session_queue.rs`, function by function: `push`,
`push_only`, `mark_idle`, `flush_pending` and `drain_queued`.
-/

namespace Anyclaw

/-- The number of an `EnqueueMessage` command (the identity of its reply channel). -/
abbrev MessageNo := Nat

structure RichPayload where
  content : List ContentPart
  metadata : Option MessageMetadata
  origin : List MessageNo
deriving DecidableEq

inductive QueueAction where
  | dispatch (payload : RichPayload)
  | enqueued
deriving DecidableEq

structure SessionQueue where
  queues : KeyedMap SessionKey (List RichPayload)
  active : Finset SessionKey

namespace SessionQueue

def new : SessionQueue where
  queues := ∅
  active := ∅

def queued (q : SessionQueue) (k : SessionKey) : List RichPayload :=
  (q.queues.get? k).getD []

/-! ### Operations -/

def isActive (q : SessionQueue) (k : SessionKey) : Bool := k ∈ q.active

def pushBack (q : SessionQueue) (k : SessionKey) (p : RichPayload) : SessionQueue :=
  { q with queues := q.queues.set k (q.queued k ++ [p]) }

def push (q : SessionQueue) (k : SessionKey) (p : RichPayload) : QueueAction × SessionQueue :=
  if q.isActive k then
    (.enqueued, q.pushBack k p)
  else
    (.dispatch p, { q with active := insert k q.active })

/-- Add to the queue without claiming the key; returns whether the key was idle. -/
def pushOnly (q : SessionQueue) (k : SessionKey) (p : RichPayload) : Bool × SessionQueue :=
  (!q.isActive k, q.pushBack k p)

/-- Pop the next payload, or release the key when there is none. -/
def markIdle (q : SessionQueue) (k : SessionKey) : Option RichPayload × SessionQueue :=
  match q.queues.get? k with
  | some (next :: rest) =>
      (some next,
        { q with queues := if rest.isEmpty then q.queues.remove k else q.queues.set k rest })
  | some [] => (none, { queues := q.queues.remove k, active := q.active.erase k })
  | none => (none, { q with active := q.active.erase k })

/-- One merged payload: contents in order, the first metadata. -/
def mergePending (ps : List RichPayload) : RichPayload :=
  ps.foldl
    (fun acc p =>
      { content := acc.content ++ p.content
        metadata := if acc.metadata.isNone && p.metadata.isSome then p.metadata else acc.metadata
        origin := acc.origin ++ p.origin })
    { content := [], metadata := none, origin := [] }

/-- Claim the key and take everything that waits for it as one payload. -/
def flushPending (q : SessionQueue) (k : SessionKey) : Option RichPayload × SessionQueue :=
  if q.isActive k then
    (none, q)
  else
    match q.queues.get? k with
    | some [] => (none, { q with queues := q.queues.remove k })
    | some (p :: ps) =>
        (some (mergePending (p :: ps)),
          { queues := q.queues.remove k, active := insert k q.active })
    | none => (none, q)

/-- Take everything that waits for the key. -/
def drainQueued (q : SessionQueue) (k : SessionKey) : List RichPayload × SessionQueue :=
  match q.queues.get? k with
  | some ps => (ps, { q with queues := q.queues.remove k })
  | none => ([], q)

/-! ### Merging -/

private theorem merge_fold (f : RichPayload → RichPayload → Option MessageMetadata)
    (ps : List RichPayload) (acc : RichPayload) :
    let m := ps.foldl
      (fun acc p =>
        { content := acc.content ++ p.content
          metadata := f acc p
          origin := acc.origin ++ p.origin }) acc
    m.content = acc.content ++ ps.flatMap RichPayload.content ∧
      m.origin = acc.origin ++ ps.flatMap RichPayload.origin := by
  induction ps generalizing acc with
  | nil => simp
  | cons p ps ih =>
      obtain ⟨hc, ho⟩ := ih
        { content := acc.content ++ p.content
          metadata := f acc p
          origin := acc.origin ++ p.origin }
      simp only [List.foldl_cons, List.flatMap_cons, ← List.append_assoc]
      exact ⟨hc, ho⟩

theorem content_mergePending (ps : List RichPayload) :
    (mergePending ps).content = ps.flatMap RichPayload.content := by
  simpa [mergePending] using
    (merge_fold _ ps { content := [], metadata := none, origin := [] }).1

theorem origin_mergePending (ps : List RichPayload) :
    (mergePending ps).origin = ps.flatMap RichPayload.origin := by
  simpa [mergePending] using
    (merge_fold _ ps { content := [], metadata := none, origin := [] }).2

/-- The merge made after a completion: contents in order, the last metadata. -/
def mergeRemaining (first : RichPayload) (ps : List RichPayload) : RichPayload :=
  ps.foldl
    (fun acc p =>
      { content := acc.content ++ p.content
        metadata := if p.metadata.isSome then p.metadata else acc.metadata
        origin := acc.origin ++ p.origin })
    first

theorem content_mergeRemaining (first : RichPayload) (ps : List RichPayload) :
    (mergeRemaining first ps).content = (first :: ps).flatMap RichPayload.content :=
  (merge_fold _ ps first).1

theorem origin_mergeRemaining (first : RichPayload) (ps : List RichPayload) :
    (mergeRemaining first ps).origin = (first :: ps).flatMap RichPayload.origin :=
  (merge_fold _ ps first).2

/-! ### Specifications -/

variable (q : SessionQueue) (k k' : SessionKey) (p : RichPayload)

theorem isActive_iff : q.isActive k = true ↔ k ∈ q.active := by
  simp [isActive]

@[simp] theorem queued_new : new.queued k = [] := rfl

@[simp] theorem active_pushBack : (q.pushBack k p).active = q.active := rfl

@[simp] theorem queued_pushBack :
    (q.pushBack k p).queued k' = if k' = k then q.queued k ++ [p] else q.queued k' := by
  simp only [pushBack, queued, KeyedMap.get?_set]
  split <;> rfl

/-- `markIdle` pops the oldest payload. -/
theorem fst_markIdle : (q.markIdle k).1 = (q.queued k).head? := by
  unfold markIdle queued
  rcases q.queues.get? k with _ | _ | ⟨next, rest⟩ <;> rfl

theorem queued_markIdle :
    (q.markIdle k).2.queued k' = if k' = k then (q.queued k).tail else q.queued k' := by
  by_cases hk : k' = k
  · subst hk
    unfold markIdle queued
    rcases hq : q.queues.get? k' with _ | _ | ⟨next, rest⟩
    · simp [hq]
    · simp
    · cases rest <;> simp
  · unfold markIdle queued
    rcases q.queues.get? k with _ | _ | ⟨next, rest⟩
    · simp [hk]
    · simp [hk]
    · cases rest <;> simp [hk]

/-- The key is released exactly when nothing waited. -/
theorem active_markIdle :
    (q.markIdle k).2.active = if q.queued k = [] then q.active.erase k else q.active := by
  unfold markIdle queued
  rcases q.queues.get? k with _ | _ | ⟨next, rest⟩ <;> simp

theorem flushPending_active (h : k ∈ q.active) : q.flushPending k = (none, q) := by
  rw [flushPending, if_pos ((isActive_iff q k).mpr h)]

/-- On an idle key with waiting payloads, `flushPending` returns their merge. -/
theorem fst_flushPending (h : k ∉ q.active) (hq : q.queued k ≠ []) :
    (q.flushPending k).1 = some (mergePending (q.queued k)) := by
  have hidle : ¬ q.isActive k = true := fun ha => h ((isActive_iff q k).mp ha)
  unfold flushPending queued at *
  rw [if_neg hidle]
  rcases hget : q.queues.get? k with _ | _ | ⟨first, rest⟩
  · simp [hget] at hq
  · simp [hget] at hq
  · rfl

theorem queued_flushPending (h : k ∉ q.active) :
    (q.flushPending k).2.queued k' = if k' = k then [] else q.queued k' := by
  have hidle : ¬ q.isActive k = true := fun ha => h ((isActive_iff q k).mp ha)
  unfold flushPending queued
  rw [if_neg hidle]
  rcases hget : q.queues.get? k with _ | _ | ⟨first, rest⟩ <;> by_cases hk : k' = k <;>
    simp [hk, hget]

theorem active_flushPending (h : k ∉ q.active) (hq : q.queued k ≠ []) :
    (q.flushPending k).2.active = insert k q.active := by
  have hidle : ¬ q.isActive k = true := fun ha => h ((isActive_iff q k).mp ha)
  unfold flushPending queued at *
  rw [if_neg hidle]
  rcases hget : q.queues.get? k with _ | _ | ⟨first, rest⟩
  · simp [hget] at hq
  · simp [hget] at hq
  · rfl

theorem fst_drainQueued : (q.drainQueued k).1 = q.queued k := by
  unfold drainQueued queued
  cases q.queues.get? k <;> rfl

theorem queued_drainQueued :
    (q.drainQueued k).2.queued k' = if k' = k then [] else q.queued k' := by
  unfold drainQueued queued
  cases hget : q.queues.get? k <;> by_cases hk : k' = k <;> simp [hk, hget]

@[simp] theorem active_drainQueued : (q.drainQueued k).2.active = q.active := by
  unfold drainQueued
  cases q.queues.get? k <;> rfl

end SessionQueue

end Anyclaw
