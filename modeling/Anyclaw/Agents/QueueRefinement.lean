import Anyclaw.Library.Transition
import Anyclaw.Agents.Incoming

/-!
# The session queue as a FIFO

The operations of the queue, called in any order and on any keys, with the history of
what was pushed and of what was returned.  A pushed message is known by its number; the
numbers that a returned batch carries (`origin`) are its members.

`push` on an idle key returns its payload at once, and `pushOnly` leaves a payload
waiting on an idle key: a `push` after a `pushOnly` overtakes.

The operations are `push`, `push_only`, `mark_idle`, `flush_pending`, `drain_queued` and
`is_active` of `crates/anyclaw-agents/src/session_queue.rs`.
-/

namespace Anyclaw

inductive QueueOp where
  | push (k : SessionKey) (content : List ContentPart) (metadata : Option MessageMetadata)
  | pushOnly (k : SessionKey) (content : List ContentPart) (metadata : Option MessageMetadata)
  | markIdle (k : SessionKey)
  | flushPending (k : SessionKey)
  | drainQueued (k : SessionKey)
deriving DecidableEq

namespace QueueOp

def key : QueueOp → SessionKey
  | .push k _ _ | .pushOnly k _ _ | .markIdle k | .flushPending k | .drainQueued k => k

def payload (no : MessageNo) : QueueOp → Option RichPayload
  | .push _ content metadata | .pushOnly _ content metadata => some ⟨content, metadata, [no]⟩
  | .markIdle _ | .flushPending _ | .drainQueued _ => none

/-- The payloads that the call returns, in order, and the queue after it. -/
def perform (q : SessionQueue) (no : MessageNo) : QueueOp → List RichPayload × SessionQueue
  | .push k content metadata =>
      match q.push k ⟨content, metadata, [no]⟩ with
      | (.dispatch p, q) => ([p], q)
      | (.enqueued, q) => ([], q)
  | .pushOnly k content metadata => ([], (q.pushOnly k ⟨content, metadata, [no]⟩).2)
  | .markIdle k => ((q.markIdle k).1.toList, (q.markIdle k).2)
  | .flushPending k => ((q.flushPending k).1.toList, (q.flushPending k).2)
  | .drainQueued k => q.drainQueued k

/-- A `push` finds nothing waiting when it finds its key idle. -/
def InTurn (q : SessionQueue) : QueueOp → Prop
  | .push k _ _ => k ∈ q.active ∨ q.queued k = []
  | .pushOnly .. | .markIdle _ | .flushPending _ | .drainQueued _ => True

instance (q : SessionQueue) : DecidablePred (InTurn q)
  | .push k _ _ => inferInstanceAs (Decidable (k ∈ q.active ∨ q.queued k = []))
  | .pushOnly .. | .markIdle _ | .flushPending _ | .drainQueued _ =>
      inferInstanceAs (Decidable True)

/-! ### One call -/

variable (q : SessionQueue) (no : MessageNo) (op : QueueOp)

theorem perform_push (k : SessionKey) (content : List ContentPart)
    (metadata : Option MessageMetadata) :
    perform q no (.push k content metadata) =
      if k ∈ q.active then ([], q.pushBack k ⟨content, metadata, [no]⟩)
      else ([⟨content, metadata, [no]⟩], { q with active := insert k q.active }) := by
  by_cases hk : k ∈ q.active
  · simp [perform, SessionQueue.push, SessionQueue.isActive, hk]
  · simp [perform, SessionQueue.push, SessionQueue.isActive, hk]

theorem flushPending_nil (k : SessionKey) (h : q.queued k = []) : (q.flushPending k).1 = none := by
  unfold SessionQueue.queued at h
  unfold SessionQueue.flushPending
  split
  · rfl
  · rcases hget : q.queues.get? k with _ | _ | ⟨first, rest⟩
    · rfl
    · rfl
    · rw [hget] at h
      cases h

/-- What a call does to the payloads of its key that are returned by it or wait after
    it: it adds the pushed payload at the end, leaves them, or merges them. -/
theorem perform_key (h : InTurn q op) :
    (∃ p, op.payload no = some p ∧
      (op.perform q no).1 ++ (op.perform q no).2.queued op.key = q.queued op.key ++ [p]) ∨
    (op.payload no = none ∧
      ((op.perform q no).1 ++ (op.perform q no).2.queued op.key = q.queued op.key ∨
        (op.perform q no).1 ++ (op.perform q no).2.queued op.key =
          [SessionQueue.mergePending (q.queued op.key)])) := by
  cases op with
  | push k content metadata =>
      left
      refine ⟨⟨content, metadata, [no]⟩, rfl, ?_⟩
      rw [perform_push]
      by_cases hk : k ∈ q.active
      · simp [hk, key]
      · have hnil : q.queued k = [] := h.resolve_left hk
        have hq : ({ q with active := insert k q.active } : SessionQueue).queued k = [] := hnil
        simp [hk, key, hnil, hq]
  | pushOnly k content metadata =>
      left
      refine ⟨⟨content, metadata, [no]⟩, rfl, ?_⟩
      simp [perform, SessionQueue.pushOnly, key]
  | markIdle k =>
      right
      refine ⟨rfl, Or.inl ?_⟩
      simp only [perform, key, SessionQueue.fst_markIdle, SessionQueue.queued_markIdle, if_true]
      cases q.queued k <;> simp
  | flushPending k =>
      right
      refine ⟨rfl, ?_⟩
      by_cases hk : k ∈ q.active
      · left
        simp [perform, key, SessionQueue.flushPending_active q k hk]
      · by_cases hnil : q.queued k = []
        · left
          simp [perform, key, flushPending_nil q k hnil, SessionQueue.queued_flushPending q k k hk,
            hnil]
        · right
          simp [perform, key, SessionQueue.fst_flushPending q k hk hnil,
            SessionQueue.queued_flushPending q k k hk]
  | drainQueued k =>
      right
      refine ⟨rfl, Or.inl ?_⟩
      simp [perform, key, SessionQueue.fst_drainQueued, SessionQueue.queued_drainQueued]

/-- Another key's payloads and whether it is active are not changed. -/
theorem perform_other {k' : SessionKey} (hk : k' ≠ op.key) :
    (op.perform q no).2.queued k' = q.queued k' ∧
      (k' ∈ (op.perform q no).2.active ↔ k' ∈ q.active) := by
  cases op with
  | push k content metadata =>
      rw [perform_push]
      by_cases ha : k ∈ q.active
      · simp [ha, show k' ≠ k from hk]
      · simp only [ha, if_false, Finset.mem_insert, show k' ≠ k from hk, false_or, and_true]
        rfl
  | pushOnly k content metadata =>
      simp [perform, SessionQueue.pushOnly, show k' ≠ k from hk]
  | markIdle k =>
      simp only [perform, SessionQueue.queued_markIdle, SessionQueue.active_markIdle,
        show k' ≠ k from hk, if_false, true_and]
      split <;> simp [show k' ≠ k from hk]
  | flushPending k =>
      by_cases ha : k ∈ q.active
      · simp [perform, SessionQueue.flushPending_active q k ha]
      · simp only [perform, SessionQueue.queued_flushPending q k k' ha, show k' ≠ k from hk,
          if_false, true_and]
        unfold SessionQueue.flushPending
        split
        · exact Iff.rfl
        · split <;> simp [show k' ≠ k from hk]
  | drainQueued k =>
      simp [perform, SessionQueue.queued_drainQueued, show k' ≠ k from hk]

/-- No queue without a payload is stored. -/
def NoEmptyQueue (q : SessionQueue) : Prop :=
  ∀ k, q.queues.get? k ≠ some []

theorem NoEmptyQueue.remove {q : SessionQueue} (h : NoEmptyQueue q) (k : SessionKey)
    (active : Finset SessionKey) : NoEmptyQueue ⟨q.queues.remove k, active⟩ := by
  intro k'
  rw [KeyedMap.get?_remove]
  split
  · simp
  · exact h k'

theorem NoEmptyQueue.set {q : SessionQueue} (h : NoEmptyQueue q) (k : SessionKey)
    {ps : List RichPayload} (hps : ps ≠ []) (active : Finset SessionKey) :
    NoEmptyQueue ⟨q.queues.set k ps, active⟩ := by
  intro k'
  rw [KeyedMap.get?_set]
  split
  · simpa using hps
  · exact h k'

theorem NoEmptyQueue.perform {q : SessionQueue} (h : NoEmptyQueue q) :
    NoEmptyQueue (op.perform q no).2 := by
  cases op with
  | push k content metadata =>
      rw [perform_push]
      split
      · exact h.set k (by simp) _
      · exact h
  | pushOnly k content metadata => exact h.set k (by simp) _
  | markIdle k =>
      show NoEmptyQueue (q.markIdle k).2
      unfold SessionQueue.markIdle
      rcases q.queues.get? k with _ | _ | ⟨next, rest⟩
      · exact h
      · exact h.remove k _
      · cases rest with
        | nil => exact h.remove k _
        | cons p ps => exact h.set k (by simp) _
  | flushPending k =>
      show NoEmptyQueue (q.flushPending k).2
      unfold SessionQueue.flushPending
      split
      · exact h
      · split
        · exact h.remove k _
        · exact h.remove k _
        · exact h
  | drainQueued k =>
      show NoEmptyQueue (q.drainQueued k).2
      unfold SessionQueue.drainQueued
      split
      · exact h.remove k _
      · exact h

end QueueOp

/-! ### Histories -/

/-- A queue with what was pushed so far (a message's number is its position) and the
    payloads returned so far, both oldest first. -/
structure QueueHistory where
  queue : SessionQueue
  pushed : List (SessionKey × List ContentPart)
  returned : List (SessionKey × RichPayload)

namespace QueueHistory

def after (h : QueueHistory) (op : QueueOp) : QueueHistory :=
  let (ps, q) := op.perform h.queue h.pushed.length
  { queue := q
    pushed := h.pushed ++
      ((op.payload h.pushed.length).map fun p => (op.key, p.content)).toList
    returned := h.returned ++ ps.map fun p => (op.key, p) }

def life : Machine QueueHistory QueueOp where
  init h := h = ⟨SessionQueue.new, [], []⟩
  step h op := some (h.after op)

def InTurn (h : QueueHistory) (op : QueueOp) : Prop := op.InTurn h.queue

instance (h : QueueHistory) (op : QueueOp) : Decidable (h.InTurn op) :=
  inferInstanceAs (Decidable (op.InTurn h.queue))

variable (h : QueueHistory) (k : SessionKey)

def returnedTo : List RichPayload :=
  (h.returned.filter fun r => decide (r.1 = k)).map Prod.snd

def payloads : List RichPayload := h.returnedTo k ++ h.queue.queued k

def contentsPushed : List (List ContentPart) :=
  (h.pushed.filter fun m => decide (m.1 = k)).map Prod.snd

def contentOf (no : MessageNo) : List ContentPart := (h.pushed[no]?.map Prod.snd).getD []

/-- The contents of the messages a payload was made from. -/
def members (p : RichPayload) : List (List ContentPart) := p.origin.map h.contentOf

/-- The queue of the key is a FIFO: the members of what was returned and of what waits
    are what was pushed, in order, and a batch is made of its members in order. -/
structure Fifo : Prop where
  order : (h.payloads k).flatMap h.members = h.contentsPushed k
  merged : ∀ p ∈ h.payloads k, p.content = (h.members p).flatten

/-- `markIdle` returns nothing exactly when nothing waits, and only then releases the
    key, with nothing queued. -/
def ReleasesWhenDone (q : SessionQueue) (k : SessionKey) : Prop :=
  ((q.markIdle k).1 = none ↔ q.queued k = []) ∧
    ((q.markIdle k).1 = none → k ∉ (q.markIdle k).2.active ∧ (q.markIdle k).2.queued k = []) ∧
    ((q.markIdle k).1 ≠ none → (k ∈ (q.markIdle k).2.active ↔ k ∈ q.active))

theorem releasesWhenDone (q : SessionQueue) (k : SessionKey) : ReleasesWhenDone q k := by
  have hnone : (q.markIdle k).1 = none ↔ q.queued k = [] := by
    rw [SessionQueue.fst_markIdle, List.head?_eq_none_iff]
  refine ⟨hnone, ?_, ?_⟩
  · intro h
    rw [SessionQueue.active_markIdle, SessionQueue.queued_markIdle, if_pos (hnone.mp h),
      if_pos rfl, hnone.mp h]
    simp
  · intro h
    rw [SessionQueue.active_markIdle, if_neg fun hq => h (hnone.mpr hq)]

/-! ### What one call adds to the history -/

def message (op : QueueOp) : Option (SessionKey × List ContentPart) :=
  (op.payload h.pushed.length).map fun p => (op.key, p.content)

theorem pushed_after (op : QueueOp) : (h.after op).pushed = h.pushed ++ (h.message op).toList :=
  rfl

theorem returnedTo_after (op : QueueOp) :
    (h.after op).returnedTo k =
      h.returnedTo k ++ if op.key = k then (op.perform h.queue h.pushed.length).1 else [] := by
  simp only [returnedTo, after, List.filter_append, List.map_append]
  congr 1
  by_cases hk : op.key = k
  · simp [hk, List.filter_map, Function.comp_def]
  · simp [hk, List.filter_map, Function.comp_def]

theorem payloads_after_other {op : QueueOp} (hk : k ≠ op.key) :
    (h.after op).payloads k = h.payloads k := by
  have hq := (QueueOp.perform_other h.queue h.pushed.length op hk).1
  unfold payloads
  rw [returnedTo_after, if_neg (Ne.symm hk), List.append_nil]
  congr 1

/-- A call on the key appends what it pushes, or merges what waits. -/
theorem payloads_after (op : QueueOp) (hop : h.InTurn op) :
    (∃ p, op.payload h.pushed.length = some p ∧
      (h.after op).payloads op.key = h.payloads op.key ++ [p]) ∨
    (op.payload h.pushed.length = none ∧
      ((h.after op).payloads op.key = h.payloads op.key ∨
        (h.after op).payloads op.key = h.returnedTo op.key ++
          [SessionQueue.mergePending (h.queue.queued op.key)])) := by
  have hsplit : (h.after op).payloads op.key = h.returnedTo op.key ++
      ((op.perform h.queue h.pushed.length).1 ++
        (op.perform h.queue h.pushed.length).2.queued op.key) := by
    unfold payloads
    rw [returnedTo_after, if_pos rfl, List.append_assoc]
    rfl
  rcases QueueOp.perform_key h.queue h.pushed.length op hop with
    ⟨p, hp, hkey⟩ | ⟨hp, hkey | hkey⟩
  · refine Or.inl ⟨p, hp, ?_⟩
    rw [hsplit, hkey, payloads, List.append_assoc]
  · refine Or.inr ⟨hp, Or.inl ?_⟩
    rw [hsplit, hkey, payloads]
  · refine Or.inr ⟨hp, Or.inr ?_⟩
    rw [hsplit, hkey]

/-! ### The invariant -/

/-- A payload of the history: its members have been pushed, and it is made of them. -/
structure Made (p : RichPayload) : Prop where
  known : ∀ no ∈ p.origin, no < h.pushed.length
  merged : p.content = (h.members p).flatten

structure Ordered : Prop where
  order : (h.payloads k).flatMap h.members = h.contentsPushed k
  made : ∀ p ∈ h.payloads k, h.Made p

variable {h k}

theorem members_after (op : QueueOp) {p : RichPayload}
    (hp : ∀ no ∈ p.origin, no < h.pushed.length) : (h.after op).members p = h.members p := by
  apply List.map_congr_left
  intro no hno
  unfold contentOf
  rw [pushed_after, List.getElem?_append_left (hp no hno)]

theorem Made.after {p : RichPayload} (hp : h.Made p) (op : QueueOp) : (h.after op).Made p where
  known no hno := by
    have hlt := hp.known no hno
    rw [pushed_after, List.length_append]
    exact Nat.lt_of_lt_of_le hlt (Nat.le_add_right _ _)
  merged := by rw [members_after op hp.known, hp.merged]

/-- The pushed payload, as a member of the history after the call. -/
theorem made_payload {op : QueueOp} {p : RichPayload}
    (hp : op.payload h.pushed.length = some p) :
    (h.after op).Made p ∧ (h.after op).members p = [p.content] := by
  have horigin : p.origin = [h.pushed.length] := by
    cases op with
    | push k content metadata | pushOnly k content metadata =>
        simp only [QueueOp.payload, Option.some.injEq] at hp
        rw [← hp]
    | markIdle k | flushPending k | drainQueued k => simp [QueueOp.payload] at hp
  have hpushed : (h.after op).pushed = h.pushed ++ [(op.key, p.content)] := by
    rw [pushed_after, message, hp]
    rfl
  have hmembers : (h.after op).members p = [p.content] := by
    simp [members, horigin, contentOf, hpushed]
  refine ⟨⟨?_, ?_⟩, hmembers⟩
  · intro no hno
    rw [horigin, List.mem_singleton] at hno
    rw [hno, hpushed]
    simp
  · simp [hmembers]

theorem made_mergePending {ps : List RichPayload} (hps : ∀ p ∈ ps, h.Made p) :
    h.Made (SessionQueue.mergePending ps) ∧
      h.members (SessionQueue.mergePending ps) = ps.flatMap h.members := by
  have hmembers : h.members (SessionQueue.mergePending ps) = ps.flatMap h.members := by
    unfold members
    rw [SessionQueue.origin_mergePending, List.map_flatMap]
  refine ⟨⟨?_, ?_⟩, hmembers⟩
  · intro no hno
    rw [SessionQueue.origin_mergePending, List.mem_flatMap] at hno
    obtain ⟨p, hp, hmem⟩ := hno
    exact (hps p hp).known no hmem
  · rw [hmembers, SessionQueue.content_mergePending]
    clear hmembers
    induction ps with
    | nil => rfl
    | cons p ps ih =>
        rw [List.flatMap_cons, List.flatMap_cons, List.flatten_append,
          (hps p List.mem_cons_self).merged, ih fun p' hp' => hps p' (List.mem_cons_of_mem p hp')]

theorem contentsPushed_after (op : QueueOp) :
    (h.after op).contentsPushed k = h.contentsPushed k ++
      if op.key = k then ((op.payload h.pushed.length).map RichPayload.content).toList else [] := by
  unfold contentsPushed
  rw [pushed_after, List.filter_append, List.map_append, message]
  congr 1
  cases op.payload h.pushed.length with
  | none => simp
  | some p => by_cases hk : op.key = k <;> simp [hk]

/-- What a call preserves. -/
theorem Ordered.after {op : QueueOp} (hop : h.InTurn op) (hk : h.Ordered k) :
    (h.after op).Ordered k := by
  have hmembers : ∀ p ∈ h.payloads k, (h.after op).members p = h.members p := fun p hp =>
    members_after op (hk.made p hp).known
  have hflat : (h.payloads k).flatMap (h.after op).members = h.contentsPushed k := by
    rw [← hk.order]
    exact List.flatMap_congr hmembers
  by_cases hkey : op.key = k
  · subst hkey
    rcases h.payloads_after op hop with ⟨p, hp, hps⟩ | ⟨hp, hps | hps⟩
    · obtain ⟨hmade, hone⟩ := made_payload hp
      refine ⟨?_, ?_⟩
      · rw [hps, List.flatMap_append, hflat, contentsPushed_after, if_pos rfl, hp]
        simp [hone]
      · intro p' hp'
        rw [hps] at hp'
        rcases List.mem_append.mp hp' with hmem | hmem
        · exact (hk.made p' hmem).after op
        · rw [List.mem_singleton.mp hmem]
          exact hmade
    · refine ⟨?_, ?_⟩
      · rw [hps, hflat, contentsPushed_after, hp]
        simp
      · intro p' hp'
        rw [hps] at hp'
        exact (hk.made p' hp').after op
    · -- the waiting payloads have become one, with all their members
      have hwaiting : ∀ p ∈ h.queue.queued op.key, (h.after op).Made p := fun p hp =>
        (hk.made p (List.mem_append_right _ hp)).after op
      obtain ⟨hmade, hall⟩ := made_mergePending hwaiting
      refine ⟨?_, ?_⟩
      · rw [hps, List.flatMap_append, List.flatMap_singleton, hall, ← List.flatMap_append]
        change (h.payloads op.key).flatMap (h.after op).members = _
        rw [hflat, contentsPushed_after, hp]
        simp
      · intro p' hp'
        rw [hps] at hp'
        rcases List.mem_append.mp hp' with hmem | hmem
        · exact (hk.made p' (List.mem_append_left _ hmem)).after op
        · rw [List.mem_singleton.mp hmem]
          exact hmade
  · have hps := h.payloads_after_other k (Ne.symm hkey)
    refine ⟨?_, ?_⟩
    · rw [hps, hflat, contentsPushed_after, if_neg hkey, List.append_nil]
    · intro p hp
      rw [hps] at hp
      exact (hk.made p hp).after op

theorem ordered_of_reachable (hreach : life.ReachableUnder InTurn h) : ∀ k, h.Ordered k := by
  refine hreach.invariant (I := fun h => ∀ k, h.Ordered k) ?_ ?_
  · rintro _ rfl k
    exact ⟨rfl, by simp [payloads, returnedTo]⟩
  · intro h op h' _ hI hop hstep k
    cases Option.some.inj hstep
    exact (hI k).after hop

theorem noEmptyQueue_of_reachable {G : QueueHistory → QueueOp → Prop}
    (hreach : life.ReachableUnder G h) : QueueOp.NoEmptyQueue h.queue := by
  refine hreach.invariant (I := fun h => QueueOp.NoEmptyQueue h.queue) ?_ ?_
  · rintro _ rfl k
    simp [SessionQueue.new]
  · intro h op h' _ hI _ hstep
    cases Option.some.inj hstep
    exact hI.perform h.pushed.length op

/-- **The queue refines a FIFO per key** in every run in which a `push` that finds its
    key idle finds nothing waiting for it. -/
theorem refines_fifo (hreach : life.ReachableUnder InTurn h) :
    (∀ k, h.Fifo k) ∧ QueueOp.NoEmptyQueue h.queue ∧
      (∀ op k, k ≠ op.key →
        (h.after op).queue.queued k = h.queue.queued k ∧
          (k ∈ (h.after op).queue.active ↔ k ∈ h.queue.active) ∧
          (h.after op).returnedTo k = h.returnedTo k) ∧
      ∀ k, ReleasesWhenDone h.queue k := by
  refine ⟨?_, noEmptyQueue_of_reachable hreach, ?_, releasesWhenDone h.queue⟩
  · intro k
    have hk := ordered_of_reachable hreach k
    exact ⟨hk.order, fun p hp => (hk.made p hp).merged⟩
  · intro op k hk
    obtain ⟨hqueued, hactive⟩ := QueueOp.perform_other h.queue h.pushed.length op hk
    refine ⟨hqueued, hactive, ?_⟩
    rw [returnedTo_after, if_neg (Ne.symm hk), List.append_nil]

def alice : SessionKey := .new "test" "local" "alice"

/-- Three messages, the second of which waits for the first prompt to end. -/
theorem refines_fifo_three : ∃ h : QueueHistory,
    life.ReachableUnder InTurn h ∧ h.returned.length = 2 ∧ h.Fifo alice := by
  have hrun : ∃ h ∈ life.run InTurn ⟨SessionQueue.new, [], []⟩
      [.push alice [.text "one"] none, .push alice [.text "two"] none,
        .push alice [.text "three"] none, .markIdle alice], h.returned.length = 2 := by decide
  obtain ⟨h, hh, htwo⟩ := hrun
  have hreach := Machine.reachable_of_run _ rfl hh
  exact ⟨h, hreach, htwo, (refines_fifo hreach).1 alice⟩

/-- A `push` after a `pushOnly` on an idle key overtakes it. -/
theorem push_overtakes : ¬ ∀ h, life.Reachable h → ∀ k, h.Fifo k := by
  intro hall
  have hrun : ∃ h ∈ life.run (fun _ _ => True) ⟨SessionQueue.new, [], []⟩
      [.pushOnly alice [.text "one"] none, .push alice [.text "two"] none],
      (h.payloads alice).flatMap h.members ≠ h.contentsPushed alice := by decide
  obtain ⟨h, hh, hne⟩ := hrun
  exact hne (hall h (Machine.reachable_of_run _ rfl hh) alice).order

end QueueHistory

/-! ### Two ways to merge what waits -/

namespace SessionQueue

/-- The batch that a completion takes: `markIdle`, then `drainQueued`, merged. -/
def completionBatch (q : SessionQueue) (k : SessionKey) : Option RichPayload :=
  (q.markIdle k).1.map fun first => mergeRemaining first ((q.markIdle k).2.drainQueued k).1

/-- The batch is what the completion handler prompts with. -/
theorem dispatchQueued_batch {n : Nat} (cfg : AgentsManagerConfig n) (m : AgentsManager n)
    (k : SessionKey) (a : Answers) {batch : RichPayload}
    (hbatch : completionBatch m.queue k = some batch) :
    AgentsManager.dispatchQueued cfg m k a =
      let m := m.withQueue ((m.queue.markIdle k).2.drainQueued k).2
      let agentName := ((m.slotOfKey k).map fun s => (cfg.agents s).name).getD ""
      if agentName.isEmpty then m
      else (AgentsManager.promptSession cfg (m.sendEvents [.dispatchStarted k]) agentName k
        batch a).2 := by
  obtain ⟨first, hfirst, rfl⟩ := Option.map_eq_some_iff.mp hbatch
  unfold AgentsManager.dispatchQueued
  rcases hidle : m.queue.markIdle k with ⟨next, q⟩
  rw [hidle] at hfirst
  cases hfirst
  rfl

private theorem metadata_pending_fold (ps : List RichPayload) (acc : RichPayload) :
    (ps.foldl
      (fun acc p =>
        { content := acc.content ++ p.content
          metadata :=
            if acc.metadata.isNone && p.metadata.isSome then p.metadata else acc.metadata
          origin := acc.origin ++ p.origin }) acc).metadata =
      acc.metadata.or (ps.filterMap RichPayload.metadata).head? := by
  induction ps generalizing acc with
  | nil => simp
  | cons p ps ih =>
      rw [List.foldl_cons, ih]
      cases acc.metadata with
      | none => cases hp : p.metadata <;> simp [hp]
      | some metadata => simp

/-- `flushPending` keeps the first metadata. -/
theorem metadata_mergePending (ps : List RichPayload) :
    (mergePending ps).metadata = (ps.filterMap RichPayload.metadata).head? := by
  simpa [mergePending] using
    metadata_pending_fold ps { content := [], metadata := none, origin := [] }

/-- The completion handler keeps the last metadata. -/
theorem metadata_mergeRemaining (first : RichPayload) (ps : List RichPayload) :
    (mergeRemaining first ps).metadata =
      ((first :: ps).filterMap RichPayload.metadata).getLast? := by
  unfold mergeRemaining
  induction ps generalizing first with
  | nil => cases hfirst : first.metadata <;> simp [hfirst]
  | cons p ps ih =>
      rw [List.foldl_cons, ih]
      cases hp : p.metadata with
      | none => cases hfirst : first.metadata <;> simp [hfirst, hp]
      | some metadata =>
          cases hfirst : first.metadata <;>
            cases ps.filterMap RichPayload.metadata <;> simp_all

/-- What waits in the first queue, dispatched by `flushPending`, and what waits in the
    second, dispatched after a completion, give one and the same prompt. -/
def SamePrompt (q q' : SessionQueue) (k : SessionKey) : Prop :=
  ∃ batch ∈ (q.flushPending k).1, ∃ batch' ∈ q'.completionBatch k,
    batch.content = batch'.content ∧ batch.metadata = batch'.metadata

theorem completionBatch_eq {q : SessionQueue} {k : SessionKey} {first : RichPayload}
    {rest : List RichPayload} (hq : q.queued k = first :: rest) :
    q.completionBatch k = some (mergeRemaining first rest) := by
  have hrest : ((q.markIdle k).2.drainQueued k).1 = rest := by
    rw [fst_drainQueued, queued_markIdle, if_pos rfl, hq]
    rfl
  unfold completionBatch
  rw [hrest, fst_markIdle, hq]
  rfl

/-- **Both paths make the same prompt** of a list of waiting payloads exactly when the
    first and the last metadata among them are the same. -/
theorem samePrompt_iff {q q' : SessionQueue} {k : SessionKey} {ps : List RichPayload}
    (hne : ps ≠ []) (hidle : k ∉ q.active) (hq : q.queued k = ps) (hq' : q'.queued k = ps) :
    SamePrompt q q' k ↔
      (ps.filterMap RichPayload.metadata).head? = (ps.filterMap RichPayload.metadata).getLast? := by
  obtain ⟨first, rest, rfl⟩ := List.exists_cons_of_ne_nil hne
  have hflush : (q.flushPending k).1 = some (mergePending (first :: rest)) := by
    rw [fst_flushPending q k hidle (by rw [hq]; exact hne), hq]
  have hcontent : (mergePending (first :: rest)).content = (mergeRemaining first rest).content := by
    rw [content_mergePending, content_mergeRemaining]
  unfold SamePrompt
  rw [hflush, completionBatch_eq hq', ← metadata_mergePending, ← metadata_mergeRemaining]
  simp [hcontent]

/-- The thread a message belongs to, as its only metadata. -/
def inThread (threadId : String) : MessageMetadata where
  replyToMessageId := none
  replyToText := none
  replyToSender := none
  replyToSenderId := none
  replyToIsQuote := none
  replyToMediaType := none
  threadId := some threadId

def waiting (k : SessionKey) (ps : List RichPayload) : SessionQueue where
  queues := (∅ : KeyedMap SessionKey (List RichPayload)).set k ps
  active := ∅

/-- Two messages, the second of a thread. -/
def oneThread : List RichPayload :=
  [⟨[.text "one"], none, [0]⟩, ⟨[.text "two"], some (inThread "7"), [1]⟩]

/-- Two messages of different threads. -/
def twoThreads : List RichPayload :=
  [⟨[.text "one"], some (inThread "7"), [0]⟩, ⟨[.text "two"], some (inThread "8"), [1]⟩]

theorem samePrompt_iff_one : SamePrompt (waiting QueueHistory.alice oneThread)
    (waiting QueueHistory.alice oneThread) QueueHistory.alice :=
  (samePrompt_iff (show oneThread ≠ [] by decide) (by decide) (by decide) (by decide)).mpr
    (by decide)

/-- Flushed, two messages are answered in the thread of the first; drained after a
    completion, in the thread of the second. -/
theorem merges_differ : ¬ ∀ (q q' : SessionQueue) (k : SessionKey) (ps : List RichPayload),
    ps ≠ [] → k ∉ q.active → q.queued k = ps → q'.queued k = ps → SamePrompt q q' k := by
  intro hall
  obtain ⟨batch, hbatch, batch', hbatch', _, hmetadata⟩ :=
    hall (waiting QueueHistory.alice twoThreads) (waiting QueueHistory.alice twoThreads)
      QueueHistory.alice twoThreads (by decide) (by decide) (by decide) (by decide)
  have hdiffer : ∀ b ∈ ((waiting QueueHistory.alice twoThreads).flushPending
        QueueHistory.alice).1,
      ∀ b' ∈ (waiting QueueHistory.alice twoThreads).completionBatch QueueHistory.alice,
        b.metadata ≠ b'.metadata := by decide
  exact hdiffer batch hbatch batch' hbatch' hmetadata

end SessionQueue

end Anyclaw
