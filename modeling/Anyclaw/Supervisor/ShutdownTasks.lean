import Anyclaw.Supervisor.Managers
import Mathlib.Algebra.Order.Ring.Nat

/-!
# The tasks that a shutdown leaves behind

`shutdown_ordered` of `crates/anyclaw-supervisor/src/shutdown.rs`, for any slots and any timing.
A task ends at some time after it was cancelled, in one of the ways a task can end, or never; the
supervisor that waits for it is woken at some time, perhaps late.  The handle is taken from the
slot before it is waited for, so that the abort after a timeout finds none.

* `leavesNone_iff`: when no task is left behind, in terms of the delays of the tasks.
-/

namespace Anyclaw

namespace Supervisor

/-! ### Waiting for a task -/

/-- A task whose handle is in a slot.  Its times are counted from its cancellation; a task that
    has ended before has a delay of 0. -/
structure TaskRun where
  ends : Option (Nat × TaskResult)
  /-- When the supervisor is woken while it waits for the task. -/
  wakes : Nat
deriving DecidableEq

namespace TaskRun

variable (t : TaskRun)

/-- The result of a task that has ended after some time. -/
def endedBy (time : Nat) : Option TaskResult :=
  t.ends.bind fun (ended, result) => if ended ≤ time then some result else none

/-- `tokio::time::timeout(timeout, handle).await`, with the time that it takes.  The handle is
    looked at before the timer. -/
def wait (timeout : Nat) : Nat × Option TaskResult :=
  match t.endedBy t.wakes with
  | some result => (t.wakes, some result)
  | none => (max t.wakes timeout, t.endedBy (max t.wakes timeout))

end TaskRun

/-! ### Shutting down -/

/-- The part of a slot that a shutdown reads and writes. -/
structure ShutdownSlot where
  name : String
  joinHandle : Option TaskRun
  cancelled : Bool
deriving DecidableEq

inductive ShutdownReport where
  | shuttingDown (name : String)
  | cleanly (name : String)
  | failed (name : String)
  | panicked (name : String)
  | timedOut (name : String)
deriving DecidableEq

/-- A task that was cancelled and waited for. -/
structure CancelledTask where
  run : TaskRun
  /-- When it was cancelled. -/
  since : Nat
  aborted : Bool
deriving DecidableEq

structure Shutdown where
  now : Nat
  tasks : List CancelledTask
  reports : List ShutdownReport
deriving DecidableEq

def Shutdown.report (x : Shutdown) (r : ShutdownReport) : Shutdown :=
  { x with reports := x.reports ++ [r] }

variable (timeout : Nat)

def shutdownSlot (x : Shutdown) (slot : ShutdownSlot) : Shutdown × ShutdownSlot :=
  let x := x.report (.shuttingDown slot.name)
  let slot := { slot with cancelled := true }
  match slot.joinHandle with
  | none => (x, slot)
  | some task =>
      -- `slot.join_handle.take()`
      let slot := { slot with joinHandle := none }
      let (time, result) := task.wait timeout
      let taken (aborted : Bool) : Shutdown :=
        { x with now := x.now + time, tasks := x.tasks ++ [⟨task, x.now, aborted⟩] }
      match result with
      | some .exited => ((taken false).report (.cleanly slot.name), slot)
      | some .failed => ((taken false).report (.failed slot.name), slot)
      | some .panicked => ((taken false).report (.panicked slot.name), slot)
      | none => ((taken slot.joinHandle.isSome).report (.timedOut slot.name), slot)

/-- The next slot, before those that are done. -/
def shutdownNext (x : Shutdown × List ShutdownSlot) (slot : ShutdownSlot) :
    Shutdown × List ShutdownSlot :=
  ((shutdownSlot timeout x.1 slot).1, (shutdownSlot timeout x.1 slot).2 :: x.2)

/-- `shutdown_ordered`, from the last slot to the first. -/
def shutdownOrdered (now : Nat) (slots : List ShutdownSlot) : Shutdown × List ShutdownSlot :=
  slots.reverse.foldl (shutdownNext timeout) ({ now := now, tasks := [], reports := [] }, [])

/-! ### Which tasks are left -/

def handles (slots : List ShutdownSlot) : List TaskRun := slots.filterMap ShutdownSlot.joinHandle

def CancelledTask.endedBy (t : CancelledTask) (now : Nat) : Bool :=
  (t.run.endedBy (now - t.since)).isSome

/-- When the shutdown returns, it has taken every task, and each has ended or was asked to
    abort. -/
def LeavesNone (now : Nat) (slots : List ShutdownSlot) : Prop :=
  let x := (shutdownOrdered timeout now slots).1
  (handles slots).Perm (x.tasks.map CancelledTask.run) ∧
    ∀ t ∈ x.tasks, t.endedBy x.now = true ∨ t.aborted = true

namespace TaskRun

/-- The task ends at most `time` after its cancellation. -/
def EndsWithin (t : TaskRun) (time : Nat) : Prop :=
  ∃ ended result, t.ends = some (ended, result) ∧ ended ≤ time

/-- How long a task keeps the shutdown waiting: until the supervisor is woken, if the task has
    ended by then, and else until its time is up as well. -/
def holds (timeout : Nat) (t : TaskRun) : Nat :=
  match t.ends with
  | some (ended, _) => if ended ≤ t.wakes then t.wakes else max t.wakes timeout
  | none => max t.wakes timeout

theorem isSome_endedBy_iff {t : TaskRun} {time : Nat} :
    (t.endedBy time).isSome = true ↔ t.EndsWithin time := by
  rw [Option.isSome_iff_exists]
  constructor
  · rintro ⟨result, hresult⟩
    obtain ⟨⟨ended, result'⟩, hends, hended⟩ := Option.bind_eq_some_iff.mp hresult
    exact ⟨ended, result', hends, (Option.ite_none_right_eq_some.mp hended).1⟩
  · rintro ⟨ended, result, hends, hle⟩
    exact ⟨result, Option.bind_eq_some_iff.mpr ⟨(ended, result), hends, if_pos hle⟩⟩

theorem wait_fst (timeout : Nat) (t : TaskRun) : (t.wait timeout).1 = t.holds timeout := by
  unfold wait holds endedBy
  rcases t.ends with - | ⟨ended, result⟩
  · rfl
  · by_cases hended : ended ≤ t.wakes
    · simp [hended]
    · simp [hended]

/-- A wait lasts as long as the task, unless the timer ends it. -/
theorem EndsWithin.of_holds {t : TaskRun} {rest : Nat} :
    t.EndsWithin (t.holds timeout + rest) ↔ t.EndsWithin (max t.wakes timeout + rest) := by
  unfold EndsWithin holds
  rcases t.ends with - | ⟨ended, result⟩
  · simp
  · simp only [Option.some.injEq, Prod.mk.injEq, and_assoc, exists_eq_left', exists_and_left]
    split <;> omega

end TaskRun

/-- What a shutdown does with a slot: a task is taken, and not asked to abort. -/
theorem shutdownSlot_spec (x : Shutdown) (slot : ShutdownSlot) :
    (shutdownSlot timeout x slot).1.now =
        x.now + (slot.joinHandle.toList.map (TaskRun.holds timeout)).sum ∧
      (shutdownSlot timeout x slot).1.tasks =
        x.tasks ++ slot.joinHandle.toList.map fun t => ⟨t, x.now, false⟩ := by
  rw [shutdownSlot]
  cases slot.joinHandle with
  | none => simp [Shutdown.report]
  | some task =>
      have hwait := task.wait_fst timeout
      cases hresult : (task.wait timeout).2 with
      | none => simp [hresult, hwait, Shutdown.report]
      | some result =>
          cases result with
          | exited => simp [hresult, hwait, Shutdown.report]
          | failed => simp [hresult, hwait, Shutdown.report]
          | panicked => simp [hresult, hwait, Shutdown.report]

/-- The tasks that are cancelled one after the other, from some time on. -/
def cancelledFrom (now : Nat) : List TaskRun → List CancelledTask
  | [] => []
  | t :: rest => ⟨t, now, false⟩ :: cancelledFrom (now + t.holds timeout) rest

theorem map_run_cancelledFrom (now : Nat) (ts : List TaskRun) :
    (cancelledFrom timeout now ts).map CancelledTask.run = ts := by
  induction ts generalizing now with
  | nil => rfl
  | cons t rest ih => exact congrArg (t :: ·) (ih _)

theorem shutdownOrdered_spec (now : Nat) (slots : List ShutdownSlot) :
    (shutdownOrdered timeout now slots).1.now =
        now + ((handles slots).reverse.map (TaskRun.holds timeout)).sum ∧
      (shutdownOrdered timeout now slots).1.tasks =
        cancelledFrom timeout now (handles slots).reverse := by
  have hloop : ∀ (rest : List ShutdownSlot) (x : Shutdown × List ShutdownSlot),
      (rest.foldl (shutdownNext timeout) x).1.now =
          x.1.now + ((handles rest).map (TaskRun.holds timeout)).sum ∧
        (rest.foldl (shutdownNext timeout) x).1.tasks =
          x.1.tasks ++ cancelledFrom timeout x.1.now (handles rest) := by
    intro rest
    induction rest with
    | nil =>
        intro x
        simp [handles, cancelledFrom]
    | cons slot rest ih =>
        intro x
        obtain ⟨hnow, htasks⟩ := shutdownSlot_spec timeout x.1 slot
        obtain ⟨hnow', htasks'⟩ := ih (shutdownNext timeout x slot)
        rw [List.foldl_cons, hnow', htasks']
        change (shutdownSlot timeout x.1 slot).1.now + _ = _ ∧
          (shutdownSlot timeout x.1 slot).1.tasks ++
            cancelledFrom timeout (shutdownSlot timeout x.1 slot).1.now _ = _
        rw [hnow, htasks]
        cases hhandle : slot.joinHandle with
        | none => simp [handles, hhandle]
        | some task => simp [handles, hhandle, cancelledFrom, Nat.add_assoc]
  have hreverse : handles slots.reverse = (handles slots).reverse := List.filterMap_reverse
  have hall := hloop slots.reverse ({ now := now, tasks := [], reports := [] }, [])
  rw [hreverse] at hall
  exact hall

/-- Each of the tasks has ended when the last wait is over. -/
theorem cancelledFrom_ended_iff (now : Nat) (ts : List TaskRun) :
    (∀ t ∈ cancelledFrom timeout now ts,
        t.endedBy (now + (ts.map (TaskRun.holds timeout)).sum) = true ∨ t.aborted = true) ↔
      ∀ before t later, ts = before ++ t :: later →
        t.EndsWithin (max t.wakes timeout + (later.map (TaskRun.holds timeout)).sum) := by
  induction ts generalizing now with
  | nil => simp [cancelledFrom]
  | cons t rest ih =>
      have hfirst : (CancelledTask.endedBy ⟨t, now, false⟩
          (now + ((t :: rest).map (TaskRun.holds timeout)).sum) = true ∨ false = true) ↔
            t.EndsWithin (max t.wakes timeout + (rest.map (TaskRun.holds timeout)).sum) := by
        rw [CancelledTask.endedBy, List.map_cons, List.sum_cons, Nat.add_sub_cancel_left,
          TaskRun.isSome_endedBy_iff, TaskRun.EndsWithin.of_holds]
        simp
      rw [cancelledFrom, List.forall_mem_cons, hfirst]
      have hrest := ih (now + t.holds timeout)
      rw [List.map_cons, List.sum_cons, ← Nat.add_assoc, hrest]
      constructor
      · rintro ⟨ht, hlater⟩ before u later heq
        cases before with
        | nil =>
            obtain ⟨rfl, rfl⟩ := List.cons.inj heq
            exact ht
        | cons b before => exact hlater before u later (List.cons.inj heq).2
      · intro hall
        exact ⟨hall [] t rest rfl,
          fun before u later heq => hall (t :: before) u later (by rw [heq]; rfl)⟩

/-- **No task is left** exactly when each task ends within its timeout, or before its supervisor
    is woken, or within the time that the slots before it hold up the shutdown after that. -/
theorem leavesNone_iff (now : Nat) (slots : List ShutdownSlot) :
    LeavesNone timeout now slots ↔
      ∀ earlier t later, handles slots = earlier ++ t :: later →
        t.EndsWithin (max t.wakes timeout + (earlier.map (TaskRun.holds timeout)).sum) := by
  obtain ⟨hnow, htasks⟩ := shutdownOrdered_spec timeout now slots
  have hperm : (handles slots).Perm
      ((shutdownOrdered timeout now slots).1.tasks.map CancelledTask.run) := by
    rw [htasks, map_run_cancelledFrom]
    exact (List.reverse_perm _).symm
  rw [LeavesNone, and_iff_right hperm, hnow, htasks, cancelledFrom_ended_iff]
  constructor
  · intro hall earlier t later heq
    have h := hall later.reverse t earlier.reverse (by simp [heq])
    rwa [List.map_reverse, List.sum_reverse] at h
  · intro hall before t later heq
    have h := hall later.reverse t before.reverse (by
      rw [← List.reverse_inj, heq]
      simp)
    rwa [List.map_reverse, List.sum_reverse] at h

/-- A task that ignores its cancellation goes on. -/
theorem task_left : ¬∀ timeout now slots, LeavesNone timeout now slots := by
  intro hall
  have h := (hall 5000 0 [⟨"agents", some ⟨none, 0⟩, false⟩]).2
    ⟨⟨none, 0⟩, 0, false⟩ (by decide)
  revert h
  decide

end Supervisor

end Anyclaw
