import Mathlib.Data.List.Basic

/-!
# Internal constants and the lifecycle of a slot

Times are natural numbers.  `Instant::now()` is an argument, one for every call in
the source, since two calls in one function may return different values.

The source is `constants.rs`, `backoff.rs` and `slot_lifecycle.rs` of `crates/anyclaw-core/src`,
which the slots of both managers and the supervisor share.
-/

namespace Anyclaw

/-! ### Internal guards -/

/-- Capacity of the channel events pipe, and of the incoming queue of the agents
    manager. -/
def eventChannelCapacity : Nat := 64

def defaultBackoffBaseMs : Nat := 100
def defaultBackoffMaxSecs : Nat := 30
def defaultCrashMax : Nat := 5
def defaultCrashWindowSecs : Nat := 60
def defaultCrashLongMax : Nat := 10
def defaultCrashLongWindowSecs : Nat := 3600

/-! ### Backoff (milliseconds) -/

structure ExponentialBackoff where
  current : Nat
  max : Nat
  base : Nat
  attempts : Nat
deriving DecidableEq

namespace ExponentialBackoff

def new (base max : Nat) : ExponentialBackoff where
  current := base
  max := max
  base := base
  attempts := 0

def default : ExponentialBackoff := new defaultBackoffBaseMs (defaultBackoffMaxSecs * 1000)

/-- Return the current delay and advance to the next (doubled, capped at max). -/
def nextDelay (b : ExponentialBackoff) : Nat × ExponentialBackoff :=
  (b.current, { b with current := min (b.current * 2) b.max, attempts := b.attempts + 1 })

def reset (b : ExponentialBackoff) : ExponentialBackoff :=
  { b with current := b.base, attempts := 0 }

end ExponentialBackoff

/-! ### Crash tracker (milliseconds) -/

structure CrashTracker where
  timestamps : List Nat
  maxCrashes : Nat
  window : Nat
  longMaxCrashes : Nat
  longWindow : Nat
  totalCrashes : Nat
deriving DecidableEq

namespace CrashTracker

def new (maxCrashes window : Nat) : CrashTracker where
  timestamps := []
  maxCrashes := maxCrashes
  window := window
  longMaxCrashes := defaultCrashLongMax
  longWindow := defaultCrashLongWindowSecs * 1000
  totalCrashes := 0

def default : CrashTracker := new defaultCrashMax (defaultCrashWindowSecs * 1000)

/-- Record a crash and prune timestamps outside the long window. -/
def recordCrash (t : CrashTracker) (now : Nat) : CrashTracker :=
  { t with
    timestamps := (t.timestamps.filter fun at' => now - at' < t.longWindow) ++ [now]
    totalCrashes := t.totalCrashes + 1 }

/-- Whether the number of recent crashes meets or exceeds either threshold. -/
def isCrashLoop (t : CrashTracker) (now : Nat) : Bool :=
  let shortRecent := t.timestamps.countP fun at' => now - at' < t.window
  if t.maxCrashes ≤ shortRecent then true
  else
    let longRecent := t.timestamps.countP fun at' => now - at' < t.longWindow
    t.longMaxCrashes ≤ longRecent

end CrashTracker

/-! ### Slot lifecycle -/

inductive CrashAction where
  | disabled
  | restartAfter (delay : Nat)
deriving DecidableEq

structure SlotLifecycle where
  backoff : ExponentialBackoff
  crashTracker : CrashTracker
  disabled : Bool
deriving DecidableEq

namespace SlotLifecycle

def new (backoff : ExponentialBackoff) (crashTracker : CrashTracker) : SlotLifecycle where
  backoff := backoff
  crashTracker := crashTracker
  disabled := false

def recordCrashAndCheck (l : SlotLifecycle) (recordedAt checkedAt : Nat) :
    CrashAction × SlotLifecycle :=
  let tracker := l.crashTracker.recordCrash recordedAt
  if tracker.isCrashLoop checkedAt then
    (.disabled, { l with crashTracker := tracker, disabled := true })
  else
    let (delay, backoff) := l.backoff.nextDelay
    (.restartAfter delay, { l with crashTracker := tracker, backoff := backoff })

def resetBackoff (l : SlotLifecycle) : SlotLifecycle :=
  { l with backoff := l.backoff.reset }

end SlotLifecycle

end Anyclaw
