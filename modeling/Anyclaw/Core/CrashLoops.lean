import Anyclaw.Core.Lifecycle

/-!
# Crash loops

A crash loop is defined by all the crashes since the last reset: too many in the short window,
or too many in the long one.  The tracker forgets crashes that are out of the long window, and
so it may miss a crash loop of a short window that is longer than the long one.

The tracker is `CrashTracker` of `crates/anyclaw-core/src/backoff.rs`.
-/

namespace Anyclaw

namespace CrashTracker

def withLongHorizon (t : CrashTracker) (maxCrashes window : Nat) : CrashTracker :=
  { t with longMaxCrashes := maxCrashes, longWindow := window }

def reset (t : CrashTracker) : CrashTracker := { t with timestamps := [], totalCrashes := 0 }

end CrashTracker

/-! ### Calls and answers -/

inductive CrashCall where
  | recordCrash (now : Nat)
  | isCrashLoop (now : Nat)
  | reset
deriving DecidableEq

/-- The times do not decrease, from the last reset on. -/
def InTime : Nat → List CrashCall → Prop
  | _, [] => True
  | last, .recordCrash now :: calls => last ≤ now ∧ InTime now calls
  | last, .isCrashLoop now :: calls => last ≤ now ∧ InTime now calls
  | _, .reset :: calls => InTime 0 calls

def CrashTracker.answers (t : CrashTracker) : List CrashCall → List Bool
  | [] => []
  | .recordCrash now :: calls => (t.recordCrash now).answers calls
  | .isCrashLoop now :: calls => t.isCrashLoop now :: t.answers calls
  | .reset :: calls => t.reset.answers calls

/-- The answers that a decision over all the crashes since the last reset gives, the latest
    crash first. -/
def answersBy (decision : List Nat → Nat → Bool) : List Nat → List CrashCall → List Bool
  | _, [] => []
  | crashes, .recordCrash now :: calls => answersBy decision (now :: crashes) calls
  | crashes, .isCrashLoop now :: calls => decision crashes now :: answersBy decision crashes calls
  | _, .reset :: calls => answersBy decision [] calls

/-- The crashes that lie less than `window` ago. -/
def crashesWithin (crashes : List Nat) (now window : Nat) : Nat :=
  crashes.countP fun crash => now - crash < window

def crashLoop (maxCrashes window longMaxCrashes longWindow : Nat) (crashes : List Nat)
    (now : Nat) : Bool :=
  maxCrashes ≤ crashesWithin crashes now window ∨
    longMaxCrashes ≤ crashesWithin crashes now longWindow

/-! ### What the tracker remembers -/

/-- Of the crashes before the last one, those that were in the long window at its time. -/
def remembered (longWindow : Nat) : List Nat → List Nat
  | [] => []
  | last :: crashes => last :: crashes.filter fun crash => last - crash < longWindow

/-- The latest crash comes first. -/
def Backwards (crashes : List Nat) : Prop := crashes.Pairwise fun later crash => crash ≤ later

theorem Backwards.tail {now : Nat} {crashes : List Nat} (h : Backwards (now :: crashes)) :
    Backwards crashes :=
  List.Pairwise.of_cons h

theorem Backwards.le {now crash : Nat} {crashes : List Nat} (h : Backwards (now :: crashes))
    (hcrash : crash ∈ crashes) : crash ≤ now :=
  (List.pairwise_cons.mp h).1 crash hcrash

/-- A later time is after all the crashes as well. -/
theorem Backwards.later {last now : Nat} {crashes : List Nat} (h : Backwards (last :: crashes))
    (hle : last ≤ now) : Backwards (now :: crashes) := by
  refine List.pairwise_cons.mpr ⟨?_, h.tail⟩
  intro crash hcrash
  exact Nat.le_trans (h.le hcrash) hle

/-- A crash is recorded. -/
theorem Backwards.push {now : Nat} {crashes : List Nat} (h : Backwards (now :: crashes)) :
    Backwards (now :: now :: crashes) := by
  refine List.pairwise_cons.mpr ⟨?_, h⟩
  intro crash hcrash
  rcases List.mem_cons.mp hcrash with rfl | hcrash
  · exact Nat.le_refl _
  · exact h.le hcrash

theorem remembered_cons {longWindow now : Nat} {crashes : List Nat}
    (h : Backwards (now :: crashes)) :
    remembered longWindow (now :: crashes)
      = now :: (remembered longWindow crashes).filter fun crash => now - crash < longWindow := by
  cases crashes with
  | nil => rfl
  | cons last crashes =>
      have hle := h.le List.mem_cons_self
      have hsame : (crashes.filter fun crash => last - crash < longWindow).filter
          (fun crash => now - crash < longWindow)
            = crashes.filter fun crash => now - crash < longWindow := by
        rw [List.filter_filter]
        apply List.filter_congr
        intro crash _
        have himp : now - crash < longWindow → last - crash < longWindow := by omega
        by_cases hin : now - crash < longWindow
        · simp [hin, himp hin]
        · simp [hin]
      simp only [remembered, List.filter_cons, hsame]

/-- What the tracker has is what it remembers of all the crashes. -/
theorem answers_eq {t : CrashTracker} {crashes : List Nat} {last : Nat} {calls : List CrashCall}
    (ht : t.timestamps = (remembered t.longWindow crashes).reverse)
    (hback : Backwards (last :: crashes)) (htime : InTime last calls) :
    t.answers calls = answersBy
      (fun crashes now => crashLoop t.maxCrashes t.window t.longMaxCrashes t.longWindow
        (remembered t.longWindow crashes) now) crashes calls := by
  induction calls generalizing t crashes last with
  | nil => rfl
  | cons call calls ih =>
      cases call with
      | recordCrash now =>
          obtain ⟨hle, hrest⟩ := htime
          have hnow := hback.later hle
          refine ih (t := t.recordCrash now) ?_ ?_ hrest
          · have hrecord : (t.recordCrash now).timestamps
                = (t.timestamps.filter fun crash => now - crash < t.longWindow) ++ [now] := rfl
            have hwindow : (t.recordCrash now).longWindow = t.longWindow := rfl
            rw [hrecord, hwindow, remembered_cons hnow, List.reverse_cons, ht,
              List.filter_reverse]
          · exact hnow.push
      | isCrashLoop now =>
          obtain ⟨hle, hrest⟩ := htime
          rw [CrashTracker.answers, answersBy, ih ht (hback.later hle) hrest]
          congr 1
          rw [CrashTracker.isCrashLoop, ht, List.countP_reverse, List.countP_reverse]
          simp only [crashLoop, crashesWithin]
          split
          · rename_i hshort
            simp [hshort]
          · rename_i hshort
            simp [hshort]
      | reset => exact ih (t := t.reset) rfl (List.pairwise_singleton _ 0) htime

theorem answersBy_congr {f g : List Nat → Nat → Bool} {crashes : List Nat} {last : Nat}
    {calls : List CrashCall}
    (hfg : ∀ crashes now, Backwards (now :: crashes) → f crashes now = g crashes now)
    (hback : Backwards (last :: crashes)) (htime : InTime last calls) :
    answersBy f crashes calls = answersBy g crashes calls := by
  induction calls generalizing crashes last with
  | nil => rfl
  | cons call calls ih =>
      cases call with
      | recordCrash now =>
          obtain ⟨hle, hrest⟩ := htime
          exact ih (hback.later hle).push hrest
      | isCrashLoop now =>
          obtain ⟨hle, hrest⟩ := htime
          have hnow := hback.later hle
          rw [answersBy, answersBy, hfg crashes now hnow, ih hnow hrest]
      | reset => exact ih (List.pairwise_singleton _ 0) htime

/-! ### When nothing is missed -/

/-- What is forgotten is not counted. -/
theorem within_remembered {longWindow now window last : Nat} {crashes : List Nat}
    (h : ∀ crash ∈ crashes, now - crash < window → last - crash < longWindow) :
    crashesWithin (remembered longWindow (last :: crashes)) now window
      = crashesWithin (last :: crashes) now window := by
  simp only [crashesWithin, remembered, List.countP_cons, List.countP_filter]
  congr 1
  apply List.countP_congr
  intro crash hcrash
  by_cases hin : now - crash < window
  · simp [hin, h crash hcrash hin]
  · simp [hin]

/-- When the last crash is in the window, there is one in it. -/
theorem one_le_within {now window last : Nat} {crashes : List Nat} (h : now - last < window) :
    1 ≤ crashesWithin (last :: crashes) now window := by
  rw [crashesWithin, List.countP_cons_of_pos (by simpa using h)]
  exact Nat.le_add_left 1 _

/-- The windows for which forgetting crashes never changes an answer. -/
def WindowsFit (maxCrashes window longMaxCrashes longWindow : Nat) : Prop :=
  window ≤ longWindow ∨ maxCrashes ≤ 1 ∨ longMaxCrashes = 0 ∨
    longMaxCrashes = 1 ∧ window ≤ 2 * longWindow

theorem crashLoop_remembered {maxCrashes window longMaxCrashes longWindow now : Nat}
    {crashes : List Nat} (hfit : WindowsFit maxCrashes window longMaxCrashes longWindow)
    (hback : Backwards (now :: crashes)) :
    crashLoop maxCrashes window longMaxCrashes longWindow (remembered longWindow crashes) now
      = crashLoop maxCrashes window longMaxCrashes longWindow crashes now := by
  cases crashes with
  | nil => rfl
  | cons last crashes =>
      have hlast := hback.le List.mem_cons_self
      have hbefore : ∀ crash ∈ crashes, crash ≤ last := fun _ hcrash => hback.tail.le hcrash
      have hlong : crashesWithin (remembered longWindow (last :: crashes)) now longWindow
          = crashesWithin (last :: crashes) now longWindow := by
        apply within_remembered
        intro crash _
        omega
      rw [crashLoop, crashLoop, hlong]
      rcases hfit with hwindow | hmax | hzero | ⟨hone, hwindow⟩
      · rw [within_remembered]
        intro crash _
        omega
      · -- one crash is enough, and the last one is remembered
        by_cases hin : now - last < window
        · have hfull : maxCrashes ≤ crashesWithin (last :: crashes) now window :=
            Nat.le_trans hmax (one_le_within hin)
          have hkept : maxCrashes
              ≤ crashesWithin (remembered longWindow (last :: crashes)) now window :=
            Nat.le_trans hmax (one_le_within hin)
          simp [hfull, hkept]
        · rw [within_remembered]
          intro crash hcrash
          have hle := hbefore crash hcrash
          omega
      · simp [hzero]
      · -- when the last crash is out of the long window, so is all that was forgotten
        by_cases hin : now - last < longWindow
        · have hfull : longMaxCrashes ≤ crashesWithin (last :: crashes) now longWindow := by
            rw [hone]
            exact one_le_within hin
          simp [hfull]
        · rw [within_remembered]
          intro crash hcrash
          have hle := hbefore crash hcrash
          omega

/-! ### What is missed otherwise -/

/-- Some crashes at the start, and one when they have just left the long window. -/
def forgottenCrashes (maxCrashes longWindow now : Nat) : List CrashCall :=
  List.replicate (maxCrashes - 1) (.recordCrash 0) ++
    [.recordCrash longWindow, .isCrashLoop now]

theorem inTime_forgottenCrashes (maxCrashes : Nat) {longWindow now : Nat} (h : longWindow ≤ now) :
    InTime 0 (forgottenCrashes maxCrashes longWindow now) := by
  rw [forgottenCrashes]
  induction maxCrashes - 1 with
  | zero => exact ⟨Nat.zero_le _, h, trivial⟩
  | succ n ih => exact ⟨Nat.le_refl 0, ih⟩

theorem answersBy_replicate (decision : List Nat → Nat → Bool) (n : Nat) (crashes : List Nat)
    (calls : List CrashCall) :
    answersBy decision crashes (List.replicate n (.recordCrash 0) ++ calls)
      = answersBy decision (List.replicate n 0 ++ crashes) calls := by
  induction n generalizing crashes with
  | zero => rfl
  | succ n ih =>
      rw [List.replicate_succ, List.cons_append, answersBy, ih, List.replicate_succ']
      simp

theorem answersBy_forgottenCrashes (decision : List Nat → Nat → Bool)
    (maxCrashes longWindow now : Nat) :
    answersBy decision [] (forgottenCrashes maxCrashes longWindow now)
      = [decision (longWindow :: List.replicate (maxCrashes - 1) 0) now] := by
  rw [forgottenCrashes, answersBy_replicate, List.append_nil]
  rfl

/-- The tracker remembers the last of these crashes only. -/
theorem remembered_forgottenCrashes (longWindow n : Nat) :
    remembered longWindow (longWindow :: List.replicate n 0) = [longWindow] := by
  simp [remembered]

theorem crashesWithin_forgottenCrashes {maxCrashes window longWindow now : Nat}
    (hle : longWindow ≤ now) (hlt : now < window) (hpos : 1 ≤ maxCrashes) :
    crashesWithin (longWindow :: List.replicate (maxCrashes - 1) 0) now window = maxCrashes := by
  have hall : ∀ crash ∈ longWindow :: List.replicate (maxCrashes - 1) 0,
      decide (now - crash < window) = true := by
    intro crash _
    simp only [decide_eq_true_eq]
    omega
  rw [crashesWithin, List.countP_eq_length.mpr hall, List.length_cons, List.length_replicate]
  omega

/-- **Crash-loop detection equals its definition** exactly when the short window is not longer
    than the long one, one crash is a crash loop, no crash is needed for one in the long
    window, or one is and the short window is at most twice as long. -/
theorem crashLoops_iff (maxCrashes window longMaxCrashes longWindow : Nat) :
    (∀ calls, InTime 0 calls →
      ((CrashTracker.new maxCrashes window).withLongHorizon longMaxCrashes longWindow).answers calls
        = answersBy (crashLoop maxCrashes window longMaxCrashes longWindow) [] calls) ↔
      WindowsFit maxCrashes window longMaxCrashes longWindow := by
  generalize htracker :
    (CrashTracker.new maxCrashes window).withLongHorizon longMaxCrashes longWindow = t
  have hanswers : ∀ calls, InTime 0 calls → t.answers calls = answersBy
      (fun crashes now => crashLoop maxCrashes window longMaxCrashes longWindow
        (remembered longWindow crashes) now) [] calls := by
    intro calls htime
    rw [← htracker]
    exact answers_eq rfl (List.pairwise_singleton _ 0) htime
  constructor
  · intro hall
    by_contra hfit
    simp only [WindowsFit, not_or, not_and, Nat.not_le] at hfit
    obtain ⟨hwindow, hmax, hne, hone⟩ := hfit
    have hmissed : ∀ now, longWindow ≤ now → now < window →
        longMaxCrashes ≤ crashesWithin [longWindow] now longWindow := by
      intro now hle hlt
      have htime := inTime_forgottenCrashes maxCrashes hle
      have heq := (hanswers _ htime).symm.trans (hall _ htime)
      rw [answersBy_forgottenCrashes, answersBy_forgottenCrashes, remembered_forgottenCrashes]
        at heq
      have hfull := crashesWithin_forgottenCrashes hle hlt (by omega : 1 ≤ maxCrashes)
      have hloop : crashLoop maxCrashes window longMaxCrashes longWindow
          (longWindow :: List.replicate (maxCrashes - 1) 0) now = true := by
        simp [crashLoop, hfull]
      rw [hloop] at heq
      have hone : crashesWithin [longWindow] now window ≤ 1 := List.countP_le_length
      have hfound : maxCrashes ≤ crashesWithin [longWindow] now window ∨
          longMaxCrashes ≤ crashesWithin [longWindow] now longWindow := by
        simpa [crashLoop] using heq
      omega
    by_cases hlong : longMaxCrashes = 1
    · -- the last crash has left the long window as well
      have hcount := hmissed (2 * longWindow) (by omega) (hone hlong)
      have hout : crashesWithin [longWindow] (2 * longWindow) longWindow = 0 := by
        rw [crashesWithin, List.countP_cons_of_neg (by simp; omega)]
        rfl
      omega
    · have hcount := hmissed longWindow (Nat.le_refl _) hwindow
      have hle : crashesWithin [longWindow] longWindow longWindow ≤ 1 := List.countP_le_length
      omega
  · intro hfit calls htime
    rw [hanswers calls htime]
    exact answersBy_congr (fun _ _ hback => crashLoop_remembered hfit hback)
      (List.pairwise_singleton _ 0) htime

/-- Two crashes within two hours are missed when the second comes an hour after the first. -/
theorem crash_loop_missed : ¬∀ maxCrashes window longMaxCrashes longWindow calls,
    InTime 0 calls →
      ((CrashTracker.new maxCrashes window).withLongHorizon longMaxCrashes longWindow).answers calls
        = answersBy (crashLoop maxCrashes window longMaxCrashes longWindow) [] calls := by
  intro hall
  have h := hall 2 7200000 defaultCrashLongMax (defaultCrashLongWindowSecs * 1000)
    [.recordCrash 0, .recordCrash 3600000, .isCrashLoop 3600000] (by simp [InTime])
  revert h
  decide +kernel

end Anyclaw
