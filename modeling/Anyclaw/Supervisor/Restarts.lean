import Anyclaw.Supervisor.Managers

/-!
# Only a crash loop stops the restarts of a manager

A check recognises a dead manager by the handle of its ended task and takes that handle
before it knows whether the restart succeeds.  When `start()` fails, the slot is left
without a handle: it is neither running nor seen as dead again.

The check is `check_and_restart_managers` of `crates/anyclaw-supervisor/src/health.rs`.

* `checkSlot_checked`: everything the body of a check can do to a slot.
* `seen_of_startsAgain`: in every run in which no restart fails in `start()`, a manager
  that did not exit cleanly and is not disabled is running or about to be restarted.
* `stays_down_of_run`: after a failed restart the manager never runs again.
-/

namespace Anyclaw

namespace Supervisor

variable {s s' : State} {name : ManagerName} {a : CheckAnswers} {restarts window : Nat}

@[simp] theorem modifySlot_slots_same (s : State) (name : ManagerName)
    (f : ManagerSlot → ManagerSlot) : (s.modifySlot name f).slots name = f (s.slots name) := by
  simp [State.modifySlot]

@[simp] theorem modifySlot_slots_other {name' : ManagerName} (s : State)
    (f : ManagerSlot → ManagerSlot) (h : name' ≠ name) :
    (s.modifySlot name f).slots name' = s.slots name' := by
  simp [State.modifySlot, h]

/-! ### What a check does to a slot -/

namespace State

/-- The crash tracker answers that the crash now counted makes a loop. -/
def CrashLoops (s : State) (name : ManagerName) (a : CheckAnswers) : Prop :=
  ((s.slots name).lifecycle.recordCrashAndCheck a.recordedAt a.checkedAt).1 = .disabled

instance (s : State) (name : ManagerName) (a : CheckAnswers) : Decidable (s.CrashLoops name a) :=
  inferInstanceAs (Decidable (_ = _))

/-- The task of the manager has ended with this result, which no check has seen yet. -/
def Ended (s : State) (name : ManagerName) (r : TaskResult) : Prop :=
  ∃ handle ∈ (s.slots name).joinHandle, handle.result = some r

instance (s : State) (name : ManagerName) (r : TaskResult) : Decidable (s.Ended name r) :=
  inferInstanceAs (Decidable (∃ handle ∈ (s.slots name).joinHandle, handle.result = some r))

theorem Ended.unique {s : State} {name : ManagerName} (h : s.Ended name .exited) :
    ¬ (s.Ended name .failed ∨ s.Ended name .panicked) := by
  obtain ⟨handle, hhandle, hr⟩ := h
  rintro (⟨handle', hhandle', hr'⟩ | ⟨handle', hhandle', hr'⟩) <;>
  · rw [hhandle] at hhandle'
    cases Option.some.inj hhandle'
    rw [hr] at hr'
    cases hr'

/-- A check that looks at the slot makes the manager anew. -/
def Restarts (s : State) (name : ManagerName) (a : CheckAnswers) : Prop :=
  (s.Ended name .failed ∨ s.Ended name .panicked) ∧ ¬ s.CrashLoops name a

instance (s : State) (name : ManagerName) (a : CheckAnswers) : Decidable (s.Restarts name a) :=
  inferInstanceAs (Decidable (_ ∧ _))

def taken (s : State) (name : ManagerName) : State :=
  s.modifySlot name fun slot => { slot with joinHandle := none }

def counted (s : State) (name : ManagerName) (a : CheckAnswers) : State :=
  s.modifySlot name fun slot =>
    { slot with
      lifecycle := (slot.lifecycle.recordCrashAndCheck a.recordedAt a.checkedAt).2 }

/-- The channels made for the new manager; those for a tools manager are published. -/
def supplied (s : State) (name : ManagerName) : State :=
  if name = .tools then { s with toolsTx := some s.fresh, fresh := s.fresh + 1 + 1 }
  else { s with fresh := s.fresh + 1 }

def remade (s : State) (name : ManagerName) (toolsTx agentsCmdTx : Channel) : ManagerKind :=
  match name with
  | .tools => .tools { cmdRx := s.fresh }
  | .agents => .agents { toolsHandle := toolsTx, cmdRx := s.fresh, channelsSender := none }
  | .channels =>
      .channels { agentsHandle := agentsCmdTx, cmdRx := s.fresh, channelEventsRx := none }

def spawned (s : State) (name : ManagerName) (manager : ManagerKind) : State :=
  s.modifySlot name fun slot =>
    { slot with joinHandle := some { manager := manager, result := none } }

end State

theorem restartManager_eq {toolsTx agentsCmdTx : Channel} (started : Bool)
    (htools : s.toolsTx = some toolsTx) (hagents : s.agentsCmdTx = some agentsCmdTx) :
    restartManager s name started =
      some (if started then
        ((s.supplied name).spawned name (s.remade name toolsTx agentsCmdTx)).report
          (.restarted name)
      else (s.supplied name).report (.restartBootFailed name)) := by
  cases name <;> cases started <;>
    simp [restartManager, createManager, State.supplied, State.remade, State.spawned, htools,
      hagents]

/-- What the body of a check can do, given the ends that the supervisor holds. -/
inductive Checked (s : State) (name : ManagerName) (a : CheckAnswers)
    (toolsTx agentsCmdTx : Channel) : State → Prop
  | alive (hended : ∀ r, ¬ s.Ended name r) : Checked s name a toolsTx agentsCmdTx s
  | exited (hended : s.Ended name .exited) :
      Checked s name a toolsTx agentsCmdTx ((s.taken name).report (.exitedCleanly name))
  | looped {s₁ : State} (r : Report) (hended : s.Ended name .failed ∨ s.Ended name .panicked)
      (hloop : s.CrashLoops name a)
      (hs₁ : s₁ = ((((s.taken name).report r).counted name a).report (.crashLoop name))) :
      Checked s name a toolsTx agentsCmdTx
        (if name.isCritical then { s₁ with rootCancelled := true } else s₁)
  | failed {s₁ : State} (r : Report) (hrestart : s.Restarts name a) (hstarted : a.started = false)
      (hs₁ : s₁ = (((s.taken name).report r).counted name a)) :
      Checked s name a toolsTx agentsCmdTx
        ((s₁.supplied name).report (.restartBootFailed name))
  | restarted {s₁ : State} (r : Report) (hrestart : s.Restarts name a)
      (hstarted : a.started = true) (hs₁ : s₁ = (((s.taken name).report r).counted name a)) :
      Checked s name a toolsTx agentsCmdTx
        (((s₁.supplied name).spawned name (s₁.remade name toolsTx agentsCmdTx)).report
          (.restarted name))

section Check

variable {toolsTx agentsCmdTx : Channel}

/-- Counting the crash of an ended task and deciding on it. -/
theorem recordCrash_checked (r : Report) (htools : s.toolsTx = some toolsTx)
    (hagents : s.agentsCmdTx = some agentsCmdTx)
    (hended : s.Ended name .failed ∨ s.Ended name .panicked) :
    ∃ s', recordCrash ((s.taken name).report r) name a = some s' ∧
      Checked s name a toolsTx agentsCmdTx s' := by
  have hlifecycle : (((s.taken name).report r).slots name).lifecycle = (s.slots name).lifecycle := by
    simp [State.taken, State.report]
  have hcounted : (((s.taken name).report r).modifySlot name fun slot =>
      { slot with
        lifecycle := ((((s.taken name).report r).slots name).lifecycle.recordCrashAndCheck
          a.recordedAt a.checkedAt).2 }) = ((s.taken name).report r).counted name a := rfl
  unfold recordCrash
  rcases hdecided : (((s.taken name).report r).slots name).lifecycle.recordCrashAndCheck
    a.recordedAt a.checkedAt with ⟨action, lifecycle⟩
  rw [hdecided] at hcounted
  dsimp only at hcounted ⊢
  rw [hcounted]
  rw [hlifecycle] at hdecided
  cases action with
  | disabled =>
      have hloop : s.CrashLoops name a := by
        unfold State.CrashLoops
        rw [hdecided]
      exact ⟨_, rfl, .looped r hended hloop rfl⟩
  | restartAfter delay =>
      have hloop : ¬ s.CrashLoops name a := by
        unfold State.CrashLoops
        rw [hdecided]
        simp
      refine ⟨_, restartManager_eq a.started htools hagents, ?_⟩
      cases hstarted : a.started with
      | false => exact .failed r ⟨hended, hloop⟩ hstarted rfl
      | true => exact .restarted r ⟨hended, hloop⟩ hstarted rfl

/-- The body of a check never panics while the supervisor holds both senders. -/
theorem checkSlot_checked (name : ManagerName) (a : CheckAnswers) (htools : s.toolsTx = some toolsTx)
    (hagents : s.agentsCmdTx = some agentsCmdTx) :
    ∃ s', checkSlot s name a = some s' ∧ Checked s name a toolsTx agentsCmdTx s' := by
  unfold checkSlot
  split
  · rename_i manager result hhandle
    have hended : s.Ended name result := ⟨_, hhandle, rfl⟩
    cases result with
    | exited => exact ⟨_, rfl, .exited hended⟩
    | failed => exact recordCrash_checked (.crashed name) htools hagents (Or.inl hended)
    | panicked => exact recordCrash_checked (.panicked name) htools hagents (Or.inr hended)
  · rename_i hnone
    refine ⟨_, rfl, .alive ?_⟩
    rintro r ⟨handle, hhandle, hr⟩
    obtain ⟨manager, result⟩ := handle
    cases hr
    exact hnone _ _ hhandle

end Check

/-! ### Runs -/

/-- The ends that every restart draws on are there. -/
def Supplied (s : State) : Prop :=
  ∃ toolsTx agentsCmdTx, s.toolsTx = some toolsTx ∧ s.agentsCmdTx = some agentsCmdTx

inductive Turn (s : State) : Label → State → Prop
  | taskEnds (name : ManagerName) (r : TaskResult) (manager : ManagerKind)
      (hhandle : (s.slots name).joinHandle = some { manager := manager, result := none }) :
      Turn s (.taskEnds name r) (s.modifySlot name fun slot =>
        { slot with joinHandle := some { manager := manager, result := some r } })
  | tick (hidle : s.checking = []) : Turn s .tick { s with checking := managerOrder }
  | checkNext (name : ManagerName) (rest : List ManagerName) (a : CheckAnswers) {s' : State}
      (toolsTx agentsCmdTx : Channel) (hchecking : s.checking = name :: rest)
      (htools : s.toolsTx = some toolsTx) (hagents : s.agentsCmdTx = some agentsCmdTx)
      (hchecked : Checked { s with checking := rest } name a toolsTx agentsCmdTx s') :
      Turn s (.checkNext a) s'
  | cancel : Turn s .cancel { s with rootCancelled := true }
  | shutdown (hcancelled : s.rootCancelled = true) :
      Turn s .shutdown { s with
        shutDown := true
        slots := fun name => { s.slots name with joinHandle := none } }

theorem turn_of_step {l : Label} (hsupplied : Supplied s) (h : step s l = some s') :
    s.shutDown = false ∧ Turn s l s' := by
  unfold step at h
  split at h
  · cases h
  rename_i hrunning
  refine ⟨Bool.eq_false_iff.mpr hrunning, ?_⟩
  cases l with
  | taskEnds name r =>
      dsimp only at h
      split at h
      · rename_i manager hhandle
        cases h
        exact .taskEnds name r manager hhandle
      · cases h
  | tick =>
      dsimp only at h
      split at h
      · rename_i hidle
        cases h
        exact .tick hidle
      · cases h
  | checkNext a =>
      dsimp only at h
      split at h
      · rename_i name rest hchecking
        obtain ⟨toolsTx, agentsCmdTx, htools, hagents⟩ := hsupplied
        obtain ⟨s₁, hs₁, hchecked⟩ :=
          checkSlot_checked (s := { s with checking := rest }) name a htools hagents
        rw [hs₁] at h
        cases h
        exact .checkNext name rest a toolsTx agentsCmdTx hchecking htools hagents hchecked
      · cases h
  | cancel =>
      cases h
      exact .cancel
  | shutdown =>
      dsimp only at h
      split at h
      · rename_i hcancelled
        cases h
        exact .shutdown hcancelled
      · cases h

/-! ### The slots of the others -/

@[simp] theorem report_slots (s : State) (r : Report) : (s.report r).slots = s.slots := rfl

@[simp] theorem supplied_slots (s : State) (name : ManagerName) :
    (s.supplied name).slots = s.slots := by
  unfold State.supplied
  split <;> rfl

/-- A check of one slot keeps the others, the supervisor's task and the reports made. -/
structure Keeps (s : State) (name : ManagerName) (s' : State) : Prop where
  others : ∀ name', name' ≠ name → s'.slots name' = s.slots name'
  shutDown : s'.shutDown = s.shutDown
  reports : s.reports <+: s'.reports
  agentsCmdTx : s'.agentsCmdTx = s.agentsCmdTx
  toolsTx : name ≠ .tools → s'.toolsTx = s.toolsTx

theorem Keeps.trans {s'' : State} (h : Keeps s name s') (h' : Keeps s' name s'') :
    Keeps s name s'' where
  others name' hname := (h'.others name' hname).trans (h.others name' hname)
  shutDown := h'.shutDown.trans h.shutDown
  reports := h.reports.trans h'.reports
  agentsCmdTx := h'.agentsCmdTx.trans h.agentsCmdTx
  toolsTx hname := (h'.toolsTx hname).trans (h.toolsTx hname)

theorem keeps_modifySlot (s : State) (name : ManagerName) (f : ManagerSlot → ManagerSlot) :
    Keeps s name (s.modifySlot name f) where
  others _ hname := modifySlot_slots_other s f hname
  shutDown := rfl
  reports := List.prefix_rfl
  agentsCmdTx := rfl
  toolsTx _ := rfl

theorem keeps_report (s : State) (name : ManagerName) (r : Report) :
    Keeps s name (s.report r) where
  others _ _ := rfl
  shutDown := rfl
  reports := List.prefix_append _ _
  agentsCmdTx := rfl
  toolsTx _ := rfl

theorem keeps_supplied (s : State) (name : ManagerName) : Keeps s name (s.supplied name) := by
  unfold State.supplied
  split
  · rename_i htools
    exact ⟨fun _ _ => rfl, rfl, List.prefix_rfl, rfl, fun hother => absurd htools hother⟩
  · exact ⟨fun _ _ => rfl, rfl, List.prefix_rfl, rfl, fun _ => rfl⟩

theorem keeps_counted (s : State) (name : ManagerName) (r : Report) (a : CheckAnswers) :
    Keeps s name (((s.taken name).report r).counted name a) :=
  ((keeps_modifySlot s name _).trans (keeps_report _ name r)).trans (keeps_modifySlot _ name _)

theorem Checked.keeps {toolsTx agentsCmdTx : Channel}
    (h : Checked s name a toolsTx agentsCmdTx s') : Keeps s name s' := by
  cases h with
  | alive _ => exact ⟨fun _ _ => rfl, rfl, List.prefix_rfl, rfl, fun _ => rfl⟩
  | exited _ => exact (keeps_modifySlot s name _).trans (keeps_report _ name _)
  | looped r _ _ hs₁ =>
      have hkept := (keeps_counted s name r a).trans (keeps_report _ name (.crashLoop name))
      rw [← hs₁] at hkept
      split
      · exact hkept.trans ⟨fun _ _ => rfl, rfl, List.prefix_rfl, rfl, fun _ => rfl⟩
      · exact hkept
  | failed r _ _ hs₁ =>
      have hkept := keeps_counted s name r a
      rw [← hs₁] at hkept
      exact (hkept.trans (keeps_supplied _ name)).trans (keeps_report _ name _)
  | restarted r _ _ hs₁ =>
      have hkept := keeps_counted s name r a
      rw [← hs₁] at hkept
      exact ((hkept.trans (keeps_supplied _ name)).trans (keeps_modifySlot _ name _)).trans
        (keeps_report _ name _)

/-- The ends that restarts draw on stay there. -/
theorem Checked.supplied {toolsTx agentsCmdTx : Channel}
    (h : Checked s name a toolsTx agentsCmdTx s') (hsupplied : Supplied s) : Supplied s' := by
  obtain ⟨t, c, htools, hagents⟩ := hsupplied
  have hkept := h.keeps
  have hfresh : ∀ s₁ : State, s₁.toolsTx = some t → ∃ t', (s₁.supplied name).toolsTx = some t' := by
    intro s₁ h₁
    unfold State.supplied
    split
    · exact ⟨_, rfl⟩
    · exact ⟨t, h₁⟩
  have hsome : ∃ t', s'.toolsTx = some t' := by
    cases h with
    | alive _ => exact ⟨t, htools⟩
    | exited _ => exact ⟨t, htools⟩
    | looped r _ _ hs₁ =>
        subst hs₁
        split
        · exact ⟨t, htools⟩
        · exact ⟨t, htools⟩
    | failed r _ _ hs₁ =>
        subst hs₁
        exact hfresh _ htools
    | restarted r _ _ hs₁ =>
        subst hs₁
        exact hfresh _ htools
  obtain ⟨t', htools'⟩ := hsome
  exact ⟨t', c, htools', hkept.agentsCmdTx.trans hagents⟩

theorem Turn.supplied {l : Label} (h : Turn s l s') (hsupplied : Supplied s) : Supplied s' := by
  cases h with
  | taskEnds _ _ _ _ => exact hsupplied
  | tick _ => exact hsupplied
  | checkNext _ _ _ _ _ _ _ _ hchecked => exact hchecked.supplied hsupplied
  | cancel => exact hsupplied
  | shutdown _ => exact hsupplied

def booted (maxRestarts restartWindow : Nat) : State :=
  let lifecycle : SlotLifecycle := .new .default (.new maxRestarts restartWindow)
  { toolsTx := some 1
    agentsCmdTx := some 3
    channelsCmdTx := some 4
    channelEventsTx := none
    channelEventsRx := none
    slots := fun name =>
      { joinHandle := some
          { manager :=
              match name with
              | .tools => .tools { cmdRx := 1 }
              | .agents => .agents { toolsHandle := 1, cmdRx := 3, channelsSender := some 0 }
              | .channels => .channels { agentsHandle := 3, cmdRx := 4, channelEventsRx := some 0 }
            result := none }
        lifecycle := lifecycle }
    rootCancelled := false
    checking := []
    shutDown := false
    fresh := 5
    reports := [.booted .tools, .booted .agents, .booted .channels] }

theorem init_iff : (machine restarts window).init s ↔ s = booted restarts window := by
  have hboot : bootManagers (fun _ => true) (new restarts window) = some (booted restarts window) := by
    have hslots : ∀ slots, (∀ name, slots name = (booted restarts window).slots name) →
        some { booted restarts window with slots := slots } = some (booted restarts window) := by
      intro slots heach
      rw [funext heach]
    refine hslots _ ?_
    intro name
    cases name <;> rfl
  change bootManagers (fun _ => true) (new restarts window) = some s ↔ s = booted restarts window
  rw [hboot]
  exact ⟨fun h => (Option.some.inj h).symm, fun h => congrArg some h.symm⟩

theorem supplied_of_reachable {G : State → Label → Prop}
    (h : (machine restarts window).ReachableUnder G s) : Supplied s := by
  apply h.invariant
  · intro s₀ hinit
    rw [init_iff.mp hinit]
    exact ⟨1, 3, rfl, rfl⟩
  · intro s l s' _ hsupplied _ hstep
    exact (turn_of_step hsupplied hstep).2.supplied hsupplied

/-! ### No manager is given up -/

/-- A manager that a check sees dead and makes anew does start. -/
def StartsAgain (s : State) : Label → Prop
  | .checkNext a => ∀ name ∈ s.checking.head?, s.Restarts name a → a.started = true
  | _ => True

instance (s : State) (l : Label) : Decidable (StartsAgain s l) := by
  cases l <;> unfold StartsAgain <;> infer_instance

/-- The manager exited cleanly, is disabled by its crash tracker, is running, or is seen
    dead by the next check. -/
def Covered (s : State) (name : ManagerName) : Prop :=
  .exitedCleanly name ∈ s.reports ∨ (s.slots name).lifecycle.disabled = true ∨
    (s.slots name).isRunning = true ∨ (s.slots name).needsRestart = true

instance (s : State) (name : ManagerName) : Decidable (Covered s name) :=
  inferInstanceAs (Decidable (_ ∨ _))

/-- A slot that holds a handle is running or seen dead by the next check. -/
theorem ManagerSlot.seen_of_handle {slot : ManagerSlot} (h : slot.joinHandle ≠ none) :
    slot.isRunning = true ∨ slot.needsRestart = true := by
  obtain ⟨handle, hhandle⟩ := Option.ne_none_iff_exists'.mp h
  unfold ManagerSlot.isRunning ManagerSlot.needsRestart
  rw [hhandle]
  obtain ⟨manager, _ | result⟩ := handle
  · exact Or.inl rfl
  · exact Or.inr rfl

theorem Covered.of_same (hslot : s'.slots name = s.slots name) (hreports : s.reports <+: s'.reports)
    (h : Covered s name) : Covered s' name := by
  unfold Covered
  rw [hslot]
  exact h.imp_left fun hmem => hreports.subset hmem

theorem covered_of_handle (h : (s.slots name).joinHandle ≠ none) : Covered s name :=
  Or.inr (Or.inr (ManagerSlot.seen_of_handle h))

/-- The tracker that finds a crash loop disables the slot. -/
theorem disabled_of_crashLoop {lifecycle : SlotLifecycle} {recordedAt checkedAt : Nat}
    (h : (lifecycle.recordCrashAndCheck recordedAt checkedAt).1 = .disabled) :
    (lifecycle.recordCrashAndCheck recordedAt checkedAt).2.disabled = true := by
  unfold SlotLifecycle.recordCrashAndCheck at h ⊢
  dsimp only at h ⊢
  split
  · rfl
  · rename_i hloop
    rw [if_neg hloop] at h
    cases h

/-- The step lemma: a check that does not fail in `start()` gives up no manager. -/
theorem Checked.covered {toolsTx agentsCmdTx : Channel}
    (h : Checked s name a toolsTx agentsCmdTx s')
    (hstarts : s.Restarts name a → a.started = true) (hcovered : ∀ name', Covered s name') :
    ∀ name', Covered s' name' := by
  intro name'
  by_cases hname : name' = name
  · subst hname
    cases h with
    | alive _ => exact hcovered name'
    | exited _ => exact Or.inl (List.mem_append_right _ (List.mem_singleton.mpr rfl))
    | looped r _ hloop hs₁ =>
        have hdisabled := disabled_of_crashLoop hloop
        refine Or.inr (Or.inl ?_)
        subst hs₁
        split
        · simpa [State.counted, State.taken] using hdisabled
        · simpa [State.counted, State.taken] using hdisabled
    | failed r hrestart hfailed _ =>
        rw [hstarts hrestart] at hfailed
        cases hfailed
    | restarted r _ _ _ =>
        refine covered_of_handle ?_
        simp [State.spawned]
  · exact (hcovered name').of_same (h.keeps.others name' hname) h.keeps.reports

theorem Turn.covered {l : Label} (h : Turn s l s') (hstarts : StartsAgain s l)
    (hcovered : ∀ name, Covered s name) : s'.shutDown = true ∨ ∀ name, Covered s' name := by
  cases h with
  | taskEnds name r manager hhandle =>
      refine Or.inr fun name' => ?_
      by_cases hname : name' = name
      · subst hname
        refine covered_of_handle ?_
        simp
      · exact (hcovered name').of_same (modifySlot_slots_other s _ hname) List.prefix_rfl
  | tick _ => exact Or.inr fun name => hcovered name
  | checkNext name rest a _ _ hchecking _ _ hchecked =>
      refine Or.inr (hchecked.covered ?_ hcovered)
      intro hrestart
      refine hstarts name ?_ hrestart
      rw [hchecking]
      rfl
  | cancel => exact Or.inr fun name => hcovered name
  | shutdown _ => exact Or.inl rfl

/-- **Only a crash loop stops the restarts of a manager.**  In every run in which no
    restarted manager fails in `start()`, as long as the supervisor is not shut down: a
    manager that did not exit cleanly and that no crash loop has disabled is running, or
    its task has ended and the next check sees it. -/
theorem seen_of_startsAgain (h : (machine restarts window).ReachableUnder StartsAgain s)
    (hup : s.shutDown = false) (name : ManagerName) (hclean : .exitedCleanly name ∉ s.reports)
    (hloop : (s.slots name).lifecycle.disabled = false) :
    (s.slots name).isRunning = true ∨ (s.slots name).needsRestart = true := by
  have hcovered : s.shutDown = true ∨ ∀ name, Covered s name := by
    apply h.invariant
    · intro s₀ hinit
      rw [init_iff.mp hinit]
      refine Or.inr fun name => covered_of_handle ?_
      simp [booted]
    · intro s l s' hreach hcovered hG hstep
      obtain ⟨hrunning, hturn⟩ := turn_of_step (supplied_of_reachable hreach) hstep
      rcases hcovered with hdown | hcovered
      · rw [hrunning] at hdown
        cases hdown
      · exact hturn.covered hG hcovered
  rcases hcovered with hdown | hcovered
  · rw [hup] at hdown
    cases hdown
  rcases hcovered name with hmem | hdisabled | hseen
  · exact absurd hmem hclean
  · rw [hloop] at hdisabled
    cases hdisabled
  · exact hseen

/-- Without a handle a slot is skipped by every check. -/
theorem Turn.stays_down {l : Label} (h : Turn s l s') (hdown : (s.slots name).joinHandle = none) :
    (s'.slots name).joinHandle = none := by
  have hended : ∀ r, ¬ s.Ended name r := by
    rintro r ⟨handle, hhandle, _⟩
    rw [hdown] at hhandle
    cases hhandle
  cases h with
  | taskEnds name' r manager hhandle =>
      by_cases hname : name = name'
      · subst hname
        rw [hdown] at hhandle
        cases hhandle
      · rw [modifySlot_slots_other s _ hname]
        exact hdown
  | tick _ => exact hdown
  | checkNext name' rest a _ _ hchecking _ _ hchecked =>
      by_cases hname : name = name'
      · subst hname
        cases hchecked with
        | alive _ => exact hdown
        | exited h => exact absurd h (hended _)
        | looped _ h _ _ => exact absurd h (by simp [State.Ended, hdown])
        | failed _ h _ _ => exact absurd h.1 (by simp [State.Ended, hdown])
        | restarted _ h _ _ => exact absurd h.1 (by simp [State.Ended, hdown])
      · rw [hchecked.keeps.others name hname]
        exact hdown
  | cancel => exact hdown
  | shutdown _ => rfl

/-- A manager whose slot holds no handle never runs again. -/
theorem stays_down_of_run {G : State → Label → Prop}
    (hreach : (machine restarts window).ReachableUnder G s)
    (hrun : (machine restarts window).RunUnder G s s')
    (hdown : (s.slots name).joinHandle = none) : (s'.slots name).joinHandle = none := by
  suffices hboth : (machine restarts window).ReachableUnder G s' ∧
      (s'.slots name).joinHandle = none from hboth.2
  induction hrun with
  | refl => exact ⟨hreach, hdown⟩
  | tail _ hlast ih =>
      obtain ⟨hreach', hdown'⟩ := ih
      obtain ⟨l, hG, hstep⟩ := hlast
      exact ⟨hreach'.step hG hstep,
        (turn_of_step (supplied_of_reachable hreach') hstep).2.stays_down hdown'⟩

/-- A restart of the agents manager that starts, after its task ended with an error. -/
theorem seen_of_startsAgain_restarted : ∃ s, (machine 5 60000).ReachableUnder StartsAgain s ∧
    Report.restarted .agents ∈ s.reports ∧
    ((s.slots .agents).isRunning = true ∨ (s.slots .agents).needsRestart = true) := by
  have hrun : ∃ s ∈ (machine 5 60000).run StartsAgain (booted 5 60000)
      [.taskEnds .agents .failed, .tick, .checkNext ⟨10, 10, true⟩, .checkNext ⟨20, 20, true⟩],
      Report.restarted .agents ∈ s.reports ∧ s.shutDown = false ∧
        .exitedCleanly .agents ∉ s.reports ∧
        (s.slots .agents).lifecycle.disabled = false := by decide
  obtain ⟨s, hs, hrestarted, hup, hclean, hloop⟩ := hrun
  have hreach : (machine 5 60000).ReachableUnder StartsAgain s :=
    Machine.reachable_of_run _ (init_iff.mpr rfl) hs
  exact ⟨s, hreach, hrestarted, seen_of_startsAgain hreach hup .agents hclean hloop⟩

/-- The agents manager fails once and its restart fails in `start()`: after the check it
    is neither running nor seen by the next check, and no crash loop has disabled it. -/
theorem agents_given_up : ∃ s, (machine 5 60000).Reachable s ∧ s.shutDown = false ∧
    s.checking = [] ∧ .exitedCleanly .agents ∉ s.reports ∧
    (s.slots .agents).lifecycle.disabled = false ∧
    ¬ ((s.slots .agents).isRunning = true ∨ (s.slots .agents).needsRestart = true) := by
  have hrun : ∃ s ∈ (machine 5 60000).run (fun _ _ => True) (booted 5 60000)
      [.taskEnds .agents .failed, .tick, .checkNext ⟨10, 10, true⟩, .checkNext ⟨20, 20, false⟩,
        .checkNext ⟨30, 30, true⟩],
      s.shutDown = false ∧ s.checking = [] ∧ .exitedCleanly .agents ∉ s.reports ∧
        (s.slots .agents).lifecycle.disabled = false ∧
        ¬ ((s.slots .agents).isRunning = true ∨ (s.slots .agents).needsRestart = true) := by
    decide
  obtain ⟨s, hs, hgone⟩ := hrun
  exact ⟨s, Machine.reachable_of_run _ (init_iff.mpr rfl) hs, hgone⟩

end Supervisor

end Anyclaw
