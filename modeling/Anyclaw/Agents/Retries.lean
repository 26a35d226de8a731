import Anyclaw.Agents.Disabled

/-!
# Restarts of an agent

A crashed slot is tried again when the end of the output of its process is handled, so an
attempt that fails must leave a process behind whose end will be reported.  It does not
when no process can be spawned, nor when a container goes on running after its connection
was dropped.

The attempt is `respawn_and_initialize` of `crates/anyclaw-agents/src/session_recovery.rs`,
and `handle_crash` gives up when it fails.
-/

namespace Anyclaw.AgentsManager

variable {n : Nat} (cfg : AgentsManagerConfig n) (m : AgentsManager n)

/-- Slot `s` is connected, or something will trigger its next restart: the end of its
    process is queued, or its process has been killed and its reader will report the end. -/
def Retried (s : Fin n) : Prop :=
  ⟨s, none⟩ ∈ m.incoming ∨
    (m.slots s).readerAlive = true ∧
      ((m.slots s).connection.isSome ∨ (cfg.agents s).workspace = .localProcess)

/-- A restart of slot `s` gets a process; a container gets a session, too. -/
def Sticks (s : Fin n) (a : Answers) : Prop :=
  a.spawned = true ∧ ((cfg.agents s).workspace = .localProcess ∨ (m.slots s).ComesBack a)

instance (s : Fin n) (a : Answers) : Decidable (Sticks cfg m s a) :=
  inferInstanceAs (Decidable (_ ∧ _))

/-- Every restart that a crash leads to sticks. -/
def RestartsStick (l : Label n) : Prop :=
  ∀ x ∈ m.crash l, m.Restarts x.1 x.2 → Sticks cfg m x.1 x.2

instance (l : Label n) : Decidable (RestartsStick cfg m l) :=
  inferInstanceAs (Decidable (∀ x ∈ m.crash l, m.Restarts x.1 x.2 → Sticks cfg m x.1 x.2))

variable {cfg m} {m' : AgentsManager n} {l : Label n} {s : Fin n}

/-! ### Crashes -/

theorem crash_of_receives {a : Answers} {rest : List (SlotIncoming n)} (hl : Receives l a)
    (hincoming : m.incoming = ⟨s, none⟩ :: rest)
    (henabled : l = .recvIncoming a → (m.slots s).lifecycle.disabled = false) :
    m.crash l = some (s, a) := by
  rcases hl with rfl | rfl
  · simp [crash, hincoming, henabled rfl]
  · simp [crash, hincoming]

/-- After a crash that does not disable its slot, the slot is retried if and only if the
    restart sticks. -/
theorem retried_handleCrash_iff {a : Answers} {rest : List (SlotIncoming n)}
    (hone : OneEnd m s) (hincoming : m.incoming = ⟨s, none⟩ :: rest)
    (hrestarts : m.Restarts s a) :
    Retried cfg (handleCrash cfg { m with incoming := rest } s a) s ↔ Sticks cfg m s a := by
  have hcrash := handleCrash_process cfg { m with incoming := rest } s a
  have hends := endsToCome_dequeue s hincoming
  have hhead : SlotIncoming.ends s ⟨s, none⟩ = true := by
    simp [SlotIncoming.ends]
  rw [hhead, if_pos rfl] at hends
  have hle := hone.one
  have hzero : endsToCome { m with incoming := rest } s = 0 := by omega
  obtain ⟨hmarks, hreader⟩ := Nat.add_eq_zero_iff.mp hzero
  have hread : (m.slots s).readerAlive = false := by
    cases hr : (m.slots s).readerAlive with
    | false => rfl
    | true => simp [hr] at hreader
  have hgone : ⟨s, none⟩ ∉ (handleCrash cfg { m with incoming := rest } s a).incoming := by
    intro hmem
    have hcount := (hcrash.incoming.countP_ends s).trans hmarks
    rw [List.countP_eq_zero] at hcount
    exact hcount _ hmem hhead
  have hreads := hcrash.reader
  have hconn := hcrash.connection
  dsimp only at hreads hconn
  rw [hread, Bool.and_false] at hreads
  unfold Retried Sticks
  rw [hreads, hconn]
  constructor
  · rintro (hmem | ⟨halive, hup⟩)
    · exact absurd hmem hgone
    · split at halive
      · rename_i hspawned
        refine ⟨hspawned.2, ?_⟩
        rcases hup with hsome | hlocal
        · split at hsome
          · rename_i hback
            exact Or.inr hback
          · cases hsome
        · exact Or.inl hlocal
      · cases halive
  · rintro ⟨hspawned, hlocal | hback⟩
    · exact Or.inr ⟨if_pos ⟨hrestarts, hspawned⟩, Or.inr hlocal⟩
    · refine Or.inr ⟨if_pos ⟨hrestarts, hspawned⟩, Or.inl ?_⟩
      rw [if_pos hback]
      rfl

/-! ### Steps -/

/-- Connections and readers are as before, and no end was taken. -/
theorem Retried.linked (h : Retried cfg m s) (hlinked : Linked m m') : Retried cfg m' s := by
  rcases h with hmem | ⟨hreader, hup⟩
  · obtain ⟨msgs, heq, _⟩ := hlinked.incoming
    refine Or.inl ?_
    rw [heq]
    exact List.mem_append_left _ hmem
  · refine Or.inr ⟨?_, ?_⟩
    · rw [hlinked.reader]
      exact hreader
    · rw [hlinked.connection]
      exact hup

theorem Retried.dequeue {msg : SlotIncoming n} {rest : List (SlotIncoming n)}
    (h : Retried cfg m s) (hincoming : m.incoming = msg :: rest) (hne : msg ≠ ⟨s, none⟩) :
    Retried cfg { m with incoming := rest } s := by
  rcases h with hmem | hup
  · rw [hincoming] at hmem
    rcases List.mem_cons.mp hmem with heq | hrest
    · exact absurd heq.symm hne
    · exact Or.inl hrest
  · exact Or.inr hup

/-- What the condition preserves: while the manager runs, every slot that is not disabled
    is retried. -/
def AllRetried (cfg : AgentsManagerConfig n) (m : AgentsManager n) : Prop :=
  m.running = true → ∀ s, (m.slots s).lifecycle.disabled = false → Retried cfg m s

theorem AllRetried.linked (h : AllRetried cfg m) (hlinked : Linked m m')
    (hlifecycle : ∀ s, (m'.slots s).lifecycle = (m.slots s).lifecycle)
    (hrunning : m'.running = m.running) : AllRetried cfg m' := by
  intro hruns s henabled
  rw [hlifecycle] at henabled
  rw [hrunning] at hruns
  exact (h hruns s henabled).linked hlinked

theorem AllRetried.crashed {a : Answers} {rest : List (SlotIncoming n)} (h : AllRetried cfg m)
    (hone : OneEnd m s) (hincoming : m.incoming = ⟨s, none⟩ :: rest)
    (hsticks : m.Restarts s a → Sticks cfg m s a) :
    AllRetried cfg (handleCrash cfg { m with incoming := rest } s a) := by
  have hcrash := handleCrash_process cfg { m with incoming := rest } s a
  have hspoken := handleCrash_spoken cfg { m with incoming := rest } s a
  intro hruns s' henabled
  rw [hspoken.running] at hruns
  by_cases hs : s' = s
  · subst hs
    rw [hcrash.disabled, Bool.or_eq_false_iff, Bool.not_eq_false', decide_eq_true_iff] at henabled
    exact (retried_handleCrash_iff hone hincoming henabled.2).mpr (hsticks henabled.2)
  · have hother := hcrash.others s' hs
    rw [hother] at henabled
    have hne : (⟨s, none⟩ : SlotIncoming n) ≠ ⟨s', none⟩ := fun heq =>
      hs (congrArg SlotIncoming.slotIdx heq).symm
    rcases (h hruns s' henabled).dequeue hincoming hne with hmem | hup
    · obtain ⟨msgs, heq, _⟩ := hcrash.incoming
      refine Or.inl ?_
      rw [heq]
      exact List.mem_append_left _ hmem
    · refine Or.inr ?_
      rw [hother]
      exact hup

theorem ProcessStep.allRetried (hstep : ProcessStep cfg m l m') (hone : ∀ s, OneEnd m s)
    (hguard : RestartsStick cfg m l) (h : AllRetried cfg m) : AllRetried cfg m' := by
  cases hstep with
  | steady _ hlinked htracks => exact h.linked hlinked htracks.lifecycle htracks.running
  | unqueued hlinked _ _ _ hslots _ hrunning =>
      exact h.linked hlinked (fun s => by rw [hslots]) hrunning
  | @permissionAnswered requestId optionId _ =>
      have hcalm := respondPermission_calm m requestId optionId
      exact h.linked hcalm.linked hcalm.lifecycle hcalm.running
  | promptAnswered _ _ => exact h
  | promptLost _ _ => exact h
  | promptAbandoned _ _ => exact h
  | queued _ =>
      intro hruns s' henabled
      exact (h hruns s' henabled).imp_left fun hmem => List.mem_append_left _ hmem
  | @ended s _ =>
      intro hruns s' henabled
      by_cases hs : s' = s
      · subst hs
        refine Or.inl ?_
        rw [modifySlot_incoming, receive_incoming]
        exact List.mem_append_right _ (List.mem_singleton_self _)
      · rw [slots_modifySlot, if_neg hs] at henabled
        rcases h hruns s' henabled with hmem | hup
        · refine Or.inl ?_
          rw [modifySlot_incoming, receive_incoming]
          exact List.mem_append_left _ hmem
        · refine Or.inr ?_
          rw [slots_modifySlot, if_neg hs]
          exact hup
  | @heard _ _ s msg rest _ hincoming =>
      have hcalm := handleIncoming_calm { m with incoming := rest } s msg
      have hdequeued : AllRetried cfg { m with incoming := rest } := by
        intro hruns s' henabled
        exact (h hruns s' henabled).dequeue hincoming fun heq => by cases heq
      exact hdequeued.linked hcalm.linked hcalm.lifecycle hcalm.running
  | @skipped _ s rest hincoming hdisabled =>
      intro hruns s' henabled
      refine (h hruns s' henabled).dequeue hincoming fun heq => ?_
      cases heq
      rw [hdisabled] at henabled
      cases henabled
  | @crashed _ a s rest hl hincoming henabled =>
      refine h.crashed (hone s) hincoming ?_
      exact hguard (s, a) (crash_of_receives hl hincoming henabled)
  | stopped _ _ =>
      intro hruns
      cases hruns

/-! ### Runs -/

/-- **Every slot that is not disabled is retried**, in every run of the agents manager whose
    restarts stick. -/
theorem allRetried_of_restartsStick (h : (life cfg).ReachableUnder (RestartsStick cfg) m) :
    AllRetried cfg m := by
  refine h.invariant ?_ ?_
  · rintro m ⟨sender, store, b, hstart⟩ _ s _
    have hup := start_up hstart s
    obtain ⟨conn, hconn, _⟩ := hup.connected
    refine Or.inr ⟨hup.reader, Or.inl ?_⟩
    rw [hconn]
    rfl
  · intro m l m' hreach hI hguard hstep
    have hplain := (orderly_of_reachable hreach.reachable).plain
    exact (step_processes hplain hstep).allRetried
      (fun s => oneEnd_of_reachable hreach.reachable s) hguard hI

/-- A label that handles a crash does nothing else. -/
theorem crash_step {a : Answers} (hstep : step cfg m l = some m')
    (hcrash : m.crash l = some (s, a)) :
    ∃ rest, m.incoming = ⟨s, none⟩ :: rest ∧
      m' = handleCrash cfg { m with incoming := rest } s a := by
  have hhandled : ∀ {msg : SlotIncoming n} {rest : List (SlotIncoming n)},
      m.incoming = msg :: rest → msg.msg = none → msg.slotIdx = s →
      ∃ rest', m.incoming = ⟨s, none⟩ :: rest' ∧
        handleSlotIncoming cfg { m with incoming := rest } msg a =
          handleCrash cfg { m with incoming := rest' } s a := by
    rintro ⟨s', message⟩ rest hincoming rfl rfl
    exact ⟨rest, hincoming, rfl⟩
  cases turn_of_step cfg m hstep with
  | recvIncoming _ hincoming henabled =>
      simp only [crash, hincoming, List.head?_cons, Option.map_eq_some_iff,
        Option.filter_eq_some_iff, Prod.mk.injEq] at hcrash
      obtain ⟨msg, ⟨heq, hnone⟩, hslot, rfl⟩ := hcrash
      cases heq
      rw [Bool.and_eq_true, Option.isNone_iff_eq_none] at hnone
      exact hhandled hincoming hnone.1 hslot
  | recvDisabled _ hincoming hmsg hdisabled =>
      simp [crash, hincoming, hmsg, hdisabled] at hcrash
  | drainIncoming _ hincoming =>
      simp only [crash, hincoming, List.head?_cons, Option.map_eq_some_iff,
        Option.filter_eq_some_iff, Prod.mk.injEq] at hcrash
      obtain ⟨msg, ⟨heq, hnone⟩, hslot, rfl⟩ := hcrash
      cases heq
      exact hhandled hincoming (Option.isNone_iff_eq_none.mp hnone) hslot
  | _ => cases hcrash

/-- A restart that does not stick leaves its slot down, with nothing that retries it. -/
theorem retried_iff_of_crash {a : Answers} (h : (life cfg).Reachable m)
    (hstep : step cfg m l = some m') (hcrash : m.crash l = some (s, a))
    (hrestarts : m.Restarts s a) : Retried cfg m' s ↔ Sticks cfg m s a := by
  obtain ⟨rest, hincoming, rfl⟩ := crash_step hstep hcrash
  exact retried_handleCrash_iff (oneEnd_of_reachable h s) hincoming hrestarts

end Anyclaw.AgentsManager
