import Anyclaw.Agents.Processes
import Anyclaw.Agents.QueueInvariants

/-!
# A disabled slot stays down

The drain at the start of a prompt completion handles the end of an output without looking
at the disabled mark.  This does no harm, because every process is read by one reader and a
reader reports one end: the end that disabled the slot was the last one.

The drain is that of `handle_prompt_completion` (`crates/anyclaw-agents/src/incoming.rs`); the
run loop (`manager.rs`) does look, and `prepare_restart` (`session_recovery.rs`) drops the
connection of a slot that it disables.
-/

namespace Anyclaw

variable {n : Nat}

def Output.process (s : Fin n) : Output n → Option Nat
  | .spawned s' no => if s' = s then some no else none
  | _ => none

def SlotIncoming.ends (s : Fin n) (msg : SlotIncoming n) : Bool :=
  msg.slotIdx = s && msg.msg.isNone

namespace AgentsManager

variable (cfg : AgentsManagerConfig n) (m : AgentsManager n)

def processes (s : Fin n) : List Nat := m.trace.filterMap (Output.process s)

/-! ### Ends to come -/

/-- The ends of slot `s` that are queued, and the one that its reader will report. -/
def endsToCome (s : Fin n) : Nat :=
  m.incoming.countP (SlotIncoming.ends s) + if (m.slots s).readerAlive then 1 else 0

/-- At most one end of slot `s` is to come, and none when the slot is disabled. -/
structure OneEnd (s : Fin n) : Prop where
  one : m.endsToCome s ≤ 1
  down : (m.slots s).lifecycle.disabled = true →
    (m.slots s).connection = none ∧ m.endsToCome s = 0

variable {cfg m} {m' : AgentsManager n} {l : Label n} {s : Fin n}

theorem Appends.countP_ends (h : Appends m m') (s : Fin n) :
    m'.incoming.countP (SlotIncoming.ends s) = m.incoming.countP (SlotIncoming.ends s) := by
  obtain ⟨msgs, heq, hmsgs⟩ := h
  have hnone : msgs.countP (SlotIncoming.ends s) = 0 := by
    rw [List.countP_eq_zero]
    intro msg hmsg hends
    rw [SlotIncoming.ends, Bool.and_eq_true, Option.isNone_iff_eq_none] at hends
    obtain ⟨u, hsome⟩ := hmsgs msg hmsg
    rw [hends.2] at hsome
    cases hsome
  rw [heq, List.countP_append, hnone, Nat.add_zero]

theorem Linked.endsToCome (h : Linked m m') (s : Fin n) : m'.endsToCome s = m.endsToCome s := by
  unfold AgentsManager.endsToCome
  rw [h.incoming.countP_ends, h.reader]

theorem Tracks.lifecycle (h : Tracks m m') (s : Fin n) :
    (m'.slots s).lifecycle = (m.slots s).lifecycle := by
  cases h with
  | kept hstatus _ _ _ => exact congrArg SlotStatus.lifecycle (hstatus s)
  | prompted _ _ _ hstatus _ _ =>
      have hslot := congrArg SlotStatus.lifecycle (hstatus s)
      rw [AgentSlot.status_lifecycle] at hslot
      rw [hslot]
      split <;> rfl

theorem Tracks.running (h : Tracks m m') : m'.running = m.running := by
  cases h with
  | kept _ _ _ hrunning => exact hrunning
  | prompted _ _ _ _ _ hrunning => exact hrunning

/-- A step that starts no process and ends none. -/
theorem OneEnd.linked (h : OneEnd m s) (hlinked : Linked m m')
    (hlifecycle : (m'.slots s).lifecycle = (m.slots s).lifecycle) : OneEnd m' s := by
  refine ⟨?_, fun hdisabled => ?_⟩
  · rw [hlinked.endsToCome]
    exact h.one
  · rw [hlinked.endsToCome, hlinked.connection]
    rw [hlifecycle] at hdisabled
    exact h.down hdisabled

/-! ### Steps -/

/-- The head of the incoming queue is taken. -/
theorem endsToCome_dequeue {msg : SlotIncoming n} {rest : List (SlotIncoming n)} (s : Fin n)
    (hincoming : m.incoming = msg :: rest) :
    m.endsToCome s =
      endsToCome { m with incoming := rest } s + if msg.ends s then 1 else 0 := by
  unfold endsToCome
  rw [hincoming, List.countP_cons]
  dsimp only
  omega

theorem OneEnd.dequeue {msg : SlotIncoming n} {rest : List (SlotIncoming n)} (h : OneEnd m s)
    (hincoming : m.incoming = msg :: rest) : OneEnd { m with incoming := rest } s := by
  have hends := endsToCome_dequeue s hincoming
  refine ⟨?_, fun hdisabled => ?_⟩
  · have hone := h.one
    omega
  · obtain ⟨hconn, hzero⟩ := h.down hdisabled
    refine ⟨hconn, ?_⟩
    omega

theorem OneEnd.crashed {rest : List (SlotIncoming n)} {s' : Fin n} {a : Answers}
    (h : OneEnd m s) (hincoming : m.incoming = ⟨s', none⟩ :: rest) :
    OneEnd (handleCrash cfg { m with incoming := rest } s' a) s := by
  have hcrash := handleCrash_process cfg { m with incoming := rest } s' a
  have hends := endsToCome_dequeue s hincoming
  have hcount := hcrash.incoming.countP_ends s
  by_cases hs : s = s'
  · subst hs
    have hhead : SlotIncoming.ends s ⟨s, none⟩ = true := by
      simp [SlotIncoming.ends]
    rw [hhead, if_pos rfl] at hends
    have hone := h.one
    have hzero : endsToCome { m with incoming := rest } s = 0 := by omega
    obtain ⟨hmarks, hreader⟩ := Nat.add_eq_zero_iff.mp hzero
    have hread : (m.slots s).readerAlive = false := by
      cases hr : (m.slots s).readerAlive with
      | false => rfl
      | true => simp [hr] at hreader
    have hafter := hcrash.reader
    dsimp only at hmarks hcount hafter
    rw [hread, Bool.and_false] at hafter
    refine ⟨?_, fun hdisabled => ?_⟩
    · unfold endsToCome
      rw [hcount, hmarks]
      split <;> omega
    · have henabled : (m.slots s).lifecycle.disabled = false := by
        cases hd : (m.slots s).lifecycle.disabled with
        | false => rfl
        | true =>
            have hnone := (h.down hd).2
            omega
      rw [hcrash.disabled] at hdisabled
      dsimp only at hdisabled
      rw [henabled, Bool.false_or, Bool.not_eq_true', decide_eq_false_iff_not] at hdisabled
      have hnot : ¬ (Restarts { m with incoming := rest } s a ∧ a.spawned = true) :=
        fun hboth => hdisabled hboth.1
      have hstays : ¬ (m.slots s).ComesBack a := by
        rintro (hrestore | ⟨hrestart, _⟩)
        · exact hdisabled hrestore.1.1
        · exact hdisabled hrestart.1
      refine ⟨?_, ?_⟩
      · rw [hcrash.connection]
        exact if_neg hstays
      · unfold endsToCome
        rw [hcount, hmarks, hafter, if_neg hnot]
        rfl
  · have hother := hcrash.others s hs
    have hrest : OneEnd { m with incoming := rest } s := h.dequeue hincoming
    refine ⟨?_, fun hdisabled => ?_⟩
    · have hone := hrest.one
      unfold endsToCome at hone ⊢
      rw [hcount, hother]
      exact hone
    · rw [hother] at hdisabled ⊢
      obtain ⟨hconn, hzero⟩ := hrest.down hdisabled
      refine ⟨hconn, ?_⟩
      unfold endsToCome at hzero ⊢
      rw [hcount, hother]
      exact hzero

theorem OneEnd.queued (h : OneEnd m s) {s' : Fin n} {msg : IncomingMessage} :
    OneEnd (m.receive [⟨s', some msg⟩]) s := by
  have hsame : (m.receive [⟨s', some msg⟩]).endsToCome s = m.endsToCome s := by
    unfold endsToCome
    rw [receive_incoming, List.countP_append]
    simp [SlotIncoming.ends]
  refine ⟨?_, fun hdisabled => ?_⟩
  · rw [hsame]
    exact h.one
  · rw [hsame]
    exact h.down hdisabled

theorem OneEnd.ended {s' : Fin n} (h : OneEnd m s) (hreader : (m.slots s').readerAlive = true) :
    OneEnd ((m.receive [⟨s', none⟩]).modifySlot s' fun slot =>
      { slot with readerAlive := false }) s := by
  have hslot := slots_modifySlot (m.receive [⟨s', none⟩]) s' s fun slot =>
    { slot with readerAlive := false }
  by_cases hs : s = s'
  · subst hs
    rw [if_pos rfl] at hslot
    have hsame : endsToCome ((m.receive [⟨s, none⟩]).modifySlot s fun slot =>
        { slot with readerAlive := false }) s = m.endsToCome s := by
      unfold endsToCome
      rw [hslot, hreader, modifySlot_incoming, receive_incoming, List.countP_append]
      simp [SlotIncoming.ends]
    refine ⟨?_, fun hdisabled => ?_⟩
    · rw [hsame]
      exact h.one
    · rw [hslot] at hdisabled ⊢
      rw [hsame]
      exact h.down hdisabled
  · rw [if_neg hs] at hslot
    have hne : SlotIncoming.ends s ⟨s', none⟩ = false := by
      simp [SlotIncoming.ends, Ne.symm hs]
    have hsame : endsToCome ((m.receive [⟨s', none⟩]).modifySlot s' fun slot =>
        { slot with readerAlive := false }) s = m.endsToCome s := by
      unfold endsToCome
      rw [hslot, modifySlot_incoming, receive_incoming, List.countP_append]
      simp [hne]
    refine ⟨?_, fun hdisabled => ?_⟩
    · rw [hsame]
      exact h.one
    · rw [hslot] at hdisabled ⊢
      rw [hsame]
      exact h.down hdisabled

theorem OneEnd.stopped (h : OneEnd m s) : OneEnd m.shutdown s := by
  have hle : m.shutdown.endsToCome s ≤ m.endsToCome s := by
    have hreader : (m.shutdown.slots s).readerAlive =
        ((m.slots s).connection.isNone && (m.slots s).readerAlive) := rfl
    unfold endsToCome
    rw [hreader]
    refine Nat.add_le_add_left ?_ _
    cases (m.slots s).connection with
    | none => exact le_rfl
    | some conn => exact Nat.zero_le _
  refine ⟨hle.trans h.one, fun hdisabled => ⟨rfl, ?_⟩⟩
  have hzero := (h.down hdisabled).2
  omega

/-- A disabled slot stays disabled. -/
theorem ProcessStep.disabled (h : ProcessStep cfg m l m')
    (hdisabled : (m.slots s).lifecycle.disabled = true) :
    (m'.slots s).lifecycle.disabled = true := by
  cases h with
  | steady _ _ htracks => rwa [htracks.lifecycle s]
  | unqueued _ _ _ _ hslots _ _ => rwa [hslots]
  | @permissionAnswered requestId optionId _ =>
      rwa [(respondPermission_calm m requestId optionId).lifecycle s]
  | promptAnswered _ _ => exact hdisabled
  | promptLost _ _ => exact hdisabled
  | promptAbandoned _ _ => exact hdisabled
  | queued _ => exact hdisabled
  | @ended s' _ =>
      rw [slots_modifySlot]
      split
      · rename_i hs
        subst hs
        exact hdisabled
      · exact hdisabled
  | @heard _ _ s' msg rest _ _ =>
      rwa [(handleIncoming_calm { m with incoming := rest } s' msg).lifecycle s]
  | skipped _ _ => exact hdisabled
  | @crashed _ a s' rest _ _ _ =>
      have hcrash := handleCrash_process cfg { m with incoming := rest } s' a
      by_cases hs : s = s'
      · subst hs
        rw [hcrash.disabled]
        exact Bool.or_eq_true_iff.mpr (Or.inl hdisabled)
      · rwa [hcrash.others s hs]
  | stopped _ _ => exact hdisabled

theorem ProcessStep.oneEnd (h : ProcessStep cfg m l m') (hone : OneEnd m s) : OneEnd m' s := by
  cases h with
  | steady _ hlinked htracks => exact hone.linked hlinked (htracks.lifecycle s)
  | unqueued hlinked _ _ _ hslots _ _ => exact hone.linked hlinked (by rw [hslots])
  | @permissionAnswered requestId optionId _ =>
      have hcalm := respondPermission_calm m requestId optionId
      exact hone.linked hcalm.linked (hcalm.lifecycle s)
  | promptAnswered _ _ => exact ⟨hone.one, hone.down⟩
  | promptLost _ _ => exact ⟨hone.one, hone.down⟩
  | promptAbandoned _ _ => exact ⟨hone.one, hone.down⟩
  | queued _ => exact hone.queued
  | ended hreader => exact hone.ended hreader
  | @heard _ _ s' msg rest _ hincoming =>
      have hcalm := handleIncoming_calm { m with incoming := rest } s' msg
      exact (hone.dequeue hincoming).linked hcalm.linked (hcalm.lifecycle s)
  | skipped hincoming _ => exact hone.dequeue hincoming
  | crashed _ hincoming _ => exact hone.crashed hincoming
  | stopped _ _ => exact hone.stopped

theorem oneEnd_of_reachable (h : (life cfg).Reachable m) (s : Fin n) : OneEnd m s := by
  refine h.invariant (I := fun m => OneEnd m s) ?_ ?_
  · rintro m ⟨sender, store, b, hstart⟩
    have hup := start_up hstart s
    obtain ⟨_, hstatus⟩ := start_boots cfg _ b hstart
    have hincoming : m.incoming = [] := (start_booted (fun _ => rfl) hstart).incoming
    refine ⟨?_, fun hdisabled => ?_⟩
    · unfold endsToCome
      rw [hincoming, hup.reader]
      rfl
    · have hlifecycle := congrArg SlotStatus.lifecycle (hstatus s)
      rw [AgentSlot.status_lifecycle, AgentSlot.status_lifecycle] at hlifecycle
      rw [hlifecycle] at hdisabled
      cases hdisabled
  · intro m l m' hreach hI _ hstep
    exact (step_processes (orderly_of_reachable hreach).plain hstep).oneEnd hI

/-! ### Processes -/

theorem process_of_isAside {o : Output n} (h : o.isAside = true) : o.process s = none := by
  cases o <;> first | rfl | cases h

theorem filterMap_process_told (m : AgentsManager n) (es : List ChannelEvent) :
    (m.told es).filterMap (Output.process s) = [] := by
  rw [List.filterMap_eq_nil_iff]
  intro o ho
  obtain ⟨e, _, rfl⟩ := exists_of_mem_told ho
  rfl

/-- Only the end of slot `s` starts a process for it. -/
theorem Effect.processes {b : Backlog n} (h : Effect cfg m l b)
    (hnone : ∀ a, Receives l a → m.incoming.head? ≠ some ⟨s, none⟩) :
    b.messages.filterMap (Output.process s) =
      m.backlog.messages.filterMap (Output.process s) := by
  have htold := filterMap_process_told (s := s) m
  have hprompt : ∀ p parts origin, Output.process s (.prompt p parts origin) = none :=
    fun _ _ _ => rfl
  have hreply : ∀ no k plain result, Output.process s (.reply no k plain result) = none :=
    fun _ _ _ _ => rfl
  cases h with
  | talked htalk =>
      cases htalk with
      | forwarded =>
          simp [Output.process]
      | malformed => simp [htold]
      | @crashed a s' rest hl hincoming _ =>
          have hne : s' ≠ s := by
            rintro rfl
            refine hnone a hl ?_
            rw [hincoming]
            rfl
          have hspawns : (m.spawns s' a).filterMap (Output.process s) = [] := by
            unfold spawns
            split
            · simp [Output.process, hne]
            · rfl
          unfold crashOutputs
          split
          · simp [htold, hspawns]
          · simp
      | aside _ hos =>
          have haside := List.filterMap_eq_nil_iff.mpr fun o ho =>
            process_of_isAside (s := s) (hos o ho)
          simp [haside]
  | _ => simp [reported, htold, hprompt, hreply]

theorem processes_eq (m : AgentsManager n) (s : Fin n) :
    m.processes s = m.backlog.messages.filterMap (Output.process s) := by
  rw [filterMap_messages, processes]
  intro o ho
  cases o <;> first | rfl | cases ho

end AgentsManager

def Sample.fragile : AgentsManagerConfig 1 :=
  { Sample.cfg with
    agents := fun s => { Sample.cfg.agents s with crashTracker := some ⟨1, 60⟩ }
    names_distinct := fun _ _ _ => Subsingleton.elim _ _ }

namespace AgentsManager

/-! ### Runs -/

variable {cfg : AgentsManagerConfig n} {m m' : AgentsManager n}

/-- **A disabled slot is never started again**, whatever happens and however much time
    passes. -/
theorem stays_disabled (h : (life cfg).Reachable m) (s : Fin n)
    (hdisabled : (m.slots s).lifecycle.disabled = true)
    (hrun : (life cfg).RunUnder (fun _ _ => True) m m') :
    (m'.slots s).lifecycle.disabled = true ∧ (m'.slots s).connection = none ∧
      m'.processes s = m.processes s := by
  have hinv : (life cfg).Reachable m' ∧ (m'.slots s).lifecycle.disabled = true ∧
      m'.processes s = m.processes s := by
    refine hrun.preserves (I := fun m' => (life cfg).Reachable m' ∧
      (m'.slots s).lifecycle.disabled = true ∧ m'.processes s = m.processes s) ?_
      ⟨h, hdisabled, rfl⟩
    rintro m₁ l m₂ ⟨hreach, hdown, hsame⟩ _ hstep
    have hplain := (orderly_of_reachable hreach).plain
    have hnone := ((oneEnd_of_reachable hreach s).down hdown).2
    have hhead : m₁.incoming.head? ≠ some ⟨s, none⟩ := by
      intro hhead
      have hmarks := (Nat.add_eq_zero_iff.mp hnone).1
      rw [List.countP_eq_zero] at hmarks
      exact hmarks _ (List.mem_of_mem_head? hhead) (by simp [SlotIncoming.ends])
    refine ⟨hreach.step trivial hstep, (step_processes hplain hstep).disabled hdown, ?_⟩
    rw [← hsame, processes_eq, processes_eq]
    exact (step_advances hplain hstep).effect.processes fun _ _ => hhead
  obtain ⟨hreach, hdown, hsame⟩ := hinv
  exact ⟨hdown, ((oneEnd_of_reachable hreach s).down hdown).1, hsame⟩

/-- The first crash disables the slot; the prompt that was in flight is completed, and the
    next message finds no process. -/
theorem stays_disabled_fragile :
    ∃ m m' : AgentsManager 1, (m.slots 0).lifecycle.disabled = true ∧
      (m'.slots 0).connection = none ∧ m'.processes 0 = m.processes 0 := by
  have hrun : ∃ m ∈ AgentsManager.execute Sample.fragile (fun _ _ => True) true ∅ Sample.boot
      ([Sample.send "hello" (Sample.answers "s")] ++ Sample.crash (Sample.answers "t")),
        (m.slots 0).lifecycle.disabled = true ∧
        ((life Sample.fragile).run (fun _ _ => True) m
          [.promptLost 0, .recvCompletion, .finishCompletion (Sample.answers "u"),
            Sample.send "there" (Sample.answers "v")]).isSome = true := by
    decide
  obtain ⟨m, hm, hdisabled, hlater⟩ := hrun
  obtain ⟨m', hm'⟩ := Option.isSome_iff_exists.mp hlater
  obtain ⟨_, hconn, hsame⟩ := stays_disabled (reachable_of_execute Sample.fragile hm) 0 hdisabled
    (Machine.runUnder_of_run _ m hm')
  exact ⟨m, m', hdisabled, hconn, hsame⟩

end AgentsManager

end Anyclaw
