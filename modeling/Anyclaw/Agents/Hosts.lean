import Anyclaw.Agents.UpdateOrder
import Anyclaw.Agents.ActivePrompts

/-!
# The process of a slot

A connection leads to the process that was started last for its slot.  A process is started
when the end of the one before is handled, and then nothing that the old one asked for is
left in the queue; so what is queued for a slot comes from its latest process.

A process is started by `respawn_and_initialize`
(`crates/anyclaw-agents/src/session_recovery.rs`); its reader is the task of
`spawn_reader_task` (`connection.rs`).
-/

namespace Anyclaw

variable {n : Nat}

def SlotIncoming.asks (msg : SlotIncoming n) : Option (Fin n × PermissionRequest) :=
  match msg.msg with
  | some (.requestPermission r) => some (msg.slotIdx, r)
  | _ => none

def Label.asks : Label n → Option (Fin n × PermissionRequest)
  | .incoming s (.requestPermission r) => some (s, r)
  | _ => none

/-- `msg'` does not ask for a permission for the slot that `msg` ends. -/
def SlotIncoming.SilentAfter (msg msg' : SlotIncoming n) : Prop :=
  msg.msg = none → ∀ q, msg'.asks = some q → q.1 ≠ msg.slotIdx

namespace AgentsManager

variable {cfg : AgentsManagerConfig n} {m m' : AgentsManager n} {l : Label n} {s : Fin n}

def latestProcess (m : AgentsManager n) (s : Fin n) : Option Nat := (m.processes s).getLast?

/-! ### Steps -/

inductive HostStep (m m' : AgentsManager n) (l : Label n) (s : Fin n) : Prop
  | kept (hconn : (m'.slots s).connection = (m.slots s).connection ∨
      (m'.slots s).connection = none) (hprocesses : m'.processes s = m.processes s)
  | started {a : Answers} (hcrash : m.crash l = some (s, a))
      (hhead : m.incoming.head? = some ⟨s, none⟩)
      (hconn : (m'.slots s).connection =
        if (m.slots s).ComesBack a then some ⟨m.nextConnection⟩ else none)
      (hprocesses : m'.processes s = m.processes s ++ [m.nextConnection])
      (hnext : m.nextConnection < m'.nextConnection)

theorem processes_told (m : AgentsManager n) (s : Fin n) {os : List (Output n)}
    (h : Spoken os m m') : m'.processes s = m.processes s ++ os.filterMap (Output.process s) := by
  rw [processes_eq, processes_eq, h.backlog, Backlog.sayAll_messages, List.filterMap_append]

/-- The end of the output of a slot. -/
theorem host_crashed {a : Answers} {s' : Fin n} {rest : List (SlotIncoming n)}
    (hincoming : m.incoming = ⟨s', none⟩ :: rest) (hcrash : m.crash l = some (s', a)) :
    HostStep m (handleCrash cfg { m with incoming := rest } s' a) l s := by
  have hspoken := handleCrash_spoken cfg { m with incoming := rest } s' a
  have hprocess := handleCrash_process cfg { m with incoming := rest } s' a
  have hprocesses := processes_told { m with incoming := rest } s hspoken
  have hnews : (crashOutputs cfg m s' a).filterMap (Output.process s) =
      if s' = s ∧ m.Restarts s' a ∧ a.spawned = true then [m.nextConnection] else [] := by
    unfold crashOutputs spawns
    by_cases hrestarts : m.Restarts s' a
    · rw [if_pos hrestarts, List.filterMap_append, filterMap_process_told, List.nil_append]
      by_cases hspawned : a.spawned = true
      · by_cases hs : s' = s <;> simp [hspawned, hs, hrestarts, Output.process]
        subst hs
        exact hrestarts
      · simp [hspawned]
    · simp [hrestarts]
  have hsame : (crashOutputs cfg { m with incoming := rest } s' a).filterMap (Output.process s) =
      (crashOutputs cfg m s' a).filterMap (Output.process s) := rfl
  rw [hsame, hnews] at hprocesses
  by_cases hs : s' = s
  · subst hs
    by_cases hstarts : m.Restarts s' a ∧ a.spawned = true
    · rw [if_pos ⟨rfl, hstarts⟩] at hprocesses
      have hnext := hprocess.nextConnection
      dsimp only at hnext
      refine .started hcrash (by rw [hincoming]; rfl) hprocess.connection hprocesses ?_
      rw [hnext]
      split
      · exact Nat.lt_succ_self _
      · rename_i hnot
        exact absurd hstarts hnot
    · rw [if_neg fun h => hstarts h.2, List.append_nil] at hprocesses
      refine .kept (Or.inr ?_) hprocesses
      rw [hprocess.connection]
      refine if_neg fun hback => hstarts ?_
      rcases hback with hrestore | ⟨hrestart, _⟩
      · exact ⟨hrestore.1.1, hrestore.1.2.1⟩
      · exact ⟨hrestart.1, hrestart.2.1⟩
  · rw [if_neg fun h => hs h.1, List.append_nil] at hprocesses
    refine .kept (Or.inl ?_) hprocesses
    rw [hprocess.others s (Ne.symm hs)]

theorem step_hosts (hplain : m.backlog.Plain) (hstep : step cfg m l = some m') (s : Fin n) :
    HostStep m m' l s := by
  have heffect := (step_advances hplain hstep).effect
  have hkept : (∀ a, Receives l a → m.incoming.head? ≠ some ⟨s, none⟩) →
      (m'.slots s).connection = (m.slots s).connection ∨ (m'.slots s).connection = none →
      HostStep m m' l s := by
    intro hhead hconn
    refine .kept hconn ?_
    rw [processes_eq, processes_eq]
    exact heffect.processes hhead
  have hquiet : l.speaks = false → ∀ a, Receives l a → m.incoming.head? ≠ some ⟨s, none⟩ := by
    rintro hl a (rfl | rfl) <;> cases hl
  cases step_processes hplain hstep with
  | steady hl hlinked _ => exact hkept (hquiet hl) (Or.inl (hlinked.connection s))
  | unqueued hlinked _ _ _ _ _ _ => exact hkept (hquiet rfl) (Or.inl (hlinked.connection s))
  | permissionAnswered =>
      refine hkept (fun a h => ?_) (Or.inl ((respondPermission_calm m _ _).linked.connection s))
      rcases h with h | h <;> cases h
  | promptAnswered _ _ => exact hkept (hquiet rfl) (Or.inl rfl)
  | promptLost _ _ => exact hkept (hquiet rfl) (Or.inl rfl)
  | promptAbandoned _ _ => exact hkept (hquiet rfl) (Or.inl rfl)
  | queued _ => exact hkept (hquiet rfl) (Or.inl rfl)
  | @ended s' _ =>
      refine hkept (hquiet rfl) (Or.inl ?_)
      rw [slots_modifySlot]
      split
      · rename_i hs
        rw [hs]
        rfl
      · rfl
  | @heard _ _ s' msg rest _ hincoming =>
      refine hkept (fun _ _ => ?_)
        (Or.inl ((handleIncoming_calm { m with incoming := rest } s' msg).linked.connection s))
      rw [hincoming]
      exact fun h => nomatch h
  | @skipped _ s' rest hincoming _ => exact .kept (Or.inl rfl) rfl
  | crashed hl hincoming henabled =>
      exact host_crashed hincoming (crash_of_receives hl hincoming henabled)
  | stopped hl _ => exact hkept (hquiet hl) (Or.inr rfl)

/-! ### Runs -/

/-- The processes of a slot are numbered, and the connection leads to the latest one. -/
structure Hosted (m : AgentsManager n) (s : Fin n) : Prop where
  connection : ∀ conn ∈ (m.slots s).connection, m.latestProcess s = some conn.no
  processes : ∀ no ∈ m.processes s, no < m.nextConnection

theorem Hosted.step (h : Hosted m s) (hhost : HostStep m m' l s)
    (hnext : m.nextConnection ≤ m'.nextConnection) : Hosted m' s := by
  cases hhost with
  | kept hconn hprocesses =>
      constructor
      · intro conn hmem
        unfold latestProcess
        rw [hprocesses]
        rcases hconn with hsame | hnone
        · rw [hsame] at hmem
          exact h.connection conn hmem
        · rw [hnone] at hmem
          cases hmem
      · intro no hno
        rw [hprocesses] at hno
        exact Nat.lt_of_lt_of_le (h.processes no hno) hnext
  | started hcrash _ hconn hprocesses hlt =>
      constructor
      · intro conn hmem
        rw [hconn] at hmem
        split at hmem
        · cases hmem
          unfold latestProcess
          rw [hprocesses, List.getLast?_concat]
        · cases hmem
      · intro no hno
        rw [hprocesses] at hno
        rcases List.mem_append.mp hno with hold | hlast
        · exact Nat.lt_of_lt_of_le (h.processes no hold) hnext
        · rw [List.mem_singleton.mp hlast]
          exact hlt

theorem buildStartedSlot_spoken {a : Answers} (h : buildStartedSlot cfg m s a = (.ok (), m')) :
    Spoken [.spawned s m.nextConnection] m m' := by
  unfold buildStartedSlot at h
  split at h
  · have hinit := (spawnConnection_spoken m s).trans_quiet
      (initializeAgent_quiet cfg (m.spawnConnection s) s a)
    split at h
    · cases h
    · rename_i m₁ hinitialized
      rw [hinitialized] at hinit
      have hstart := hinit.trans_quiet (startSession_quiet cfg m₁ s a)
      split at h
      · cases h
      · rename_i hid
        rw [hid] at hstart
        cases h
        exact hstart.trans_quiet ((Quiet.refl _).modifySlot rfl)
  · cases h

theorem Hosted.start {m₁ : AgentsManager n} (h : ∀ s', Hosted m s') (hstarts : Starts m m₁ s)
    (hspoken : Spoken [.spawned s m.nextConnection] m m₁) (s' : Fin n) : Hosted m₁ s' := by
  have hprocesses := processes_told m s' hspoken
  by_cases hs : s' = s
  · subst hs
    have hone : [Output.spawned s' m.nextConnection].filterMap (Output.process s') =
        [m.nextConnection] := by
      simp [Output.process]
    rw [hone] at hprocesses
    constructor
    · intro conn hmem
      rw [hstarts.connection] at hmem
      cases hmem
      unfold latestProcess
      rw [hprocesses, List.getLast?_concat]
    · intro no hno
      rw [hprocesses] at hno
      rw [hstarts.nextConnection]
      rcases List.mem_append.mp hno with hold | hlast
      · exact Nat.lt_succ_of_lt ((h s').processes no hold)
      · rw [List.mem_singleton.mp hlast]
        exact Nat.lt_succ_self _
  · have hone : [Output.spawned s m.nextConnection].filterMap (Output.process s') = [] := by
      simp [Output.process, Ne.symm hs]
    rw [hone, List.append_nil] at hprocesses
    constructor
    · intro conn hmem
      rw [hstarts.others s' hs] at hmem
      unfold latestProcess
      rw [hprocesses]
      exact (h s').connection conn hmem
    · intro no hno
      rw [hprocesses] at hno
      rw [hstarts.nextConnection]
      exact Nat.lt_succ_of_lt ((h s').processes no hno)

theorem startSlots_hosted {b : StartAnswers n} (ss : List (Fin n)) :
    ∀ {m m' : AgentsManager n}, startSlots cfg b ss m = some m' → (∀ s, Hosted m s) →
      ∀ s, Hosted m' s := by
  induction ss with
  | nil =>
      intro m m' h hhosted
      cases h
      exact hhosted
  | cons s rest ih =>
      intro m m' h hhosted
      rw [startSlots] at h
      split at h
      · rename_i m₁ heq
        exact ih h (Hosted.start hhosted (buildStartedSlot_starts heq) (buildStartedSlot_spoken heq))
      · cases h

/-- Loading the store starts no process and leaves the connections alone. -/
theorem loadStore_hosted {b : StartAnswers n} (h : loadStore cfg m b = some m')
    (hhosted : Hosted m s) : Hosted m' s := by
  have hquiet := loadStore_quiet cfg m b h
  have hprocesses := processes_told m s hquiet.toSpoken
  rw [List.filterMap_nil, List.append_nil] at hprocesses
  constructor
  · intro conn hmem
    rw [(loadStore_process h s).1] at hmem
    unfold latestProcess
    rw [hprocesses]
    exact hhosted.connection conn hmem
  · intro no hno
    rw [hprocesses] at hno
    rw [hquiet.nextConnection]
    exact hhosted.processes no hno

theorem hosted_of_reachable (h : (life cfg).Reachable m) (s : Fin n) : Hosted m s := by
  refine h.invariant (I := fun m => Hosted m s) ?_ ?_
  · rintro m ⟨sender, store, b, hstart⟩
    obtain ⟨m₁, hslots, hload⟩ := Option.bind_eq_some_iff.mp hstart
    refine loadStore_hosted hload (startSlots_hosted _ hslots (fun s' => ⟨?_, ?_⟩) s)
    · intro conn hmem
      cases hmem
    · intro no hno
      cases hno
  · intro m l m' hreach hI _ hstep
    have hplain := (orderly_of_reachable hreach).plain
    exact hI.step (step_hosts hplain hstep s)
      (step_processes hplain hstep).succeeds.nextConnection

/-- A slot whose end is queued asks for nothing afterwards. -/
def EndsLast (m : AgentsManager n) : Prop := m.incoming.Pairwise SlotIncoming.SilentAfter

theorem Arrivals.asks {msgs : List (SlotIncoming n)} (h : Arrivals m l msgs) :
    ∀ msg ∈ msgs, ∀ q, msg.asks = some q →
      l.asks = some q ∧ (m.slots q.1).readerAlive = true := by
  intro msg hmsg q hq
  cases h with
  | updates hmsgs =>
      obtain ⟨u, hu⟩ := hmsgs msg hmsg
      unfold SlotIncoming.asks at hq
      rw [hu] at hq
      cases hq
  | @message s message hreader =>
      rw [List.mem_singleton.mp hmsg] at hq
      cases message with
      | requestPermission r =>
          cases hq
          exact ⟨rfl, hreader⟩
      | _ => cases hq
  | ended hreader =>
      rw [List.mem_singleton.mp hmsg] at hq
      cases hq

theorem EndsLast.step (h : EndsLast m) (hone : ∀ s, OneEnd m s) {msgs : List (SlotIncoming n)}
    (harrivals : Arrivals m l msgs) (hincoming : m'.incoming = m.unread l ++ msgs) :
    EndsLast m' := by
  unfold EndsLast
  have hrest : (m.unread l).Sublist m.incoming := by
    have hsplit := m.dequeued_unread l
    rw [← hsplit]
    exact List.sublist_append_right _ _
  rw [hincoming, List.pairwise_append]
  refine ⟨h.sublist hrest, ?_, ?_⟩
  · cases harrivals with
    | updates hmsgs =>
        refine List.pairwise_of_forall_mem_list fun msg hmsg msg' _ hnone => ?_
        obtain ⟨u, hu⟩ := hmsgs msg hmsg
        rw [hu] at hnone
        cases hnone
    | message _ => exact List.pairwise_singleton _ _
    | ended _ => exact List.pairwise_singleton _ _
  · intro msg hmsg msg' hmsg' hnone q hq heq
    obtain ⟨_, hreader⟩ := harrivals.asks msg' hmsg' q hq
    have hends : 0 < m.incoming.countP (SlotIncoming.ends q.1) := by
      refine List.countP_pos_iff.mpr ⟨msg, hrest.subset hmsg, ?_⟩
      simp [SlotIncoming.ends, heq, hnone]
    have hle := (hone q.1).one
    unfold endsToCome at hle
    rw [if_pos hreader] at hle
    omega

theorem endsLast_of_reachable (h : (life cfg).Reachable m) : EndsLast m := by
  refine h.invariant (I := fun m => EndsLast m) ?_ ?_
  · rintro m ⟨sender, store, b, hstart⟩
    unfold EndsLast
    rw [(start_booted (fun _ => rfl) hstart).incoming]
    exact List.Pairwise.nil
  · intro m l m' hreach hI _ hstep
    obtain ⟨msgs, harrivals, hincoming⟩ :=
      step_arrivals (orderly_of_reachable hreach).plain hstep
    exact hI.step (oneEnd_of_reachable hreach) harrivals hincoming

end AgentsManager

end Anyclaw
