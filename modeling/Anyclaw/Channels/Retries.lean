import Anyclaw.Agents.Retries
import Anyclaw.Channels.Run

/-!
# Restarts of a channel

The run loop restarts a channel when it takes the end of its stream.  An attempt that fails
registers no stream, so nothing restarts the channel again; the same holds for a channel
that could not be started at boot.  The last section puts this together with the restarts
of the agents.

The restart is `handle_channel_crash`, the start at boot `start_channel_slot`, both of
`crates/anyclaw-channels/src/manager.rs`.
-/

namespace Anyclaw

namespace ChannelsManager

variable {c : Nat} (cfg : ChannelsManagerConfig c) (ch : ChannelsManager c)

/-- Slot `s` is connected, and its stream will bring the end of its process, which triggers
    the next restart. -/
def Retried (s : Fin c) : Prop :=
  (ch.slots s).connection.isSome ∧ (ch.slots s).stream.isSome

/-- The crash does not disable the slot. -/
def Restarts (s : Fin c) (a : ChannelAnswers) : Prop :=
  ((ch.slots s).lifecycle.recordCrashAndCheck a.crashRecordedAt a.crashCheckedAt).1 ≠ .disabled

instance (s : Fin c) (a : ChannelAnswers) : Decidable (ch.Restarts s a) :=
  inferInstanceAs (Decidable (_ ≠ _))

def Crashes (s : Fin c) : Prop := (ch.slots s).stream = some { messages := [], ended := true }

instance (s : Fin c) : Decidable (ch.Crashes s) :=
  inferInstanceAs (Decidable (_ = _))

def RespawnsSucceed : ChannelsLabel c → Prop
  | .start a => ∀ s, (a s).spawned = true ∧ (a s).initialized = true
  | .recvStream s a =>
      ch.Crashes s → ch.Restarts s a → a.spawned = true ∧ a.initialized = true
  | _ => True

instance (l : ChannelsLabel c) : Decidable (RespawnsSucceed ch l) := by
  unfold RespawnsSucceed
  split <;> infer_instance

variable {cfg ch} {ch' : ChannelsManager c}

/-! ### Handlers that leave the processes alone -/

/-- The processes are as before. -/
structure Steady (ch ch' : ChannelsManager c) : Prop where
  slots : ch'.slots = ch.slots
  started : ch'.started = ch.started
  running : ch'.running = ch.running

theorem Steady.refl (ch : ChannelsManager c) : Steady ch ch := ⟨rfl, rfl, rfl⟩

theorem Steady.trans {ch'' : ChannelsManager c} (h : Steady ch ch') (h' : Steady ch' ch'') :
    Steady ch ch'' :=
  ⟨h'.slots.trans h.slots, h'.started.trans h.started, h'.running.trans h.running⟩

theorem emit_steady (ch : ChannelsManager c) (o : ChannelOutput c) : Steady ch (ch.emit o) :=
  ⟨rfl, rfl, rfl⟩

theorem write_steady (ch : ChannelsManager c) (s : Fin c) (accepted : Bool)
    (message : ToChannel) : Steady ch (ch.write s accepted message) := by
  unfold write
  split
  · split
    · exact emit_steady ch _
    · exact Steady.refl ch
  · exact Steady.refl ch

theorem Steady.write (h : Steady ch ch') (s : Fin c) (accepted : Bool) (message : ToChannel) :
    Steady ch (ch'.write s accepted message) :=
  h.trans (write_steady ch' s accepted message)

theorem routePermission_steady (ch : ChannelsManager c) (k : SessionKey)
    (requestId description : String) (options : List PermissionOption) (event : Nat)
    (a : ChannelAnswers) :
    Steady ch (ch.routePermission k requestId description options event a) := by
  unfold routePermission
  split
  · exact Steady.refl ch
  · split
    · exact Steady.refl ch
    · split
      · dsimp only
        split
        · exact ⟨rfl, rfl, rfl⟩
        · exact emit_steady ch _
      · exact Steady.refl ch

theorem handleChannelEvent_steady (cfg : ChannelsManagerConfig c) (ch : ChannelsManager c)
    (event : Nat) (a : ChannelAnswers) (e : ChannelEvent) :
    Steady ch (handleChannelEvent cfg ch event a e) := by
  cases e with
  | deliverMessage k content =>
      rw [handleChannelEvent, handleDeliverMessage]
      split
      · exact Steady.refl ch
      · dsimp only
        refine Steady.write ?_ _ _ _
        split
        · exact Steady.refl ch
        · refine Steady.write ?_ _ _ _
          exact ⟨rfl, rfl, rfl⟩
  | sessionComplete k stopReason =>
      rw [handleChannelEvent, handleSessionComplete]
      split
      · exact Steady.refl ch
      · exact write_steady ch _ _ _
  | routePermission k requestId description options =>
      exact routePermission_steady ch k requestId description options event a
  | ackMessage _ _ _ _ => exact Steady.refl ch
  | dispatchStarted k =>
      rw [handleChannelEvent, handleDispatchStarted]
      dsimp only
      split
      · exact ⟨rfl, rfl, rfl⟩
      · refine Steady.write (Steady.write ?_ _ _ _) _ _ _
        exact ⟨rfl, rfl, rfl⟩

theorem ensureSessionCreated_steady (cfg : ChannelsManagerConfig c) (ch : ChannelsManager c)
    (s : Fin c) (k : SessionKey) (peerInfo : PeerInfo) (a : ChannelAnswers) :
    Steady ch (ensureSessionCreated cfg ch s k peerInfo a).2 := by
  unfold ensureSessionCreated
  split
  · exact Steady.refl ch
  · dsimp only
    split
    · exact Steady.refl ch
    · refine Steady.write ?_ _ _ _
      exact ⟨rfl, rfl, rfl⟩
    · exact (emit_steady ch _).write _ _ _
    · exact (emit_steady ch _).write _ _ _

theorem enqueueToAgent_steady (ch : ChannelsManager c) (k : SessionKey)
    (content : List ContentPart) (metadata : Option MessageMetadata) (agentName : String)
    (a : ChannelAnswers) : Steady ch (ch.enqueueToAgent k content metadata agentName a) := by
  unfold enqueueToAgent
  dsimp only
  split
  · exact Steady.refl ch
  · split
    · exact (emit_steady ch _).write _ _ _
    · exact emit_steady ch _
  · exact emit_steady ch _

theorem collectChannelMessage_steady (cfg : ChannelsManagerConfig c) (ch : ChannelsManager c)
    (s : Fin c) (a : ChannelAnswers) (message : ChannelMessage) :
    Steady ch (collectChannelMessage cfg ch s a message) := by
  cases message with
  | sendMessage message =>
      rw [collectChannelMessage, collectSendMessage]
      split
      · exact Steady.refl ch
      · dsimp only
        split
        · have hensure := ensureSessionCreated_steady cfg ch s (buildSessionKey message)
            message.peerInfo a
          split
          · rename_i heq
            rwa [heq] at hensure
          · rename_i heq
            rw [heq] at hensure
            exact hensure.trans (enqueueToAgent_steady _ _ _ _ _ _)
        · exact Steady.refl ch
  | respondPermission requestId optionId =>
      rw [collectChannelMessage, handleRespondPermission]
      split
      · exact emit_steady ch _
      · exact Steady.refl ch
  | unhandled => exact Steady.refl ch

/-! ### Starts and restarts -/

theorem slots_setSlot (ch : ChannelsManager c) (s s' : Fin c) (slot : ChannelSlot) :
    (ch.setSlot s slot).slots s' = if s' = s then slot else ch.slots s' := by
  rw [setSlot_slots, Function.update_apply]

/-- What an attempt to get a process for a slot leaves alone. -/
theorem spawnAndInitialize_steady (ch : ChannelsManager c) (s : Fin c) (a : ChannelAnswers) :
    Steady ch (ch.spawnAndInitialize s a).2 := by
  unfold spawnAndInitialize
  split
  · exact ⟨rfl, rfl, rfl⟩
  · exact Steady.refl ch

theorem isSome_spawnAndInitialize (ch : ChannelsManager c) (s : Fin c) (a : ChannelAnswers) :
    (ch.spawnAndInitialize s a).1.isSome ↔ a.spawned = true ∧ a.initialized = true := by
  unfold spawnAndInitialize
  cases a.spawned with
  | false => simp
  | true => cases a.initialized <;> simp

/-- Slot `s` after an attempt to start it. -/
theorem startChannelSlot_slots (ch : ChannelsManager c) (s s' : Fin c) (a : ChannelAnswers) :
    (startChannelSlot cfg ch s a).slots s' =
      if s' = s then
        { ChannelSlot.new (cfg.channels s) with
          connection := (ch.spawnAndInitialize s a).1
          stream := freshStream (ch.spawnAndInitialize s a).1 }
      else ch.slots s' := by
  unfold startChannelSlot
  rw [slots_setSlot, (spawnAndInitialize_steady ch s a).slots]

theorem foldl_startChannelSlot (a : Fin c → ChannelAnswers) :
    ∀ (ss : List (Fin c)) (ch : ChannelsManager c),
      (∀ s ∈ ss, (a s).spawned = true ∧ (a s).initialized = true) →
        ∀ s, ch.Retried s ∨ s ∈ ss →
          (ss.foldl (fun ch s => startChannelSlot cfg ch s (a s)) ch).Retried s
  | [], ch, _, s, h => by
      rcases h with hup | hnil
      · exact hup
      · cases hnil
  | s' :: rest, ch, hall, s, h => by
      refine foldl_startChannelSlot a rest (startChannelSlot cfg ch s' (a s'))
        (fun s hs => hall s (List.mem_cons_of_mem _ hs)) s ?_
      by_cases hs : s = s'
      · subst hs
        have hsome := (isSome_spawnAndInitialize ch s (a s)).mpr (hall s List.mem_cons_self)
        refine Or.inl ?_
        unfold Retried
        rw [startChannelSlot_slots, if_pos rfl, freshStream, Option.isSome_map]
        exact ⟨hsome, hsome⟩
      · rcases h with hup | hmem
        · refine Or.inl ?_
          unfold Retried
          rw [startChannelSlot_slots, if_neg hs]
          exact hup
        · rcases List.mem_cons.mp hmem with heq | hrest
          · exact absurd heq hs
          · exact Or.inr hrest

/-- A crash concerns its slot only. -/
theorem handleChannelCrash_others (ch : ChannelsManager c) (s s' : Fin c) (a : ChannelAnswers)
    (hs : s' ≠ s) :
    (ch.handleChannelCrash s a).slots s' = ch.slots s' := by
  have hspawn := spawnAndInitialize_steady ch s a
  unfold handleChannelCrash
  split
  · rw [slots_setSlot, if_neg hs]
  · split
    · rename_i heq
      rw [heq] at hspawn
      rw [slots_setSlot, if_neg hs, hspawn.slots]
    · rename_i heq
      rw [heq] at hspawn
      rw [slots_setSlot, if_neg hs, hspawn.slots]

theorem handleChannelCrash_running (ch : ChannelsManager c) (s : Fin c) (a : ChannelAnswers) :
    (ch.handleChannelCrash s a).running = ch.running ∧
      (ch.handleChannelCrash s a).started = ch.started := by
  have hspawn := spawnAndInitialize_steady ch s a
  unfold handleChannelCrash
  split
  · exact ⟨rfl, rfl⟩
  · split
    · rename_i heq
      rw [heq] at hspawn
      exact ⟨hspawn.running, hspawn.started⟩
    · rename_i heq
      rw [heq] at hspawn
      exact ⟨hspawn.running, hspawn.started⟩

theorem handleChannelCrash_enabled {s : Fin c} {a : ChannelAnswers}
    (h : ((ch.handleChannelCrash s a).slots s).lifecycle.disabled = false) : ch.Restarts s a := by
  have hrecorded := AgentsManager.disabled_recordCrashAndCheck (ch.slots s).lifecycle
    a.crashRecordedAt a.crashCheckedAt
  intro haction
  unfold handleChannelCrash at h
  split at h
  · rename_i heq
    rw [slots_setSlot, if_pos rfl] at h
    rw [heq, decide_eq_true rfl, Bool.or_true] at hrecorded
    dsimp only at h hrecorded
    rw [hrecorded] at h
    cases h
  · rename_i heq
    rw [heq] at haction
    cases haction

/-- After a crash that does not disable its slot, the slot is retried if and only if the
    attempt succeeds. -/
theorem retried_handleChannelCrash_iff {s : Fin c} {a : ChannelAnswers}
    (hrestarts : ch.Restarts s a) :
    (ch.handleChannelCrash s a).Retried s ↔ a.spawned = true ∧ a.initialized = true := by
  rw [← isSome_spawnAndInitialize ch s a]
  unfold handleChannelCrash Retried
  split
  · rename_i heq
    exact absurd (congrArg Prod.fst heq) hrestarts
  · split
    · rename_i heq
      rw [slots_setSlot, if_pos rfl, heq]
      exact ⟨fun _ => rfl, fun _ => ⟨rfl, rfl⟩⟩
    · rename_i heq
      rw [slots_setSlot, if_pos rfl, heq]
      exact ⟨fun h => h.1, fun h => ⟨h, h⟩⟩

/-! ### Runs -/

/-- While the manager runs, every slot that is not disabled is retried. -/
def AllRetried (ch : ChannelsManager c) : Prop :=
  ch.idle = true → ∀ s, (ch.slots s).lifecycle.disabled = false → ch.Retried s

theorem idle_iff : ch.idle = true ↔ ch.started = true ∧ ch.running = true := by
  unfold idle
  rw [Bool.and_eq_true]

theorem AllRetried.steady (h : AllRetried ch) (hsteady : Steady ch ch') : AllRetried ch' := by
  intro hidle s henabled
  have hidle' : ch.idle = true := by
    rw [idle_iff] at hidle ⊢
    rw [hsteady.started, hsteady.running] at hidle
    exact hidle
  unfold Retried
  rw [hsteady.slots] at henabled ⊢
  exact h hidle' s henabled

/-- Only the stream of slot `s` has changed, and it is still registered. -/
theorem AllRetried.stream (h : AllRetried ch) (s : Fin c) (stream : ChannelStream) :
    AllRetried (ch.setSlot s { ch.slots s with stream := some stream }) := by
  intro hidle s' henabled
  unfold Retried
  rw [slots_setSlot] at henabled ⊢
  split
  · rename_i hs
    rw [if_pos hs] at henabled
    exact ⟨(h hidle s henabled).1, rfl⟩
  · rename_i hs
    rw [if_neg hs] at henabled
    exact h hidle s' henabled

theorem AllRetried.crashed {s : Fin c} {a : ChannelAnswers} (h : AllRetried ch)
    (hguard : ch.Restarts s a → a.spawned = true ∧ a.initialized = true) :
    AllRetried (ch.handleChannelCrash s a) := by
  obtain ⟨hrunning, hstarted⟩ := handleChannelCrash_running ch s a
  intro hidle s' henabled
  rw [idle_iff, hrunning, hstarted, ← idle_iff] at hidle
  by_cases hs : s' = s
  · subst hs
    have hrestarts := handleChannelCrash_enabled henabled
    exact (retried_handleChannelCrash_iff hrestarts).mpr (hguard hrestarts)
  · have hother := handleChannelCrash_others ch s s' a hs
    unfold Retried
    rw [hother] at henabled ⊢
    exact h hidle s' henabled

theorem step_allRetried {l : ChannelsLabel c} (h : step cfg ch l = some ch')
    (hguard : RespawnsSucceed ch l) (hI : AllRetried ch) : AllRetried ch' := by
  cases turn_of_step h with
  | @started a _ =>
      intro _ s _
      exact foldl_startChannelSlot a (List.finRange c) ch (fun s _ => hguard s) s
        (Or.inr (List.mem_finRange s))
  | queued _ _ => exact hI.stream _ _
  | eof _ _ => exact hI.stream _ _
  | waitEnded _ _ => exact hI.steady ⟨rfl, rfl, rfl⟩
  | @collected s a _ message _ _ _ _ =>
      exact (hI.stream s _).steady (collectChannelMessage_steady cfg _ s a message)
  | @crashed s a stream _ hstream hmessages hended =>
      refine hI.crashed (hguard ?_)
      obtain ⟨messages, ended⟩ := stream
      dsimp only at hmessages hended
      rw [hmessages, hended] at hstream
      exact hstream
  | @event event e a _ => exact hI.steady (handleChannelEvent_steady cfg ch event a e)
  | @command event command a _ =>
      cases command with
      | deliverToChannel k content =>
          rw [handleCommand]
          split
          · exact hI
          · exact hI.steady (write_steady ch _ _ _)
      | routePermission k requestId description options =>
          exact hI.steady (routePermission_steady ch k requestId description options event a)
      | shutdown =>
          intro hidle
          rw [idle_iff] at hidle
          cases hidle.2
  | cancelled _ =>
      intro hidle
      rw [idle_iff] at hidle
      cases hidle.2

/-- **Every channel that is not disabled is retried**, in every run of the channels manager
    whose starts and restarts succeed. -/
theorem allRetried_of_respawnsSucceed (h : (life cfg).ReachableUnder RespawnsSucceed ch) :
    AllRetried ch := by
  refine h.invariant ?_ fun ch l ch' _ hI hguard hstep => step_allRetried hstep hguard hI
  rintro ch ⟨agentsHandle, rfl⟩ hidle
  rw [idle_iff] at hidle
  cases hidle.1

/-- An attempt that fails leaves its slot down, with nothing that retries it. -/
theorem retried_iff_of_crash {s : Fin c} {a : ChannelAnswers}
    (hstep : step cfg ch (.recvStream s a) = some ch') (hcrashes : ch.Crashes s)
    (hrestarts : ch.Restarts s a) : ch'.Retried s ↔ a.spawned = true ∧ a.initialized = true := by
  obtain ⟨_, htake⟩ := Option.ite_none_right_eq_some.mp hstep
  unfold takeStream at htake
  rw [hcrashes] at htake
  cases htake
  exact retried_handleChannelCrash_iff hrestarts

end ChannelsManager

/-! ### Both managers -/

/-- **Only a crash loop stops the retries of a subprocess**, in every run of the agents
    manager whose restarts stick, and of the channels manager whose starts and restarts
    succeed. -/
theorem retried_unless_disabled {n c : Nat} (acfg : AgentsManagerConfig n)
    (ccfg : ChannelsManagerConfig c) :
    (∀ m, (AgentsManager.life acfg).ReachableUnder (AgentsManager.RestartsStick acfg) m →
      AgentsManager.AllRetried acfg m) ∧
    ∀ ch, (ChannelsManager.life ccfg).ReachableUnder ChannelsManager.RespawnsSucceed ch →
      ChannelsManager.AllRetried ch :=
  ⟨fun _ => AgentsManager.allRetried_of_restartsStick,
    fun _ => ChannelsManager.allRetried_of_respawnsSucceed⟩

/-- An agent and a channel crash and come back. -/
theorem retried_unless_disabled_crashed :
    ∃ (m : AgentsManager 1) (ch : ChannelsManager 1),
      m.processes 0 = [0, 1] ∧ m.AllRetried Sample.cfg ∧
      ch.nextConnection = 2 ∧ ch.idle = true ∧ ch.AllRetried := by
  have hagents : ∃ m ∈ AgentsManager.execute Sample.cfg (AgentsManager.RestartsStick Sample.cfg)
      true ∅ Sample.boot (Sample.crash (Sample.answers "t")), m.processes 0 = [0, 1] := by
    decide
  have hchannels : ∃ ch ∈ (ChannelsManager.life Sample.channels).run
      ChannelsManager.RespawnsSucceed (ChannelsManager.fresh Sample.channels true)
      ([.start fun _ => Sample.channelAnswers "s"] ++
        Sample.channelCrash (Sample.channelAnswers "s")),
        ch.nextConnection = 2 ∧ ch.idle = true := by
    decide
  obtain ⟨m, hm, hprocesses⟩ := hagents
  obtain ⟨ch, hch, hnext, hidle⟩ := hchannels
  obtain ⟨hall, hall'⟩ := retried_unless_disabled Sample.cfg Sample.channels
  exact ⟨m, ch, hprocesses, hall m (AgentsManager.reachable_of_execute Sample.cfg hm), hnext,
    hidle, hall' ch (Machine.reachable_of_run _ ⟨true, rfl⟩ hch)⟩

/-- When no new process can be spawned after the first crash, nothing retries the slot: in
    the agents manager as in the channels manager. -/
theorem down_after_failed_respawn :
    (¬ ∀ m, (AgentsManager.life Sample.cfg).Reachable m →
      AgentsManager.AllRetried Sample.cfg m) ∧
    ¬ ∀ ch, (ChannelsManager.life Sample.channels).Reachable ch →
      ChannelsManager.AllRetried ch := by
  constructor
  · intro hall
    have hrun : ∃ m ∈ Sample.execute (Sample.crash { Sample.answers "t" with spawned := false }),
        m.running = true ∧ (m.slots 0).lifecycle.disabled = false ∧ m.incoming = [] ∧
          (m.slots 0).readerAlive = false := by
      decide
    obtain ⟨m, hm, hrunning, henabled, hincoming, hreader⟩ := hrun
    rcases hall m (AgentsManager.reachable_of_execute Sample.cfg hm) hrunning 0 henabled with
      hmem | ⟨halive, _⟩
    · rw [hincoming] at hmem
      cases hmem
    · rw [hreader] at halive
      cases halive
  · intro hall
    have hrun : ∃ ch ∈ (ChannelsManager.life Sample.channels).run (fun _ _ => True)
        (ChannelsManager.fresh Sample.channels true)
        ([.start fun _ => Sample.channelAnswers "s"] ++
          Sample.channelCrash { Sample.channelAnswers "s" with spawned := false }),
          ch.idle = true ∧ (ch.slots 0).lifecycle.disabled = false ∧
            (ch.slots 0).stream = none := by
      decide
    obtain ⟨ch, hch, hidle, henabled, hstream⟩ := hrun
    have hretried := hall ch (Machine.reachable_of_run _ ⟨true, rfl⟩ hch) hidle 0 henabled
    rw [ChannelsManager.Retried, hstream] at hretried
    cases hretried.2

end Anyclaw
