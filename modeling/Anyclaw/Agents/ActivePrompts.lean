import Anyclaw.Agents.Retries

/-!
# The active prompts of a slot

`active_prompts` decides who is told about a crash.  A prompt is entered when it is
written, and the table is emptied when the crash of its slot is told; nothing is removed
when a prompt ends.  The table agrees with the prompts that are outstanding as long as no
prompt ends that is the only one of its session, and no crash leaves its slot disabled
while there is someone to tell.

`prompt_session` (`commands.rs`) enters a prompt and `notify_crash_to_channels`
(`session_recovery.rs`) empties the table, both in `crates/anyclaw-agents/src`.
-/

namespace Anyclaw.AgentsManager

variable {n : Nat} (cfg : AgentsManagerConfig n) (m : AgentsManager n)

/-- The answer to `p` is awaited, and the process that has to answer is that of its slot. -/
def Outstanding (p : OutstandingPrompt n) : Prop :=
  p.awaited = true ∧ (m.slots p.slotIdx).connection = some ⟨p.connection⟩

instance (p : OutstandingPrompt n) : Decidable (m.Outstanding p) :=
  inferInstanceAs (Decidable (_ ∧ _))

def HasPrompt (s : Fin n) (id : AcpSessionId) : Prop :=
  ∃ p ∈ m.prompts, p.slotIdx = s ∧ p.acpSessionId = id ∧ m.Outstanding p

instance (s : Fin n) (id : AcpSessionId) : Decidable (m.HasPrompt s id) :=
  inferInstanceAs (Decidable (∃ p ∈ m.prompts, _))

/-- The active prompts of a slot are the sessions that have a prompt outstanding. -/
def Tracked : Prop :=
  ∀ s id, (m.slots s).activePrompts.contains id = true ↔ m.HasPrompt s id

def Doubled (p : OutstandingPrompt n) : Prop :=
  ∃ q ∈ m.prompts, q.no ≠ p.no ∧ q.slotIdx = p.slotIdx ∧ q.acpSessionId = p.acpSessionId ∧
    m.Outstanding q

instance (p : OutstandingPrompt n) : Decidable (m.Doubled p) :=
  inferInstanceAs (Decidable (∃ q ∈ m.prompts, _))

/-- Nobody has to be told about a crash of slot `s`. -/
def NoneAffected (s : Fin n) : Prop :=
  (m.slots s).sessionMap = ∅ ∧ (m.slots s).activePrompts = ∅

instance (s : Fin n) : Decidable (m.NoneAffected s) :=
  inferInstanceAs (Decidable (_ ∧ _))

def endedPrompt : Label n → Option Nat
  | .promptAnswered no _ => some no
  | .promptIdle no => some no
  | _ => none

/-- An outstanding prompt ends only while another one of its session is outstanding, and a
    crash that disables its slot affects nobody. -/
def KeepsTrack (l : Label n) : Prop :=
  (∀ no ∈ endedPrompt l, ∀ p ∈ m.prompts, p.no = no → m.Outstanding p → m.Doubled p) ∧
    ∀ x ∈ m.crash l, m.Restarts x.1 x.2 ∨ m.NoneAffected x.1

instance (l : Label n) : Decidable (KeepsTrack m l) :=
  inferInstanceAs (Decidable ((∀ no ∈ endedPrompt l, _) ∧ ∀ x ∈ m.crash l, _))

variable {cfg m} {m' : AgentsManager n} {l : Label n}

/-! ### Numbers of processes -/

/-- Processes are numbered in the order in which they are spawned. -/
structure Numbered (m : AgentsManager n) : Prop where
  prompts : ∀ p ∈ m.prompts, p.connection < m.nextConnection
  slots : ∀ s, ∀ conn ∈ (m.slots s).connection, conn.no < m.nextConnection

/-- The process of a slot is replaced by a new one only. -/
structure Succeeds (m m' : AgentsManager n) : Prop where
  connection : ∀ s, (m'.slots s).connection = (m.slots s).connection ∨
    (m'.slots s).connection = none ∨
      (m'.slots s).connection = some ⟨m.nextConnection⟩ ∧ m.nextConnection < m'.nextConnection
  nextConnection : m.nextConnection ≤ m'.nextConnection

theorem Linked.succeeds (h : Linked m m') (hnext : m'.nextConnection = m.nextConnection) :
    Succeeds m m' :=
  ⟨fun s => Or.inl (h.connection s), hnext.ge⟩

theorem Tracks.nextConnection (h : Tracks m m') : m'.nextConnection = m.nextConnection := by
  cases h with
  | kept _ _ hnext _ => exact hnext
  | prompted _ _ _ _ hnext _ => exact hnext

theorem ProcessStep.succeeds (h : ProcessStep cfg m l m') : Succeeds m m' := by
  have hrefl : ∀ m : AgentsManager n, Succeeds m m := fun m => ⟨fun _ => Or.inl rfl, le_rfl⟩
  cases h with
  | steady _ hlinked htracks => exact hlinked.succeeds htracks.nextConnection
  | unqueued hlinked _ _ _ _ hnext _ => exact hlinked.succeeds hnext
  | @permissionAnswered requestId optionId _ =>
      have hcalm := respondPermission_calm m requestId optionId
      exact hcalm.linked.succeeds hcalm.nextConnection
  | promptAnswered _ _ => exact ⟨fun _ => Or.inl rfl, le_rfl⟩
  | promptLost _ _ => exact ⟨fun _ => Or.inl rfl, le_rfl⟩
  | promptAbandoned _ _ => exact ⟨fun _ => Or.inl rfl, le_rfl⟩
  | queued _ => exact ⟨fun _ => Or.inl rfl, le_rfl⟩
  | @ended s _ =>
      refine ⟨fun s' => Or.inl ?_, le_rfl⟩
      rw [slots_modifySlot]
      split
      · rename_i hs
        rw [hs]
        rfl
      · rfl
  | @heard _ _ s msg rest _ _ =>
      have hcalm := handleIncoming_calm { m with incoming := rest } s msg
      exact ⟨fun s' => Or.inl (hcalm.linked.connection s'), hcalm.nextConnection.ge⟩
  | skipped _ _ => exact ⟨fun _ => Or.inl rfl, le_rfl⟩
  | @crashed _ a s rest _ _ _ =>
      have hcrash := handleCrash_process cfg { m with incoming := rest } s a
      have hnext := hcrash.nextConnection
      have hconn := hcrash.connection
      refine ⟨fun s' => ?_, ?_⟩
      · by_cases hs : s' = s
        · subst hs
          right
          split at hconn
          · rename_i hback
            have hcan : (m.slots s').CanRestart a := by
              rcases hback with hrestore | ⟨hrestart, _⟩
              · exact hrestore.1
              · exact hrestart
            refine Or.inr ⟨hconn, ?_⟩
            rw [hnext, if_pos ⟨hcan.1, hcan.2.1⟩]
            exact Nat.lt_succ_self _
          · exact Or.inl hconn
        · rw [hcrash.others s' hs]
          exact Or.inl rfl
      · rw [hnext]
        split
        · exact Nat.le_succ _
        · exact le_rfl
  | stopped _ _ => exact ⟨fun _ => Or.inr (Or.inl rfl), le_rfl⟩

/-- A process that is not the one of its slot will not be again. -/
theorem Succeeds.gone (h : Succeeds m m') {s : Fin n} {no : Nat} (hlt : no < m.nextConnection)
    (hgone : (m.slots s).connection ≠ some ⟨no⟩) : (m'.slots s).connection ≠ some ⟨no⟩ := by
  intro hconn
  rcases h.connection s with hsame | hnone | ⟨hnew, _⟩
  · exact hgone (hsame.symm.trans hconn)
  · rw [hnone] at hconn
    cases hconn
  · rw [hnew] at hconn
    cases hconn
    exact Nat.lt_irrefl _ hlt

/-- `p` is the prompt `p₀`, which may not be awaited any more. -/
structure Continues (p₀ p : OutstandingPrompt n) : Prop where
  no : p₀.no = p.no
  slotIdx : p₀.slotIdx = p.slotIdx
  connection : p₀.connection = p.connection
  sessionKey : p₀.sessionKey = p.sessionKey
  same : p.awaited = true → p₀ = p

theorem Continues.refl (p : OutstandingPrompt n) : Continues p p :=
  ⟨rfl, rfl, rfl, rfl, fun _ => rfl⟩

/-- The prompts after a step: those that were there, or a new one for the process of its
    slot. -/
theorem ProcessStep.prompts (h : ProcessStep cfg m l m') :
    ∀ p ∈ m'.prompts, (∃ p₀ ∈ m.prompts, Continues p₀ p) ∨
      (m.slots p.slotIdx).connection = some ⟨p.connection⟩ := by
  have hsame : m'.prompts = m.prompts → ∀ p ∈ m'.prompts, (∃ p₀ ∈ m.prompts, Continues p₀ p) ∨
      (m.slots p.slotIdx).connection = some ⟨p.connection⟩ := by
    intro heq p hp
    rw [heq] at hp
    exact Or.inl ⟨p, hp, .refl p⟩
  have happended : ∀ {q : OutstandingPrompt n}, m'.prompts = m.prompts ++ [q] →
      (m.slots q.slotIdx).connection = some ⟨q.connection⟩ →
      ∀ p ∈ m'.prompts, (∃ p₀ ∈ m.prompts, Continues p₀ p) ∨
        (m.slots p.slotIdx).connection = some ⟨p.connection⟩ := by
    intro q heq hconn p hp
    rw [heq] at hp
    rcases List.mem_append.mp hp with hmem | hnew
    · exact Or.inl ⟨p, hmem, .refl p⟩
    · rw [List.mem_singleton.mp hnew]
      exact Or.inr hconn
  cases h with
  | steady _ _ htracks =>
      cases htracks with
      | kept _ hprompts _ _ => exact hsame hprompts
      | prompted _ hconn hprompts _ _ _ => exact happended hprompts hconn
  | unqueued _ _ hconn hprompts _ _ _ => exact happended hprompts hconn
  | @permissionAnswered requestId optionId _ =>
      exact hsame (respondPermission_calm m requestId optionId).prompts
  | promptAnswered _ _ => exact fun p hp => Or.inl ⟨p, (List.mem_filter.mp hp).1, .refl p⟩
  | promptLost _ _ => exact fun p hp => Or.inl ⟨p, (List.mem_filter.mp hp).1, .refl p⟩
  | promptAbandoned _ _ =>
      intro p hp
      obtain ⟨p₀, hp₀, rfl⟩ := List.mem_map.mp hp
      refine Or.inl ⟨p₀, hp₀, ?_⟩
      split
      · exact ⟨rfl, rfl, rfl, rfl, nofun⟩
      · exact .refl p₀
  | queued _ => exact hsame rfl
  | ended _ => exact hsame rfl
  | @heard _ _ s msg rest _ _ =>
      exact hsame (handleIncoming_calm { m with incoming := rest } s msg).prompts
  | skipped _ _ => exact hsame rfl
  | @crashed _ a s rest _ _ _ =>
      exact hsame (handleCrash_spoken cfg { m with incoming := rest } s a).prompts
  | stopped _ _ => exact hsame rfl

theorem ProcessStep.numbered (h : ProcessStep cfg m l m') (hnumbered : Numbered m) :
    Numbered m' := by
  have hsucceeds := h.succeeds
  refine ⟨fun p hp => ?_, fun s conn hconn => ?_⟩
  · rcases h.prompts p hp with ⟨p₀, hp₀, hcontinues⟩ | hconn
    · rw [← hcontinues.connection]
      exact Nat.lt_of_lt_of_le (hnumbered.prompts p₀ hp₀) hsucceeds.nextConnection
    · exact Nat.lt_of_lt_of_le (hnumbered.slots p.slotIdx _ hconn) hsucceeds.nextConnection
  · rcases hsucceeds.connection s with hsame | hnone | ⟨hnew, hlt⟩
    · rw [hsame] at hconn
      exact Nat.lt_of_lt_of_le (hnumbered.slots s conn hconn) hsucceeds.nextConnection
    · rw [hnone] at hconn
      cases hconn
    · rw [hnew] at hconn
      cases hconn
      exact hlt

theorem numbered_of_reachable (h : (life cfg).Reachable m) : Numbered m := by
  refine h.invariant ?_ ?_
  · intro m hinit
    obtain ⟨_, _, hbacklog⟩ := life_init hinit
    obtain ⟨sender, store, b, hstart⟩ := hinit
    have hprompts : m.prompts = [] := congrArg Backlog.prompts hbacklog
    refine ⟨fun p hp => ?_, fun s conn hconn => ?_⟩
    · rw [hprompts] at hp
      cases hp
    · obtain ⟨conn', hconn', hlt⟩ := (start_up hstart s).connected
      rw [hconn'] at hconn
      cases hconn
      exact hlt
  · intro m l m' hreach hI _ hstep
    exact (step_processes (orderly_of_reachable hreach).plain hstep).numbered hI

/-! ### Steps -/

theorem Tracked.congr (h : Tracked m)
    (hactive : ∀ s, (m'.slots s).activePrompts = (m.slots s).activePrompts)
    (hprompts : m'.prompts = m.prompts)
    (hconn : ∀ s, (m'.slots s).connection = (m.slots s).connection) : Tracked m' := by
  intro s id
  unfold HasPrompt Outstanding
  simp only [hactive, hprompts, hconn]
  exact h s id

/-- A prompt is entered when it is written. -/
theorem Tracked.prompted (h : Tracked m) {p : OutstandingPrompt n} (hp : m.Outstanding p)
    (hactive : ∀ s, (m'.slots s).activePrompts =
      if s = p.slotIdx then (m.slots s).activePrompts.set p.acpSessionId p.no
      else (m.slots s).activePrompts)
    (hprompts : m'.prompts = m.prompts ++ [p])
    (hconn : ∀ s, (m'.slots s).connection = (m.slots s).connection) : Tracked m' := by
  have hhas : ∀ s id, m'.HasPrompt s id ↔
      m.HasPrompt s id ∨ p.slotIdx = s ∧ p.acpSessionId = id := by
    intro s id
    unfold HasPrompt Outstanding
    simp only [hprompts, hconn]
    constructor
    · rintro ⟨q, hq, hslot, hid, hout⟩
      rcases List.mem_append.mp hq with hmem | hnew
      · exact Or.inl ⟨q, hmem, hslot, hid, hout⟩
      · rw [List.mem_singleton.mp hnew] at hslot hid
        exact Or.inr ⟨hslot, hid⟩
    · rintro (⟨q, hq, hslot, hid, hout⟩ | ⟨hslot, hid⟩)
      · exact ⟨q, List.mem_append_left _ hq, hslot, hid, hout⟩
      · exact ⟨p, List.mem_append_right _ (List.mem_singleton_self p), hslot, hid, hp⟩
  intro s id
  rw [hhas, hactive]
  by_cases hs : s = p.slotIdx
  · subst hs
    rw [if_pos rfl, KeyedMap.contains, KeyedMap.get?_set]
    by_cases hid : id = p.acpSessionId
    · rw [if_pos hid]
      exact ⟨fun _ => Or.inr ⟨rfl, hid.symm⟩, fun _ => rfl⟩
    · rw [if_neg hid]
      refine (h p.slotIdx id).trans ⟨Or.inl, ?_⟩
      rintro (hold | ⟨_, heq⟩)
      · exact hold
      · exact absurd heq.symm hid
  · rw [if_neg hs]
    refine (h s id).trans ⟨Or.inl, ?_⟩
    rintro (hold | ⟨heq, _⟩)
    · exact hold
    · exact absurd heq.symm hs

/-- **Nothing is removed when a prompt ends**: the table is right afterwards if and only if
    the prompt was not outstanding, or another one of its session still is. -/
theorem Tracked.ended_iff (h : Tracked m) {p : OutstandingPrompt n} (hp : p ∈ m.prompts)
    (hunique : ∀ q ∈ m.prompts, q.no = p.no → q = p) (hslots : m'.slots = m.slots)
    (hprompts : ∀ q, q.awaited = true → (q ∈ m'.prompts ↔ q ∈ m.prompts ∧ q.no ≠ p.no)) :
    Tracked m' ↔ (m.Outstanding p → m.Doubled p) := by
  have hout : ∀ q, m'.Outstanding q ↔ m.Outstanding q := by
    intro q
    unfold Outstanding
    rw [hslots]
  constructor
  · intro htracked hpout
    have hcontains := (h p.slotIdx p.acpSessionId).mpr ⟨p, hp, rfl, rfl, hpout⟩
    rw [← hslots] at hcontains
    obtain ⟨q, hq, hslot, hid, hqout⟩ := (htracked p.slotIdx p.acpSessionId).mp hcontains
    rw [hout] at hqout
    obtain ⟨hmem, hne⟩ := (hprompts q hqout.1).mp hq
    exact ⟨q, hmem, hne, hslot, hid, hqout⟩
  · intro hdoubled s id
    rw [hslots, h s id]
    constructor
    · rintro ⟨q, hq, hslot, hid, hqout⟩
      by_cases hno : q.no = p.no
      · have hqp := hunique q hq hno
        subst hqp
        obtain ⟨q', hq', hne, hslot', hid', hout'⟩ := hdoubled hqout
        exact ⟨q', (hprompts q' hout'.1).mpr ⟨hq', hne⟩, hslot'.trans hslot, hid'.trans hid,
          (hout q').mpr hout'⟩
      · exact ⟨q, (hprompts q hqout.1).mpr ⟨hq, hno⟩, hslot, hid, (hout q).mpr hqout⟩
    · rintro ⟨q, hq, hslot, hid, hqout⟩
      rw [hout] at hqout
      exact ⟨q, ((hprompts q hqout.1).mp hq).1, hslot, hid, hqout⟩

theorem Tracked.endPrompt_iff (h : Tracked m) {p : OutstandingPrompt n} (hp : p ∈ m.prompts)
    (hunique : ∀ q ∈ m.prompts, q.no = p.no → q = p) (c : PromptCompletion) :
    Tracked (m.endPrompt p c) ↔ (m.Outstanding p → m.Doubled p) := by
  refine h.ended_iff hp hunique rfl fun q _ => ?_
  unfold endPrompt
  rw [List.mem_filter, bne_iff_ne]

theorem Tracked.abandonPrompt_iff (h : Tracked m) {p : OutstandingPrompt n}
    (hp : p ∈ m.prompts) (hunique : ∀ q ∈ m.prompts, q.no = p.no → q = p)
    (c : PromptCompletion) :
    Tracked (m.abandonPrompt p c) ↔ (m.Outstanding p → m.Doubled p) := by
  refine h.ended_iff hp hunique rfl fun q hq => ?_
  unfold abandonPrompt
  rw [List.mem_map]
  constructor
  · rintro ⟨q₀, hq₀, rfl⟩
    split at hq
    · cases hq
    · rename_i hne
      rw [if_neg hne]
      exact ⟨hq₀, hne⟩
  · rintro ⟨hmem, hne⟩
    exact ⟨q, hmem, if_neg hne⟩

/-- The crash of slot `s` empties its table, or finds it empty. -/
theorem Tracked.crashed (h : Tracked m) (hnumbered : Numbered m) {s : Fin n} {a : Answers}
    {rest : List (SlotIncoming n)} (hguard : m.Restarts s a ∨ m.NoneAffected s) :
    Tracked (handleCrash cfg { m with incoming := rest } s a) := by
  have hcrash := handleCrash_process cfg { m with incoming := rest } s a
  have hprompts : (handleCrash cfg { m with incoming := rest } s a).prompts = m.prompts :=
    (handleCrash_spoken cfg { m with incoming := rest } s a).prompts
  intro s' id
  by_cases hs : s' = s
  · subst hs
    have hempty : ((handleCrash cfg { m with incoming := rest } s' a).slots s').activePrompts =
        ∅ := by
      rw [hcrash.active]
      split
      · rfl
      · rename_i hdisabled
        exact (hguard.resolve_left hdisabled).2
    rw [hempty]
    refine ⟨nofun, ?_⟩
    rintro ⟨p, hp, rfl, _, _, hconn⟩
    rw [hprompts] at hp
    rw [hcrash.connection] at hconn
    split at hconn
    · have hlt := hnumbered.prompts p hp
      rw [Option.some_inj, AgentConnection.mk.injEq] at hconn
      exact absurd hlt (Nat.not_lt.mpr hconn.le)
    · cases hconn
  · have hother := hcrash.others s' hs
    rw [hother]
    refine (h s' id).trans ?_
    unfold HasPrompt Outstanding
    rw [hprompts]
    constructor
    · rintro ⟨p, hp, rfl, hid, hout⟩
      rw [← hother] at hout
      exact ⟨p, hp, rfl, hid, hout⟩
    · rintro ⟨p, hp, rfl, hid, hout⟩
      rw [hother] at hout
      exact ⟨p, hp, rfl, hid, hout⟩

/-- The manager goes on, or it stops between two events. -/
theorem ProcessStep.running (h : ProcessStep cfg m l m') :
    m'.running = m.running ∨ m.idle = true ∧ m' = m.shutdown := by
  cases h with
  | steady _ _ htracks => exact Or.inl htracks.running
  | unqueued _ _ _ _ _ _ hrunning => exact Or.inl hrunning
  | @permissionAnswered requestId optionId _ =>
      exact Or.inl (respondPermission_calm m requestId optionId).running
  | promptAnswered _ _ => exact Or.inl rfl
  | promptLost _ _ => exact Or.inl rfl
  | promptAbandoned _ _ => exact Or.inl rfl
  | queued _ => exact Or.inl rfl
  | ended _ => exact Or.inl rfl
  | @heard _ _ s msg rest _ _ =>
      exact Or.inl (handleIncoming_calm { m with incoming := rest } s msg).running
  | skipped _ _ => exact Or.inl rfl
  | @crashed _ a s rest _ _ _ =>
      exact Or.inl (handleCrash_spoken cfg { m with incoming := rest } s a).running
  | stopped _ hidle => exact Or.inr ⟨hidle, rfl⟩

theorem ProcessStep.was_running (h : ProcessStep cfg m l m') (hruns : m'.running = true) :
    m.running = true := by
  rcases h.running with hsame | ⟨_, rfl⟩
  · exact hsame.symm.trans hruns
  · cases hruns

/-- A completion is taken up by one label only. -/
theorem Effect.completing {b : Backlog n} (h : Effect cfg m l b)
    (hsome : b.completing.isSome = true) : m.completing.isSome = true ∨ l = .recvCompletion := by
  cases h with
  | talked htalk =>
      obtain ⟨os, ks, rfl, _⟩ := htalk.talks
      exact Or.inl hsome
  | taken _ _ => exact Or.inr rfl
  | finished _ _ _ => cases hsome
  | redispatched _ _ _ _ _ => cases hsome
  | lost _ _ _ _ _ => cases hsome
  | _ => exact Or.inl hsome

/-- A manager that is handling a completion has not stopped. -/
theorem running_of_completing (h : (life cfg).Reachable m) (hsome : m.completing.isSome = true) :
    m.running = true := by
  refine h.invariant (I := fun m => m.completing.isSome = true → m.running = true) ?_ ?_ hsome
  · intro m hinit hsome
    obtain ⟨_, _, hbacklog⟩ := life_init hinit
    have hnone : m.completing = none := congrArg Backlog.completing hbacklog
    rw [hnone] at hsome
    cases hsome
  · intro m l m' hreach hI _ hstep hsome
    have hplain := (orderly_of_reachable hreach).plain
    rcases (step_processes hplain hstep).running with hsame | ⟨hidle, rfl⟩
    · rw [hsame]
      rcases (step_advances hplain hstep).effect.completing hsome with hold | rfl
      · exact hI hold
      · have hturn : step cfg m .recvCompletion = some m' := hstep
        cases turn_of_step cfg m hturn with
        | recvCompletion hidle _ => exact ((idle_iff m).mp hidle).1
    · have hnone : m.shutdown.completing = none := ((idle_iff m).mp hidle).2
      rw [hnone] at hsome
      cases hsome

theorem ProcessStep.tracked (h : ProcessStep cfg m l m') (hticketed : m.backlog.Ticketed)
    (hnumbered : Numbered m) (hguard : KeepsTrack m l) (htracked : Tracked m)
    (hruns : m'.running = true) : Tracked m' := by
  have hunique : ∀ {p : OutstandingPrompt n}, p ∈ m.prompts →
      ∀ q ∈ m.prompts, q.no = p.no → q = p :=
    fun hp q hq hno => hticketed.unique hq hp hno
  have hdoubled : ∀ {p : OutstandingPrompt n}, p ∈ m.prompts → endedPrompt l = some p.no →
      m.Outstanding p → m.Doubled p :=
    fun hp hl hout => hguard.1 _ hl _ hp rfl hout
  cases h with
  | steady _ hlinked htracks =>
      cases htracks with
      | kept hstatus hprompts _ _ =>
          exact htracked.congr (fun s => congrArg SlotStatus.activePrompts (hstatus s)) hprompts
            hlinked.connection
      | prompted hawaited hconn hprompts hstatus _ _ =>
          refine htracked.prompted ⟨hawaited, hconn⟩ (fun s => ?_) hprompts hlinked.connection
          have hslot := congrArg SlotStatus.activePrompts (hstatus s)
          rw [AgentSlot.status_activePrompts] at hslot
          rw [hslot]
          split <;> rfl
  | @unqueued _ _ p _ hlinked hawaited _ hprompts hslots _ _ =>
      intro s id
      rw [hslots, htracked s id]
      unfold HasPrompt Outstanding
      simp only [hprompts, hslots]
      constructor
      · rintro ⟨q, hq, hrest⟩
        exact ⟨q, List.mem_append_left _ hq, hrest⟩
      · rintro ⟨q, hq, hrest⟩
        rcases List.mem_append.mp hq with hmem | hnew
        · exact ⟨q, hmem, hrest⟩
        · rw [List.mem_singleton.mp hnew, hawaited] at hrest
          exact nomatch hrest.2.2.1
  | @permissionAnswered requestId optionId _ =>
      have hcalm := respondPermission_calm m requestId optionId
      exact htracked.congr hcalm.active hcalm.prompts hcalm.linked.connection
  | promptAnswered hp _ =>
      exact (htracked.endPrompt_iff hp (hunique hp) _).mpr (hdoubled hp rfl)
  | promptLost hp hconn =>
      exact (htracked.endPrompt_iff hp (hunique hp) _).mpr fun hout => absurd hout.2 hconn
  | promptAbandoned hp _ =>
      exact (htracked.abandonPrompt_iff hp (hunique hp) _).mpr (hdoubled hp rfl)
  | queued _ => exact htracked
  | @ended s _ =>
      refine htracked.congr (fun s' => ?_) rfl fun s' => ?_
      all_goals
        rw [slots_modifySlot]
        split
        · rename_i hs
          rw [hs]
          rfl
        · rfl
  | @heard _ _ s msg rest _ _ =>
      have hcalm := handleIncoming_calm { m with incoming := rest } s msg
      exact htracked.congr hcalm.active hcalm.prompts hcalm.linked.connection
  | skipped _ _ => exact htracked
  | @crashed _ a s rest hl hincoming henabled =>
      exact htracked.crashed hnumbered
        (hguard.2 (s, a) (crash_of_receives hl hincoming henabled))
  | stopped _ _ => cases hruns

/-- The table is right in every run in which no outstanding prompt ends that is the only
    one of its session, and in which a crash that disables its slot affects nobody. -/
theorem tracked_of_keepsTrack (h : (life cfg).ReachableUnder KeepsTrack m)
    (hruns : m.running = true) : Tracked m := by
  refine h.invariant (I := fun m => m.running = true → Tracked m) ?_ ?_ hruns
  · intro m hinit _ s id
    obtain ⟨_, _, hbacklog⟩ := life_init hinit
    obtain ⟨sender, store, b, hstart⟩ := hinit
    have hprompts : m.prompts = [] := congrArg Backlog.prompts hbacklog
    have hactive := congrArg SlotStatus.activePrompts ((start_boots cfg _ b hstart).2 s)
    rw [AgentSlot.status_activePrompts] at hactive
    rw [hactive]
    refine ⟨nofun, ?_⟩
    rintro ⟨p, hp, _⟩
    rw [hprompts] at hp
    cases hp
  · intro m l m' hreach hI hguard hstep hruns'
    have horderly := orderly_of_reachable hreach.reachable
    have hprocess := step_processes horderly.plain hstep
    exact hprocess.tracked horderly.ticketed (numbered_of_reachable hreach.reachable) hguard
      (hI (hprocess.was_running hruns')) hruns'

end Anyclaw.AgentsManager
