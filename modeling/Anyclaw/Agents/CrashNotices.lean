import Anyclaw.Agents.ActivePrompts
import Anyclaw.Agents.History
import Anyclaw.Agents.Serialization
import Anyclaw.Agents.Tickets

/-!
# Who is told about a crash

A session that has a prompt outstanding when its process crashes gets the error result of
that prompt; every other live session of the slot gets a crash notice.  The first part is
about what becomes of a prompt, so it is stated over recorded runs: the completion of a
lost prompt is finished once, and sends one error result when it is.

`notify_crash_to_channels` (`crates/anyclaw-agents/src/session_recovery.rs`) sends the notices
and leaves out the sessions that it finds in `active_prompts`; `handle_prompt_completion`
(`incoming.rs`) sends the error results.
-/

namespace Anyclaw.AgentsManager

variable {n : Nat} {cfg : AgentsManagerConfig n} {m m' : AgentsManager n} {l : Label n}
  {b : Backlog n}

/-! ### The prompts that a crash loses -/

/-- The step handles the crash of the slot that has `p` outstanding. -/
def Loses (t : Machine.Taken (AgentsManager n) (Label n)) (p : OutstandingPrompt n) : Prop :=
  ∃ y ∈ t.before.crash t.label, p.slotIdx = y.1 ∧ t.before.Outstanding p

instance (t : Machine.Taken (AgentsManager n) (Label n)) (p : OutstandingPrompt n) :
    Decidable (Loses t p) :=
  inferInstanceAs (Decidable (∃ y ∈ t.before.crash t.label, _))

def finishesPrompt (no : Nat) (t : Machine.Taken (AgentsManager n) (Label n)) : Bool :=
  (t.before.finishing t.label).any fun c => c.prompt == no

/-- How often the prompt `no` has been finished, or will be. -/
def accounts (x : History n) (no : Nat) : Nat :=
  x.1.countP (finishesPrompt no) + (x.2.backlog.tickets.map Prod.snd).count no

/-- The prompt `p` is finished once, and gets one error result when it is. -/
structure ErrorOnce (x : History n) (p : OutstandingPrompt n) : Prop where
  once : accounts x p.no = 1
  error : ∀ t ∈ x.1, finishesPrompt p.no t = true → t.before.channelsSender = true →
    errorsSent t.before t.after p.sessionKey = 1

def Awaits (m : AgentsManager n) (s : Fin n) (id : AcpSessionId) (p : OutstandingPrompt n) :
    Prop :=
  p ∈ m.prompts ∧ p.slotIdx = s ∧ p.acpSessionId = id ∧ m.Outstanding p

/-- Who is told about the crash of slot `s` that the step `t` handles: every live session
    without an outstanding prompt once, at once; every session with an outstanding prompt
    once, when that prompt is finished. -/
structure CrashNotified (x : History n) (t : Machine.Taken (AgentsManager n) (Label n))
    (s : Fin n) : Prop where
  idle : t.before.channelsSender = true → ∀ k, errorsSent t.before t.after k =
    if ∃ id ∈ (t.before.slots s).sessionMap.get? k, ¬ t.before.HasPrompt s id then 1 else 0
  prompted : ∀ id, t.before.HasPrompt s id →
    ∃ p, Awaits t.before s id p ∧ (∀ q, Awaits t.before s id q → q = p) ∧ ErrorOnce x p

/-! ### Accounts -/

theorem Effect.nextPrompt_le (h : Effect cfg m l b) (hticketed : m.backlog.Ticketed) :
    m.nextPrompt ≤ b.nextPrompt := by
  obtain ⟨_, _, hle, _⟩ := h.tickets hticketed
  exact hle

/-- A step changes no account but that of the prompt that it numbers. -/
theorem Effect.accounts {steps : List (Machine.Taken (AgentsManager n) (Label n))}
    (h : Effect cfg m l m'.backlog) (hticketed : m.backlog.Ticketed) (no : Nat) :
    AgentsManager.accounts (steps ++ [⟨m, l, m'⟩], m') no = AgentsManager.accounts (steps, m) no ∨
      no = m.nextPrompt ∧ m'.nextPrompt = m.nextPrompt + 1 ∧
        AgentsManager.accounts (steps ++ [⟨m, l, m'⟩], m') no =
          AgentsManager.accounts (steps, m) no + 1 := by
  obtain ⟨new, hnew, _, hperm⟩ := h.tickets hticketed
  have hcount := (hperm.map Prod.snd).count_eq no
  rw [List.map_append, List.map_append, List.count_append, List.count_append,
    List.map_map] at hcount
  have hlast : [(⟨m, l, m'⟩ : Machine.Taken (AgentsManager n) (Label n))].countP
      (finishesPrompt no) =
        ((m.finishing l).toList.map (Prod.snd ∘ PromptCompletion.ticket)).count no := by
    rw [List.countP_singleton]
    unfold finishesPrompt
    dsimp only
    cases m.finishing l with
    | none => rfl
    | some c => simp [List.count_singleton, PromptCompletion.ticket]
  unfold AgentsManager.accounts
  dsimp only
  rw [List.countP_append, hlast]
  rcases hnew with rfl | ⟨⟨k, rfl⟩, hnext⟩
  · rw [List.map_nil, List.count_nil] at hcount
    left
    omega
  · rw [List.map_singleton] at hcount
    by_cases hno : m.nextPrompt = no
    · subst hno
      rw [List.count_singleton_self] at hcount
      right
      refine ⟨rfl, hnext, ?_⟩
      omega
    · rw [List.count_singleton, if_neg (by simpa using hno)] at hcount
      left
      omega

structure Accounted (x : History n) : Prop where
  once : ∀ no, accounts x no ≤ 1
  fresh : ∀ no, x.2.nextPrompt ≤ no → accounts x no = 0

theorem accounted_of_reachable {x : History n} (h : (life cfg).recorded.Reachable x) :
    Accounted x := by
  refine h.invariant ?_ ?_
  · rintro ⟨steps, m⟩ ⟨hsteps, hinit⟩
    obtain ⟨_, _, hbacklog⟩ := life_init hinit
    dsimp only at hsteps hbacklog
    have hzero : ∀ no, accounts (steps, m) no = 0 := by
      intro no
      unfold accounts
      dsimp only
      rw [hsteps, hbacklog]
      rfl
    exact ⟨fun no => (hzero no).trans_le (Nat.zero_le 1), fun no _ => hzero no⟩
  · rintro ⟨steps, m⟩ l ⟨steps', m'⟩ hreach hI _ hstep
    obtain ⟨hs, hsteps⟩ := Machine.of_recorded_step hstep
    dsimp only at hs hsteps
    subst hsteps
    have horderly := orderly_of_reachable (hreach.of_recorded fun _ _ _ => trivial)
    have heffect := (step_advances horderly.plain hs).effect
    have hle : m.nextPrompt ≤ m'.nextPrompt := heffect.nextPrompt_le horderly.ticketed
    refine ⟨fun no => ?_, fun no hno => ?_⟩
    · rcases heffect.accounts horderly.ticketed no with hsame | ⟨rfl, _, hnew⟩
      · rw [hsame]
        exact hI.once no
      · rw [hnew, hI.fresh m.nextPrompt le_rfl]
    · rcases heffect.accounts horderly.ticketed no with hsame | ⟨rfl, hnext, _⟩
      · rw [hsame]
        exact hI.fresh no (hle.trans hno)
      · dsimp only at hno
        rw [hnext] at hno
        exact absurd hno (Nat.not_succ_le_self _)

/-! ### What is sent -/

/-- The completion of a failed prompt sends one error result, unless a result of the agent
    was forwarded. -/
theorem errorsSent_finish {a : Answers} {c : PromptCompletion} (hplain : m.backlog.Plain)
    (hstep : step cfg m (.finishCompletion a) = some m') (hc : m.completing = some c)
    (hfailed : c.errorMessage.isSome = true) (hsender : m.channelsSender = true)
    (hnone : c.sessionKey ∉ m.streamingCompleted) : errorsSent m m' c.sessionKey = 1 := by
  obtain ⟨message, hmessage⟩ := Option.isSome_iff_exists.mp hfailed
  have hadvances := step_advances hplain hstep
  obtain ⟨d, os, hd, hsaid, hos⟩ := hadvances.effect.closes
    (show m.finishing (.finishCompletion a) = some c from hc)
  unfold Closes at hd
  rw [hmessage] at hd
  subst hd
  have hrest : (os.filterMap Output.sentEvent).countP (ChannelEvent.isErrorFor c.sessionKey) =
      0 := by
    refine List.countP_eq_zero.mpr fun e he => ?_
    obtain ⟨o, ho, hsent⟩ := List.mem_filterMap.mp he
    rcases hos o ho with ⟨k, rfl⟩ | ⟨p, parts, origin, rfl, _⟩
    · cases hsent
      exact Bool.false_ne_true
    · cases hsent
  rw [List.append_assoc] at hsaid
  unfold errorsSent
  rw [sent_of_messages hadvances.trace hsaid, List.filterMap_append, sentEvent_told m _ hsender,
    List.countP_append, hrest, closing, if_neg hnone]
  simp [ChannelEvent.isErrorFor, Delivered.isErrorResult]

/-- The notices of a crash. -/
theorem errorsSent_crash {s : Fin n} {a : Answers} {rest : List (SlotIncoming n)}
    (hsender : m.channelsSender = true) (k : SessionKey) :
    errorsSent m (handleCrash cfg { m with incoming := rest } s a) k =
      if m.Restarts s a ∧ ((m.slots s).sessionMap.get? k).any
        fun id => !(m.slots s).activePrompts.contains id then 1 else 0 := by
  have hspoken := handleCrash_spoken cfg { m with incoming := rest } s a
  have hmessages : (handleCrash cfg { m with incoming := rest } s a).backlog.messages =
      m.backlog.messages ++ crashOutputs cfg m s a := hspoken.trace.messages
  have htrace : m.trace <+: (handleCrash cfg { m with incoming := rest } s a).trace :=
    hspoken.extends
  unfold errorsSent
  rw [sent_of_messages htrace hmessages]
  unfold crashOutputs
  by_cases hrestarts : m.Restarts s a
  · have hspawns : (m.spawns s a).filterMap Output.sentEvent = [] := by
      unfold spawns
      split <;> rfl
    rw [if_pos hrestarts, List.filterMap_append, sentEvent_told m _ hsender, hspawns,
      List.append_nil]
    unfold crashNotices
    have hentries := KeyedMap.countP_entries (m.slots s).sessionMap
      (fun id => !(m.slots s).activePrompts.contains id) k
    dsimp only
    rw [List.countP_map, List.countP_filter]
    simp only [hrestarts, true_and]
    rw [← hentries]
    refine List.countP_congr fun e _ => ?_
    simp [ChannelEvent.isErrorFor, Delivered.isErrorResult]
  · rw [if_neg hrestarts, if_neg fun h => hrestarts h.1]
    rfl

/-! ### Prompts and completions after a step -/

theorem Effect.prompts (h : Effect cfg m l b) :
    ∀ q ∈ b.prompts, (∃ q₀ ∈ m.prompts, Continues q₀ q) ∨ q.no = m.nextPrompt := by
  have hsame : ∀ q ∈ m.prompts, (∃ q₀ ∈ m.prompts, Continues q₀ q) ∨ q.no = m.nextPrompt :=
    fun q hq => Or.inl ⟨q, hq, .refl q⟩
  have hadded : ∀ {p : OutstandingPrompt n}, p.no = m.nextPrompt → ∀ q ∈ m.prompts ++ [p],
      (∃ q₀ ∈ m.prompts, Continues q₀ q) ∨ q.no = m.nextPrompt := by
    intro p hno q hq
    rcases List.mem_append.mp hq with hold | hnew
    · exact hsame q hold
    · rw [List.mem_singleton.mp hnew]
      exact Or.inr hno
  cases h with
  | talked htalk =>
      obtain ⟨os, ks, rfl, _⟩ := htalk.talks
      exact hsame
  | unqueued hno _ => exact hadded hno
  | dispatched _ _ _ hp => exact hadded hp.no
  | redispatched _ _ _ _ hp => exact hadded hp.no
  | ended _ _ => exact fun q hq => hsame q (List.mem_filter.mp hq).1
  | abandoned _ _ =>
      intro q hq
      obtain ⟨q₀, hq₀, rfl⟩ := List.mem_map.mp hq
      refine Or.inl ⟨q₀, hq₀, ?_⟩
      split
      · exact ⟨rfl, rfl, rfl, rfl, nofun⟩
      · exact .refl q₀
  | _ => exact hsame

theorem Effect.pending (h : Effect cfg m l b) :
    ∀ c ∈ b.pending, c ∈ m.backlog.pending ∨ ∃ p ∈ m.prompts,
      Ends m l p c ∨ c = errorCompletion p (idleMessage cfg) true := by
  have hdone : ∀ c ∈ (m.backlog.complete none m.completions).pending,
      c ∈ m.backlog.pending ∨ ∃ p ∈ m.prompts,
        Ends m l p c ∨ c = errorCompletion p (idleMessage cfg) true :=
    fun c hc => Or.inl (List.mem_append_right _ hc)
  cases h with
  | talked htalk =>
      obtain ⟨os, ks, rfl, _⟩ := htalk.talks
      exact fun c hc => Or.inl hc
  | ended hp hends =>
      intro c hc
      rcases Backlog.mem_pending_endPrompt hc with hold | ⟨_, rfl⟩
      · exact Or.inl hold
      · exact Or.inr ⟨_, hp, Or.inl hends⟩
  | abandoned hp _ =>
      intro c hc
      rcases Backlog.mem_pending_abandon hc with hold | rfl
      · exact Or.inl hold
      · exact Or.inr ⟨_, hp, Or.inr rfl⟩
  | taken hidle hc =>
      intro c' hc'
      refine Or.inl ?_
      rw [Backlog.pending, backlog_completing, backlog_completions, hidle, hc]
      exact hc'
  | finished _ _ _ => exact hdone
  | redispatched _ _ _ _ _ => exact hdone
  | lost _ _ _ _ _ => exact hdone
  | _ => exact fun c hc => Or.inl hc

/-! ### Runs -/

/-- Outstanding prompts end only as in `KeepsTrack`; a crash finds at most one outstanding
    prompt of a session; and when the completion of a prompt that a crash has lost is
    finished, no result was forwarded to its key. -/
def NotifiesAll (x : History n) (l : Label n) : Prop :=
  KeepsTrack x.2 l ∧
    (∀ y ∈ x.2.crash l, ∀ p ∈ x.2.prompts, p.slotIdx = y.1 → x.2.Outstanding p →
      ¬ x.2.Doubled p) ∧
    ∀ c ∈ x.2.finishing l, (∃ t ∈ x.1, ∃ p ∈ t.before.prompts, Loses t p ∧ p.no = c.prompt) →
      c.sessionKey ∉ x.2.streamingCompleted

instance (x : History n) (l : Label n) : Decidable (NotifiesAll x l) :=
  inferInstanceAs (Decidable (_ ∧ (∀ y ∈ x.2.crash l, ∀ p ∈ x.2.prompts, _ → _ → _) ∧
    ∀ c ∈ x.2.finishing l, _))

/-- What is known of a prompt `p` that a crash has lost, until it is finished. -/
structure Doomed (x : History n) (p : OutstandingPrompt n) : Prop where
  number : p.no < x.2.nextPrompt
  process : p.connection < x.2.nextConnection
  gone : (x.2.slots p.slotIdx).connection ≠ some ⟨p.connection⟩
  same : ∀ q ∈ x.2.prompts, q.no = p.no → Continues p q
  failed : ∀ c ∈ x.2.backlog.pending, c.prompt = p.no →
    c.errorMessage.isSome = true ∧ c.sessionKey = p.sessionKey
  told : ErrorOnce x p

variable {steps : List (Machine.Taken (AgentsManager n) (Label n))} {p : OutstandingPrompt n}

theorem Continues.trans {p q r : OutstandingPrompt n} (h : Continues p q) (h' : Continues q r) :
    Continues p r := by
  refine ⟨h.no.trans h'.no, h.slotIdx.trans h'.slotIdx, h.connection.trans h'.connection,
    h.sessionKey.trans h'.sessionKey, fun hawaited => ?_⟩
  have hqr := h'.same hawaited
  rw [← hqr] at hawaited
  exact (h.same hawaited).trans hqr

/-- A crash loses the prompts that are outstanding on its slot. -/
theorem doomed_of_crash {s : Fin n} {a : Answers} (horderly : Orderly m)
    (hnumbered : Numbered m) (haccounted : Accounted (steps, m)) (hp : p ∈ m.prompts)
    (hslot : p.slotIdx = s) (hout : m.Outstanding p) (hcrash : m.crash l = some (s, a))
    (hstep : step cfg m l = some m') : Doomed (steps ++ [⟨m, l, m'⟩], m') p := by
  have hticketed := horderly.ticketed
  have heffect := (step_advances horderly.plain hstep).effect
  have hnumber : p.no < m.nextPrompt := hticketed.fresh p hp
  have hprocess := hnumbered.prompts p hp
  have hlabel : m.finishing l = none := by
    cases l with
    | finishCompletion a => cases hcrash
    | _ => rfl
  have hticket : p.no ∈ m.backlog.tickets.map Prod.snd := by
    rw [Backlog.numbers_tickets]
    refine List.mem_append_left _ (List.mem_map.mpr ⟨p, ?_, rfl⟩)
    exact List.mem_filter.mpr ⟨hp, hout.1⟩
  have hone : (m.backlog.tickets.map Prod.snd).count p.no = 1 :=
    List.count_eq_one_of_mem hticketed.nodup_tickets hticket
  have haccounts : accounts (steps, m) p.no = 1 := by
    have hle := haccounted.once p.no
    unfold accounts at hle ⊢
    dsimp only at hle ⊢
    omega
  have hzero : steps.countP (finishesPrompt p.no) = 0 := by
    unfold accounts at haccounts
    dsimp only at haccounts
    omega
  have htold : ErrorOnce (steps ++ [⟨m, l, m'⟩], m') p := by
    refine ⟨?_, fun t ht hfinishes _ => ?_⟩
    · rcases heffect.accounts hticketed p.no with hsame | ⟨hno, _⟩
      · rw [hsame, haccounts]
      · exact absurd hnumber (hno ▸ Nat.lt_irrefl _)
    · rcases List.mem_append.mp ht with hold | hlast
      · exact absurd hfinishes (List.countP_eq_zero.mp hzero t hold)
      · rw [List.mem_singleton.mp hlast, finishesPrompt, hlabel] at hfinishes
        cases hfinishes
  obtain ⟨rest, hincoming, rfl⟩ := crash_step hstep hcrash
  have hprocesses := handleCrash_process cfg { m with incoming := rest } s a
  have hspoken := handleCrash_spoken cfg { m with incoming := rest } s a
  have hprompts : (handleCrash cfg { m with incoming := rest } s a).prompts = m.prompts :=
    hspoken.prompts
  have hpending : (handleCrash cfg { m with incoming := rest } s a).backlog.pending =
      m.backlog.pending := by
    unfold Backlog.pending
    rw [backlog_completing, backlog_completions, hspoken.completing, hspoken.completions]
    rfl
  refine
    { number := hnumber.trans_le (heffect.nextPrompt_le hticketed)
      process := ?_
      gone := ?_
      same := fun q hq hno => ?_
      failed := fun c hc hno => ?_
      told := htold }
  · refine hprocess.trans_le ?_
    rw [hprocesses.nextConnection]
    split
    · exact Nat.le_succ _
    · exact le_rfl
  · rw [hslot, hprocesses.connection]
    split
    · rw [Ne, Option.some_inj, AgentConnection.mk.injEq]
      exact (Nat.ne_of_lt hprocess).symm
    · exact nofun
  · rw [hprompts] at hq
    rw [hticketed.unique hq hp hno]
    exact .refl p
  · rw [hpending] at hc
    exact absurd (List.mem_map.mpr ⟨c, hc, hno⟩) (hticketed.awaited p hp hout.1)

/-- A lost prompt stays lost: it can only fail. -/
theorem Doomed.step (h : Doomed (steps, m) p) (horderly : Orderly m)
    (hstep : step cfg m l = some m')
    (hunseen : ∀ c ∈ m.finishing l, c.prompt = p.no → c.sessionKey ∉ m.streamingCompleted) :
    Doomed (steps ++ [⟨m, l, m'⟩], m') p := by
  have hticketed := horderly.ticketed
  have heffect := (step_advances horderly.plain hstep).effect
  have hsucceeds := (step_processes horderly.plain hstep).succeeds
  have hcontinued : ∀ q ∈ m.prompts, q.no = p.no →
      q.slotIdx = p.slotIdx ∧ q.connection = p.connection ∧ q.sessionKey = p.sessionKey := by
    intro q hq hno
    have hsame := h.same q hq hno
    exact ⟨hsame.slotIdx.symm, hsame.connection.symm, hsame.sessionKey.symm⟩
  refine
    { number := h.number.trans_le (heffect.nextPrompt_le hticketed)
      process := h.process.trans_le hsucceeds.nextConnection
      gone := hsucceeds.gone h.process h.gone
      same := fun q hq hno => ?_
      failed := fun c hc hno => ?_
      told := ⟨?_, fun t ht hfinishes hsender => ?_⟩ }
  · rcases heffect.prompts q hq with ⟨q₀, hq₀, hcontinues⟩ | hnew
    · exact (h.same q₀ hq₀ (hcontinues.no.trans hno)).trans hcontinues
    · have hlt : p.no < m.nextPrompt := h.number
      rw [← hno, hnew] at hlt
      exact absurd hlt (Nat.lt_irrefl _)
  · rcases heffect.pending c hc with hold | ⟨q, hq, hends | rfl⟩
    · exact h.failed c hold hno
    · obtain ⟨hslot, hconnection, hkey⟩ := hcontinued q hq (hends.completes.no.symm.trans hno)
      cases hends with
      | answered hconn =>
          rw [hslot, hconnection] at hconn
          exact absurd hconn h.gone
      | lost _ => exact ⟨rfl, hkey⟩
    · exact ⟨rfl, (hcontinued q hq hno).2.2⟩
  · rcases heffect.accounts hticketed p.no with hsame | ⟨hnew, _⟩
    · rw [hsame]
      exact h.told.once
    · exact absurd h.number (hnew ▸ Nat.lt_irrefl _)
  · rcases List.mem_append.mp ht with hold | hlast
    · exact h.told.error t hold hfinishes hsender
    · rw [List.mem_singleton.mp hlast] at hfinishes hsender ⊢
      obtain ⟨c, hc, hno⟩ := (Option.any_eq_true _ _).mp hfinishes
      have hprompt : c.prompt = p.no := by simpa using hno
      cases l with
      | finishCompletion a =>
          have hpending : c ∈ m.backlog.pending :=
            List.mem_append_left _ (Option.mem_toList.mpr hc)
          obtain ⟨hfailed, hkey⟩ := h.failed c hpending hprompt
          rw [← hkey]
          exact errorsSent_finish horderly.plain hstep hc hfailed hsender (hunseen c hc hprompt)
      | _ => cases hc

/-- Only a running manager handles a crash. -/
theorem running_of_crash {y : Fin n × Answers} (h : (life cfg).Reachable m)
    (hcrash : m.crash l = some y) (hstep : step cfg m l = some m') : m.running = true := by
  cases turn_of_step cfg m hstep with
  | recvIncoming hidle _ _ => exact ((idle_iff m).mp hidle).1
  | recvDisabled hidle _ _ _ => exact ((idle_iff m).mp hidle).1
  | drainIncoming hc _ =>
      refine running_of_completing h ?_
      rw [hc]
      rfl
  | _ => cases hcrash

/-- What is known of the step that handles the crash of slot `s`. -/
structure CrashKnown (x : History n) (t : Machine.Taken (AgentsManager n) (Label n))
    (s : Fin n) : Prop where
  idle : t.before.channelsSender = true → ∀ k, errorsSent t.before t.after k =
    if ∃ id ∈ (t.before.slots s).sessionMap.get? k, ¬ t.before.HasPrompt s id then 1 else 0
  one : ∀ id p q, Awaits t.before s id p → Awaits t.before s id q → q = p
  doomed : ∀ id p, Awaits t.before s id p → Doomed x p

theorem crashKnown_of_crash {s : Fin n} {a : Answers} (h : (life cfg).Reachable m)
    (htracked : Tracked m) (haccounted : Accounted (steps, m))
    (hguard : NotifiesAll (steps, m) l) (hcrash : m.crash l = some (s, a))
    (hstep : step cfg m l = some m') :
    CrashKnown (steps ++ [⟨m, l, m'⟩], m') ⟨m, l, m'⟩ s := by
  have horderly := orderly_of_reachable h
  refine ⟨fun hsender k => ?_, fun id p q hp hq => ?_, fun id p hp => ?_⟩
  · obtain ⟨rest, _, rfl⟩ := crash_step hstep hcrash
    dsimp only at hsender ⊢
    rw [errorsSent_crash hsender]
    refine if_congr ?_ rfl rfl
    rw [Option.any_eq_true]
    constructor
    · rintro ⟨_, id, hid, hidle⟩
      refine ⟨id, hid, fun hhas => ?_⟩
      rw [(htracked s id).mpr hhas] at hidle
      cases hidle
    · rintro ⟨id, hid, hidle⟩
      refine ⟨?_, id, hid, ?_⟩
      · refine (hguard.1.2 (s, a) hcrash).resolve_right fun hnone => ?_
        have hmap : (m.slots s).sessionMap = ∅ := hnone.1
        rw [hmap] at hid
        cases hid
      · rw [Bool.not_eq_true']
        exact Bool.eq_false_iff.mpr fun hcontains => hidle ((htracked s id).mp hcontains)
  · obtain ⟨hmem, hslot, hid, hout⟩ := hp
    obtain ⟨hmem', hslot', hid', hout'⟩ := hq
    by_cases hno : q.no = p.no
    · exact horderly.ticketed.unique hmem' hmem hno
    · exact absurd ⟨q, hmem', hno, hslot'.trans hslot.symm, hid'.trans hid.symm, hout'⟩
        (hguard.2.1 (s, a) hcrash p hmem hslot hout)
  · obtain ⟨hmem, hslot, _, hout⟩ := hp
    exact doomed_of_crash horderly (numbered_of_reachable h) haccounted hmem hslot hout hcrash
      hstep

/-- **Every crash is told to the sessions it concerns, once**, and the active prompts are
    the sessions with an outstanding prompt: in every run in which outstanding prompts end
    only beside another one of their session, no crash that disables its slot affects
    anybody, no crash finds two prompts of a session, and no lost prompt had its result. -/
theorem notified_of_notifiesAll {x : History n}
    (h : (life cfg).recorded.ReachableUnder NotifiesAll x) :
    (x.2.running = true → Tracked x.2) ∧
      ∀ t ∈ x.1, ∀ y ∈ t.before.crash t.label, CrashNotified x t y.1 := by
  refine ⟨tracked_of_keepsTrack (h.of_recorded fun _ _ hguard => hguard.1), ?_⟩
  have hknown : ∀ t ∈ x.1, ∀ y ∈ t.before.crash t.label, CrashKnown x t y.1 := by
    refine h.recorded_steps
      (P := fun x t => ∀ y ∈ t.before.crash t.label, CrashKnown x t y.1) ?_ ?_
    · rintro ⟨steps, m⟩ l ⟨steps', m'⟩ hreach hguard hstep ⟨s, a⟩ hcrash
      obtain ⟨hs, hsteps⟩ := Machine.of_recorded_step hstep
      dsimp only at hs hsteps hcrash
      subst hsteps
      have hunder := hreach.of_recorded (fun _ _ hguard => hguard.1)
      have hruns := running_of_crash hunder.reachable hcrash hs
      exact crashKnown_of_crash hunder.reachable (tracked_of_keepsTrack hunder hruns)
        (accounted_of_reachable hreach.reachable) hguard hcrash hs
    · rintro ⟨steps, m⟩ l ⟨steps', m'⟩ t hreach ht hI hguard hstep y hy
      obtain ⟨hs, hsteps⟩ := Machine.of_recorded_step hstep
      dsimp only at hs hsteps ht
      subst hsteps
      have horderly := orderly_of_reachable (hreach.of_recorded fun _ _ _ => trivial)
      have hold := hI y hy
      refine ⟨hold.idle, hold.one, fun id p hp => (hold.doomed id p hp).step horderly hs ?_⟩
      intro c hc hno
      exact hguard.2.2 c hc ⟨t, ht, p, hp.1, ⟨y, hy, hp.2.1, hp.2.2.2⟩, hno.symm⟩
  intro t ht y hy
  have hcrash := hknown t ht y hy
  refine ⟨hcrash.idle, fun id hhas => ?_⟩
  obtain ⟨p, hp, hslot, hid, hout⟩ := hhas
  have hawaits : Awaits t.before y.1 id p := ⟨hp, hslot, hid, hout⟩
  exact ⟨p, hawaits, fun q hq => hcrash.one id p q hawaits hq, (hcrash.doomed id p hawaits).told⟩

/-- The process crashes while the prompt of bob's session is outstanding and the default
    session is idle; the prompt is then reported as lost. -/
theorem notified_of_notifiesAll_bob :
    ∃ x : History 1, (x.2.running = true → Tracked x.2) ∧ ∃ t ∈ x.1,
      ∃ y ∈ t.before.crash t.label, t.before.HasPrompt y.1 "s" ∧ CrashNotified x t y.1 := by
  have hrun : ∃ x ∈ executeRecorded Sample.cfg NotifiesAll true ∅ Sample.boot
      ([Sample.send "hello" (Sample.answers "s")] ++ Sample.crash (Sample.answers "t") ++
        [.promptLost 0, .recvCompletion, .finishCompletion (Sample.answers "u")]),
        ∃ t ∈ x.1, ∃ y ∈ t.before.crash t.label, t.before.HasPrompt y.1 "s" := by
    decide
  obtain ⟨x, hx, t, ht, y, hy, hhas⟩ := hrun
  obtain ⟨htracked, hnotified⟩ := notified_of_notifiesAll (reachable_of_executeRecorded hx)
  exact ⟨x, htracked, t, ht, y, hy, hhas, hnotified t ht y hy⟩

/-- Bob has chatted: his prompt was answered and completed.  The crash that follows is not
    told to him, because his session is still among the active prompts. -/
theorem untold_after_chat : ¬ ∀ x, (life Sample.cfg).recorded.Reachable x →
    (x.2.running = true → Tracked x.2) ∧
      ∀ t ∈ x.1, ∀ y ∈ t.before.crash t.label, CrashNotified x t y.1 := by
  intro hall
  have hrun : ∃ x ∈ executeRecorded Sample.cfg (fun _ _ => True) true ∅ Sample.boot
      ([Sample.send "hello" (Sample.answers "s"),
        .promptAnswered 0 (.result (some .endTurn)), .recvCompletion,
        .finishCompletion (Sample.answers "s")] ++ Sample.crash (Sample.answers "t")),
        ∃ t ∈ x.1, ∃ y ∈ t.before.crash t.label, t.before.channelsSender = true ∧
          errorsSent t.before t.after Sample.bob = 0 ∧
          ∃ id ∈ (t.before.slots y.1).sessionMap.get? Sample.bob,
            ¬ t.before.HasPrompt y.1 id := by
    decide
  obtain ⟨x, hx, t, ht, y, hy, hsender, hzero, hidle⟩ := hrun
  have hnotified := (hall x (reachable_of_executeRecorded hx)).2 t ht y hy
  have hcount := hnotified.idle hsender Sample.bob
  rw [hzero, if_pos hidle] at hcount
  cases hcount

end Anyclaw.AgentsManager
