import Anyclaw.Library.Mailbox
import Anyclaw.Agents.QueueInvariants

/-!
# One prompt at a time

The queue serializes the prompts of a key by its active set.  This works as long as the
set agrees with what the agents are doing: an idle key must have nothing in flight.
`/new`, `/cancel` and the completion of a prompt that timed out make a key idle without
looking; in runs in which they find nothing in flight, a key has one prompt at a time, and
a completion that is processed is that of the latest prompt of its key.

The active set is that of `SessionQueue` (`crates/anyclaw-agents/src/session_queue.rs`);
`mark_idle` is called in `handle_platform_command` (`commands.rs`) and
`handle_prompt_completion` (`incoming.rs`).
-/

namespace Anyclaw

variable {n : Nat}

def Output.promptNo : Output n → Option (SessionKey × Nat)
  | .prompt p _ _ => some (p.sessionKey, p.no)
  | _ => none

/-- The latest prompt of a key, by its number. -/
def currentPrompt (k : SessionKey) (trace : List (Output n)) : Option Nat :=
  (Mailbox.forKey k (trace.filterMap Output.promptNo)).getLast?

theorem currentPrompt_append (k : SessionKey) (trace : List (Output n)) (p : OutstandingPrompt n)
    (parts : List ContentPart) (origin : List MessageNo) :
    currentPrompt k (trace ++ [.prompt p parts origin]) =
      if p.sessionKey = k then some p.no else currentPrompt k trace := by
  unfold currentPrompt
  rw [List.filterMap_append]
  have hone : [Output.prompt p parts origin].filterMap Output.promptNo =
      [(p.sessionKey, p.no)] := rfl
  rw [hone, Mailbox.forKey_append, Mailbox.forKey_singleton]
  split
  · rw [List.getLast?_concat]
  · rw [List.append_nil]

/-- Talk does not count. -/
theorem currentPrompt_talk (k : SessionKey) (trace : List (Output n)) {os : List (Output n)}
    (hos : ∀ o ∈ os, o.isTalk = true) : currentPrompt k (trace ++ os) = currentPrompt k trace := by
  have hnone : os.filterMap Output.promptNo = [] := by
    refine AgentsManager.filterMap_talk (fun o ho => ?_) hos
    cases o <;> first | rfl | cases ho
  unfold currentPrompt
  rw [List.filterMap_append, hnone, List.append_nil]

theorem currentPrompt_reply (k : SessionKey) (trace : List (Output n)) (no : MessageNo)
    (k' : SessionKey) (plain : Bool) (result : Except AgentsError Unit) :
    currentPrompt k (trace ++ [.reply no k' plain result]) = currentPrompt k trace := by
  unfold currentPrompt
  rw [List.filterMap_append]
  exact congrArg (fun l => (Mailbox.forKey k l).getLast?) (List.append_nil _)

namespace Backlog

/-- The prompt `no` of `k` is unanswered, or its completion is still to be processed. -/
def Flies (b : Backlog n) (k : SessionKey) (no : Nat) : Prop :=
  (∃ p ∈ b.prompts, p.sessionKey = k ∧ p.no = no) ∨
    ∃ c ∈ b.pending, c.sessionKey = k ∧ c.prompt = no

/-- Nothing is in flight for `k`. -/
def Landed (b : Backlog n) (k : SessionKey) : Prop :=
  (∀ p ∈ b.prompts, p.sessionKey ≠ k) ∧ ∀ c ∈ b.pending, c.sessionKey ≠ k

instance (b : Backlog n) (k : SessionKey) : Decidable (b.Landed k) :=
  inferInstanceAs (Decidable (_ ∧ _))

theorem Landed.not_flies {b : Backlog n} {k : SessionKey} {no : Nat} (h : b.Landed k) :
    ¬ b.Flies k no := by
  rintro (⟨p, hp, hkey, _⟩ | ⟨c, hc, hkey, _⟩)
  · exact h.1 p hp hkey
  · exact h.2 c hc hkey

/-- The active set agrees with what is in flight. -/
structure Serialized (b : Backlog n) : Prop where
  /-- What is in flight belongs to an active key, and to its latest prompt. -/
  current : ∀ k no, b.Flies k no → k ∈ b.active ∧ currentPrompt k b.messages = some no
  /-- A prompt that is not awaited any more has timed out. -/
  timedOut : ∀ p ∈ b.prompts, p.awaited = false → ∀ c ∈ b.pending, c.prompt = p.no →
    c.idleTimedOut = true

/-! ### What flies after an update -/

section Flies

variable {b : Backlog n} {k : SessionKey} {no : Nat} {p : OutstandingPrompt n}
  {c : PromptCompletion}

theorem flies_addPrompt (h : (b.addPrompt p).Flies k no) :
    b.Flies k no ∨ p.sessionKey = k ∧ p.no = no := by
  rcases h with ⟨p', hp', hkey, hno⟩ | hpending
  · rcases List.mem_append.mp hp' with hold | hnew
    · exact Or.inl (Or.inl ⟨p', hold, hkey, hno⟩)
    · rw [List.mem_singleton.mp hnew] at hkey hno
      exact Or.inr ⟨hkey, hno⟩
  · exact Or.inl (Or.inr hpending)

/-- The completions after the end of a prompt. -/
theorem mem_pending_endPrompt {c' : PromptCompletion} (h : c' ∈ (b.endPrompt p c).pending) :
    c' ∈ b.pending ∨ p.awaited = true ∧ c' = c := by
  rcases List.mem_append.mp h with hnow | hlater
  · exact Or.inl (List.mem_append_left _ hnow)
  · rw [endPrompt_completions] at hlater
    split at hlater
    · rename_i hawaited
      rcases List.mem_append.mp hlater with hlater | hnew
      · exact Or.inl (List.mem_append_right _ hlater)
      · exact Or.inr ⟨hawaited, List.mem_singleton.mp hnew⟩
    · exact Or.inl (List.mem_append_right _ hlater)

theorem mem_pending_abandon {c' : PromptCompletion} (h : c' ∈ (b.abandon p c).pending) :
    c' ∈ b.pending ∨ c' = c := by
  rcases List.mem_append.mp h with hnow | hlater
  · exact Or.inl (List.mem_append_left _ hnow)
  · rcases List.mem_append.mp hlater with hlater | hnew
    · exact Or.inl (List.mem_append_right _ hlater)
    · exact Or.inr (List.mem_singleton.mp hnew)

theorem flies_endPrompt (hp : p ∈ b.prompts) (hkey : c.sessionKey = p.sessionKey)
    (hno : c.prompt = p.no) (h : (b.endPrompt p c).Flies k no) : b.Flies k no := by
  rcases h with ⟨p', hp', hp'k⟩ | ⟨c', hc', hc'k⟩
  · exact Or.inl ⟨p', (List.mem_filter.mp hp').1, hp'k⟩
  · rcases mem_pending_endPrompt hc' with hold | ⟨_, rfl⟩
    · exact Or.inr ⟨c', hold, hc'k⟩
    · exact Or.inl ⟨p, hp, hkey ▸ hc'k.1, hno ▸ hc'k.2⟩

theorem flies_abandon (hp : p ∈ b.prompts) (hkey : c.sessionKey = p.sessionKey)
    (hno : c.prompt = p.no) (h : (b.abandon p c).Flies k no) : b.Flies k no := by
  rcases h with ⟨p', hp', hp'k⟩ | ⟨c', hc', hc'k⟩
  · obtain ⟨p₀, hp₀, rfl⟩ := List.mem_map.mp hp'
    refine Or.inl ⟨p₀, hp₀, ?_⟩
    split at hp'k
    · exact hp'k
    · exact hp'k
  · rcases mem_pending_abandon hc' with hold | rfl
    · exact Or.inr ⟨c', hold, hc'k⟩
    · exact Or.inl ⟨p, hp, hkey ▸ hc'k.1, hno ▸ hc'k.2⟩

/-- Processing completions leaves nothing new. -/
theorem flies_complete {c : Option PromptCompletion} {rest : List PromptCompletion}
    (hpending : (b.complete c rest).pending.Sublist b.pending)
    (h : (b.complete c rest).Flies k no) : b.Flies k no := by
  rcases h with hprompt | ⟨c', hc', hkey⟩
  · exact Or.inl hprompt
  · exact Or.inr ⟨c', hpending.subset hc', hkey⟩

end Flies

end Backlog

namespace AgentsManager

/-! ### The condition -/

/-- A key becomes idle only when nothing is in flight for it: when `/new` or `/cancel`
    releases it, its prompt has been completed; when a timed out prompt gives way, the
    agent has answered it.  `SendPrompt`, which goes past the queue, is not used. -/
def OneAtATime (cfg : AgentsManagerConfig n) (m : AgentsManager n) : Label n → Prop
  | .command (.enqueueMessage name k content _) a =>
      CanRelease cfg m name k content a → m.queue.queued k = [] → m.backlog.Landed k
  | .command (.sendPrompt _) _ => False
  | .finishCompletion a =>
      ∀ c ∈ m.completing, c.idleTimedOut = true →
        m.queue.queued c.sessionKey = [] ∨ CanRedispatch cfg m c a →
          ∀ p ∈ m.prompts, p.sessionKey ≠ c.sessionKey
  | _ => True

instance (cfg : AgentsManagerConfig n) (m : AgentsManager n) (l : Label n) :
    Decidable (OneAtATime cfg m l) := by
  unfold OneAtATime
  induction l using Label.casesOn with
  | command c _ => induction c using AgentsCommand.casesOn <;> dsimp only <;> infer_instance
  | _ =>
      dsimp only
      infer_instance

variable {cfg : AgentsManagerConfig n} {m m' : AgentsManager n} {l : Label n} {b : Backlog n}

/-! ### Runs -/

/-- When a completion is processed and its key goes on, nothing else of the key is in
    flight. -/
theorem landed_behind {a : Answers} {c : PromptCompletion} {k : SessionKey} {no : Nat}
    (hticketed : m.backlog.Ticketed) (hserialized : m.backlog.Serialized)
    (hguard : OneAtATime cfg m (.finishCompletion a)) (hc : m.completing = some c)
    (hgoes : m.queue.queued c.sessionKey = [] ∨ CanRedispatch cfg m c a)
    (hflies : (m.backlog.complete none m.completions).Flies k no) : k ≠ c.sessionKey := by
  rintro rfl
  have hpending : m.backlog.pending = c :: m.completions := by
    rw [Backlog.pending, backlog_completing, backlog_completions, hc]
    rfl
  have hmem : c ∈ m.backlog.pending := by
    rw [hpending]
    exact List.mem_cons_self
  have hcurrent := (hserialized.current c.sessionKey c.prompt
    (Or.inr ⟨c, hmem, rfl, rfl⟩)).2
  rcases hflies with ⟨p, hp, hkey, hno⟩ | ⟨c', hc', hkey, hno⟩
  · have hsame := (hserialized.current c.sessionKey p.no (Or.inl ⟨p, hp, hkey, rfl⟩)).2
    rw [hcurrent] at hsame
    have hprompt : c.prompt = p.no := Option.some.inj hsame
    cases hawaited : p.awaited with
    | true =>
        exact hticketed.awaited p hp hawaited (List.mem_map.mpr ⟨c, hmem, hprompt⟩)
    | false =>
        have htimed := hserialized.timedOut p hp hawaited c hmem hprompt
        exact hguard c hc htimed hgoes p hp hkey
  · have hlater : c' ∈ m.completions := hc'
    have hflies' : m.backlog.Flies c.sessionKey c'.prompt := by
      refine Or.inr ⟨c', ?_, hkey, rfl⟩
      rw [hpending]
      exact List.mem_cons_of_mem c hlater
    have hsame := (hserialized.current c.sessionKey c'.prompt hflies').2
    rw [hcurrent] at hsame
    have hprompt : c.prompt = c'.prompt := Option.some.inj hsame
    have honce := hticketed.once
    rw [hpending, List.map_cons, List.nodup_cons] at honce
    exact honce.1 (List.mem_map.mpr ⟨c', hlater, hprompt.symm⟩)

theorem Effect.serialized (h : Effect cfg m l b) (hticketed : m.backlog.Ticketed)
    (hguard : OneAtATime cfg m l) (hserialized : m.backlog.Serialized) : b.Serialized := by
  have hcompleted : (m.backlog.complete none m.completions).pending.Sublist m.backlog.pending :=
    List.sublist_append_right _ _
  have hdone : ∀ p ∈ m.prompts, p.awaited = false →
      ∀ c ∈ (m.backlog.complete none m.completions).pending, c.prompt = p.no →
        c.idleTimedOut = true :=
    fun p hp hawaited c hc hno =>
      hserialized.timedOut p hp hawaited c (hcompleted.subset hc) hno
  have hadded : ∀ {k : SessionKey} {p : OutstandingPrompt n}, NewPrompt m k p →
      ∀ p' ∈ m.prompts ++ [p], p'.awaited = false → p' ∈ m.prompts := by
    intro k p hp p' hp' hawaited
    rcases List.mem_append.mp hp' with hold | hnew
    · exact hold
    · rw [List.mem_singleton.mp hnew, hp.awaited] at hawaited
      cases hawaited
  have htold : ∀ (k : SessionKey) (trace : List (Output n)) (es : List ChannelEvent),
      currentPrompt k (trace ++ m.told es) = currentPrompt k trace := fun k trace es =>
    currentPrompt_talk k trace (isTalk_told m es)
  cases h with
  | quiet _ => exact hserialized
  | talked htalk =>
      obtain ⟨os, ks, rfl, hos⟩ := htalk.talks
      refine ⟨fun k' no hflies => ?_, hserialized.timedOut⟩
      obtain ⟨hactive, hcurrent⟩ := hserialized.current k' no hflies
      exact ⟨hactive, (currentPrompt_talk k' m.backlog.messages hos).trans hcurrent⟩
  | unqueued _ _ => exact absurd hguard id
  | refused _ _ _ =>
      refine ⟨fun k' no hflies => ?_, hserialized.timedOut⟩
      obtain ⟨hactive, hcurrent⟩ := hserialized.current k' no hflies
      exact ⟨hactive, (htold k' _ _).trans hcurrent⟩
  | @released _ k _ _ _ _ hcan =>
      refine ⟨fun k' no hflies => ?_, hserialized.timedOut⟩
      obtain ⟨hactive, hcurrent⟩ := hserialized.current k' no hflies
      refine ⟨?_, (htold k' _ _).trans hcurrent⟩
      rw [Backlog.release_active]
      split
      · rename_i hempty
        have hlanded := hguard hcan hempty
        refine Finset.mem_erase.mpr ⟨?_, hactive⟩
        rintro rfl
        exact hlanded.not_flies hflies
      · exact hactive
  | queued _ _ =>
      refine ⟨fun k' no hflies => ?_, hserialized.timedOut⟩
      obtain ⟨hactive, hcurrent⟩ := hserialized.current k' no hflies
      refine ⟨hactive, ?_⟩
      rw [Backlog.say_messages, currentPrompt_reply]
      exact hcurrent
  | @dispatched _ k _ _ _ p parts _ hidle _ hp =>
      refine ⟨fun k' no hflies => ?_, fun p' hp' hawaited c hc hno => ?_⟩
      · rw [Backlog.say_messages, currentPrompt_reply, Backlog.say_messages,
          currentPrompt_append]
        rcases Backlog.flies_addPrompt (b := m.backlog) hflies with hold | ⟨hkey, hno⟩
        · obtain ⟨hactive, hcurrent⟩ := hserialized.current k' no hold
          have hne : p.sessionKey ≠ k' := by
            rw [hp.key]
            rintro rfl
            exact hidle hactive
          rw [if_neg hne]
          exact ⟨Finset.mem_insert_of_mem hactive, (htold k' _ _).trans hcurrent⟩
        · rw [if_pos hkey, hno]
          refine ⟨?_, rfl⟩
          rw [← hkey, hp.key]
          exact Finset.mem_insert_self _ _
      · exact hserialized.timedOut p' (hadded hp p' hp' hawaited) hawaited c hc hno
  | @rejected _ k _ _ _ _ _ _ _ =>
      refine ⟨fun k' no hflies => ?_, hserialized.timedOut⟩
      obtain ⟨hactive, hcurrent⟩ := hserialized.current k' no hflies
      refine ⟨Finset.mem_insert_of_mem hactive, ?_⟩
      rw [Backlog.say_messages, currentPrompt_reply]
      exact (htold k' _ _).trans hcurrent
  | @ended _ p c hp hends =>
      have hc := hends.completes
      refine ⟨fun k' no hflies => hserialized.current k' no
        (Backlog.flies_endPrompt hp hc.key hc.no hflies), fun p' hp' hawaited c' hc' hno => ?_⟩
      obtain ⟨hold, hne⟩ := List.mem_filter.mp hp'
      rcases Backlog.mem_pending_endPrompt hc' with hpending | ⟨_, rfl⟩
      · exact hserialized.timedOut p' hold hawaited c' hpending hno
      · rw [hc.no] at hno
        simp [hno] at hne
  | @abandoned p hp hawaited =>
      refine ⟨fun k' no hflies => hserialized.current k' no
        (Backlog.flies_abandon hp rfl rfl hflies), fun p' hp' hawaited' c' hc' hno => ?_⟩
      obtain ⟨p₀, hp₀, rfl⟩ := List.mem_map.mp hp'
      rcases Backlog.mem_pending_abandon hc' with hpending | rfl
      · split at hno
        · rename_i hsame
          exact absurd (List.mem_map.mpr ⟨c', hpending, hno.trans hsame⟩)
            (hticketed.awaited p hp hawaited)
        · rename_i hne
          rw [if_neg hne] at hawaited'
          exact hserialized.timedOut p₀ hp₀ hawaited' c' hpending hno
      · rfl
  | @taken c rest hidle hc =>
      have hpending : (m.backlog.complete (some c) rest).pending = m.backlog.pending := by
        rw [Backlog.pending, Backlog.pending, backlog_completing, backlog_completions, hidle, hc]
        rfl
      have hsublist : (m.backlog.complete (some c) rest).pending.Sublist m.backlog.pending := by
        rw [hpending]
      refine ⟨fun k' no hflies => hserialized.current k' no
        (Backlog.flies_complete hsublist hflies), fun p' hp' hawaited c' hc' hno => ?_⟩
      rw [hpending] at hc'
      exact hserialized.timedOut p' hp' hawaited c' hc' hno
  | @finished _ c d hc _ hempty =>
      refine ⟨fun k' no hflies => ?_, hdone⟩
      obtain ⟨hactive, hcurrent⟩ := hserialized.current k' no
        (Backlog.flies_complete hcompleted hflies)
      refine ⟨?_, (htold k' _ _).trans hcurrent⟩
      have hne := landed_behind hticketed hserialized hguard hc (Or.inl hempty) hflies
      rw [Backlog.release_active]
      split
      · exact Finset.mem_erase.mpr ⟨hne, hactive⟩
      · exact hactive
  | @redispatched _ c d p parts hc _ _ hcan hp =>
      refine ⟨fun k' no hflies => ?_, fun p' hp' hawaited c' hc' hno =>
        hdone p' (hadded hp p' hp' hawaited) hawaited c' hc' hno⟩
      rw [Backlog.say_messages, currentPrompt_append]
      rcases Backlog.flies_addPrompt (b := m.backlog.complete none m.completions) hflies with
        hold | ⟨hkey, hno⟩
      · obtain ⟨hactive, hcurrent⟩ := hserialized.current k' no
          (Backlog.flies_complete hcompleted hold)
        have hne := landed_behind hticketed hserialized hguard hc (Or.inr hcan) hold
        rw [if_neg fun hkey => hne (hkey.symm.trans hp.key)]
        exact ⟨hactive, (htold k' _ _).trans ((htold k' _ _).trans hcurrent)⟩
      · rw [if_pos hkey, hno]
        refine ⟨?_, rfl⟩
        have hmem : c ∈ m.backlog.pending := by
          rw [Backlog.pending, backlog_completing, hc]
          exact List.mem_cons_self
        rw [← hkey, hp.key]
        exact (hserialized.current c.sessionKey c.prompt (Or.inr ⟨c, hmem, rfl, rfl⟩)).1
  | lost _ _ _ _ _ =>
      refine ⟨fun k' no hflies => ?_, hdone⟩
      obtain ⟨hactive, hcurrent⟩ := hserialized.current k' no
        (Backlog.flies_complete hcompleted hflies)
      exact ⟨hactive, (htold k' _ _).trans ((htold k' _ _).trans hcurrent)⟩

theorem currentPrompt_messages (m : AgentsManager n) (k : SessionKey) :
    currentPrompt k m.backlog.messages = currentPrompt k m.trace := by
  unfold currentPrompt
  rw [filterMap_messages]
  intro o ho
  unfold Output.promptNo
  split
  · cases ho
  · rfl

/-- At most one prompt of a key is outstanding, and the completion that is processed is
    that of the latest prompt of its key. -/
structure Serial (m : AgentsManager n) : Prop where
  one : ∀ p ∈ m.prompts, ∀ p' ∈ m.prompts, p.sessionKey = p'.sessionKey → p = p'
  current : ∀ c ∈ m.completing, currentPrompt c.sessionKey m.trace = some c.prompt

/-- **Prompts of a key are serial**, in every run in which a key becomes idle only when
    nothing is in flight for it. -/
theorem serial_of_oneAtATime (h : (life cfg).ReachableUnder (OneAtATime cfg) m) : Serial m := by
  have hticketed := (orderly_of_reachable h.reachable).ticketed
  have hserialized : m.backlog.Serialized := by
    refine h.invariant (I := fun m => m.backlog.Serialized) ?_ ?_
    · intro m hinit
      obtain ⟨os, _, hbacklog⟩ := life_init hinit
      rw [hbacklog]
      refine ⟨?_, fun p hp => nomatch hp⟩
      rintro k no (⟨p, hp, _⟩ | ⟨c, hc, _⟩)
      · cases hp
      · cases hc
    · intro m l m' hreach hI hguard hstep
      have horderly := orderly_of_reachable hreach.reachable
      exact (step_advances horderly.plain hstep).effect.serialized horderly.ticketed hguard hI
  refine ⟨fun p hp p' hp' hkey => ?_, fun c hc => ?_⟩
  · have hcurrent := (hserialized.current p.sessionKey p.no (Or.inl ⟨p, hp, rfl, rfl⟩)).2
    have hcurrent' := (hserialized.current p.sessionKey p'.no
      (Or.inl ⟨p', hp', hkey.symm, rfl⟩)).2
    rw [hcurrent] at hcurrent'
    exact hticketed.unique hp hp' (Option.some.inj hcurrent')
  · rw [← currentPrompt_messages]
    refine (hserialized.current c.sessionKey c.prompt (Or.inr ⟨c, ?_, rfl, rfl⟩)).2
    exact List.mem_append_left _ (Option.mem_toList.mpr hc)

/-- A prompt is answered, and its completion is being processed. -/
theorem serial_of_oneAtATime_answered :
    ∃ m : AgentsManager 1, m.completing.isSome ∧ Serial m := by
  have hrun : ∃ m ∈ AgentsManager.execute Sample.cfg (OneAtATime Sample.cfg) true ∅ Sample.boot
      [Sample.send "hello" (Sample.answers "s"),
        .promptAnswered 0 (.result (some .endTurn)), .recvCompletion],
        m.completing.isSome := by
    decide
  obtain ⟨m, hm, hcompleting⟩ := hrun
  exact ⟨m, hcompleting, serial_of_oneAtATime (reachable_of_execute Sample.cfg hm)⟩

/-- `/cancel` releases the key while its prompt is unanswered: the next message gives it
    a second prompt. -/
theorem two_prompts_after_cancel : ¬ ∀ m, (life Sample.cfg).Reachable m → Serial m := by
  intro hall
  have hrun : ∃ m ∈ Sample.execute [Sample.send "hello" (Sample.answers "s"),
      Sample.send "/cancel" (Sample.answers "s"), Sample.send "there" (Sample.answers "s")],
        m.prompts.map (fun p => (p.no, p.sessionKey)) = [(0, Sample.bob), (1, Sample.bob)] := by
    decide
  obtain ⟨m, hm, hprompts⟩ := hrun
  have hserial := hall m (reachable_of_execute Sample.cfg hm)
  obtain ⟨p, hp, hfirst⟩ := List.mem_map.mp (show (0, Sample.bob) ∈
    m.prompts.map (fun p => (p.no, p.sessionKey)) by rw [hprompts]; decide)
  obtain ⟨p', hp', hsecond⟩ := List.mem_map.mp (show (1, Sample.bob) ∈
    m.prompts.map (fun p => (p.no, p.sessionKey)) by rw [hprompts]; decide)
  simp only [Prod.mk.injEq] at hfirst hsecond
  have hsame := hserial.one p hp p' hp' (hfirst.2.trans hsecond.2.symm)
  rw [hsame, hsecond.1] at hfirst
  exact absurd hfirst.1 (by decide)

end AgentsManager

end Anyclaw
