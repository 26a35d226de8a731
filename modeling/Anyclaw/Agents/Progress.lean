import Anyclaw.Agents.QueueInvariants

/-!
# Active keys make progress

A key becomes active before its prompt is attempted, and only a completion makes it
idle again.  So an active key with nothing in flight is stuck: later messages for it
wait for ever.  This happens exactly when an attempt fails and no other prompt or
completion of the key is in flight.

The attempts are `flush_and_dispatch` (`crates/anyclaw-agents/src/commands.rs`) and the last
lines of `handle_prompt_completion` (`incoming.rs`), which both end in `prompt_session`.
-/

namespace Anyclaw

variable {n : Nat}

/-- A prompt for `k` is awaited, or a completion for `k` is still to be processed. -/
def Backlog.InFlight (b : Backlog n) (k : SessionKey) : Prop :=
  (∃ p ∈ b.prompts, p.sessionKey = k ∧ p.awaited = true) ∨ ∃ c ∈ b.pending, c.sessionKey = k

instance (b : Backlog n) (k : SessionKey) : Decidable (b.InFlight k) :=
  inferInstanceAs (Decidable (_ ∨ _))

/-- Every active key has something in flight. -/
def Backlog.Progresses (b : Backlog n) : Prop := ∀ k ∈ b.active, b.InFlight k

namespace AgentsManager

/-- No attempt to hand a prompt to the agent fails for a key with nothing else in
    flight. -/
def NoneStuck (cfg : AgentsManagerConfig n) (m : AgentsManager n) : Label n → Prop
  | .command (.enqueueMessage name k content _) a =>
      IsPlain content → k ∉ m.queue.active → CanDispatch cfg m name k a ∨ m.backlog.InFlight k
  | .finishCompletion a =>
      ∀ c ∈ m.completing, m.queue.queued c.sessionKey ≠ [] →
        CanRedispatch cfg m c a ∨
          (m.backlog.complete none m.completions).InFlight c.sessionKey
  | _ => True

instance (cfg : AgentsManagerConfig n) (m : AgentsManager n) (l : Label n) :
    Decidable (NoneStuck cfg m l) := by
  unfold NoneStuck
  induction l using Label.casesOn with
  | command c _ => induction c using AgentsCommand.casesOn <;> dsimp only <;> infer_instance
  | _ =>
      dsimp only
      infer_instance

variable {cfg : AgentsManagerConfig n} {m m' : AgentsManager n} {l : Label n} {b : Backlog n}

/-! ### What keeps a key in flight -/

section InFlight

variable {b : Backlog n} {k : SessionKey} {p : OutstandingPrompt n} {c : PromptCompletion}

theorem inFlight_addPrompt (h : b.InFlight k) : (b.addPrompt p).InFlight k := by
  rcases h with ⟨p', hp', hkey, hawaited⟩ | hpending
  · exact Or.inl ⟨p', List.mem_append_left _ hp', hkey, hawaited⟩
  · exact Or.inr hpending

/-- A prompt that has just been handed over is in flight. -/
theorem inFlight_new (hkey : p.sessionKey = k) (hawaited : p.awaited = true) :
    (b.addPrompt p).InFlight k :=
  Or.inl ⟨p, List.mem_append_right _ (List.mem_singleton_self p), hkey, hawaited⟩

/-- The end of an awaited prompt leaves its completion. -/
theorem inFlight_endPrompt (hb : b.Ticketed) (hp : p ∈ b.prompts) (hc : c.sessionKey = p.sessionKey)
    (h : b.InFlight k) : (b.endPrompt p c).InFlight k := by
  have hpending : ∀ c' ∈ b.pending, c' ∈ (b.endPrompt p c).pending := by
    intro c' hc'
    rcases List.mem_append.mp hc' with hnow | hlater
    · exact List.mem_append_left _ hnow
    · refine List.mem_append_right _ ?_
      rw [Backlog.endPrompt_completions]
      split
      · exact List.mem_append_left _ hlater
      · exact hlater
  rcases h with ⟨p', hp', hkey, hawaited⟩ | ⟨c', hc', hkey⟩
  · by_cases hno : p'.no = p.no
    · have hsame := hb.unique hp' hp hno
      subst hsame
      refine Or.inr ⟨c, List.mem_append_right _ ?_, hc.trans hkey⟩
      rw [Backlog.endPrompt_completions, if_pos hawaited]
      exact List.mem_append_right _ (List.mem_singleton_self c)
    · refine Or.inl ⟨p', List.mem_filter.mpr ⟨hp', ?_⟩, hkey, hawaited⟩
      simpa using hno
  · exact Or.inr ⟨c', hpending c' hc', hkey⟩

/-- A prompt that is given up leaves its completion. -/
theorem inFlight_abandon (hb : b.Ticketed) (hp : p ∈ b.prompts) (hc : c.sessionKey = p.sessionKey)
    (h : b.InFlight k) : (b.abandon p c).InFlight k := by
  have hnew : c ∈ (b.abandon p c).pending :=
    List.mem_append_right _ (List.mem_append_right _ (List.mem_singleton_self c))
  rcases h with ⟨p', hp', hkey, hawaited⟩ | ⟨c', hc', hkey⟩
  · by_cases hno : p'.no = p.no
    · have hsame := hb.unique hp' hp hno
      subst hsame
      exact Or.inr ⟨c, hnew, hc.trans hkey⟩
    · exact Or.inl ⟨p', List.mem_map.mpr ⟨p', hp', if_neg hno⟩, hkey, hawaited⟩
  · refine Or.inr ⟨c', ?_, hkey⟩
    rcases List.mem_append.mp hc' with hnow | hlater
    · exact List.mem_append_left _ hnow
    · exact List.mem_append_right _ (List.mem_append_left _ hlater)

/-- Processing the completion of another key. -/
theorem inFlight_complete (hc : b.completing = some c) (hkey : c.sessionKey ≠ k)
    (h : b.InFlight k) : (b.complete none b.completions).InFlight k := by
  rcases h with hprompt | ⟨c', hc', hkey'⟩
  · exact Or.inl hprompt
  · refine Or.inr ⟨c', List.mem_append_right _ ?_, hkey'⟩
    rcases List.mem_append.mp hc' with hnow | hlater
    · rw [hc] at hnow
      have hsame := Option.mem_toList.mp hnow
      cases hsame
      exact absurd hkey' hkey
    · exact hlater

end InFlight

/-! ### Runs -/

theorem Effect.progresses (h : Effect cfg m l b) (hticketed : m.backlog.Ticketed)
    (hguard : NoneStuck cfg m l) (hprogress : m.backlog.Progresses) :
    b.Progresses := by
  have hother : ∀ {c : PromptCompletion} {k : SessionKey}, m.completing = some c →
      c.sessionKey ≠ k → k ∈ m.queue.active →
      (m.backlog.complete none m.completions).InFlight k := fun hc hkey hk =>
    inFlight_complete hc hkey (hprogress _ hk)
  cases h with
  | quiet _ => exact hprogress
  | talked htalk =>
      obtain ⟨os, ks, rfl, _⟩ := htalk.talks
      exact hprogress
  | refused _ _ _ => exact hprogress
  | unqueued _ _ => exact fun k hk => inFlight_addPrompt (hprogress k hk)
  | @released _ k =>
      intro k' hk'
      rw [Backlog.release_active] at hk'
      split at hk'
      · exact hprogress k' (Finset.mem_of_mem_erase hk')
      · exact hprogress k' hk'
  | queued _ _ => exact hprogress
  | @dispatched _ k _ _ _ p _ _ _ _ hp =>
      intro k' hk'
      rcases Finset.mem_insert.mp hk' with hsame | hold
      · exact inFlight_new (hp.key.trans hsame.symm) hp.awaited
      · exact inFlight_addPrompt (hprogress k' hold)
  | @rejected _ k _ _ _ _ hplain hidle hcannot =>
      intro k' hk'
      rcases Finset.mem_insert.mp hk' with hsame | hold
      · rw [hsame]
        exact (hguard hplain hidle).resolve_left hcannot
      · exact hprogress k' hold
  | ended hp hends =>
      exact fun k hk => inFlight_endPrompt hticketed hp hends.completes.key (hprogress k hk)
  | abandoned hp _ => exact fun k hk => inFlight_abandon hticketed hp rfl (hprogress k hk)
  | @taken c rest hidle hc =>
      intro k hk
      rcases hprogress k hk with hprompt | ⟨c', hc', hkey⟩
      · exact Or.inl hprompt
      · refine Or.inr ⟨c', ?_, hkey⟩
        rw [Backlog.pending, backlog_completing, backlog_completions, hidle, hc] at hc'
        exact hc'
  | @finished _ c _ hc _ hempty =>
      intro k hk
      have hactive : k ∈ m.queue.active.erase c.sessionKey := by
        rw [Backlog.release_active] at hk
        exact (if_pos hempty).subst (motive := fun s => k ∈ s) hk
      obtain ⟨hne, hold⟩ := Finset.mem_erase.mp hactive
      exact hother hc (Ne.symm hne) hold
  | @redispatched _ c _ p _ hc _ _ _ hp =>
      intro k hk
      by_cases hsame : c.sessionKey = k
      · exact inFlight_new (hp.key.trans hsame) hp.awaited
      · exact inFlight_addPrompt (hother hc hsame hk)
  | @lost a c _ _ hc _ hwaiting hcannot _ =>
      intro k hk
      by_cases hsame : c.sessionKey = k
      · rw [← hsame]
        exact (hguard c hc hwaiting).resolve_left hcannot
      · exact hother hc hsame hk

/-- **No key gets stuck**, in every run in which no attempt to hand over a prompt fails
    for a key with nothing else in flight. -/
theorem inFlight_of_noneStuck (h : (life cfg).ReachableUnder (NoneStuck cfg) m) :
    ∀ k ∈ m.queue.active, m.backlog.InFlight k := by
  refine h.invariant (I := fun m => m.backlog.Progresses) ?_ ?_
  · intro m hinit k hk
    obtain ⟨os, _, hbacklog⟩ := life_init hinit
    rw [hbacklog] at hk
    cases hk
  · intro m l m' hreach hprogress hguard hstep
    have horderly := orderly_of_reachable hreach.reachable
    exact (step_advances horderly.plain hstep).effect.progresses horderly.ticketed hguard
      hprogress

/-- A message that is handed over makes its key active. -/
theorem inFlight_of_noneStuck_bob :
    ∃ m : AgentsManager 1, Sample.bob ∈ m.queue.active ∧
      ∀ k ∈ m.queue.active, m.backlog.InFlight k := by
  have hrun : ∃ m ∈ AgentsManager.execute Sample.cfg (NoneStuck Sample.cfg) true ∅ Sample.boot
      [Sample.send "hello" (Sample.answers "s")], Sample.bob ∈ m.queue.active := by
    decide
  obtain ⟨m, hm, hactive⟩ := hrun
  exact ⟨m, hactive, inFlight_of_noneStuck (reachable_of_execute Sample.cfg hm)⟩

/-- The first prompt of a key cannot be written: the key stays active for ever. -/
theorem key_stuck_after_failure :
    ¬ ∀ m, (life Sample.cfg).Reachable m → ∀ k ∈ m.queue.active, m.backlog.InFlight k := by
  intro hall
  have hrun : ∃ m ∈ Sample.execute
      [Sample.send "hello" { Sample.answers "s" with promptSent := false }],
        Sample.bob ∈ m.queue.active ∧ ¬ m.backlog.InFlight Sample.bob := by
    decide
  obtain ⟨m, hm, hactive, hnot⟩ := hrun
  exact hnot (hall m (reachable_of_execute Sample.cfg hm) Sample.bob hactive)

end AgentsManager

end Anyclaw
