import Anyclaw.Agents.Backlog

/-!
# Invariants of the queue

What holds of the backlog in every run of the manager, whatever the environment does:
only plain messages wait, only for active keys, numbers are used once, and every prompt
has at most one completion.

The queue is that of `crates/anyclaw-agents/src/session_queue.rs`, with the handlers of
`commands.rs` and `incoming.rs` around it.
-/

namespace Anyclaw

variable {n : Nat}

def Output.accepted : Output n → Option (SessionKey × MessageNo)
  | .reply no k true (.ok ()) => some (k, no)
  | _ => none

theorem Output.accepted_talk {o : Output n} (h : o.isTalk = true) : o.accepted = none := by
  cases o <;> first | rfl | cases h

namespace Backlog

/-- Only for an active key can anything wait. -/
def Claimed (b : Backlog n) : Prop := ∀ k, k ∉ b.active → b.queued k = []

/-- The completions that are still to be processed, or are being processed. -/
def pending (b : Backlog n) : List PromptCompletion := b.completing.toList ++ b.completions

/-- Prompts have distinct numbers, and a prompt that is awaited has no completion yet. -/
structure Ticketed (b : Backlog n) : Prop where
  fresh : ∀ p ∈ b.prompts, p.no < b.nextPrompt
  distinct : (b.prompts.map OutstandingPrompt.no).Nodup
  completed : ∀ c ∈ b.pending, c.prompt < b.nextPrompt
  once : (b.pending.map PromptCompletion.prompt).Nodup
  awaited : ∀ p ∈ b.prompts, p.awaited = true → p.no ∉ b.pending.map PromptCompletion.prompt

section Ticketed

variable {b : Backlog n}

/-- The number of an outstanding prompt identifies it. -/
theorem Ticketed.unique (h : b.Ticketed) {p p' : OutstandingPrompt n} (hp : p ∈ b.prompts)
    (hp' : p' ∈ b.prompts) (hno : p.no = p'.no) : p = p' :=
  List.inj_on_of_nodup_map h.distinct hp hp' hno

/-- Only the prompts and the completions matter. -/
theorem Ticketed.congr {b' : Backlog n} (h : b.Ticketed) (hprompts : b'.prompts = b.prompts)
    (hpending : b'.pending = b.pending) (hnext : b'.nextPrompt = b.nextPrompt) :
    b'.Ticketed where
  fresh := by rw [hprompts, hnext]; exact h.fresh
  distinct := by rw [hprompts]; exact h.distinct
  completed := by rw [hpending, hnext]; exact h.completed
  once := by rw [hpending]; exact h.once
  awaited := by rw [hprompts, hpending]; exact h.awaited

theorem Ticketed.addPrompt (h : b.Ticketed) {p : OutstandingPrompt n} (hno : p.no = b.nextPrompt) :
    (b.addPrompt p).Ticketed where
  fresh := by
    intro p' hp'
    rcases List.mem_append.mp hp' with hold | hnew
    · exact Nat.lt_succ_of_lt (h.fresh p' hold)
    · rw [List.mem_singleton.mp hnew, hno]
      exact Nat.lt_succ_self _
  distinct := by
    rw [addPrompt_prompts, List.map_append]
    refine h.distinct.append (List.nodup_singleton _) ?_
    intro no hold hnew
    obtain ⟨p', hp', rfl⟩ := List.mem_map.mp hold
    have hlt := h.fresh p' hp'
    rw [List.mem_singleton.mp hnew, hno] at hlt
    exact Nat.lt_irrefl _ hlt
  completed := fun c hc => Nat.lt_succ_of_lt (h.completed c hc)
  once := h.once
  awaited := by
    intro p' hp' hawaited hmem
    rcases List.mem_append.mp hp' with hold | hnew
    · exact h.awaited p' hold hawaited hmem
    · obtain ⟨c, hc, heq⟩ := List.mem_map.mp hmem
      have hlt := h.completed c hc
      rw [heq, List.mem_singleton.mp hnew, hno] at hlt
      exact Nat.lt_irrefl _ hlt

/-- The end of an awaited prompt is queued once. -/
theorem Ticketed.once_append (h : b.Ticketed) {p : OutstandingPrompt n} (hp : p ∈ b.prompts)
    (hawaited : p.awaited = true) {c : PromptCompletion} (hc : c.prompt = p.no) :
    ((b.pending ++ [c]).map PromptCompletion.prompt).Nodup := by
  rw [List.map_append]
  refine h.once.append (List.nodup_singleton _) ?_
  intro no hold hnew
  rw [List.mem_singleton.mp hnew, hc] at hold
  exact h.awaited p hp hawaited hold

theorem Ticketed.endPrompt (h : b.Ticketed) {p : OutstandingPrompt n} (hp : p ∈ b.prompts)
    {c : PromptCompletion} (hc : c.prompt = p.no) : (b.endPrompt p c).Ticketed := by
  have hpending : (b.endPrompt p c).pending =
      if p.awaited then b.pending ++ [c] else b.pending := by
    unfold pending
    rw [endPrompt_completing, endPrompt_completions]
    split
    · rw [List.append_assoc]
    · rfl
  refine
    { fresh := fun p' hp' => h.fresh p' (List.mem_filter.mp hp').1
      distinct := h.distinct.sublist (List.Sublist.map _ List.filter_sublist)
      completed := fun c' hc' => ?_
      once := ?_
      awaited := fun p' hp' hawaited' hmem => ?_ }
  · rw [hpending] at hc'
    split at hc'
    · rcases List.mem_append.mp hc' with hold | hnew
      · exact h.completed c' hold
      · rw [List.mem_singleton.mp hnew, hc]
        exact h.fresh p hp
    · exact h.completed c' hc'
  · rw [hpending]
    split
    · rename_i hawaited
      exact h.once_append hp hawaited hc
    · exact h.once
  · obtain ⟨hold, hne⟩ := List.mem_filter.mp hp'
    rw [hpending] at hmem
    split at hmem
    · rw [List.map_append] at hmem
      rcases List.mem_append.mp hmem with hmem | hnew
      · exact h.awaited p' hold hawaited' hmem
      · rw [List.map_singleton, List.mem_singleton, hc] at hnew
        simp [hnew] at hne
    · exact h.awaited p' hold hawaited' hmem

theorem Ticketed.abandon (h : b.Ticketed) {p : OutstandingPrompt n} (hp : p ∈ b.prompts)
    (hawaited : p.awaited = true) {c : PromptCompletion} (hc : c.prompt = p.no) :
    (b.abandon p c).Ticketed := by
  have hpending : (b.abandon p c).pending = b.pending ++ [c] := by
    unfold pending
    rw [abandon_completing, abandon_completions, List.append_assoc]
  have hnos : (b.abandon p c).prompts.map OutstandingPrompt.no =
      b.prompts.map OutstandingPrompt.no := by
    rw [abandon_prompts, List.map_map]
    congr 1
    funext p'
    rw [Function.comp_apply]
    split <;> rfl
  refine
    { fresh := fun p' hp' => ?_
      distinct := by rw [hnos]; exact h.distinct
      completed := fun c' hc' => ?_
      once := by rw [hpending]; exact h.once_append hp hawaited hc
      awaited := fun p' hp' hawaited' hmem => ?_ }
  · obtain ⟨p₀, hp₀, heq⟩ := List.mem_map.mp (hnos ▸ List.mem_map.mpr ⟨p', hp', rfl⟩)
    rw [← heq]
    exact h.fresh p₀ hp₀
  · rw [hpending] at hc'
    rcases List.mem_append.mp hc' with hold | hnew
    · exact h.completed c' hold
    · rw [List.mem_singleton.mp hnew, hc]
      exact h.fresh p hp
  · obtain ⟨p₀, hp₀, rfl⟩ := List.mem_map.mp hp'
    split at hawaited'
    · cases hawaited'
    · rename_i hne
      rw [if_neg hne, hpending, List.map_append] at hmem
      rcases List.mem_append.mp hmem with hmem | hnew
      · exact h.awaited p₀ hp₀ hawaited' hmem
      · rw [List.map_singleton, List.mem_singleton, hc] at hnew
        exact hne hnew

/-- Completions are only processed from the front. -/
theorem Ticketed.complete (h : b.Ticketed) {c : Option PromptCompletion}
    {rest : List PromptCompletion} (hpending : (b.complete c rest).pending.Sublist b.pending) :
    (b.complete c rest).Ticketed where
  fresh := h.fresh
  distinct := h.distinct
  completed := fun c' hc' => h.completed c' (hpending.subset hc')
  once := h.once.sublist (hpending.map _)
  awaited := fun p hp hawaited hmem =>
    h.awaited p hp hawaited ((hpending.map PromptCompletion.prompt).subset hmem)

end Ticketed

end Backlog

namespace AgentsManager

variable {cfg : AgentsManagerConfig n} {m m' : AgentsManager n} {l : Label n} {b : Backlog n}

theorem Effect.plain (h : Effect cfg m l b) (hplain : m.backlog.Plain) : b.Plain := by
  have hclear : ∀ k, (m.backlog.clear k).Plain := by
    intro k k' p hp
    rw [Backlog.clear_queued] at hp
    split at hp
    · cases hp
    · exact hplain k' p hp
  have hrelease : ∀ k, (m.backlog.release k).Plain := by
    intro k k' p hp
    rw [Backlog.release_queued] at hp
    split at hp
    · exact hplain k p (List.mem_of_mem_tail hp)
    · exact hplain k' p hp
  cases h with
  | quiet _ => exact hplain
  | talked htalk =>
      obtain ⟨os, ks, rfl, _⟩ := htalk.talks
      exact hplain
  | unqueued _ _ => exact hplain
  | @released _ k => exact hrelease k
  | refused _ _ _ => exact hplain
  | @queued _ k content metadata _ hcontent _ =>
      intro k' p hp
      rw [Backlog.say_queued, Backlog.wait_queued] at hp
      split at hp
      · rcases List.mem_append.mp hp with hp | hp
        · exact hplain k p hp
        · rw [List.mem_singleton.mp hp]
          exact hcontent
      · exact hplain k' p hp
  | @dispatched _ k => exact hclear k
  | @rejected _ k => exact hclear k
  | ended _ _ => exact hplain
  | abandoned _ _ => exact hplain
  | taken _ _ => exact hplain
  | @finished _ c => exact hrelease c.sessionKey
  | @redispatched _ c => exact hclear c.sessionKey
  | @lost _ c => exact hclear c.sessionKey

theorem Effect.claimed (h : Effect cfg m l b) (hclaimed : m.backlog.Claimed) : b.Claimed := by
  have hclear : ∀ k, (m.backlog.clear k).Claimed := by
    intro k k' hk
    rw [Backlog.clear_queued]
    split
    · rfl
    · exact hclaimed k' hk
  have hclaim : ∀ k, ((m.backlog.clear k).claim k).Claimed := by
    intro k k' hk
    exact hclear k k' fun hactive => hk (Finset.mem_insert_of_mem hactive)
  have hrelease : ∀ k, (m.backlog.release k).Claimed := by
    intro k k' hk
    rw [Backlog.release_active] at hk
    rw [Backlog.release_queued]
    by_cases hempty : m.backlog.queued k = []
    · rw [if_pos hempty] at hk
      by_cases hsame : k' = k
      · rw [if_pos hsame, hempty]
        rfl
      · rw [if_neg hsame]
        exact hclaimed k' fun hactive => hk (Finset.mem_erase.mpr ⟨hsame, hactive⟩)
    · rw [if_neg hempty] at hk
      have hsame : k' ≠ k := by
        rintro rfl
        exact hempty (hclaimed k' hk)
      rw [if_neg hsame]
      exact hclaimed k' hk
  cases h with
  | quiet _ => exact hclaimed
  | talked htalk =>
      obtain ⟨os, ks, rfl, _⟩ := htalk.talks
      exact hclaimed
  | unqueued _ _ => exact hclaimed
  | @released _ k => exact hrelease k
  | refused _ _ _ => exact hclaimed
  | @queued _ k _ _ _ _ hactive =>
      intro k' hk
      rw [Backlog.say_queued, Backlog.wait_queued]
      have hsame : k' ≠ k := by
        rintro rfl
        exact hk hactive
      rw [if_neg hsame]
      exact hclaimed k' hk
  | @dispatched _ k => exact hclaim k
  | @rejected _ k => exact hclaim k
  | ended _ _ => exact hclaimed
  | abandoned _ _ => exact hclaimed
  | taken _ _ => exact hclaimed
  | @finished _ c => exact hrelease c.sessionKey
  | @redispatched _ c => exact hclear c.sessionKey
  | @lost _ c => exact hclear c.sessionKey

theorem Effect.ticketed (h : Effect cfg m l b) (hb : m.backlog.Ticketed) : b.Ticketed := by
  have hdone : (m.backlog.complete none m.completions).Ticketed :=
    hb.complete (List.sublist_append_right _ _)
  cases h with
  | quiet _ => exact hb
  | talked htalk =>
      obtain ⟨os, ks, rfl, _⟩ := htalk.talks
      exact hb.congr rfl rfl rfl
  | unqueued hno _ => exact hb.addPrompt hno
  | released _ => exact hb.congr rfl rfl rfl
  | refused _ _ _ => exact hb.congr rfl rfl rfl
  | queued _ _ => exact hb.congr rfl rfl rfl
  | dispatched _ _ _ hp => exact (hb.addPrompt hp.no).congr rfl rfl rfl
  | rejected _ _ _ => exact hb.congr rfl rfl rfl
  | ended hp hends => exact hb.endPrompt hp hends.completes.no
  | abandoned hp hawaited => exact hb.abandon hp hawaited rfl
  | taken hidle hc =>
      refine hb.complete ?_
      unfold Backlog.pending
      rw [Backlog.complete_completing, Backlog.complete_completions, backlog_completing,
        backlog_completions, hidle, hc]
      exact List.Sublist.refl _
  | finished _ _ _ => exact hdone.congr rfl rfl rfl
  | redispatched _ _ _ _ hp => exact (hdone.addPrompt hp.no).congr rfl rfl rfl
  | lost _ _ _ _ _ => exact hdone.congr rfl rfl rfl

theorem Effect.sender (h : Effect cfg m l b) : b.sender = m.channelsSender := by
  cases h with
  | talked htalk =>
      obtain ⟨os, ks, rfl, _⟩ := htalk.talks
      rfl
  | _ => rfl

/-- A step accepts at most one message, under the next number. -/
theorem Effect.accepted (h : Effect cfg m l b) :
    b.messages.filterMap Output.accepted = m.backlog.messages.filterMap Output.accepted ∨
      ∃ name k content metadata a, l = .command (.enqueueMessage name k content metadata) a ∧
        b.messages.filterMap Output.accepted =
          m.backlog.messages.filterMap Output.accepted ++ [(k, m.nextMessage)] := by
  have htold : ∀ es, (m.told es).filterMap Output.accepted = [] := fun es =>
    filterMap_talk (fun _ => Output.accepted_talk) (isTalk_told m es)
  cases h with
  | queued _ _ =>
      refine Or.inr ⟨_, _, _, _, _, rfl, ?_⟩
      rw [Backlog.say_messages, List.filterMap_append]
      rfl
  | dispatched _ _ _ _ =>
      refine Or.inr ⟨_, _, _, _, _, rfl, ?_⟩
      simp [htold, List.filterMap_append, List.filterMap_cons, Output.accepted]
  | rejected _ _ _ =>
      refine Or.inl ?_
      simp [htold, List.filterMap_append, List.filterMap_cons, Output.accepted]
  | talked htalk =>
      obtain ⟨os, ks, rfl, hos⟩ := htalk.talks
      refine Or.inl ?_
      rw [Backlog.withStreaming_messages, Backlog.sayAll_messages, List.filterMap_append,
        filterMap_talk (fun _ => Output.accepted_talk) hos, List.append_nil]
  | released _ => exact Or.inl (by simp [htold, List.filterMap_append])
  | refused _ _ _ => exact Or.inl (by simp [htold, List.filterMap_append])
  | finished _ _ _ => exact Or.inl (by simp [reported, htold, List.filterMap_append])
  | redispatched _ _ _ _ _ =>
      refine Or.inl ?_
      simp [reported, htold, List.filterMap_append, List.filterMap_cons, Output.accepted]
  | lost _ _ _ _ _ => exact Or.inl (by simp [reported, htold, List.filterMap_append])
  | quiet _ => exact Or.inl rfl
  | unqueued _ _ => exact Or.inl rfl
  | ended _ _ => exact Or.inl rfl
  | abandoned _ _ => exact Or.inl rfl
  | taken _ _ => exact Or.inl rfl

/-- Outputs about messages, read from the backlog. -/
theorem filterMap_messages {β : Type} (m : AgentsManager n) {f : Output n → Option β}
    (hf : ∀ o, o.isMessage = false → f o = none) :
    m.backlog.messages.filterMap f = m.trace.filterMap f := by
  rw [backlog_messages, List.filterMap_filter]
  congr 1
  funext o
  split
  · rfl
  · rename_i ho
    exact (hf o (Bool.eq_false_iff.mpr ho)).symm

/-- What holds of the queue in every run. -/
structure Orderly (m : AgentsManager n) : Prop where
  plain : m.backlog.Plain
  claimed : m.backlog.Claimed
  ticketed : m.backlog.Ticketed
  /-- Message numbers are used once. -/
  numbers : ∀ e ∈ m.backlog.messages.filterMap Output.accepted, e.2 < m.nextMessage

theorem Orderly.step (h : Orderly m) (hstep : step cfg m l = some m') : Orderly m' := by
  have hadvances := step_advances h.plain hstep
  refine ⟨hadvances.effect.plain h.plain, hadvances.effect.claimed h.claimed,
    hadvances.effect.ticketed h.ticketed, ?_⟩
  intro e he
  rcases hadvances.effect.accepted with hsame | ⟨name, k, content, metadata, a, hl, hnew⟩
  · rw [hsame] at he
    exact Nat.lt_of_lt_of_le (h.numbers e he) hadvances.numbers
  · rw [hnew] at he
    rcases List.mem_append.mp he with hold | hlast
    · exact Nat.lt_of_lt_of_le (h.numbers e hold) hadvances.numbers
    · rw [List.mem_singleton.mp hlast]
      exact hadvances.numbered name k content metadata a hl

/-- A life starts with nothing queued; processes were spawned. -/
theorem life_init (h : (life cfg).init m) :
    ∃ os : List (Output n), (∀ o ∈ os, o.isSpawn = true) ∧
      m.backlog =
        { queued := fun _ => [], active := ∅, prompts := [], completions := []
          completing := none, nextPrompt := 0, streaming := ∅, sender := m.channelsSender
          messages := os } := by
  obtain ⟨channelsSender, store, b, hstart⟩ := h
  obtain ⟨⟨os, hspoken, hos⟩, _⟩ := start_boots cfg _ b hstart
  have hsender : m.channelsSender = channelsSender := hspoken.sender
  refine ⟨os, hos, ?_⟩
  rw [hspoken.backlog, hsender]
  rfl

theorem orderly_of_reachable (h : (life cfg).Reachable m) : Orderly m := by
  refine h.invariant ?_ fun m l m' _ hI _ hstep => hI.step hstep
  intro m hinit
  obtain ⟨os, hos, hbacklog⟩ := life_init hinit
  refine ⟨?_, ?_, ?_, ?_⟩
  · intro k p hp
    rw [hbacklog] at hp
    cases hp
  · intro k _
    rw [hbacklog]
  · rw [hbacklog]
    exact ⟨fun _ h => (nomatch h), List.nodup_nil, fun _ h => (nomatch h), List.nodup_nil,
      fun _ h => (nomatch h)⟩
  · intro e he
    rw [hbacklog, filterMap_talk (fun _ => Output.accepted_talk)
      fun o ho => isTalk_of_isSpawn (hos o ho)] at he
    cases he

/-- What was observed stays observed. -/
theorem RunUnder.trace {G : AgentsManager n → Label n → Prop} (hreach : (life cfg).Reachable m)
    (h : (life cfg).RunUnder G m m') : m.trace <+: m'.trace := by
  have hboth : (life cfg).Reachable m' ∧ m.trace <+: m'.trace := by
    refine h.preserves (I := fun m' => (life cfg).Reachable m' ∧ m.trace <+: m'.trace) ?_
      ⟨hreach, List.prefix_refl _⟩
    rintro m₁ l m₂ ⟨hreach₁, htrace⟩ _ hstep
    exact ⟨hreach₁.step trivial hstep,
      htrace.trans (step_advances (orderly_of_reachable hreach₁).plain hstep).trace⟩
  exact hboth.2

end AgentsManager

end Anyclaw
