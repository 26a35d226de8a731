import Anyclaw.Agents.Delivery

/-!
# Messages reach the agent at most once

`/new`, `/cancel` and a failed dispatch make the manager forget messages that wait.  What
they cannot do is hand a message over twice, hand it over for another key, or change the
order of the messages of a key: seen as a mailbox, the manager accepts, hands over what
waits, and forgets.  This holds in every run, whatever the agents and the channels do.

The handlers are those of `commands.rs` and `incoming.rs` in `crates/anyclaw-agents/src`, the
queue is that of `session_queue.rs` beside them.
-/

namespace Anyclaw

variable {n : Nat}

namespace Backlog

/-- The backlog `b'` handed over and accepted what `b` did, and less waits in it. -/
structure Thinner (b b' : Backlog n) : Prop where
  accepted : b'.messages.filterMap Output.accepted = b.messages.filterMap Output.accepted
  handed : b'.messages.filterMap Output.handed = b.messages.filterMap Output.handed
  queued : ∀ k, (b'.queued k).Sublist (b.queued k)

variable {b b' b'' : Backlog n} {k : SessionKey}

theorem Thinner.refl (b : Backlog n) : Thinner b b :=
  ⟨rfl, rfl, fun _ => List.Sublist.refl _⟩

theorem Thinner.trans (h : Thinner b b') (h' : Thinner b' b'') : Thinner b b'' :=
  ⟨h'.accepted.trans h.accepted, h'.handed.trans h.handed, fun k => (h'.queued k).trans (h.queued k)⟩

theorem Thinner.sayAll (h : Thinner b b') {os : List (Output n)}
    (hos : ∀ o ∈ os, o.isTalk = true) : Thinner b (b'.sayAll os) := by
  refine h.trans ⟨?_, ?_, fun _ => List.Sublist.refl _⟩
  · simp [AgentsManager.filterMap_talk (fun _ => Output.accepted_talk) hos]
  · simp [AgentsManager.filterMap_talk (fun _ => Output.handed_talk) hos]

theorem Thinner.clear (h : Thinner b b') (k : SessionKey) : Thinner b (b'.clear k) := by
  refine h.trans ⟨rfl, rfl, fun k' => ?_⟩
  simp only [clear_queued]
  split
  · exact List.nil_sublist _
  · exact List.Sublist.refl _

theorem Thinner.release (h : Thinner b b') (k : SessionKey) : Thinner b (b'.release k) := by
  refine h.trans ⟨rfl, rfl, fun k' => ?_⟩
  simp only [release_queued]
  split
  · rename_i hk
    subst hk
    exact List.tail_sublist _
  · exact List.Sublist.refl _

theorem Thinner.mailbox (h : Thinner b b') (hb : (b.mailbox []).AtMostOnce) :
    (b'.mailbox []).AtMostOnce :=
  hb.forget h.accepted h.handed fun k => (h.queued k).flatMap RichPayload.origin

end Backlog

/-! ### One step -/

theorem thinner_told (b : Backlog n) (m : AgentsManager n) (es : List ChannelEvent) :
    Backlog.Thinner b (b.sayAll (m.told es)) :=
  (Backlog.Thinner.refl b).sayAll (AgentsManager.isTalk_told m es)

theorem thinner_reported (m : AgentsManager n) (c : PromptCompletion) (d : Delivered) :
    Backlog.Thinner m.backlog (m.reported c d) := by
  have htaken : Backlog.Thinner m.backlog ((m.backlog.complete none m.completions).withStreaming
      (m.streamingCompleted.erase c.sessionKey)) := ⟨rfl, rfl, fun _ => List.Sublist.refl _⟩
  exact htaken.sayAll (AgentsManager.isTalk_told m _)

namespace AgentsManager

variable {cfg : AgentsManagerConfig n} {m m' : AgentsManager n} {l : Label n} {b : Backlog n}

/-- **A step hands nothing over twice.** -/
theorem Effect.atMostOnce (h : Effect cfg m l b)
    (hfresh : m.nextMessage ∉ (m.backlog.mailbox []).accepted.map Prod.snd)
    (hm : (m.backlog.mailbox []).AtMostOnce) : (b.mailbox []).AtMostOnce := by
  cases h with
  | quiet _ => exact hm
  | talked htalk =>
      obtain ⟨os, ks, rfl, hos⟩ := htalk.talks
      exact ((Backlog.Thinner.refl m.backlog).sayAll hos).mailbox hm
  | unqueued _ _ => exact hm
  | released _ => exact ((thinner_told m.backlog m _).release _).mailbox hm
  | refused _ _ _ => exact (thinner_told m.backlog m _).mailbox hm
  | queued _ _ =>
      rw [Backlog.mailbox_wait]
      exact hm.accept hfresh
  | @dispatched _ k _ _ _ _ _ _ _ _ hp =>
      have hmailbox := Backlog.mailbox_acceptHand (m.backlog.sayAll (m.told [.dispatchStarted k]))
        [] _ hp.key
      simp only [Backlog.sayAll_queued, backlog_queued] at hmailbox
      rw [hmailbox, Backlog.mailbox_sayAll _ _ (isTalk_told m _)]
      exact (hm.accept hfresh).hand k
  | rejected _ _ _ =>
      refine Backlog.Thinner.mailbox (b := m.backlog) ?_ hm
      refine ((thinner_told m.backlog m _).clear _).trans ⟨?_, ?_, fun _ => List.Sublist.refl _⟩
      · simp [Output.accepted]
      · simp [Output.handed]
  | ended _ _ => exact hm
  | abandoned _ _ => exact hm
  | taken _ _ => exact hm
  | finished _ _ _ => exact ((thinner_reported m _ _).release _).mailbox hm
  | @redispatched _ c d _ _ _ _ _ _ hp =>
      have hmailbox := Backlog.mailbox_hand
        ((m.reported c d).sayAll (m.told [.dispatchStarted c.sessionKey])) [] _ hp.key
      have hqueued : (m.reported c d).queued = m.queue.queued := rfl
      simp only [Backlog.sayAll_queued, hqueued] at hmailbox
      rw [hmailbox, Backlog.mailbox_sayAll _ _ (isTalk_told m _)]
      exact ((thinner_reported m c d).mailbox hm).hand c.sessionKey
  | lost _ _ _ _ _ =>
      exact (((thinner_reported m _ _).sayAll (isTalk_told m _)).clear _).mailbox hm

/-- A step accepts a message only under a number above all that were accepted. -/
theorem Effect.increasing (h : Effect cfg m l b)
    (hnumbers : ∀ e ∈ m.backlog.messages.filterMap Output.accepted, e.2 < m.nextMessage)
    (hm : (m.backlog.messages.filterMap Output.accepted).Pairwise fun e e' => e.2 < e'.2) :
    (b.messages.filterMap Output.accepted).Pairwise fun e e' => e.2 < e'.2 := by
  rcases h.accepted with hsame | ⟨_, k, _, _, _, _, hnew⟩
  · rwa [hsame]
  · rw [hnew, List.pairwise_append]
    refine ⟨hm, List.pairwise_singleton _ _, fun e he e' he' => ?_⟩
    rw [List.mem_singleton.mp he']
    exact hnumbers e he

/-! ### All runs -/

/-- Seen as a mailbox, the manager hands nothing over twice and numbers messages upwards. -/
structure HandsOnce (m : AgentsManager n) : Prop where
  mailbox : (m.backlog.mailbox []).AtMostOnce
  increasing : (m.backlog.messages.filterMap Output.accepted).Pairwise fun e e' => e.2 < e'.2

theorem HandsOnce.step (h : HandsOnce m) (horderly : Orderly m)
    (hstep : AgentsManager.step cfg m l = some m') : HandsOnce m' := by
  have heffect := (step_advances horderly.plain hstep).effect
  refine ⟨heffect.atMostOnce ?_ h.mailbox, heffect.increasing horderly.numbers h.increasing⟩
  intro hmem
  obtain ⟨e, he, heq⟩ := List.mem_map.mp hmem
  exact absurd (horderly.numbers e he) (by rw [heq]; exact Nat.lt_irrefl _)

theorem handsOnce_of_reachable (h : (life cfg).Reachable m) : HandsOnce m := by
  refine h.invariant ?_ fun m l m' hreach hI _ hstep => hI.step (orderly_of_reachable hreach) hstep
  intro m hinit
  obtain ⟨os, hos, hbacklog⟩ := life_init hinit
  have htalk : ∀ o ∈ os, o.isTalk = true := fun o ho => isTalk_of_isSpawn (hos o ho)
  rw [show HandsOnce m ↔ (m.backlog.mailbox []).AtMostOnce ∧ _ from
    ⟨fun h => ⟨h.1, h.2⟩, fun h => ⟨h.1, h.2⟩⟩, hbacklog]
  refine ⟨?_, ?_⟩
  · exact Mailbox.atMostOnce_empty.forget
      (filterMap_talk (fun _ => Output.accepted_talk) htalk)
      (filterMap_talk (fun _ => Output.handed_talk) htalk) fun _ => List.nil_sublist _
  · simp only [filterMap_talk (fun _ => Output.accepted_talk) htalk]
    exact List.Pairwise.nil

/-- What was handed over and then what waits, in the order of acceptance. -/
theorem HandsOnce.ordered (h : HandsOnce m) (k : SessionKey) :
    (m.handed k ++ m.waiting k).Sublist (m.accepted k) := by
  have hmailbox := h.mailbox
  rw [backlog_mailbox] at hmailbox
  exact hmailbox.ordered k

theorem HandsOnce.accepted_increasing (h : HandsOnce m) (k : SessionKey) :
    (m.accepted k).Pairwise (· < ·) := by
  have hread : m.backlog.messages.filterMap Output.accepted = m.trace.filterMap Output.accepted :=
    congrArg Mailbox.accepted (backlog_mailbox m [])
  have hincreasing := h.increasing
  rw [hread] at hincreasing
  refine hincreasing.filterMap _ fun e e' hlt i hi i' hi' => ?_
  simp only [Option.ite_none_right_eq_some, Option.some.injEq] at hi hi'
  rw [← hi.2, ← hi'.2]
  exact hlt

/-- What the prompts carry of the messages of a key. -/
structure CarriesOnce (m : AgentsManager n) (k : SessionKey) : Prop where
  /-- What was handed over and then what waits are accepted messages, in the order of their
      acceptance: none is in two places and none overtakes another. -/
  ordered : (m.handed k ++ m.waiting k).Sublist (m.accepted k)
  /-- Messages are accepted in the order of their commands, each once. -/
  increasing : (m.accepted k).Pairwise (· < ·)
  /-- An accepted message is carried by one prompt at most, and that prompt is for its key. -/
  carried : ∀ i ∈ m.accepted k,
    m.carriers i = [] ∨ ∃ is, m.carriers i = [(k, is)] ∧ i ∉ m.waiting k

/-- **In every run each message reaches the agent at most once, in order, and for its own
    key**, whatever is cancelled, renewed, lost or restarted. -/
theorem carriesOnce_of_reachable (h : (life cfg).Reachable m) (k : SessionKey) :
    CarriesOnce m k := by
  have honce := handsOnce_of_reachable h
  have hmailbox := honce.mailbox
  rw [backlog_mailbox] at hmailbox
  refine ⟨honce.ordered k, honce.accepted_increasing k, fun i hi => ?_⟩
  rcases hmailbox.carriers i with hnone | ⟨k', is, hone, hacc⟩
  · exact Or.inl hnone
  · have hkey : k' = k := congrArg Prod.fst
      (List.inj_on_of_nodup_map hmailbox.nodup hacc (Mailbox.mem_forKey.mp hi) rfl)
    subst hkey
    refine Or.inr ⟨is, hone, fun hwait => ?_⟩
    have hbatch : (k', is) ∈ (m.mailbox []).carriers i := by
      rw [show (m.mailbox []).carriers i = _ from hone]
      exact List.mem_singleton_self _
    obtain ⟨hbatch, hmem⟩ := List.mem_filter.mp hbatch
    have hhanded : i ∈ m.handed k' := Mailbox.mem_handed.mpr ⟨is, hbatch, by simpa using hmem⟩
    have hnodup := (hmailbox.nodup_forKey k').sublist (hmailbox.ordered k')
    exact (List.nodup_append.mp hnodup).2.2 i hhanded i hwait rfl

/-- `/new` forgets the second of three messages, and the third waits. -/
theorem carriesOnce_of_reachable_new :
    ∃ m : AgentsManager 1, m.accepted Sample.bob = [0, 1, 3] ∧ m.handed Sample.bob = [0] ∧
      m.waiting Sample.bob = [3] ∧ CarriesOnce m Sample.bob := by
  have hrun : ∃ m ∈ Sample.execute [Sample.send "hello" (Sample.answers "s"),
      Sample.send "there" (Sample.answers "s"), Sample.send "/new" (Sample.answers "t"),
      Sample.send "again" (Sample.answers "t")],
        m.accepted Sample.bob = [0, 1, 3] ∧ m.handed Sample.bob = [0] ∧
          m.waiting Sample.bob = [3] := by
    decide
  obtain ⟨m, hm, haccepted, hhanded, hwaiting⟩ := hrun
  exact ⟨m, haccepted, hhanded, hwaiting,
    carriesOnce_of_reachable (reachable_of_execute Sample.cfg hm) Sample.bob⟩

end AgentsManager

end Anyclaw
