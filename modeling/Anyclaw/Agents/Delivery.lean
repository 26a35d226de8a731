import Anyclaw.Library.Mailbox
import Anyclaw.Agents.QueueInvariants

/-!
# What becomes of an accepted message

The queueing of messages is a keyed mailbox: an accepted message waits, and a prompt
takes everything that waits for its key.  The manager moves like a mailbox, except that
a popped payload that is not dispatched is gone; runs in which this happens only under
an error result keep every accepted message accounted for.

The queue is that of `crates/anyclaw-agents/src/session_queue.rs`; what is popped and not
dispatched is lost in `handle_prompt_completion` (`incoming.rs`), and in
`handle_platform_command` (`commands.rs`), which drops what `mark_idle` returns.
-/

namespace Anyclaw

variable {n : Nat}

def Output.handed : Output n → Option (SessionKey × List MessageNo)
  | .prompt p _ origin => some (p.sessionKey, origin)
  | _ => none

theorem Output.handed_talk {o : Output n} (h : o.isTalk = true) : o.handed = none := by
  cases o <;> first | rfl | cases h

namespace AgentsManager

variable (cfg : AgentsManagerConfig n) (m : AgentsManager n)

/-! ### The mailbox of a state -/

def waiting (k : SessionKey) : List MessageNo := (m.queue.queued k).flatMap RichPayload.origin

def mailbox (dropped : List (SessionKey × MessageNo)) : Mailbox SessionKey MessageNo where
  accepted := m.trace.filterMap Output.accepted
  waiting := m.waiting
  batches := m.trace.filterMap Output.handed
  dropped := dropped

def accepted (k : SessionKey) : List MessageNo :=
  Mailbox.forKey k (m.trace.filterMap Output.accepted)

def handed (k : SessionKey) : List MessageNo := (m.mailbox []).handed k

def carriers (i : MessageNo) : List (SessionKey × List MessageNo) := (m.mailbox []).carriers i

end AgentsManager

namespace Backlog

variable (b : Backlog n) (d : List (SessionKey × MessageNo)) (k : SessionKey)

def mailbox : Mailbox SessionKey MessageNo where
  accepted := b.messages.filterMap Output.accepted
  waiting := fun k => (b.queued k).flatMap RichPayload.origin
  batches := b.messages.filterMap Output.handed
  dropped := d

/-- Talk does not count. -/
theorem mailbox_sayAll {os : List (Output n)} (hos : ∀ o ∈ os, o.isTalk = true) :
    (b.sayAll os).mailbox d = b.mailbox d := by
  refine Mailbox.ext ?_ rfl ?_ rfl
  · simp [mailbox, AgentsManager.filterMap_talk (fun _ => Output.accepted_talk) hos]
  · simp [mailbox, AgentsManager.filterMap_talk (fun _ => Output.handed_talk) hos]

theorem mailbox_wait (content : List ContentPart) (metadata : Option MessageMetadata)
    (no : MessageNo) :
    ((b.wait k ⟨content, metadata, [no]⟩).say (.reply no k true (.ok ()))).mailbox d =
      (b.mailbox d).accept k no := by
  refine Mailbox.ext ?_ ?_ ?_ rfl
  · simp [mailbox, Output.accepted]
  · funext k'
    simp only [mailbox, say_queued, wait_queued, Mailbox.accept_waiting]
    split <;> simp
  · simp [mailbox, Output.handed]

theorem mailbox_clear (h : b.queued k = []) : (b.clear k).mailbox d = b.mailbox d := by
  refine Mailbox.ext rfl ?_ rfl rfl
  funext k'
  simp only [mailbox, clear_queued]
  split
  · rename_i hk
    rw [hk, h]
  · rfl

theorem mailbox_release (h : b.queued k = []) : (b.release k).mailbox d = b.mailbox d := by
  refine Mailbox.ext rfl ?_ rfl rfl
  funext k'
  simp only [mailbox, release_queued]
  split
  · rename_i hk
    rw [hk, h]
    rfl
  · rfl

theorem mailbox_drop :
    (b.clear k).mailbox (d ++ ((b.mailbox d).waiting k).map fun i => (k, i)) =
      (b.mailbox d).drop k := by
  refine Mailbox.ext rfl ?_ rfl rfl
  funext k'
  simp only [mailbox, clear_queued, Mailbox.drop_waiting]
  split <;> rfl

variable {p : OutstandingPrompt n} (hp : p.sessionKey = k) (parts : List ContentPart)

include hp

theorem mailbox_hand :
    (((b.clear k).addPrompt p).say
      (.prompt p parts ((b.queued k).flatMap RichPayload.origin))).mailbox d =
        (b.mailbox d).hand k := by
  refine Mailbox.ext ?_ ?_ ?_ rfl
  · simp [mailbox, Output.accepted]
  · funext k'
    simp only [mailbox, say_queued, addPrompt_queued, clear_queued, Mailbox.hand_waiting]
    split <;> rfl
  · simp [mailbox, Output.handed, hp]

theorem mailbox_acceptHand (no : MessageNo) :
    (((((b.clear k).claim k).addPrompt p).say
      (.prompt p parts ((b.queued k).flatMap RichPayload.origin ++ [no]))).say
        (.reply no k true (.ok ()))).mailbox d = ((b.mailbox d).accept k no).hand k := by
  refine Mailbox.ext ?_ ?_ ?_ rfl
  · simp [mailbox, List.filterMap_cons, Output.accepted]
  · funext k'
    simp only [mailbox, say_queued, addPrompt_queued, claim_queued, clear_queued,
      Mailbox.hand_waiting, Mailbox.accept_waiting]
    split <;> rfl
  · simp [mailbox, List.filterMap_cons, Output.handed, hp]

end Backlog

namespace AgentsManager

theorem backlog_mailbox (m : AgentsManager n) (d : List (SessionKey × MessageNo)) :
    m.backlog.mailbox d = m.mailbox d := by
  refine Mailbox.ext (filterMap_messages m ?_) rfl (filterMap_messages m ?_) rfl
  · intro o ho
    unfold Output.accepted
    split
    · cases ho
    · rfl
  · intro o ho
    unfold Output.handed
    split
    · cases ho
    · rfl

end AgentsManager

namespace AgentsManager

variable {cfg : AgentsManagerConfig n} {m m' : AgentsManager n} {l : Label n} {b : Backlog n}

/-! ### No message is lost -/

/-- A message that was waiting for `k` left the queue in a step that delivered an error
    result to the channel of `k`. -/
def Covered (cfg : AgentsManagerConfig n) (m : AgentsManager n) (k : SessionKey)
    (i : MessageNo) : Prop :=
  ∃ m₁ l m₂, (life cfg).Reachable m₁ ∧ AgentsManager.step cfg m₁ l = some m₂ ∧
    (life cfg).RunUnder (fun _ _ => True) m₂ m ∧
    i ∈ m₁.waiting k ∧ i ∉ m₂.waiting k ∧ ErrorShown k m₁ m₂

theorem Covered.step {k : SessionKey} {i : MessageNo} (h : Covered cfg m k i)
    (hstep : AgentsManager.step cfg m l = some m') : Covered cfg m' k i := by
  obtain ⟨m₁, l₁, m₂, hreach, hstep₁, hrun, hwait, hgone, herror⟩ := h
  exact ⟨m₁, l₁, m₂, hreach, hstep₁, hrun.tail ⟨l, trivial, hstep⟩, hwait, hgone, herror⟩

/-- Nothing waits for a key that `/new` or `/cancel` releases; and when a prompt ends,
    what waits behind it is handed to the agent or the channel is shown an error. -/
def NothingLost (cfg : AgentsManagerConfig n) (m : AgentsManager n) : Label n → Prop
  | .command (.enqueueMessage name k content _) a =>
      CanRelease cfg m name k content a → m.queue.queued k = []
  | .finishCompletion a =>
      ∀ c ∈ m.completing, m.queue.queued c.sessionKey ≠ [] →
        CanRedispatch cfg m c a ∨ ShowsError m c
  | _ => True

instance (cfg : AgentsManagerConfig n) (m : AgentsManager n) (l : Label n) :
    Decidable (NothingLost cfg m l) := by
  unfold NothingLost
  split <;> infer_instance

/-- What a step does to the mailbox: it runs, or what waited behind a prompt is gone. -/
theorem Effect.moves (h : Effect cfg m l b) (hclaimed : m.backlog.Claimed)
    (hguard : NothingLost cfg m l) {d : List (SessionKey × MessageNo)}
    (hfresh : m.nextMessage ∉ (m.backlog.mailbox d).accepted.map Prod.snd) :
    (Mailbox.machine SessionKey MessageNo).RunUnder (fun _ _ => True)
        (m.backlog.mailbox d) (b.mailbox d) ∨
      ∃ a c, l = .finishCompletion a ∧ m.completing = some c ∧ ShowsError m c ∧
        b.queued c.sessionKey = [] ∧
        b.mailbox (d ++ (m.waiting c.sessionKey).map fun i => (c.sessionKey, i)) =
          (m.backlog.mailbox d).drop c.sessionKey := by
  have hstay : b.mailbox d = m.backlog.mailbox d →
      (Mailbox.machine SessionKey MessageNo).RunUnder (fun _ _ => True)
        (m.backlog.mailbox d) (b.mailbox d) := by
    intro heq
    rw [heq]
    exact Relation.ReflTransGen.refl
  have htold : ∀ (b : Backlog n) (es : List ChannelEvent) (d : List (SessionKey × MessageNo)),
      (b.sayAll (m.told es)).mailbox d = b.mailbox d := fun b es d =>
    b.mailbox_sayAll d (isTalk_told m es)
  cases h with
  | quiet _ => exact Or.inl (hstay rfl)
  | talked htalk =>
      obtain ⟨os, ks, rfl, hos⟩ := htalk.talks
      exact Or.inl (hstay (m.backlog.mailbox_sayAll d hos))
  | unqueued _ _ => exact Or.inl (hstay rfl)
  | released hcan =>
      refine Or.inl (hstay ?_)
      rw [Backlog.mailbox_release (m.backlog.sayAll _) d _ (hguard hcan), htold]
  | refused _ _ _ => exact Or.inl (hstay (htold _ _ d))
  | queued _ _ =>
      rw [Backlog.mailbox_wait]
      exact Or.inl (Mailbox.run_accept hfresh)
  | @dispatched _ k _ _ _ _ _ _ _ _ hp =>
      have hmailbox := Backlog.mailbox_acceptHand (m.backlog.sayAll (m.told [.dispatchStarted k]))
        d _ hp.key
      rw [Backlog.sayAll_queued, backlog_queued] at hmailbox
      rw [hmailbox, htold]
      exact Or.inl ((Mailbox.run_accept hfresh).trans (Mailbox.run_hand _ _))
  | @rejected _ k _ _ _ _ _ hidle _ =>
      refine Or.inl (hstay ?_)
      rw [← htold m.backlog [.dispatchStarted k] d,
        ← Backlog.mailbox_clear (m.backlog.sayAll _) d k (hclaimed k hidle)]
      refine Mailbox.ext ?_ rfl ?_ rfl
      · simp [Backlog.mailbox, Output.accepted]
      · simp [Backlog.mailbox, Output.handed]
  | ended _ _ => exact Or.inl (hstay rfl)
  | abandoned _ _ => exact Or.inl (hstay rfl)
  | taken _ _ => exact Or.inl (hstay rfl)
  | @finished _ c d' _ _ hempty =>
      refine Or.inl (hstay ?_)
      rw [Backlog.mailbox_release (m.reported c d') d _ hempty]
      exact htold _ _ d
  | @redispatched _ c d' _ _ _ _ _ _ hp =>
      have hmailbox := Backlog.mailbox_hand
        ((m.reported c d').sayAll (m.told [.dispatchStarted c.sessionKey])) d _ hp.key
      rw [Backlog.sayAll_queued] at hmailbox
      have hreported : (m.reported c d').queued = m.queue.queued := rfl
      rw [hreported] at hmailbox
      rw [hmailbox, htold, reported, htold]
      exact Or.inl (Mailbox.run_hand _ _)
  | @lost a c d' es hc hd hwaiting hcannot _ =>
      refine Or.inr ⟨a, c, rfl, hc, (hguard c hc hwaiting).resolve_left hcannot, ?_, ?_⟩
      · rw [Backlog.clear_queued, if_pos rfl]
      · have hdrop := Backlog.mailbox_drop ((m.reported c d').sayAll (m.told es)) d c.sessionKey
        rw [htold, reported, htold] at hdrop
        exact hdrop

/-- The manager and its mailbox: what was dropped is covered by an error result. -/
def Keeps (cfg : AgentsManagerConfig n) (m : AgentsManager n)
    (t : Mailbox SessionKey MessageNo) : Prop :=
  t = m.mailbox t.dropped ∧ ∀ k i, (k, i) ∈ t.dropped → Covered cfg m k i

/-- **A step of the manager is a run of the mailbox.** -/
theorem step_simulates (hreach : (life cfg).Reachable m) (hguard : NothingLost cfg m l)
    (hstep : AgentsManager.step cfg m l = some m') {t : Mailbox SessionKey MessageNo}
    (ht : Keeps cfg m t) :
    ∃ t', (Mailbox.machine SessionKey MessageNo).RunUnder (fun _ _ => True) t t' ∧
      Keeps cfg m' t' := by
  obtain ⟨hm, hcovered⟩ := ht
  have horderly := orderly_of_reachable hreach
  have heffect := (step_advances horderly.plain hstep).effect
  have hfresh : m.nextMessage ∉ (m.backlog.mailbox t.dropped).accepted.map Prod.snd := by
    intro hmem
    obtain ⟨e, he, heq⟩ := List.mem_map.mp hmem
    exact absurd (horderly.numbers e he) (by rw [heq]; exact Nat.lt_irrefl _)
  rcases heffect.moves horderly.claimed hguard hfresh with
    hrun | ⟨a, c, hl, hc, hshows, hempty, hdrop⟩
  · rw [backlog_mailbox, backlog_mailbox, ← hm] at hrun
    exact ⟨_, hrun, rfl, fun k i hi => (hcovered k i hi).step hstep⟩
  · rw [backlog_mailbox, backlog_mailbox, ← hm] at hdrop
    subst hl
    have herror : ErrorShown c.sessionKey m m' := by
      cases turn_of_step cfg m hstep with
      | finishCompletion hc' _ =>
          rw [hc] at hc'
          cases hc'
          exact finishPromptCompletion_error horderly.plain hshows
    refine ⟨t.drop c.sessionKey, Mailbox.run_drop _ _, ?_, ?_⟩
    · rw [← hdrop]
      rfl
    · intro k i hi
      rw [← hdrop] at hi
      rcases List.mem_append.mp hi with hold | hnew
      · exact (hcovered k i hold).step hstep
      · obtain ⟨j, hj, heq⟩ := List.mem_map.mp hnew
        cases heq
        refine ⟨m, _, m', hreach, hstep, Relation.ReflTransGen.refl, hj, ?_, herror⟩
        have hgone : ∀ m₂ : AgentsManager n, m₂.backlog.queued c.sessionKey = [] →
            i ∉ m₂.waiting c.sessionKey := by
          intro m₂ hnil hmem
          rw [backlog_queued] at hnil
          rw [waiting, hnil] at hmem
          cases hmem
        exact hgone _ hempty

/-- The accounting of the messages of a key. -/
structure Delivered (cfg : AgentsManagerConfig n) (m : AgentsManager n) (k : SessionKey) :
    Prop where
  /-- An accepted message waits, or exactly one prompt carries it, or it is covered by an
      error result. -/
  accounted : ∀ i ∈ m.accepted k,
    (i ∈ m.waiting k ∧ m.carriers i = []) ∨
      (i ∉ m.waiting k ∧ ∃ is, m.carriers i = [(k, is)]) ∨
      (i ∉ m.waiting k ∧ m.carriers i = [] ∧ Covered cfg m k i)
  /-- The messages reach the agent in the order in which they were accepted. -/
  ordered : (m.handed k).Sublist (m.accepted k)

theorem Keeps.delivered {t : Mailbox SessionKey MessageNo} (ht : Keeps cfg m t)
    (hsound : t.Sound) (k : SessionKey) : Delivered cfg m k := by
  obtain ⟨hm, hcovered⟩ := ht
  have haccepted : Mailbox.forKey k t.accepted = m.accepted k := by rw [hm]; rfl
  have hwaiting : t.waiting k = m.waiting k := by rw [hm]; rfl
  have hhanded : t.handed k = m.handed k := by rw [hm]; rfl
  have hcarriers : ∀ i, t.carriers i = m.carriers i := by
    intro i
    rw [hm]
    rfl
  refine ⟨fun i hi => ?_, ?_⟩
  · rw [← haccepted, Mailbox.mem_forKey] at hi
    rw [← hwaiting, ← hcarriers]
    rcases hsound.kept k i hi with hwait | hdone | hdrop
    · exact Or.inl ⟨hwait, hsound.carriers_eq_nil hi (hsound.not_handed hwait)⟩
    · exact Or.inr (Or.inl ⟨fun hwait => hsound.not_handed hwait hdone,
        hsound.carriers_eq hdone⟩)
    · obtain ⟨_, hnotwait, hnothanded⟩ := hsound.gone k i hdrop
      exact Or.inr (Or.inr ⟨hnotwait, hsound.carriers_eq_nil hi hnothanded,
        hcovered k i hdrop⟩)
  · rw [← haccepted, ← hhanded]
    exact (List.sublist_append_left _ _).trans (hsound.ordered k)

/-- **No accepted message is lost or handed over twice**, in every run in which nothing
    waits for a key that is released and in which what waits behind a prompt is handed
    over or covered by an error result. -/
theorem delivered_of_nothingLost (h : (life cfg).ReachableUnder (NothingLost cfg) m)
    (k : SessionKey) : Delivered cfg m k := by
  obtain ⟨t, hreach, hkeeps⟩ := h.simulated (N := Mailbox.machine SessionKey MessageNo)
    (R := Keeps cfg)
    (fun m hinit => ⟨Mailbox.empty, rfl, by
      have hmailbox : m.mailbox [] = Mailbox.empty := by
        obtain ⟨os, hos, hbacklog⟩ := life_init hinit
        rw [← backlog_mailbox, hbacklog]
        exact Backlog.mailbox_sayAll
          { queued := fun _ => [], active := ∅, prompts := [], completions := []
            completing := none, nextPrompt := 0, streaming := ∅, sender := m.channelsSender
            messages := [] } []
          fun o ho => isTalk_of_isSpawn (hos o ho)
      exact ⟨hmailbox.symm, fun k i hi => nomatch hi⟩⟩)
    (fun m l m' t hreach ht hguard hstep =>
      step_simulates hreach.reachable hguard hstep ht)
  exact hkeeps.delivered (Mailbox.sound_of_reachable hreach) k

/-- Two messages, of which the second waits behind the first. -/
theorem delivered_of_nothingLost_two :
    ∃ m, m.accepted Sample.bob = [0, 1] ∧ m.waiting Sample.bob = [1] ∧
      Delivered Sample.cfg m Sample.bob := by
  have hrun : ∃ m ∈ AgentsManager.execute Sample.cfg (NothingLost Sample.cfg) true ∅ Sample.boot
      [Sample.send "hello" (Sample.answers "s"), Sample.send "there" (Sample.answers "s")],
        m.accepted Sample.bob = [0, 1] ∧ m.waiting Sample.bob = [1] := by
    decide
  obtain ⟨m, hm, haccepted, hwaiting⟩ := hrun
  exact ⟨m, haccepted, hwaiting,
    delivered_of_nothingLost (reachable_of_execute Sample.cfg hm) Sample.bob⟩

def shownErrors (k : SessionKey) (trace : List (Output n)) : List String :=
  trace.filterMap fun
    | .event (.deliverMessage k' (.errorResult message)) => if k' = k then some message else none
    | _ => none

theorem Covered.shown {k : SessionKey} {i : MessageNo} (h : Covered cfg m k i) :
    shownErrors k m.trace ≠ [] := by
  obtain ⟨m₁, l₁, m₂, hreach, hstep, hrun, _, _, os, message, hos, hmem⟩ := h
  have htrace := RunUnder.trace (hreach.step trivial hstep) hrun
  have hin : Output.event (.deliverMessage k (.errorResult message)) ∈ m.trace := by
    refine htrace.subset ?_
    rw [hos]
    exact List.mem_append_right _ hmem
  refine List.ne_nil_of_mem (a := message) ?_
  exact List.mem_filterMap.mpr ⟨_, hin, if_pos rfl⟩

/-- A message waits behind a prompt when `/new` succeeds: it is popped and gone. -/
theorem message_lost_by_new :
    ¬ ∀ m, (life Sample.cfg).Reachable m → ∀ k, Delivered Sample.cfg m k := by
  intro hall
  have hrun : ∃ m ∈ Sample.execute [Sample.send "hello" (Sample.answers "s"),
      Sample.send "there" (Sample.answers "s"), Sample.send "/new" (Sample.answers "t")],
        m.accepted Sample.bob = [0, 1] ∧ m.waiting Sample.bob = [] ∧ m.carriers 1 = [] ∧
          shownErrors Sample.bob m.trace = [] := by
    decide
  obtain ⟨m, hm, haccepted, hwaiting, hcarriers, hshown⟩ := hrun
  have hdelivered := hall m (reachable_of_execute Sample.cfg hm) Sample.bob
  have hone : 1 ∈ m.accepted Sample.bob := by
    rw [haccepted]
    decide
  rcases hdelivered.accounted 1 hone with ⟨hwait, _⟩ | ⟨_, is, hcarried⟩ | ⟨_, _, hcovered⟩
  · rw [hwaiting] at hwait
    cases hwait
  · rw [hcarriers] at hcarried
    cases hcarried
  · exact hcovered.shown hshown

end AgentsManager

end Anyclaw
