import Anyclaw.Agents.Delivery

/-!
# Executed commands

A message that is a platform command is executed when the manager takes it, whatever waits in
the queue, and no prompt ever carries it.  A plain message takes another way: its reply says
so.

`EnqueueMessage` is the arm of `handle_command` (`crates/anyclaw-agents/src/commands.rs`) that
tells the two apart, with `extract_command_text` and `match_platform_command`
(`platform_commands.rs`).
-/

namespace Anyclaw

variable {n : Nat}

/-- No payload that waits and no prompt that was handed over carries the message. -/
structure Backlog.Uncarried (b : Backlog n) (no : MessageNo) : Prop where
  waiting : ∀ k, ∀ p ∈ b.queued k, no ∉ p.origin
  handed : ∀ e ∈ b.messages.filterMap Output.handed, no ∉ e.2

namespace Backlog

variable {b b' : Backlog n} {no : MessageNo} {k : SessionKey}

/-- What was there before carries the message as little as before. -/
theorem Uncarried.of_subset (h : b.Uncarried no)
    (hqueued : ∀ k, ∀ p ∈ b'.queued k, p ∈ b.queued k ∨ no ∉ p.origin)
    (hhanded : ∀ e ∈ b'.messages.filterMap Output.handed,
      e ∈ b.messages.filterMap Output.handed ∨ no ∉ e.2) : b'.Uncarried no where
  waiting k p hp := (hqueued k p hp).elim (h.waiting k p) id
  handed e he := (hhanded e he).elim (h.handed e) id

theorem Uncarried.congr (h : b.Uncarried no) (hqueued : b'.queued = b.queued)
    (hhanded : b'.messages.filterMap Output.handed = b.messages.filterMap Output.handed) :
    b'.Uncarried no :=
  h.of_subset (fun k p hp => Or.inl (by rw [← hqueued]; exact hp))
    fun e he => Or.inl (by rw [← hhanded]; exact he)

theorem Uncarried.sayAll (h : b.Uncarried no) {os : List (Output n)}
    (hos : ∀ o ∈ os, o.isTalk = true) : (b.sayAll os).Uncarried no := by
  refine h.congr rfl ?_
  rw [sayAll_messages, List.filterMap_append,
    AgentsManager.filterMap_talk (fun _ => Output.handed_talk) hos, List.append_nil]

theorem Uncarried.clear (h : b.Uncarried no) (k : SessionKey) : (b.clear k).Uncarried no := by
  refine h.of_subset (fun k' p hp => ?_) fun e he => Or.inl he
  rw [clear_queued] at hp
  split at hp
  · cases hp
  · exact Or.inl hp

theorem Uncarried.release (h : b.Uncarried no) (k : SessionKey) : (b.release k).Uncarried no := by
  refine h.of_subset (fun k' p hp => ?_) fun e he => Or.inl he
  rw [release_queued] at hp
  split at hp
  · rename_i hk
    rw [hk]
    exact Or.inl (List.mem_of_mem_tail hp)
  · exact Or.inl hp

theorem Uncarried.say (h : b.Uncarried no) {o : Output n} (ho : ∀ e ∈ o.handed, no ∉ e.2) :
    (b.say o).Uncarried no := by
  refine h.of_subset (fun k p hp => Or.inl hp) fun e he => ?_
  rw [say_messages, List.filterMap_append] at he
  rcases List.mem_append.mp he with hold | hnew
  · exact Or.inl hold
  · obtain ⟨o', ho', heq⟩ := List.mem_filterMap.mp hnew
    rw [List.mem_singleton.mp ho'] at heq
    exact Or.inr (ho e heq)

theorem Uncarried.wait (h : b.Uncarried no) (k : SessionKey) {p : RichPayload}
    (hp : no ∉ p.origin) : (b.wait k p).Uncarried no := by
  refine h.of_subset (fun k' p' hp' => ?_) fun e he => Or.inl he
  rw [wait_queued] at hp'
  split at hp'
  · rename_i hk
    rw [hk]
    rcases List.mem_append.mp hp' with hold | hnew
    · exact Or.inl hold
    · rw [List.mem_singleton.mp hnew]
      exact Or.inr hp
  · exact Or.inl hp'

/-- What waits for a key does not carry the message together either. -/
theorem Uncarried.origins (h : b.Uncarried no) (k : SessionKey) :
    no ∉ (b.queued k).flatMap RichPayload.origin := by
  intro hmem
  obtain ⟨p, hp, hno⟩ := List.mem_flatMap.mp hmem
  exact h.waiting k p hp hno

end Backlog

namespace AgentsManager

variable (cfg : AgentsManagerConfig n) (m : AgentsManager n)

/-- The manager handles the command for the slot of the agent, and replies what came of it. -/
def Executed (command : PlatformCommand) (name : String) (k : SessionKey) (a : Answers)
    (m' : AgentsManager n) : Prop :=
  ∃ s result m₁, findSlotByName cfg name = some s ∧
    handlePlatformCommand cfg m.takeNumber command s name k a = (result, m₁) ∧
    m' = m₁.emit (.reply m.nextMessage k false result)

/-- No prompt carries the message, and none ever will. -/
def NeverHanded (no : MessageNo) : Prop :=
  ∀ m', (life cfg).RunUnder (fun _ _ => True) m m' →
    ∀ e ∈ m'.trace.filterMap Output.handed, no ∉ e.2

variable {cfg m} {m' : AgentsManager n} {l : Label n} {b : Backlog n} {no : MessageNo}
  {command : PlatformCommand} {name : String} {k : SessionKey} {content : List ContentPart}
  {metadata : Option MessageMetadata} {a : Answers}

/-! ### What carries a message -/

def BringsPlain : Label n → Prop
  | .command (.enqueueMessage _ _ content _) _ => IsPlain content
  | _ => False

/-- After a step nothing carries a message that nothing carried before, unless it is the one
    that the step takes and it is plain. -/
theorem Effect.uncarried (h : Effect cfg m l b) (huncarried : m.backlog.Uncarried no)
    (hother : BringsPlain l → no ≠ m.nextMessage) : b.Uncarried no := by
  have htold : ∀ {b : Backlog n}, b.Uncarried no → ∀ es, (b.sayAll (m.told es)).Uncarried no :=
    fun hb es => hb.sayAll (isTalk_told m es)
  have hreported : ∀ c d, (m.reported c d).Uncarried no := by
    intro c d
    have hcompleted : ((m.backlog.complete none m.completions).withStreaming
        (m.streamingCompleted.erase c.sessionKey)).Uncarried no := huncarried.congr rfl rfl
    exact htold hcompleted _
  cases h with
  | quiet _ => exact huncarried
  | talked htalk =>
      obtain ⟨os, ks, rfl, hos⟩ := htalk.talks
      exact (huncarried.sayAll hos).congr rfl rfl
  | unqueued _ _ => exact huncarried.congr rfl rfl
  | released _ => exact (htold huncarried _).release _
  | refused _ _ _ => exact htold huncarried _
  | queued hplain _ =>
      refine (huncarried.wait _ ?_).say nofun
      rw [List.mem_singleton]
      exact hother hplain
  | @dispatched _ k _ _ _ p _ hplain _ _ _ =>
      have hcleared := ((htold huncarried [.dispatchStarted k]).clear k)
      refine ((hcleared.congr rfl rfl : Backlog.Uncarried
        (((((m.backlog.sayAll (m.told [.dispatchStarted k])).clear k).claim k).addPrompt p)) no).say
          ?_).say nofun
      intro e he
      rw [← Option.some.inj he, List.mem_append, List.mem_singleton, not_or]
      exact ⟨huncarried.origins k, hother hplain⟩
  | @rejected _ k _ _ _ e _ _ _ =>
      have hcleared := ((htold huncarried [.dispatchStarted k]).clear k)
      exact (hcleared.congr rfl rfl : Backlog.Uncarried
        ((((m.backlog.sayAll (m.told [.dispatchStarted k])).clear k).claim k)) no).say nofun
  | ended _ _ => exact huncarried.congr rfl rfl
  | abandoned _ _ => exact huncarried.congr rfl rfl
  | taken _ _ => exact huncarried.congr rfl rfl
  | @finished _ c d _ _ _ => exact (hreported c d).release _
  | @redispatched _ c d p _ _ _ _ _ _ =>
      have hcleared := (htold (hreported c d) [.dispatchStarted c.sessionKey]).clear c.sessionKey
      refine (hcleared.congr rfl rfl : Backlog.Uncarried
        ((((m.reported c d).sayAll (m.told [.dispatchStarted c.sessionKey])).clear
          c.sessionKey).addPrompt p) no).say ?_
      intro e he
      rw [← Option.some.inj he]
      exact huncarried.origins c.sessionKey
  | @lost _ c d es _ _ _ _ _ => exact (htold (hreported c d) es).clear _

/-- Numbers that are not given yet are carried by nothing. -/
theorem uncarried_of_reachable (h : (life cfg).Reachable m) :
    ∀ no, m.nextMessage ≤ no → m.backlog.Uncarried no := by
  refine h.invariant (I := fun m => ∀ no, m.nextMessage ≤ no → m.backlog.Uncarried no) ?_ ?_
  · intro m hinit no _
    obtain ⟨os, hos, hbacklog⟩ := life_init hinit
    rw [hbacklog]
    refine ⟨fun k p hp => (nomatch hp), ?_⟩
    rw [filterMap_talk (fun _ => Output.handed_talk) fun o ho => isTalk_of_isSpawn (hos o ho)]
    exact nofun
  · intro m l m' hreach hI _ hstep no hno
    have hadvances := step_advances (orderly_of_reachable hreach).plain hstep
    refine hadvances.effect.uncarried (hI no (hadvances.numbers.trans hno)) fun hbrings => ?_
    have hlt : m.nextMessage < m'.nextMessage := by
      cases l with
      | command command a =>
          cases command with
          | enqueueMessage name k content metadata =>
              exact hadvances.numbered name k content metadata a rfl
          | _ => cases hbrings
      | _ => cases hbrings
    exact Nat.ne_of_gt (Nat.lt_of_lt_of_le hlt hno)

/-- A message that nothing carries is never carried once its number has been given. -/
theorem uncarried_of_run (hreach : (life cfg).Reachable m) (huncarried : m.backlog.Uncarried no)
    (hno : no < m.nextMessage) (hrun : (life cfg).RunUnder (fun _ _ => True) m m') :
    m'.backlog.Uncarried no := by
  have hall : (life cfg).Reachable m' ∧ m'.backlog.Uncarried no ∧ no < m'.nextMessage := by
    refine hrun.preserves (I := fun m' => (life cfg).Reachable m' ∧ m'.backlog.Uncarried no ∧
      no < m'.nextMessage) ?_ ⟨hreach, huncarried, hno⟩
    rintro m₁ l m₂ ⟨hreach₁, huncarried₁, hno₁⟩ _ hstep
    have hadvances := step_advances (orderly_of_reachable hreach₁).plain hstep
    exact ⟨hreach₁.step trivial hstep,
      hadvances.effect.uncarried huncarried₁ fun _ => Nat.ne_of_lt hno₁,
      Nat.lt_of_lt_of_le hno₁ hadvances.numbers⟩
  exact hall.2.1

/-! ### What becomes of a command -/

/-- The step of a command leads to what its handler returns. -/
theorem handleCommand_of_step {c : AgentsCommand}
    (hstep : (life cfg).step m (.command c a) = some m') : handleCommand cfg m a c = m' :=
  Option.some.inj (Option.ite_none_right_eq_some.mp hstep).2

/-- A command is executed whenever its agent is there. -/
theorem executed_iff (hcommand : platformCommandOf content = some command)
    (hstep : (life cfg).step m (.command (.enqueueMessage name k content metadata) a) = some m') :
    Executed cfg m command name k a m' ↔ (findSlotByName cfg name).isSome := by
  have hm' := handleCommand_of_step hstep
  unfold handleCommand enqueueMessage at hm'
  simp only [hcommand] at hm'
  constructor
  · rintro ⟨s, -, -, hs, -, -⟩
    rw [hs]
    rfl
  · intro hfound
    obtain ⟨s, hs⟩ := Option.isSome_iff_exists.mp hfound
    rw [hs] at hm'
    exact ⟨s, _, _, hs, rfl, hm'.symm⟩

/-- A plain message is not executed: its reply tells the two ways apart. -/
theorem not_executed_of_plain (hplain : IsPlain content)
    (hstep : (life cfg).step m (.command (.enqueueMessage name k content metadata) a) = some m') :
    ¬ Executed cfg m command name k a m' := by
  have hm' := handleCommand_of_step hstep
  have hlast : ∃ (m₂ : AgentsManager n) (result : Except AgentsError Unit),
      m' = m₂.emit (.reply m.nextMessage k true result) := by
    unfold handleCommand enqueueMessage at hm'
    unfold IsPlain at hplain
    simp only [hplain] at hm'
    split at hm'
    · exact ⟨_, _, hm'.symm⟩
    · exact ⟨_, _, hm'.symm⟩
  rintro ⟨s, result, m₁, -, -, hexecuted⟩
  obtain ⟨m₂, result', hqueued⟩ := hlast
  have htrace : m₁.trace ++ [Output.reply m.nextMessage k false result] =
      m₂.trace ++ [Output.reply m.nextMessage k true result'] :=
    congrArg AgentsManager.trace (hexecuted.symm.trans hqueued)
  cases (List.append_inj' htrace rfl).2

/-- No prompt ever carries a message that was a command. -/
theorem neverHanded_of_command (hcommand : platformCommandOf content = some command)
    (hreach : (life cfg).Reachable m)
    (hstep : (life cfg).step m (.command (.enqueueMessage name k content metadata) a) = some m') :
    NeverHanded cfg m' m.nextMessage := by
  have htaken : step cfg m (.command (.enqueueMessage name k content metadata) a) = some m' := hstep
  have hadvances := step_advances (orderly_of_reachable hreach).plain htaken
  have huncarried : m'.backlog.Uncarried m.nextMessage := by
    refine hadvances.effect.uncarried (uncarried_of_reachable hreach _ le_rfl) fun hplain => ?_
    have hnone : platformCommandOf content = none := hplain
    rw [hcommand] at hnone
    cases hnone
  intro m'' hrun e he
  have hlater := uncarried_of_run (hreach.step trivial hstep) huncarried
    (hadvances.numbered name k content metadata a rfl) hrun
  have hmessages : m''.backlog.messages.filterMap Output.handed =
      m''.trace.filterMap Output.handed := by
    refine filterMap_messages m'' fun o ho => ?_
    cases o with
    | prompt p parts origin => cases ho
    | _ => rfl
  rw [← hmessages] at he
  exact hlater.handed e he

end AgentsManager

end Anyclaw
