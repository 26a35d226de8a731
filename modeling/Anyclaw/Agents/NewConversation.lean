import Anyclaw.Agents.Ownership

/-!
# A new conversation stays new

`/new` replaces the live session of a key in one slot.  A stale session of the key, or a
session of the key in another slot, survives it and can become live again.  When nothing
of the key is left behind, only sessions that are named later can be mapped to it.

`/new` is an arm of `handle_platform_command` (`crates/anyclaw-agents/src/commands.rs`); what
it leaves becomes live again in `heal_session` and `try_restore_session`
(`session_recovery.rs`).
-/

namespace Anyclaw

def Output.repliesOk {n : Nat} (no : MessageNo) : Output n → Bool
  | .reply no' _ _ (.ok _) => decide (no' = no)
  | _ => false

namespace AgentsManager

variable {n : Nat} {cfg : AgentsManagerConfig n} {m m' : AgentsManager n}

/-- The last thing said is that the message taken in `m` was answered with Ok. -/
def RepliedOk (m m' : AgentsManager n) : Prop :=
  ∃ o ∈ m'.trace.getLast?, o.repliesOk m.nextMessage = true

instance (m m' : AgentsManager n) : Decidable (RepliedOk m m') :=
  inferInstanceAs (Decidable (∃ o ∈ m'.trace.getLast?, _))

/-- Fresh ids; and when `/new` replaces the session of a key, the key has no stale session,
    and no session in another slot. -/
def NothingLeft (cfg : AgentsManagerConfig n) (m : AgentsManager n) (l : Label n) : Prop :=
  FreshAnswers cfg m l ∧
    ∀ o ∈ m.operation l, o.kind = .renews → ∀ s ∈ findSlotByName cfg o.agentName, ∀ s',
      (m.slots s').staleSessions.get? o.key = none ∧
        (s' ≠ s → (m.slots s').sessionMap.get? o.key = none)

instance (cfg : AgentsManagerConfig n) (m : AgentsManager n) (l : Label n) :
    Decidable (NothingLeft cfg m l) :=
  inferInstanceAs (Decidable (_ ∧ _))

/-- The key `k` holds no session that was named in `old`. -/
def OnlyNew (old : List (Output n)) (k : SessionKey) (m : AgentsManager n) : Prop :=
  ∀ s id, m.Holds s k id → id ∉ namedSessions s old

/-! ### `/new` -/

section New

variable {name : String} {k : SessionKey} {content : List ContentPart}
  {metadata : Option MessageMetadata} {a : Answers}

/-- A `/new` that is answered with Ok has registered a new session. -/
theorem new_ok (hnew : platformCommandOf content = some .new)
    (hstep : step cfg m (.command (.enqueueMessage name k content metadata) a) = some m')
    (hok : RepliedOk m m') :
    ∃ s id row news, findSlotByName cfg name = some s ∧ a.sessionNew.result? = some id ∧
      TablesChange a m m' s (((m.slots s).tables.unmap k).register k id) row news := by
  obtain ⟨_, hm⟩ := Option.ite_none_right_eq_some.mp hstep
  cases hm
  obtain ⟨o, hlast, hreplies⟩ := hok
  rw [handleCommand, enqueueMessage] at hlast ⊢
  simp only [hnew] at hlast ⊢
  cases hfind : findSlotByName cfg name with
  | none =>
      simp only [hfind, emit_trace, List.getLast?_concat, Option.mem_def, Option.some.injEq]
        at hlast
      subst hlast
      cases hreplies
  | some s =>
      simp only [hfind] at hlast ⊢
      have houtcome := handlePlatformCommand_outcome cfg (m := m.takeNumber) (k := k) (a := a)
        hfind .new
      generalize handlePlatformCommand cfg m.takeNumber .new s name k a = r at houtcome hlast ⊢
      cases houtcome with
      | renewed _ _ hid hchange _ _ =>
          exact ⟨s, _, _, _, rfl, hid, ((takeNumber_kept m).then_change
            (hchange.trans_sessionsKept (emit_reply_kept _ _ _ _ _))).toTablesChange⟩
      | unmapped _ _ _ _ =>
          simp only [emit_trace, List.getLast?_concat, Option.mem_def, Option.some.injEq] at hlast
          subst hlast
          cases hreplies

/-- After a `/new` that leaves nothing behind the key holds the new session only. -/
theorem onlyNew_after_new (hnew : platformCommandOf content = some .new)
    (hguard : NothingLeft cfg m (.command (.enqueueMessage name k content metadata) a))
    (hstep : step cfg m (.command (.enqueueMessage name k content metadata) a) = some m')
    (hok : RepliedOk m m') : OnlyNew m.trace k m' := by
  obtain ⟨s, id, row, news, hfind, hid, hchange⟩ := new_ok hnew hstep hok
  have hop : m.operation (.command (.enqueueMessage name k content metadata) a) =
      some ⟨.renews, name, k, a⟩ := by
    rw [operation]
    simp only [hnew]
  have hfresh := (hguard.1.1 _ hop s hfind).1 id hid
  have hleft := hguard.2 _ hop rfl s hfind
  intro s' id' hholds
  rw [Holds, hchange.tables s'] at hholds
  by_cases hs : s' = s
  · rw [if_pos hs] at hholds
    rcases SessionTables.holds_register hholds with (hlive | hstale) | ⟨_, rfl⟩
    · exact absurd rfl (SessionTables.live_unmap hlive).1
    · have hnone := (hleft s).1
      rw [SessionTables.unmap_staleSessions, AgentSlot.tables_staleSessions, hnone] at hstale
      cases hstale
    · rw [hs]
      exact hfresh
  · rw [if_neg hs] at hholds
    rcases hholds with hlive | hstale
    · have hnone := (hleft s').2 hs
      rw [AgentSlot.tables_sessionMap, hnone] at hlive
      cases hlive
    · have hnone := (hleft s').1
      rw [AgentSlot.tables_staleSessions, hnone] at hstale
      cases hstale

end New

/-! ### Runs -/

/-- A step adds only sessions with fresh ids. -/
theorem OnlyNew.step {old : List (Output n)} {k : SessionKey} {l : Label n}
    (h : OnlyNew old k m) (hold : old <+: m.trace) (hfresh : FreshAnswers cfg m l)
    (hstep : SessionStep cfg m l m') : OnlyNew old k m' := by
  intro s id hholds
  obtain ⟨K, hK⟩ := hstep.gains hfresh s
  rcases hK.holds k id hholds with hbefore | ⟨_, hnot, _⟩
  · exact h s id hbefore
  · exact fun hmem => hnot (namedSessions_mono hold hmem)

/-- **A new conversation stays new**: after a `/new` that was answered with Ok, no later
    state of a run with fresh ids, in which no `/new` leaves a session of its key behind,
    maps the key to a session that existed before. -/
theorem onlyNew_of_nothingLeft {m₁ m₂ m₃ : AgentsManager n} {name : String} {k : SessionKey}
    {content : List ContentPart} {metadata : Option MessageMetadata} {a : Answers}
    (hreach : (life cfg).ReachableUnder (NothingLeft cfg) m₁)
    (hnew : platformCommandOf content = some .new)
    (hguard : NothingLeft cfg m₁ (.command (.enqueueMessage name k content metadata) a))
    (hstep : step cfg m₁ (.command (.enqueueMessage name k content metadata) a) = some m₂)
    (hok : RepliedOk m₁ m₂) (hrun : (life cfg).RunUnder (NothingLeft cfg) m₂ m₃) :
    ∀ s id, (m₃.slots s).sessionMap.get? k = some id → id ∉ namedSessions s m₁.trace := by
  have hplain := (orderly_of_reachable hreach.reachable).plain
  have hadvances := step_advances hplain hstep
  have hend := hrun.preserves (I := fun m => m.backlog.Plain ∧ m₁.trace <+: m.trace ∧
    OnlyNew m₁.trace k m) ?_ ⟨hadvances.effect.plain hplain, hadvances.trace,
      onlyNew_after_new hnew hguard hstep hok⟩
  · intro s id hlive
    exact hend.2.2 s id (Or.inl hlive)
  · rintro m l m' ⟨hplain, hold, honly⟩ hG hs
    have hadvances := step_advances hplain hs
    exact ⟨hadvances.effect.plain hplain, hold.trans hadvances.trace,
      honly.step hold hG.1 (step_sessions hplain hs)⟩

/-- `/new` gives `bob` the session `"t"`, which is restored after a crash. -/
theorem onlyNew_of_nothingLeft_bob :
    ∃ m₁ m₃ : AgentsManager 1, (m₃.slots 0).sessionMap.get? Sample.bob = some "t" ∧
      "s" ∈ namedSessions 0 m₁.trace ∧ "t" ∉ namedSessions 0 m₁.trace := by
  have hrun : ∃ m₁ ∈ AgentsManager.execute Sample.cfg (NothingLeft Sample.cfg) true ∅ Sample.boot
      [Sample.send "hello" (Sample.answers "s")],
      NothingLeft Sample.cfg m₁ (Sample.send "/new" (Sample.answers "t")) ∧
      ∃ m₂ ∈ step Sample.cfg m₁ (Sample.send "/new" (Sample.answers "t")), RepliedOk m₁ m₂ ∧
        ∃ m₃ ∈ (life Sample.cfg).run (NothingLeft Sample.cfg) m₂
          (Sample.crash { Sample.answers "u" with recovery := .answered (some "t") }),
          (m₃.slots 0).sessionMap.get? Sample.bob = some "t" ∧
            "s" ∈ namedSessions 0 m₁.trace := by
    decide
  obtain ⟨m₁, hm₁, hguard, m₂, hm₂, hok, m₃, hm₃, hlive, hold⟩ := hrun
  exact ⟨m₁, m₃, hlive, hold, onlyNew_of_nothingLeft (reachable_of_execute Sample.cfg hm₁)
    (by decide) hguard hm₂ hok (Machine.runUnder_of_run _ _ hm₃) 0 "t" hlive⟩

/-- The session of `bob` expires and stays behind as a stale one; after `/new` a
    `CreateSession` heals it. -/
theorem old_session_back_after_new :
    ¬ ∀ (m₁ m₂ m₃ : AgentsManager 1) (name : String) (k : SessionKey)
      (content : List ContentPart) (metadata : Option MessageMetadata) (a : Answers),
      (life Sample.cfg).ReachableUnder (FreshAnswers Sample.cfg) m₁ →
      platformCommandOf content = some .new →
      FreshAnswers Sample.cfg m₁ (.command (.enqueueMessage name k content metadata) a) →
      step Sample.cfg m₁ (.command (.enqueueMessage name k content metadata) a) = some m₂ →
      RepliedOk m₁ m₂ → (life Sample.cfg).RunUnder (FreshAnswers Sample.cfg) m₂ m₃ →
      ∀ s id, (m₃.slots s).sessionMap.get? k = some id → id ∉ namedSessions s m₁.trace := by
  intro hall
  have hrun : ∃ m₁ ∈ AgentsManager.execute Sample.cfg (FreshAnswers Sample.cfg) true ∅ Sample.boot
      [Sample.send "hello" (Sample.answers "s"),
        .promptAnswered 0 (.error "session not found" ""), .recvCompletion,
        .finishCompletion (Sample.answers "s")],
      FreshAnswers Sample.cfg m₁ (Sample.send "/new" (Sample.answers "t")) ∧
      ∃ m₂ ∈ step Sample.cfg m₁ (Sample.send "/new" (Sample.answers "t")), RepliedOk m₁ m₂ ∧
        ∃ m₃ ∈ (life Sample.cfg).run (FreshAnswers Sample.cfg) m₂
          [.command (.createSession "a" Sample.bob)
            { Sample.answers "u" with recovery := .answered (some "s") }],
          (m₃.slots 0).sessionMap.get? Sample.bob = some "s" ∧
            "s" ∈ namedSessions 0 m₁.trace := by
    decide
  obtain ⟨m₁, hm₁, hguard, m₂, hm₂, hok, m₃, hm₃, hlive, hold⟩ := hrun
  exact hall m₁ m₂ m₃ _ _ _ _ _ (reachable_of_execute Sample.cfg hm₁) (by decide) hguard hm₂ hok
    (Machine.runUnder_of_run _ _ hm₃) 0 "s" hlive hold

end AgentsManager

end Anyclaw
