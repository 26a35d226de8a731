import Anyclaw.Agents.Ownership

/-!
# Live sessions are known to the running process

A process knows the sessions that it has created, forked, loaded or resumed.  Whatever
opens one session keeps the live map within these.  The restore after a crash has one
session recovered by the new process and makes all stale sessions live, so that it is
sound only when there is no other session.

The live map is `session_map` of `AgentSlot` (`crates/anyclaw-agents/src/slot.rs`); the
restore is `try_restore_session` (`session_recovery.rs`).
-/

namespace Anyclaw

variable {n : Nat}

def Output.answers (s : Fin n) (no : Nat) (id : AcpSessionId) : Output n → Bool
  | .answered s' no' _ id' => decide (s' = s ∧ no' = no ∧ id' = id)
  | _ => false

namespace AgentsManager

/-- The process `no` of slot `s` has answered with the session `id`. -/
def KnownTo (m : AgentsManager n) (s : Fin n) (no : Nat) (id : AcpSessionId) : Prop :=
  ∃ o ∈ m.trace, o.answers s no id = true

instance (m : AgentsManager n) (s : Fin n) (no : Nat) (id : AcpSessionId) :
    Decidable (KnownTo m s no id) :=
  inferInstanceAs (Decidable (∃ o ∈ m.trace, _))

/-- Every live session is known to the process that runs, and every prompt that was
    handed to a process is for a session it knows. -/
structure Known (m : AgentsManager n) : Prop where
  sessions : ∀ s conn k id, (m.slots s).connection = some conn →
    (m.slots s).sessionMap.get? k = some id → KnownTo m s conn.no id
  prompts : ∀ p ∈ m.prompts, KnownTo m p.slotIdx p.connection p.acpSessionId

/-- A session is restored only when the slot has no other session. -/
def RestoresAlone (m : AgentsManager n) (l : Label n) : Prop :=
  ∀ c ∈ m.crash l, (m.slots c.1).CanRestore c.2 →
    ∀ first ∈ firstStaleId (m.slots c.1).retireSessions c.2,
      ∀ id ∈ (m.slots c.1).retireSessions.staleSessions.values, id = first

instance (m : AgentsManager n) (l : Label n) : Decidable (RestoresAlone m l) :=
  inferInstanceAs (Decidable (∀ c ∈ m.crash l, _))

variable {cfg : AgentsManagerConfig n} {m m' : AgentsManager n} {l : Label n}

theorem KnownTo.mono {s : Fin n} {no : Nat} {id : AcpSessionId} (h : KnownTo m s no id)
    (htrace : m.trace <+: m'.trace) : KnownTo m' s no id := by
  obtain ⟨o, hmem, hnames⟩ := h
  exact ⟨o, htrace.subset hmem, hnames⟩

theorem KnownTo.of_mem {s : Fin n} {no : Nat} {how : SessionOrigin} {id : AcpSessionId}
    (h : Output.answered s no how id ∈ m.trace) : KnownTo m s no id :=
  ⟨_, h, decide_eq_true ⟨rfl, rfl, rfl⟩⟩

/-! ### One step -/

/-- The sessions of one slot. -/
def KnownIn (m : AgentsManager n) (s : Fin n) : Prop :=
  ∀ conn k id, (m.slots s).connection = some conn →
    (m.slots s).sessionMap.get? k = some id → KnownTo m s conn.no id

/-- The live map and the connection are as they were, or the live map has lost keys. -/
theorem KnownIn.shrink {s : Fin n} (h : KnownIn m s) (htrace : m.trace <+: m'.trace)
    (hconn : (m'.slots s).connection = (m.slots s).connection)
    (hlive : ∀ k id, (m'.slots s).sessionMap.get? k = some id →
      (m.slots s).sessionMap.get? k = some id) : KnownIn m' s := by
  intro conn k id hup hk
  rw [hconn] at hup
  exact (h conn k id hup (hlive k id hk)).mono htrace

/-- One key has got a session that the running process has answered with. -/
theorem KnownIn.register {s : Fin n} (h : KnownIn m s) (htrace : m.trace <+: m'.trace)
    (hconn : (m'.slots s).connection = (m.slots s).connection) {conn₀ : AgentConnection}
    {how : SessionOrigin} {id₀ : AcpSessionId}
    (hup₀ : (m.slots s).connection = some conn₀)
    (hnew : Output.answered s conn₀.no how id₀ ∈ m'.trace)
    (hlive : ∀ k id, (m'.slots s).sessionMap.get? k = some id →
      (m.slots s).sessionMap.get? k = some id ∨ id = id₀) : KnownIn m' s := by
  intro conn k id hup hk
  rw [hconn, hup₀] at hup
  cases hup
  rcases hlive k id hk with hold | rfl
  · exact (h conn₀ k id hup₀ hold).mono htrace
  · exact .of_mem hnew

theorem knownIn_of_tablesOp {s : Fin n} {o : Operation} {t : SessionTables}
    {row : Option WrittenRow} {news : List (Output n)} (h : KnownIn m s)
    (htrace : m.trace <+: m'.trace) (hop : TablesOp (m.slots s) s o t row news)
    (hchange : TablesChange o.answers m m' s t row news) : KnownIn m' s := by
  have htables : (m'.slots s).sessionMap = t.sessionMap :=
    congrArg SessionTables.sessionMap ((hchange.tables s).trans (if_pos rfl))
  have hconn := hchange.connection s
  have hnews : ∀ o ∈ news, o ∈ m'.trace := fun _ => news_mem hchange.naming
  cases hop with
  | created hcleared hup hid =>
      refine h.register htrace hconn hup (hnews _ (List.mem_singleton_self _)) fun k id hk => ?_
      rw [htables] at hk
      exact (SessionTables.live_register hk).imp (SessionTables.live_cleared hcleared) And.right
  | recovered _ _ hup hid =>
      refine h.register htrace hconn hup (hnews _ (List.mem_singleton_self _)) fun k id hk => ?_
      rw [htables] at hk
      exact (SessionTables.live_register hk).imp (fun h => h) And.right
  | forgotten _ _ _ =>
      refine h.shrink htrace hconn fun k id hk => ?_
      rw [htables] at hk
      exact hk
  | unmapped _ _ =>
      refine h.shrink htrace hconn fun k id hk => ?_
      rw [htables] at hk
      exact SessionTables.live_cleared .unmapped hk
  | forked _ hup hid =>
      refine h.register htrace hconn hup (hnews _ (List.mem_singleton_self _)) fun k id hk => ?_
      rw [htables] at hk
      exact (SessionTables.live_register hk).imp (fun h => h) And.right

/-- After a crash a slot is down, or its only session was restored, or it has a new
    default session. -/
theorem knownIn_of_crash {m₁ : AgentsManager n} {s : Fin n} {a : Answers}
    (hcrash : CrashOutcome cfg m₁ s a m')
    (halone : (m₁.slots s).CanRestore a →
      ∀ first ∈ firstStaleId (m₁.slots s).retireSessions a,
        ∀ id ∈ (m₁.slots s).retireSessions.staleSessions.values, id = first) :
    KnownIn m' s := by
  intro conn k id hup hk
  cases hcrash with
  | down _ hdown _ =>
      rw [hdown] at hup
      cases hup
  | @restored first id₁ conn₁ how _ hcan hfirst hid hconn hchange =>
      have htables := congrArg SessionTables.sessionMap ((hchange.tables s).trans (if_pos rfl))
      rw [AgentSlot.tables_sessionMap] at htables
      rw [hconn] at hup
      cases hup
      rw [htables, SessionTables.retire_reinstate_get?] at hk
      obtain ⟨id₂, hid₂, rfl⟩ := Option.map_eq_some_iff.mp hk
      have honly := halone hcan first hfirst id₂ ((KeyedMap.mem_values _ _).mpr ⟨k, hid₂⟩)
      rw [if_pos honly]
      exact .of_mem (news_mem hchange.naming (List.mem_singleton_self _))
  | restarted _ _ hid hconn hchange =>
      have htables := congrArg SessionTables.sessionMap ((hchange.tables s).trans (if_pos rfl))
      rw [AgentSlot.tables_sessionMap] at htables
      rw [hconn] at hup
      cases hup
      rw [htables] at hk
      rcases SessionTables.live_register hk with hold | ⟨_, rfl⟩
      · cases hold
      · exact .of_mem (news_mem hchange.naming (List.mem_singleton_self _))
  | retired _ _ hdown _ =>
      rw [hdown] at hup
      cases hup

/-- What a crash of another slot leaves alone. -/
theorem crash_others {m₁ : AgentsManager n} {s s₀ : Fin n} {a : Answers}
    (hcrash : CrashOutcome cfg m₁ s₀ a m') (hs : s ≠ s₀) :
    (m'.slots s).tables = (m₁.slots s).tables ∧
      (m'.slots s).connection = (m₁.slots s).connection := by
  cases hcrash with
  | down _ _ hchange => exact ⟨(hchange.tables s).trans (if_neg hs), hchange.connection s hs⟩
  | restored _ _ _ _ hchange =>
      exact ⟨(hchange.tables s).trans (if_neg hs), hchange.connection s hs⟩
  | restarted _ _ _ _ hchange =>
      exact ⟨(hchange.tables s).trans (if_neg hs), hchange.connection s hs⟩
  | retired _ _ _ hchange => exact ⟨(hchange.tables s).trans (if_neg hs), hchange.connection s hs⟩

theorem SessionStep.known (h : SessionStep cfg m l m') (halone : RestoresAlone m l)
    (htrace : m.trace <+: m'.trace) (hknown : ∀ s, KnownIn m s) : ∀ s, KnownIn m' s := by
  intro s
  have hsame : (m'.slots s).tables = (m.slots s).tables →
      (m'.slots s).connection = (m.slots s).connection → KnownIn m' s := by
    intro htables hconn
    refine (hknown s).shrink htrace hconn fun k id hk => ?_
    rw [← AgentSlot.tables_sessionMap, htables] at hk
    exact hk
  cases h with
  | kept hkept => exact hsame (hkept.tables s) (hkept.connection s)
  | @changed _ o s₀ t row news _ ho hfind hop hchange =>
      by_cases hs : s = s₀
      · subst hs
        exact knownIn_of_tablesOp (hknown s) htrace hop hchange
      · exact hsame ((hchange.tables s).trans (if_neg hs)) (hchange.connection s)
  | expired _ hexpired =>
      refine (hknown s).shrink htrace (hexpired.connection s) fun k id hk => ?_
      rw [← AgentSlot.tables_sessionMap, hexpired.tables s] at hk
      exact SessionTables.live_expire hk
  | @crashed _ s₀ a msg rest _ hl hincoming hcrash =>
      by_cases hs : s = s₀
      · subst hs
        exact knownIn_of_crash hcrash (halone (s, a) hl)
      · exact hsame (crash_others hcrash hs).1 (crash_others hcrash hs).2
  | shutdown =>
      intro conn k id hup _
      cases hup

/-! ### Runs -/

theorem Booted.known {m₀ : AgentsManager n} {b : StartAnswers n} (h : Booted cfg b m₀ m)
    (s : Fin n) : KnownIn m s := by
  obtain ⟨conn₀, id₀, hup, _, hnamed, hmap, _⟩ := h.slots s
  intro conn k id hup' hk
  rw [hup] at hup'
  cases hup'
  rw [hmap, KeyedMap.get?_set] at hk
  split at hk
  · cases hk
    exact .of_mem hnamed
  · cases hk

/-- **Live sessions and prompts are known to their process**, in every run in which a
    session is restored only when its slot has no other. -/
theorem known_of_restoresAlone (h : (life cfg).ReachableUnder RestoresAlone m) : Known m := by
  suffices hboth : (∀ s, KnownIn m s) ∧
      ∀ p ∈ m.prompts, KnownTo m p.slotIdx p.connection p.acpSessionId from ⟨hboth.1, hboth.2⟩
  refine h.invariant (I := fun m => (∀ s, KnownIn m s) ∧
    ∀ p ∈ m.prompts, KnownTo m p.slotIdx p.connection p.acpSessionId) ?_ ?_
  · rintro m hinit
    obtain ⟨os, _, hbacklog⟩ := life_init hinit
    have hprompts := congrArg Backlog.prompts hbacklog
    obtain ⟨channelsSender, store, b, hstart⟩ := hinit
    refine ⟨(start_booted (fun _ => rfl) hstart).known, fun p hp => ?_⟩
    rw [backlog_prompts] at hprompts
    rw [hprompts] at hp
    cases hp
  · rintro m l m' hreach ⟨hsessions, hprompts⟩ hguard hs
    have hplain := (orderly_of_reachable hreach.reachable).plain
    have htrace := (step_advances hplain hs).trace
    have hsessions' := (step_sessions hplain hs).known hguard htrace hsessions
    refine ⟨hsessions', fun p hp => ?_⟩
    rcases step_prompts hplain hs p hp with ⟨p₀, hp₀, hslot, hconn, hid⟩ | ⟨hup, k, hk⟩
    · rw [hslot, hconn, hid]
      exact (hprompts p₀ hp₀).mono htrace
    · exact hsessions' p.slotIdx ⟨p.connection⟩ k p.acpSessionId hup hk

/-- The default session, restored by the process that is spawned second. -/
theorem known_of_restoresAlone_default :
    ∃ m : AgentsManager 1, (m.slots 0).connection = some ⟨1⟩ ∧
      (m.slots 0).sessionMap.get? (AgentSlot.defaultKey "a") = some "default" ∧
      KnownTo m 0 1 "default" := by
  have hrun : ∃ m ∈ AgentsManager.execute Sample.cfg RestoresAlone true ∅ Sample.boot
      (Sample.crash { Sample.answers "t" with recovery := .answered (some "default") }),
      (m.slots 0).connection = some ⟨1⟩ ∧
        (m.slots 0).sessionMap.get? (AgentSlot.defaultKey "a") = some "default" := by
    decide
  obtain ⟨m, hm, hconn, hlive⟩ := hrun
  exact ⟨m, hconn, hlive, (known_of_restoresAlone (reachable_of_execute Sample.cfg hm)).sessions 0
    ⟨1⟩ _ "default" hconn hlive⟩

/-- The second process restores the default session, and `bob` is prompted on a session
    that only the first process knew. -/
theorem prompt_for_unknown_session :
    ¬ ∀ m, (life Sample.cfg).Reachable m → Known m := by
  intro hall
  have hrun : ∃ m ∈ Sample.execute
      (.command (.createSession "a" Sample.bob) (Sample.answers "s") ::
        Sample.crash { Sample.answers "t" with
          recovery := .answered (some "default"), firstStale := AgentSlot.defaultKey "a" } ++
        [Sample.send "hello" (Sample.answers "t")]),
      (m.slots 0).connection = some ⟨1⟩ ∧
        (m.slots 0).sessionMap.get? Sample.bob = some "s" ∧
        ∃ p ∈ m.prompts, ¬ KnownTo m p.slotIdx p.connection p.acpSessionId := by
    decide
  obtain ⟨m, hm, _, _, p, hp, hnot⟩ := hrun
  exact hnot ((hall m (reachable_of_execute Sample.cfg hm)).prompts p hp)

end AgentsManager

end Anyclaw
