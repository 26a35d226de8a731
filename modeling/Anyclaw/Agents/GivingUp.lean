import Anyclaw.Agents.SessionOutcomes
import Anyclaw.Agents.Run

/-!
# When a conversation is given up

`heal_session` tries to recover the stale session of a key and creates a fresh session
otherwise.  Its comment lists three attempts, `session/resume`, then `session/load`,
then a fresh session; the code reads `if .. else if`, so that an agent which supports
both methods is never asked to load what it could not resume.  The stale id is removed
before the fresh session is asked for, so that it is lost when this fails.

`heal_session` is in `crates/anyclaw-agents/src/session_recovery.rs`, and the `create_session`
that it falls back on in `commands.rs`.
-/

namespace Anyclaw

inductive RecoveryMethod where
  | resume
  | load
deriving DecidableEq

def AgentSlot.supports (slot : AgentSlot) : RecoveryMethod → Bool
  | .resume => slot.supportsResume
  | .load => slot.supportsLoad

/-- Nothing is stale; or the process cannot be asked; or the one method that is tried
    recovers the session; or the key is mapped all the same; or a fresh session can be
    had, and the agent does not support both methods. -/
def AgentSlot.NothingLost (slot : AgentSlot) (k : SessionKey) (a : Answers) : Prop :=
  slot.staleSessions.get? k = none ∨
    ((slot.supportsResume = true ∨ slot.supportsLoad = true) ∧ slot.connection = none) ∨
    slot.Recovers k a ∨ slot.sessionMap.get? k ≠ none ∨
    (slot.CanStart a ∧ ¬ (slot.supportsResume = true ∧ slot.supportsLoad = true))

/-- The only method that is tried: loading where resuming is not supported. -/
def AgentSlot.firstMethod (slot : AgentSlot) : Option RecoveryMethod :=
  if slot.supportsResume then some .resume else if slot.supportsLoad then some .load else none

theorem AgentSlot.all_tried_iff (slot : AgentSlot) :
    (∀ method, slot.supports method = true →
        (method, (none : Option AcpSessionId)) ∈ slot.firstMethod.toList.map (·, none)) ↔
      ¬ (slot.supportsResume = true ∧ slot.supportsLoad = true) := by
  unfold AgentSlot.firstMethod
  constructor
  · rintro h ⟨hresume, hload⟩
    have hmem := h .load hload
    simp [hresume] at hmem
  · intro h method hmethod
    cases method with
    | resume =>
        have hresume : slot.supportsResume = true := hmethod
        simp [hresume]
    | load =>
        have hload : slot.supportsLoad = true := hmethod
        have hresume : ¬ slot.supportsResume = true := fun hresume => h ⟨hresume, hload⟩
        simp [hresume, hload]

/-- A recovery method that was tried, with the session the agent answered. -/
abbrev RecoveryTry := RecoveryMethod × Option AcpSessionId

namespace AgentsManager

variable {n : Nat} (cfg : AgentsManagerConfig n) (m : AgentsManager n)

/-- The recovery methods that `heal_session` tries, each with the session the agent answered:
    `session/load` is not tried after a failed `session/resume`. -/
def recoveryTries (s : Fin n) (k : SessionKey) (a : Answers) : List RecoveryTry :=
  match (m.slots s).staleSessions.get? k, (m.slots s).connection with
  | some staleId, some conn =>
      if (m.slots s).supportsResume then [(.resume, (resumeSession cfg m s conn staleId a).1)]
      else if (m.slots s).supportsLoad then [(.load, (loadSession cfg m s conn staleId a).1)]
      else []
  | _, _ => []

/-- `heal_session`, with the recovery methods that it tries. -/
def healSessionTrying (s : Fin n) (agentName : String) (k : SessionKey) (a : Answers) :
    List RecoveryTry × Except AgentsError Unit × AgentsManager n :=
  (recoveryTries cfg m s k a, healSession cfg m s agentName k a)

variable (s : Fin n) (name : String) (k : SessionKey) (a : Answers)

/-! ### Giving up late -/

def CreatesFresh (m m' : AgentsManager n) (s : Fin n) : Prop :=
  ∃ os, m'.trace = m.trace ++ os ∧ ∃ conn id, Output.answered s conn .created id ∈ os

/-- A fresh session is created only when there is nothing to recover or every method
    the agent supports has failed, and an error leaves the stale id where it is. -/
structure GivesUpLate : Prop where
  fresh : CreatesFresh m (healSessionTrying cfg m s name k a).2.2 s →
    (m.slots s).staleSessions.get? k = none ∨
      ∀ method, (m.slots s).supports method = true →
        (method, none) ∈ (healSessionTrying cfg m s name k a).1
  kept : ∀ e, (healSessionTrying cfg m s name k a).2.1 = .error e →
    ∀ staleId, (m.slots s).staleSessions.get? k = some staleId →
      ((healSessionTrying cfg m s name k a).2.2.slots s).staleSessions.get? k = some staleId

variable {m s k a}

theorem createsFresh_iff {m' : AgentsManager n} {t : SessionTables} {row : Option WrittenRow}
    {news : List (Output n)} (h : SessionChange a m m' s t row news) :
    CreatesFresh m m' s ↔ ∃ conn id, Output.answered s conn .created id ∈ news := by
  obtain ⟨os, htrace, hnews⟩ := h.naming
  rw [← hnews]
  constructor
  · rintro ⟨os', htrace', conn, id, hmem⟩
    rw [htrace] at htrace'
    rw [List.append_cancel_left htrace']
    exact ⟨conn, id, List.mem_filter.mpr ⟨hmem, rfl⟩⟩
  · rintro ⟨conn, id, hmem⟩
    exact ⟨os, htrace, conn, id, (List.mem_filter.mp hmem).1⟩

/-- When nothing was recovered, the one method that is tried has failed, and the handler
    falls back to a fresh session. -/
theorem healSessionTrying_fallback {staleId : AcpSessionId}
    (hstale : (m.slots s).staleSessions.get? k = some staleId)
    (hreach : (m.slots s).supportsResume = true ∨ (m.slots s).supportsLoad = true →
      (m.slots s).connection ≠ none)
    (hrecovers : ¬ (m.slots s).Recovers k a) :
    ∃ m₁, m₁.slots = m.slots ∧ SessionChange a m m₁ s (m.slots s).tables none [] ∧
      healSessionTrying cfg m s name k a =
        ((m.slots s).firstMethod.toList.map (·, none), healByCreating cfg m₁ s name k a) := by
  have hcontains : (m.slots s).staleSessions.contains k = true := by
    simp [KeyedMap.contains, hstale]
  have hrejected : ∀ conn, (m.slots s).connection = some conn →
      (m.slots s).supportsResume = true ∨ (m.slots s).supportsLoad = true →
        a.recovery.result? = none := by
    intro conn hconn hsupports
    by_contra hne
    exact hrecovers ⟨by simp [hconn], hcontains, hsupports, Option.isSome_iff_ne_none.mpr hne⟩
  unfold healSessionTrying recoveryTries healSession AgentSlot.firstMethod
  rw [hstale]
  dsimp only
  by_cases hresume : (m.slots s).supportsResume = true
  · simp only [if_pos hresume]
    obtain ⟨conn, hconn⟩ := Option.ne_none_iff_exists'.mp (hreach (Or.inl hresume))
    obtain ⟨e, m₁, heq, hslots, hkept⟩ := request_error cfg m s conn
      (.sessionResume staleId (cfg.agents s).cwd (mcpServers a.mcpUrls))
      (hrejected conn hconn (Or.inl hresume))
    refine ⟨m₁, hslots, hkept.toChange a s, ?_⟩
    simp only [hconn, resumeSession, requestRecovery, heq]
    rfl
  · simp only [if_neg hresume]
    by_cases hload : (m.slots s).supportsLoad = true
    · simp only [if_pos hload]
      obtain ⟨conn, hconn⟩ := Option.ne_none_iff_exists'.mp (hreach (Or.inr hload))
      obtain ⟨m₁, heq, hslots, hchange⟩ := load_change cfg m s conn staleId
        (hrejected conn hconn (Or.inr hload))
      refine ⟨m₁, hslots, hchange, ?_⟩
      simp only [hconn, heq]
      rfl
    · simp only [if_neg hload]
      refine ⟨m, rfl, (SessionsKept.refl m).toChange a s, ?_⟩
      cases (m.slots s).connection with
      | none => rfl
      | some conn => rfl

theorem healSessionTrying_closed {staleId : AcpSessionId}
    (hstale : (m.slots s).staleSessions.get? k = some staleId)
    (hsupports : (m.slots s).supportsResume = true ∨ (m.slots s).supportsLoad = true)
    (hconn : (m.slots s).connection = none) :
    healSessionTrying cfg m s name k a = ([], .error .connectionClosed, m) := by
  unfold healSessionTrying recoveryTries healSession
  rw [hstale]
  dsimp only
  by_cases hresume : (m.slots s).supportsResume = true
  · simp only [if_pos hresume, hconn]
  · simp only [if_neg hresume, if_pos (hsupports.resolve_left hresume), hconn]

/-- A recovered session is not a fresh one. -/
theorem healSessionTrying_recovered {staleId : AcpSessionId}
    (hstale : (m.slots s).staleSessions.get? k = some staleId)
    (hrecovers : (m.slots s).Recovers k a) :
    (healSessionTrying cfg m s name k a).2.1 = .ok () ∧
      ¬ CreatesFresh m (healSessionTrying cfg m s name k a).2.2 s := by
  obtain ⟨hconn, _, hsupports, hanswer⟩ := hrecovers
  obtain ⟨conn, hconn⟩ := Option.isSome_iff_exists.mp hconn
  obtain ⟨id, hid⟩ := Option.isSome_iff_exists.mp hanswer
  unfold healSessionTrying recoveryTries healSession
  rw [hstale]
  dsimp only
  by_cases hresume : (m.slots s).supportsResume = true
  · have hchange := (named_change m a s conn
      (.sessionResume staleId (cfg.agents s).cwd (mcpServers a.mcpUrls)) .resumed id).trans
        (recoverSession_change _ s name k a id) rfl
    simp only [if_pos hresume, hconn, resumeSession, requestRecovery, request_ok cfg m s conn _ hid]
    refine ⟨trivial, fun hfresh => ?_⟩
    obtain ⟨_, _, hmem⟩ := (createsFresh_iff hchange).mp hfresh
    simp at hmem
  · obtain ⟨m₁, heq, _, hchange⟩ := loaded_change cfg m s conn staleId hid
    have hall := hchange.trans (recoverSession_change _ s name k a id) rfl
    simp only [if_neg hresume, if_pos (hsupports.resolve_left hresume), hconn, heq]
    refine ⟨trivial, fun hfresh => ?_⟩
    obtain ⟨_, _, hmem⟩ := (createsFresh_iff hall).mp hfresh
    simp at hmem

/-- The fallback gives up late when the key is mapped all the same, or when a fresh
    session can be had and the agent does not support both methods. -/
theorem givesUpLate_fallback {name : String} (hfind : findSlotByName cfg name = some s)
    {staleId : AcpSessionId} (hstale : (m.slots s).staleSessions.get? k = some staleId)
    {m₁ : AgentsManager n} (hslots : m₁.slots = m.slots)
    (h₁ : SessionChange a m m₁ s (m.slots s).tables none [])
    (heq : healSessionTrying cfg m s name k a =
      ((m.slots s).firstMethod.toList.map (·, none), healByCreating cfg m₁ s name k a)) :
    GivesUpLate cfg m s name k a ↔
      (m.slots s).sessionMap.get? k ≠ none ∨
        ((m.slots s).CanStart a ∧
          ¬ ((m.slots s).supportsResume = true ∧ (m.slots s).supportsLoad = true)) := by
  have hslot : (m₁.modifySlot s fun slot => slot.forgetStale k).slots s =
      (m.slots s).forgetStale k := by
    rw [slots_modifySlot, if_pos rfl, hslots]
  have hforget : SessionChange a m (m₁.modifySlot s fun slot => slot.forgetStale k) s
      ((m.slots s).tables.forget k) none [] := by
    have h := SessionChange.modifySlot a m₁ s (fun slot => slot.forgetStale k) rfl rfl
      (Finset.Subset.refl _)
    rw [AgentSlot.tables_forgetStale, hslots] at h
    exact h₁.trans h rfl
  have hcreate := createSession_outcome cfg (m₁.modifySlot s fun slot => slot.forgetStale k)
    hfind k a
  unfold healByCreating at heq
  generalize createSession cfg (m₁.modifySlot s fun slot => slot.forgetStale k) name k a = r
    at hcreate heq
  cases hcreate with
  | existing hlive =>
      rw [hslot] at hlive
      have hmapped : (m.slots s).sessionMap.get? k ≠ none := by
        change (m.slots s).sessionMap.get? k = some _ at hlive
        simp [hlive]
      refine iff_of_true ⟨?_, ?_⟩ (Or.inl hmapped)
      · rw [heq]
        intro hfresh
        obtain ⟨_, _, hmem⟩ := (createsFresh_iff hforget).mp hfresh
        cases hmem
      · rw [heq]
        intro e he
        cases he
  | created hlive hstart hconn hid hinc hchange =>
      rw [hslot] at hlive hstart
      have hfresh : CreatesFresh m (healSessionTrying cfg m s name k a).2.2 s := by
        rw [heq]
        exact (createsFresh_iff (hforget.trans hchange hinc)).mpr
          ⟨_, _, List.mem_singleton_self _⟩
      constructor
      · intro h
        have hboth := (h.fresh hfresh).resolve_left (by simp [hstale])
        rw [heq] at hboth
        exact Or.inr ⟨hstart, (m.slots s).all_tried_iff.mp hboth⟩
      · rintro (hmapped | ⟨_, hnot⟩)
        · exact absurd hlive hmapped
        · refine ⟨fun _ => Or.inr ?_, ?_⟩
          · rw [heq]
            exact (m.slots s).all_tried_iff.mpr hnot
          · rw [heq]
            intro e he
            cases he
  | failed hlive hstart hkept =>
      rw [hslot] at hlive hstart
      refine iff_of_false ?_ ?_
      · -- the stale id was removed before the request that failed
        intro h
        have hkeeps := h.kept
        rw [heq] at hkeeps
        have hsame := hkeeps _ rfl staleId hstale
        have htables := congrArg SessionTables.staleSessions (hkept.tables s)
        rw [hslot] at htables
        simp only [AgentSlot.tables_staleSessions] at htables
        rw [htables] at hsame
        simp at hsame
      · rintro (hmapped | ⟨hcan, _⟩)
        · exact hmapped hlive
        · exact hstart hcan

namespace HealSample

/-- Bob's session "old" is stale, and the agent supports resuming and loading. -/
def slot (resume load : Bool) : AgentSlot :=
  { AgentSlot.new (Sample.cfg.agents (Fin.last 0)) with
    connection := some ⟨0⟩
    agentCapabilities := some ⟨2, some ⟨load, ⟨false, false, resume⟩⟩⟩
    staleSessions := (∅ : KeyedMap SessionKey AcpSessionId).set Sample.bob "old" }

def manager (resume load : Bool) : AgentsManager 1 where
  slots := fun _ => slot resume load
  queue := SessionQueue.new
  channelsSender := true
  streamingCompleted := ∅
  sessionStore := ∅
  incoming := []
  completions := []
  completing := none
  prompts := []
  running := true
  nextConnection := 1
  nextPrompt := 0
  nextMessage := 0
  trace := []

def rejected : Answers := { Sample.answers "fresh" with recovery := .answered none }

end HealSample

end AgentsManager

end Anyclaw
