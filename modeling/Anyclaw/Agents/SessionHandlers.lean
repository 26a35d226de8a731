import Anyclaw.Agents.CrashOutcomes
import Anyclaw.Agents.Backlog

/-!
# What the handlers of the run loop do to the sessions

Most handlers leave the sessions alone.  The others carry out an `Operation` on one
session key: they open a session for it, replace its session, or fork it.  `Handled`
sums up what a handler may have done to the sessions and which prompt it may have
handed over.

Sessions are opened by `create_session` (`crates/anyclaw-agents/src/commands.rs`) and
`heal_session` (`session_recovery.rs`), replaced by `/new` and forked by `fork_session`
(`commands.rs`).
-/

namespace Anyclaw

namespace AgentsManager

variable {n : Nat} {cfg : AgentsManagerConfig n} {m m' : AgentsManager n}

/-! ### Handlers that leave the sessions alone -/

section Kept

variable {s : Fin n} {k : SessionKey} {a : Answers}

theorem respond_kept (m : AgentsManager n) (s : Fin n) (rpcId : Option RequestId)
    (r : AgentResponse) : SessionsKept m (m.respond s rpcId r) := by
  unfold respond
  split
  · exact (SessionsKept.refl m).emit rfl
  · exact SessionsKept.refl m

theorem sendCancel_kept (m : AgentsManager n) (s : Fin n) (id : AcpSessionId) (a : Answers) :
    SessionsKept m (m.sendCancel s id a).2 := by
  unfold sendCancel
  split
  · exact SessionsKept.refl m
  · split
    · exact (SessionsKept.refl m).emit rfl
    · exact SessionsKept.refl m

theorem cancelSessionByKey_kept (m : AgentsManager n) (k : SessionKey) (a : Answers) :
    SessionsKept m (m.cancelSessionByKey k a).2 := by
  unfold cancelSessionByKey
  split
  · exact SessionsKept.refl m
  · split
    · exact SessionsKept.refl m
    · exact sendCancel_kept m _ _ a

theorem cancelOperation_kept (m : AgentsManager n) (a : Answers) :
    SessionsKept m (m.cancelOperation a) := by
  refine (SessionsKept.refl m).emitAll ?_
  intro o ho
  obtain ⟨s, _, ho⟩ := List.mem_flatMap.mp ho
  split at ho
  · split at ho
    · obtain ⟨id, _, rfl⟩ := List.mem_map.mp ho
      rfl
    · cases ho
  · cases ho

theorem respondPermission_kept (m : AgentsManager n) (requestId optionId : String) :
    SessionsKept m (m.respondPermission requestId optionId) := by
  unfold respondPermission
  split
  · exact SessionsKept.refl m
  · rename_i s _
    have hmodify : SessionsKept m (m.modifySlot s fun slot =>
        { slot with pendingPermissions := slot.pendingPermissions.remove requestId }) :=
      (SessionsKept.refl m).modifySlot rfl rfl rfl rfl
    dsimp only
    split
    · exact hmodify.emit rfl
    · exact hmodify

theorem sendPromptToSlot_kept (m : AgentsManager n) (s : Fin n) (message : String)
    (a : Answers) : SessionsKept m (m.sendPromptToSlot s message a) := by
  unfold sendPromptToSlot
  split
  · split
    · refine SessionsKept.emit ?_ rfl
      exact ⟨⟨fun _ => rfl, fun _ => rfl, fun _ => rfl, [], by simp, rfl⟩, fun _ => rfl,
        fun _ => rfl, rfl⟩
    · exact SessionsKept.refl m
  · exact SessionsKept.refl m

theorem listSessions_kept (m : AgentsManager n) (name : String) (a : Answers) :
    SessionsKept m (listSessions cfg m name a).2 := by
  unfold listSessions
  split
  · exact SessionsKept.refl m
  · rename_i s _
    split
    · exact SessionsKept.refl m
    · split
      · exact SessionsKept.refl m
      · rename_i conn _
        cases hid : a.list.result? with
        | none =>
            obtain ⟨e, m', heq, _, hkept⟩ := request_error cfg m s conn .sessionList hid
            rw [heq]
            exact hkept
        | some id =>
            rw [request_ok cfg m s conn _ hid]
            exact (SessionsKept.refl m).emit rfl

theorem handleIncoming_kept (m : AgentsManager n) (s : Fin n) (msg : IncomingMessage) :
    SessionsKept m (m.handleIncoming s msg) := by
  cases msg with
  | sessionUpdate u =>
      rw [handleIncoming, forwardSessionUpdate]
      split
      · exact SessionsKept.refl m
      · split
        · rename_i k _ _
          have hemit : SessionsKept m (m.emit (.event (.deliverMessage k (.update u)))) :=
            (SessionsKept.refl m).emit rfl
          dsimp only
          split
          · exact hemit.trans ⟨⟨fun _ => rfl, fun _ => rfl, fun _ => rfl, [], by simp, rfl⟩,
              fun _ => rfl, fun _ => rfl, rfl⟩
          · exact hemit
        · exact SessionsKept.refl m
  | malformedUpdate sessionId error =>
      rw [handleIncoming, forwardMalformedUpdateError]
      split
      · exact SessionsKept.refl m
      · exact (SessionsKept.refl m).sendEvents _
  | requestPermission r =>
      rw [handleIncoming, handlePermissionRequest]
      dsimp only
      split
      · refine SessionsKept.modifySlot (SessionsKept.emit (SessionsKept.refl m) ?_) rfl rfl rfl
          rfl
        rfl
      · exact respond_kept m s r.rpcId _
  | sessionPush rpcId params =>
      rw [handleIncoming]
      cases params with
      | missing => exact respond_kept m s rpcId _
      | invalid => exact respond_kept m s rpcId _
      | valid sessionId content =>
          rw [handleSessionPush]
          split
          · exact respond_kept m s rpcId _
          · split
            · exact ((SessionsKept.refl m).sendEvents _).trans (respond_kept _ s rpcId _)
            · exact respond_kept m s rpcId _
  | fsRequest rpcId outcome => exact respond_kept m s rpcId _
  | otherMethod rpcId => exact respond_kept m s rpcId _

theorem reportCompletion_kept (m : AgentsManager n) {c : PromptCompletion}
    (hlive : c.sessionExpired = false) (a : Answers) :
    SessionsKept m (m.reportCompletion c a) := by
  have herase : SessionsKept m
      { m with streamingCompleted := m.streamingCompleted.erase c.sessionKey } :=
    ⟨⟨fun _ => rfl, fun _ => rfl, fun _ => rfl, [], by simp, rfl⟩, fun _ => rfl,
      fun _ => rfl, rfl⟩
  unfold reportCompletion
  rw [hlive]
  refine SessionsKept.sendEvents ?_ _
  rw [if_neg Bool.false_ne_true]
  split
  · exact herase.trans (cancelSessionByKey_kept _ c.sessionKey a)
  · exact herase

theorem Released.prompts {es : List ChannelEvent} (h : Released es m m' k) :
    m'.prompts = m.prompts := by
  obtain ⟨m₁, hquiet, rfl⟩ := h
  exact hquiet.prompts

end Kept

end AgentsManager

/-! ### Operations -/

inductive OperationKind where
  /-- Map the key, if need be with the help of a stale session. -/
  | opens
  /-- `/new`. -/
  | renews
  | forks
deriving DecidableEq

/-- An operation on the sessions of one key. -/
structure Operation where
  kind : OperationKind
  agentName : String
  key : SessionKey
  answers : Answers

/-- What is left of the tables when a new session is about to be registered. -/
inductive Cleared (t : SessionTables) (k : SessionKey) : OperationKind → SessionTables → Prop
  | same : Cleared t k .opens t
  | forgotten : Cleared t k .opens (t.forget k)
  | unmapped : Cleared t k .renews (t.unmap k)

/-- What an operation makes of the tables of its slot, the row it writes, and the
    session that the agent has named. -/
inductive TablesOp {n : Nat} (slot : AgentSlot) (s : Fin n) (o : Operation) :
    SessionTables → Option AgentsManager.WrittenRow → List (Output n) → Prop
  | created {t : SessionTables} {conn : AgentConnection} {id : AcpSessionId}
      (hcleared : Cleared slot.tables o.key o.kind t) (hconn : slot.connection = some conn)
      (hid : o.answers.sessionNew.result? = some id) :
      TablesOp slot s o (t.register o.key id) (some ⟨o.key, o.agentName, id⟩)
        [.answered s conn.no .created id]
  | recovered {staleId id : AcpSessionId} {conn : AgentConnection} {how : SessionOrigin}
      (hkind : o.kind = .opens) (hstale : slot.staleSessions.get? o.key = some staleId)
      (hconn : slot.connection = some conn) (hid : o.answers.recovery.result? = some id) :
      TablesOp slot s o ((slot.tables.forget o.key).register o.key id)
        (some ⟨o.key, o.agentName, id⟩) [.answered s conn.no how id]
  /-- The stale session is given up, and no new session is needed or none is created. -/
  | forgotten (hkind : o.kind = .opens) (hrecovers : ¬ slot.Recovers o.key o.answers)
      (hlost : (slot.sessionMap.get? o.key).isSome ∨ ¬ slot.CanStart o.answers) :
      TablesOp slot s o (slot.tables.forget o.key) none []
  | unmapped (hkind : o.kind = .renews) (hstart : ¬ slot.CanStart o.answers) :
      TablesOp slot s o (slot.tables.unmap o.key) none []
  | forked {conn : AgentConnection} {id : AcpSessionId} (hkind : o.kind = .forks)
      (hconn : slot.connection = some conn) (hid : o.answers.fork.result? = some id) :
      TablesOp slot s o
        (slot.tables.register (SessionKey.new o.key.channelName "fork" id) id) none
        [.answered s conn.no .forked id]

namespace AgentsManager

variable {n : Nat} (cfg : AgentsManagerConfig n) (m : AgentsManager n)

/-- The sessions are as they were, or changed by the operation. -/
inductive Opened (os : Option Operation) : AgentsManager n → Prop
  | kept {m' : AgentsManager n} (hkept : SessionsKept m m') : Opened os m'
  | changed {o : Operation} {s : Fin n} {t : SessionTables} {row : Option WrittenRow}
      {news : List (Output n)} {m' : AgentsManager n} (ho : os = some o)
      (hfind : findSlotByName cfg o.agentName = some s)
      (hop : TablesOp (m.slots s) s o t row news)
      (hchange : SessionChange o.answers m m' s t row news) : Opened os m'

/-- What a handler may have done, if it carries out at most the operation `os`. -/
inductive Handled (os : Option Operation) : AgentsManager n → Prop
  | opened {m' : AgentsManager n} (hopened : Opened cfg m os m')
      (hprompts : m'.prompts = m.prompts) : Handled os m'
  /-- A prompt for a live session was written, or could not be written. -/
  | prompted {m₁ m' : AgentsManager n} {s : Fin n} {k : SessionKey} {id : AcpSessionId}
      (hopened : Opened cfg m os m₁) (hlive : (m₁.slots s).sessionMap.get? k = some id)
      (hprompted : Prompted m₁ m' s id)
      (hprompts : ∀ p ∈ m'.prompts, p ∈ m.prompts ∨ p.slotIdx = s ∧ p.acpSessionId = id ∧
        (m₁.slots s).connection = some ⟨p.connection⟩) : Handled os m'

variable {cfg m} {os : Option Operation} {m₀ m₁ m' : AgentsManager n}

/-! ### Composition -/

theorem SessionsKept.then_change {s : Fin n} {a : Answers} {t : SessionTables}
    {row : Option WrittenRow} {news : List (Output n)} (h : SessionsKept m m₁)
    (h' : SessionChange a m₁ m' s t row news) : SessionChange a m m' s t row news := by
  obtain ⟨os, hos, hnone⟩ := h.naming
  obtain ⟨os', hos', hnews⟩ := h'.naming
  have hreplays : m₁.replays s a = m.replays s a := by
    unfold replays
    rw [h.reader]
  refine
    { tables := fun s' => ?_
      connection := fun s' => (h'.connection s').trans (h.connection s')
      rows := fun key => ?_
      naming := ⟨os ++ os', by rw [hos', hos, List.append_assoc], by
        rw [List.filter_append, hnone, hnews, List.nil_append]⟩
      reader := fun s' => (h'.reader s').trans (h.reader s')
      awaiting := fun s' => by rw [← h.awaiting s']; exact h'.awaiting s'
      incoming := by rw [← h.incoming, ← hreplays]; exact h'.incoming }
  · rw [h'.tables s', h.tables s']
  · rw [h'.rows key]
    unfold rowAfter
    rw [h.rows key]

theorem SessionsKept.then_opened (h : SessionsKept m m₀) (hslots : m₀.slots = m.slots)
    (h' : Opened cfg m₀ os m') : Opened cfg m os m' := by
  cases h' with
  | kept hkept => exact .kept (h.trans hkept)
  | changed ho hfind hop hchange =>
      rw [hslots] at hop
      exact .changed ho hfind hop (h.then_change hchange)

theorem Opened.trans_kept (h : Opened cfg m os m₁) (h' : SessionsKept m₁ m') :
    Opened cfg m os m' := by
  cases h with
  | kept hkept => exact .kept (hkept.trans h')
  | changed ho hfind hop hchange => exact .changed ho hfind hop (hchange.trans_sessionsKept h')

theorem SessionsKept.then_handled (h : SessionsKept m m₀) (hslots : m₀.slots = m.slots)
    (hprompts : m₀.prompts = m.prompts) (h' : Handled cfg m₀ os m') : Handled cfg m os m' := by
  cases h' with
  | opened hopened hsame => exact .opened (h.then_opened hslots hopened) (hsame.trans hprompts)
  | prompted hopened hlive hprompted hnew =>
      rw [hprompts] at hnew
      exact .prompted (h.then_opened hslots hopened) hlive hprompted hnew

theorem Handled.trans_kept (h : Handled cfg m os m₁) (h' : SessionsKept m₁ m')
    (hprompts : m'.prompts = m₁.prompts) : Handled cfg m os m' := by
  cases h with
  | opened hopened hsame => exact .opened (hopened.trans_kept h') (hprompts.trans hsame)
  | prompted hopened hlive hprompted hnew =>
      rw [← hprompts] at hnew
      exact .prompted hopened hlive (hprompted.trans_kept h') hnew

theorem Handled.of_kept (h : SessionsKept m m') (hprompts : m'.prompts = m.prompts) :
    Handled cfg m os m' :=
  .opened (.kept h) hprompts

/-! ### Opening sessions -/

section Opening

variable {s : Fin n} {name : String} {k : SessionKey} {a : Answers}

theorem CreateOutcome.opened (hfind : findSlotByName cfg name = some s)
    {r : Except AgentsError AcpSessionId × AgentsManager n} (h : CreateOutcome m s name k a r) :
    Opened cfg m (some ⟨.opens, name, k, a⟩) r.2 := by
  cases h with
  | existing _ => exact .kept (SessionsKept.refl m)
  | created _ _ hconn hid _ hchange => exact .changed rfl hfind (.created .same hconn hid) hchange
  | failed _ _ hkept => exact .kept hkept

theorem HealOutcome.opened (hfind : findSlotByName cfg name = some s)
    {r : Except AgentsError Unit × AgentsManager n} (h : HealOutcome m s name k a r) :
    Opened cfg m (some ⟨.opens, name, k, a⟩) r.2 := by
  cases h with
  | recovered hstale _ hconn hid hchange =>
      exact .changed rfl hfind (.recovered rfl hstale hconn hid) hchange
  | created _ _ _ hconn hid hchange =>
      exact .changed rfl hfind (.created .forgotten hconn hid) hchange
  | existing hlive hrecovers hchange =>
      exact .changed rfl hfind (.forgotten rfl hrecovers (Or.inl (by rw [hlive]; rfl))) hchange
  | failed _ hrecovers hstart hchange =>
      exact .changed rfl hfind (.forgotten rfl hrecovers (Or.inr hstart)) hchange
  | unreachable _ => exact .kept (SessionsKept.refl m)

theorem createOrHeal_opened (m : AgentsManager n) (name : String) (k : SessionKey)
    (a : Answers) : Opened cfg m (some ⟨.opens, name, k, a⟩) (createOrHeal cfg m name k a) := by
  unfold createOrHeal
  cases hfind : findSlotByName cfg name with
  | none => exact .kept (SessionsKept.refl m)
  | some s =>
      dsimp only
      split
      · exact (healSession_outcome cfg m k a hfind).opened hfind
      · exact (createSession_outcome cfg m hfind k a).opened hfind

theorem createOrHeal_handled (m : AgentsManager n) (name : String) (k : SessionKey)
    (a : Answers) : Handled cfg m (some ⟨.opens, name, k, a⟩) (createOrHeal cfg m name k a) :=
  .opened (createOrHeal_opened m name k a) (createOrHeal_quiet cfg m name k a).prompts

theorem forkSession_opened (m : AgentsManager n) (name : String) (k : SessionKey)
    (a : Answers) :
    Opened cfg m (some ⟨.forks, name, k, a⟩) (forkSession cfg m name k a).2 := by
  unfold forkSession
  cases hfind : findSlotByName cfg name with
  | none => exact .kept (SessionsKept.refl m)
  | some s =>
      dsimp only
      split
      · exact .kept (SessionsKept.refl m)
      · split
        · rename_i parent conn hlive hconn
          cases hid : a.fork.result? with
          | none =>
              obtain ⟨e, m', heq, _, hkept⟩ := request_error cfg m s conn (.sessionFork parent) hid
              rw [heq]
              exact .kept hkept
          | some id =>
              rw [request_ok cfg m s conn _ hid]
              refine .changed rfl hfind (.forked rfl hconn hid) ?_
              have hnamed := named_change m a s conn (.sessionFork parent) .forked id
              have hregister := SessionChange.modifySlot a
                ((m.emit (.request s conn.no (.sessionFork parent))).emit
                  (.answered s conn.no .forked id)) s
                (fun slot => slot.registerSession (SessionKey.new k.channelName "fork" id) id)
                rfl rfl (Finset.Subset.refl _)
              exact hnamed.trans hregister rfl
        · exact .kept (SessionsKept.refl m)

theorem forkSession_handled (m : AgentsManager n) (name : String) (k : SessionKey)
    (a : Answers) :
    Handled cfg m (some ⟨.forks, name, k, a⟩) (forkSession cfg m name k a).2 :=
  .opened (forkSession_opened m name k a) (forkSession_quiet cfg m name k a).prompts

theorem handlePlatformCommand_opened (hfind : findSlotByName cfg name = some s)
    (command : PlatformCommand) (hos : command = .new → os = some ⟨.renews, name, k, a⟩) :
    Opened cfg m os (handlePlatformCommand cfg m command s name k a).2 ∧
      (handlePlatformCommand cfg m command s name k a).2.prompts = m.prompts := by
  have houtcome := handlePlatformCommand_outcome cfg (m := m) (k := k) (a := a) hfind command
  generalize handlePlatformCommand cfg m command s name k a = r at houtcome
  cases houtcome with
  | renewed _ hconn hid hchange _ hreleased =>
      exact ⟨.changed (hos rfl) hfind (.created .unmapped hconn hid) hchange, hreleased.prompts⟩
  | unmapped hstart hchange _ hquiet =>
      exact ⟨.changed (hos rfl) hfind (.unmapped rfl hstart) hchange, hquiet.prompts⟩
  | cancelled _ hkept hreleased => exact ⟨.kept hkept, hreleased.prompts⟩
  | notCancelled _ hkept htold => exact ⟨.kept hkept, htold.spoken.prompts⟩

theorem handlePlatformCommand_handled (hfind : findSlotByName cfg name = some s)
    (command : PlatformCommand) (hos : command = .new → os = some ⟨.renews, name, k, a⟩) :
    Handled cfg m os (handlePlatformCommand cfg m command s name k a).2 := by
  obtain ⟨hopened, hprompts⟩ := handlePlatformCommand_opened (m := m) hfind command hos
  exact .opened hopened hprompts

end Opening

/-! ### Prompts -/

section Prompts

variable {name : String} {k : SessionKey} {payload : RichPayload} {a : Answers}

theorem Ensured.opened {s : Fin n} (hfind : findSlotByName cfg name = some s)
    (hos : (m.slots s).sessionMap.get? k = none → os = some ⟨.opens, name, k, a⟩)
    (h : Ensured m s name k a m₁) : Opened cfg m os m₁ := by
  cases h with
  | mapped _ => exact .kept (SessionsKept.refl m)
  | healed hlive hheal =>
      rw [hos hlive]
      exact hheal.opened hfind

/-- A plain message: if its key is not live, the operation is to open it. -/
theorem promptSession_handled (hplain : IsPlain payload.content)
    (hos : ∀ s, findSlotByName cfg name = some s → (m.slots s).sessionMap.get? k = none →
      os = some ⟨.opens, name, k, a⟩) :
    Handled cfg m os (promptSession cfg m name k payload a).2 := by
  cases hfind : findSlotByName cfg name with
  | none =>
      unfold promptSession
      rw [hfind]
      exact .of_kept (SessionsKept.refl m) rfl
  | some s =>
      have houtcome := promptSession_outcome cfg (m := m) (k := k) (a := a) hfind hplain
      generalize promptSession cfg m name k payload a = r at houtcome
      cases houtcome with
      | sent hensured hlive hconn _ hslot hno hid hprompted hhanded =>
          refine .prompted (hensured.opened hfind (hos s hfind)) hlive hprompted ?_
          intro p' hp'
          rw [hhanded.prompts] at hp'
          rcases List.mem_append.mp hp' with hold | hnew
          · exact Or.inl hold
          · rw [List.mem_singleton.mp hnew, hno, hconn]
            exact Or.inr ⟨hslot, hid, rfl⟩
      | unsent hensured hlive _ hprompted hquiet =>
          refine .prompted (hensured.opened hfind (hos s hfind)) hlive hprompted ?_
          intro p hp
          rw [hquiet.prompts] at hp
          exact Or.inl hp
      | unhealed hlive hheal hquiet =>
          rw [hos s hfind hlive]
          exact .opened (hheal.opened hfind) hquiet.prompts

end Prompts

end AgentsManager

end Anyclaw
