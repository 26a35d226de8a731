import Anyclaw.Library.Links
import Anyclaw.Agents.Processes

/-!
# The protocol spoken with the processes

What the manager writes to its processes are moves on numbered links: a process is spawned
under a fresh number, `initialize` is the first thing it is sent, and only a process that has
answered it with a version the manager knows is sent anything else.  `session/load`,
`session/resume`, `session/fork` and `session/list` are sent only to a process whose answer
offers them.  Nothing is sent to a process once its slot has dropped it or has a new one.

`Obeys` says that a handler makes such moves; it composes like the handlers do.

`initialize_agent` and `start_session` are in `crates/anyclaw-agents/src/manager.rs`, the
checks of what an agent offers (`has_session_capability`) in `slot.rs`, and the requests that
depend on them in `commands.rs` and `session_recovery.rs`.
-/

namespace Anyclaw

variable {n : Nat}

def Output.addressee : Output n → Option (Fin n × Nat)
  | .request s no _ => some (s, no)
  | .prompt p _ _ => some (p.slotIdx, p.connection)
  | .cancel s no _ => some (s, no)
  | .respond s no _ _ => some (s, no)
  | _ => none

def Output.linkAct : Output n → Option (LinkAct (Fin n) Unit (Output n))
  | .spawned s no => some (.opened s no)
  | .request s no .initializeAgent => some (.greeted s no none)
  | o => o.addressee.map fun (s, no) => .said s no o

def InitializeResult.offers (c : InitializeResult) (check : SessionCapabilities → Bool) : Bool :=
  match c.agentCapabilities with
  | some capabilities => check capabilities.sessionCapabilities
  | none => false

def InitializeResult.offersLoad (c : InitializeResult) : Bool :=
  match c.agentCapabilities with
  | some capabilities => capabilities.loadSession
  | none => false

/-- The protocol version is one that the manager speaks. -/
def InitializeResult.Known (c : InitializeResult) : Prop :=
  c.protocolVersion = 1 ∨ c.protocolVersion = 2

instance (c : InitializeResult) : Decidable c.Known := inferInstanceAs (Decidable (_ ∨ _))

/-- What may be written to a process that answered `initialize` with `c`. -/
def Permits (c : InitializeResult) (o : Output n) : Prop :=
  match o with
  | .request _ _ (.sessionLoad _ _ _) => c.offersLoad = true
  | .request _ _ (.sessionResume _ _ _) => c.offers SessionCapabilities.resume = true
  | .request _ _ (.sessionFork _) => c.offers SessionCapabilities.fork = true
  | .request _ _ .sessionList => c.offers SessionCapabilities.list = true
  | _ => True

theorem AgentSlot.hasSessionCapability_eq {slot : AgentSlot} {c : InitializeResult}
    (hc : slot.agentCapabilities = some c) (check : SessionCapabilities → Bool) :
    slot.hasSessionCapability check = c.offers check := by
  simp only [AgentSlot.hasSessionCapability, hc, Option.bind_some]
  rfl

theorem AgentSlot.supportsLoad_eq {slot : AgentSlot} {c : InitializeResult}
    (hc : slot.agentCapabilities = some c) : slot.supportsLoad = c.offersLoad := by
  simp only [AgentSlot.supportsLoad, hc, Option.bind_some]
  rfl

def AgentSlot.OnLink (slot : AgentSlot) (link : Link InitializeResult) : Prop :=
  (slot.connection = none ∧ link = .down) ∨
    ∃ conn c, slot.connection = some conn ∧ slot.agentCapabilities = some c ∧
      link = .ready conn.no c

theorem AgentSlot.OnLink.congr {slot slot' : AgentSlot} {link : Link InitializeResult}
    (h : slot.OnLink link) (hconn : slot'.connection = slot.connection)
    (hcaps : slot'.agentCapabilities = slot.agentCapabilities) : slot'.OnLink link := by
  unfold OnLink
  rwa [hconn, hcaps]

namespace AgentsManager

/-- The manager and its links.  `G s no c` says that the process `no` of slot `s` answered
    `initialize` with `c`. -/
structure OnLinks (G : Fin n → Nat → InitializeResult → Prop) (m : AgentsManager n)
    (L : Links (Fin n) InitializeResult (Output n)) : Prop where
  links : ∀ s, (m.slots s).OnLink (L.link s)
  next : L.next = m.nextConnection
  log : L.log.map LinkAct.shown = m.trace.filterMap Output.linkAct
  answers : ∀ s no c, .greeted s no (some c) ∈ L.log → G s no c

def Obeys (G : Fin n → Nat → InitializeResult → Prop) (m m' : AgentsManager n) : Prop :=
  ∀ L, OnLinks G m L → ∃ L', Links.Runs Permits L L' ∧ OnLinks G m' L'

variable {G : Fin n → Nat → InitializeResult → Prop} {m m' m'' : AgentsManager n}

/-! ### Composition -/

theorem Obeys.refl (m : AgentsManager n) : Obeys G m m := fun L hL =>
  ⟨L, Relation.ReflTransGen.refl, hL⟩

theorem Obeys.trans (h : Obeys G m m') (h' : Obeys G m' m'') : Obeys G m m'' := by
  intro L hL
  obtain ⟨L₁, hruns, hL₁⟩ := h L hL
  obtain ⟨L₂, hruns', hL₂⟩ := h' L₁ hL₁
  exact ⟨L₂, hruns.trans hruns', hL₂⟩

/-- Only the connections, the answers and what was written matter. -/
theorem Obeys.frame (hconn : ∀ s, (m'.slots s).connection = (m.slots s).connection)
    (hcaps : ∀ s, (m'.slots s).agentCapabilities = (m.slots s).agentCapabilities)
    (hnext : m'.nextConnection = m.nextConnection)
    (htrace : m'.trace.filterMap Output.linkAct = m.trace.filterMap Output.linkAct) :
    Obeys G m m' := fun L hL =>
  ⟨L, Relation.ReflTransGen.refl, fun s => (hL.links s).congr (hconn s) (hcaps s),
    hL.next.trans hnext.symm, hL.log.trans htrace.symm, hL.answers⟩

theorem Obeys.of_eq (hslots : m'.slots = m.slots) (hnext : m'.nextConnection = m.nextConnection)
    (htrace : m'.trace = m.trace) : Obeys G m m' :=
  .frame (fun s => by rw [hslots]) (fun s => by rw [hslots]) hnext (by rw [htrace])

theorem Obeys.modifySlot (h : Obeys G m m') {s : Fin n} {f : AgentSlot → AgentSlot}
    (hconn : (f (m'.slots s)).connection = (m'.slots s).connection)
    (hcaps : (f (m'.slots s)).agentCapabilities = (m'.slots s).agentCapabilities) :
    Obeys G m (m'.modifySlot s f) := by
  refine h.trans (.frame (fun s' => ?_) (fun s' => ?_) rfl rfl)
  all_goals
    simp only [slots_modifySlot]
    split
    · rename_i hs
      subst hs
      assumption
    · rfl

theorem Obeys.writeStore (h : Obeys G m m') (a : Answers) (f : SessionStore → SessionStore) :
    Obeys G m (m'.writeStore a f) :=
  h.trans (.of_eq rfl rfl rfl)

/-- An output that goes to no process. -/
theorem Obeys.emit (h : Obeys G m m') {o : Output n} (ho : o.linkAct = none) :
    Obeys G m (m'.emit o) := by
  refine h.trans (.frame (fun _ => rfl) (fun _ => rfl) rfl ?_)
  simp [List.filterMap_append, ho]

theorem Obeys.sendEvents (h : Obeys G m m') (es : List ChannelEvent) :
    Obeys G m (m'.sendEvents es) := by
  refine h.trans (.frame (fun _ => rfl) (fun _ => rfl) rfl ?_)
  have hsilent : (m'.told es).filterMap Output.linkAct = [] := by
    rw [List.filterMap_eq_nil_iff]
    intro o ho
    obtain ⟨e, -, rfl⟩ := exists_of_mem_told ho
    rfl
  rw [sendEvents_eq, emitAll_trace, List.filterMap_append, hsilent, List.append_nil]

def Fits (m : AgentsManager n) (o : Output n) : Prop :=
  ∃ s conn, o.linkAct = some (.said s conn.no o) ∧ (m.slots s).connection = some conn ∧
    ∀ c, (m.slots s).agentCapabilities = some c → Permits c o

theorem Obeys.say (h : Obeys G m m') {o : Output n} (ho : m'.Fits o) :
    Obeys G m (m'.emit o) := by
  obtain ⟨s, conn, hact, hconn, hpermits⟩ := ho
  refine h.trans fun L hL => ?_
  obtain ⟨hdown, -⟩ | ⟨conn', c, hup, hcaps, hlink⟩ := hL.links s
  · rw [hconn] at hdown
    cases hdown
  · cases hconn.symm.trans hup
    refine ⟨L.say s conn.no o, .single (.say hlink (hpermits c hcaps)), hL.links, hL.next, ?_,
      fun s' no' c' hmem => ?_⟩
    · simp [Links.say, LinkAct.shown, hL.log, List.filterMap_append, hact]
    · rcases List.mem_append.mp hmem with hold | hnew
      · exact hL.answers s' no' c' hold
      · cases List.mem_singleton.mp hnew

theorem Obeys.sayAll : ∀ {os : List (Output n)} {m' : AgentsManager n}, Obeys G m m' →
    (∀ o ∈ os, m'.Fits o) → Obeys G m (m'.emitAll os)
  | [], m', h, _ => by
      rw [emitAll, List.append_nil]
      exact h
  | o :: os, m', h, hos => by
      have hfirst : Obeys G m (m'.emit o) := h.say (hos o List.mem_cons_self)
      have hrest := hfirst.sayAll fun o' ho' => hos o' (List.mem_cons_of_mem o ho')
      simpa [AgentsManager.emitAll, AgentsManager.emit] using hrest

/-- The slots of `P` lose their processes. -/
theorem Obeys.close (h : Obeys G m m') (P : Fin n → Prop) [DecidablePred P]
    (hdown : ∀ s, P s → (m''.slots s).connection = none)
    (hconn : ∀ s, ¬ P s → (m''.slots s).connection = (m'.slots s).connection)
    (hcaps : ∀ s, ¬ P s → (m''.slots s).agentCapabilities = (m'.slots s).agentCapabilities)
    (hnext : m''.nextConnection = m'.nextConnection)
    (htrace : m''.trace.filterMap Output.linkAct = m'.trace.filterMap Output.linkAct) :
    Obeys G m m'' := by
  refine h.trans fun L hL => ⟨L.close P, .single (.close P), fun s => ?_,
    hL.next.trans hnext.symm, hL.log.trans htrace.symm, hL.answers⟩
  by_cases hs : P s
  · exact Or.inl ⟨hdown s hs, if_pos hs⟩
  · have hlink : (L.close P).link s = L.link s := if_neg hs
    rw [hlink]
    exact (hL.links s).congr (hconn s hs) (hcaps s hs)

theorem Obeys.drop (h : Obeys G m m') {s : Fin n} {f : AgentSlot → AgentSlot}
    (hf : (f (m'.slots s)).connection = none) : Obeys G m (m'.modifySlot s f) := by
  refine h.close (· = s) ?_ ?_ ?_ rfl rfl
  · rintro _ rfl
    rw [slots_modifySlot, if_pos rfl, hf]
  · intro s' hs
    rw [slots_modifySlot, if_neg hs]
  · intro s' hs
    rw [slots_modifySlot, if_neg hs]

/-! ### Sessions -/

section Sessions

variable (cfg : AgentsManagerConfig n) (m)

theorem request_obeys {α : Type} {s : Fin n} {conn : AgentConnection} {r : AcpRequest}
    (answer : RpcAnswer α) (hr : r ≠ .initializeAgent)
    (hconn : (m.slots s).connection = some conn)
    (hpermits : ∀ c, (m.slots s).agentCapabilities = some c →
      Permits c (.request s conn.no r : Output n)) :
    Obeys G m (request cfg m s conn r answer).2 := by
  have hact : (Output.request s conn.no r : Output n).linkAct =
      some (.said s conn.no (.request s conn.no r)) := by
    cases r with
    | initializeAgent => exact absurd rfl hr
    | _ => rfl
  unfold request
  split
  · exact .refl m
  all_goals exact (Obeys.refl m).say ⟨s, conn, hact, hconn, hpermits⟩

theorem startSession_obeys (s : Fin n) (a : Answers) :
    Obeys G m (startSession cfg m s a).2 := by
  unfold startSession
  split
  · exact .refl m
  · split
    · exact .refl m
    · rename_i conn hconn
      have hreq : Obeys G m (request cfg m s conn
          (.sessionNew (cfg.agents s).cwd (mcpServers a.newMcpUrls)) a.sessionNew).2 :=
        request_obeys m cfg a.sessionNew nofun hconn fun _ _ => trivial
      split
      · rename_i heq
        rwa [heq] at hreq
      · rename_i heq
        simp only [heq] at hreq
        exact hreq.emit rfl

theorem requestRecovery_obeys {s : Fin n} {conn : AgentConnection} {r : AcpRequest}
    (how : SessionOrigin) (a : Answers) (hr : r ≠ .initializeAgent)
    (hconn : (m.slots s).connection = some conn)
    (hpermits : ∀ c, (m.slots s).agentCapabilities = some c →
      Permits c (.request s conn.no r : Output n)) :
    Obeys G m (requestRecovery cfg m s conn r how a).2 := by
  have hreq : Obeys G m (request cfg m s conn r a.recovery).2 :=
    request_obeys m cfg a.recovery hr hconn hpermits
  unfold requestRecovery
  split
  · rename_i heq
    rwa [heq] at hreq
  · rename_i heq
    simp only [heq] at hreq
    exact hreq.emit rfl

theorem resumeSession_obeys {s : Fin n} {conn : AgentConnection} (id : AcpSessionId)
    (a : Answers) (hconn : (m.slots s).connection = some conn)
    (hresume : (m.slots s).supportsResume = true) :
    Obeys G m (resumeSession cfg m s conn id a).2 := by
  refine requestRecovery_obeys m cfg .resumed a nofun hconn fun c hc => ?_
  exact (AgentSlot.hasSessionCapability_eq hc _).symm.trans hresume

theorem loadSession_obeys {s : Fin n} {conn : AgentConnection} (id : AcpSessionId)
    (a : Answers) (hconn : (m.slots s).connection = some conn)
    (hload : (m.slots s).supportsLoad = true) :
    Obeys G m (loadSession cfg m s conn id a).2 := by
  have hreceived : Obeys G m (m.receive (m.replays s a)) := .of_eq rfl rfl rfl
  refine hreceived.trans (requestRecovery_obeys _ cfg .loaded a nofun hconn fun c hc => ?_)
  have hcaps : (m.slots s).agentCapabilities = some c := hc
  exact (AgentSlot.supportsLoad_eq hcaps).symm.trans hload

theorem openSession_obeys (s : Fin n) (name : String) (k : SessionKey) (a : Answers) :
    Obeys G m (openSession cfg m s name k a).2 := by
  have hstart : Obeys G m (startSession cfg m s a).2 := startSession_obeys m cfg s a
  unfold openSession
  split
  · rename_i heq
    rwa [heq] at hstart
  · rename_i m' heq
    simp only [heq] at hstart
    have hcache : Obeys G m (m'.cacheToolContext s a) := by
      unfold cacheToolContext
      split
      · exact hstart.modifySlot rfl rfl
      · exact hstart
    exact (hcache.modifySlot rfl rfl).writeStore _ _

theorem createSession_obeys (name : String) (k : SessionKey) (a : Answers) :
    Obeys G m (createSession cfg m name k a).2 := by
  unfold createSession
  split
  · exact .refl m
  · split
    · exact .refl m
    · exact openSession_obeys m cfg _ name k a

theorem recoverSession_obeys (s : Fin n) (name : String) (k : SessionKey) (id : AcpSessionId)
    (a : Answers) : Obeys G m (m.recoverSession s name k id a) :=
  ((Obeys.refl m).modifySlot rfl rfl).writeStore _ _

theorem healByCreating_obeys (s : Fin n) (name : String) (k : SessionKey) (a : Answers) :
    Obeys G m (healByCreating cfg m s name k a).2 := by
  have hforgotten : Obeys G m (m.modifySlot s fun slot => slot.forgetStale k) :=
    (Obeys.refl m).modifySlot rfl rfl
  have hcreate := hforgotten.trans (createSession_obeys _ cfg name k a)
  unfold healByCreating
  split
  · rename_i heq
    rwa [heq] at hcreate
  · rename_i heq
    rwa [heq] at hcreate

theorem healSession_obeys (s : Fin n) (name : String) (k : SessionKey) (a : Answers) :
    Obeys G m (healSession cfg m s name k a).2 := by
  unfold healSession
  split
  · exact healByCreating_obeys m cfg s name k a
  · rename_i staleId _
    split
    · rename_i hsupports
      split
      · exact .refl m
      · rename_i conn hconn
        have hresume : Obeys G m (resumeSession cfg m s conn staleId a).2 :=
          resumeSession_obeys m cfg staleId a hconn hsupports
        split
        · rename_i heq
          rw [heq] at hresume
          exact hresume.trans (recoverSession_obeys _ s name k _ a)
        · rename_i heq
          rw [heq] at hresume
          exact hresume.trans (healByCreating_obeys _ cfg s name k a)
    · split
      · rename_i hsupports
        split
        · exact .refl m
        · rename_i conn hconn
          have hload : Obeys G m (loadSession cfg m s conn staleId a).2 :=
            loadSession_obeys m cfg staleId a hconn hsupports
          split
          · rename_i heq
            rw [heq] at hload
            exact (hload.modifySlot rfl rfl).trans (recoverSession_obeys _ s name k _ a)
          · rename_i heq
            rw [heq] at hload
            exact hload.trans (healByCreating_obeys _ cfg s name k a)
      · exact healByCreating_obeys m cfg s name k a

theorem ensureMapped_obeys (s : Fin n) (name : String) (k : SessionKey) (a : Answers) :
    Obeys G m (ensureMapped cfg m s name k a).2 := by
  unfold ensureMapped
  split
  · exact .refl m
  · exact healSession_obeys m cfg s name k a

theorem createOrHeal_obeys (name : String) (k : SessionKey) (a : Answers) :
    Obeys G m (createOrHeal cfg m name k a) := by
  unfold createOrHeal
  split
  · split
    · exact healSession_obeys m cfg _ name k a
    · exact createSession_obeys m cfg name k a
  · exact .refl m

theorem forkSession_obeys (name : String) (k : SessionKey) (a : Answers) :
    Obeys G m (forkSession cfg m name k a).2 := by
  unfold forkSession
  split
  · exact .refl m
  · rename_i s _
    split
    · exact .refl m
    · rename_i hsupports
      split
      · rename_i parent conn _ hconn
        have hreq : Obeys G m (request cfg m s conn (.sessionFork parent) a.fork).2 := by
          refine request_obeys m cfg a.fork nofun hconn fun c hc => ?_
          exact (AgentSlot.hasSessionCapability_eq hc _).symm.trans (by simpa using hsupports)
        split
        · rename_i heq
          rwa [heq] at hreq
        · rename_i heq
          simp only [heq] at hreq
          dsimp only
          exact Obeys.modifySlot (hreq.emit rfl) rfl rfl
      · exact .refl m

theorem listSessions_obeys (name : String) (a : Answers) :
    Obeys G m (listSessions cfg m name a).2 := by
  unfold listSessions
  split
  · exact .refl m
  · split
    · exact .refl m
    · rename_i hsupports
      split
      · exact .refl m
      · rename_i hconn
        refine request_obeys m cfg a.list nofun hconn fun c hc => ?_
        exact (AgentSlot.hasSessionCapability_eq hc _).symm.trans (by simpa using hsupports)

end Sessions

/-! ### Other handlers -/

section Handlers

variable (cfg : AgentsManagerConfig n) (m)

theorem sendCancel_obeys (s : Fin n) (id : AcpSessionId) (a : Answers) :
    Obeys G m (m.sendCancel s id a).2 := by
  unfold sendCancel
  split
  · exact .refl m
  · rename_i conn hconn
    split
    · exact (Obeys.refl m).say ⟨s, conn, rfl, hconn, fun _ _ => trivial⟩
    · exact .refl m

theorem cancelSession_obeys (name : String) (k : SessionKey) (a : Answers) :
    Obeys G m (cancelSession cfg m name k a).2 := by
  unfold cancelSession
  split
  · exact .refl m
  · split
    · exact .refl m
    · exact sendCancel_obeys m _ _ a

theorem cancelSessionByKey_obeys (k : SessionKey) (a : Answers) :
    Obeys G m (m.cancelSessionByKey k a).2 := by
  unfold cancelSessionByKey
  split
  · exact .refl m
  · split
    · exact .refl m
    · exact sendCancel_obeys m _ _ a

theorem cancelOperation_obeys (a : Answers) : Obeys G m (m.cancelOperation a) := by
  refine (Obeys.refl m).sayAll fun o ho => ?_
  obtain ⟨s, _, ho⟩ := List.mem_flatMap.mp ho
  split at ho
  · rename_i conn hconn
    split at ho
    · obtain ⟨id, _, rfl⟩ := List.mem_map.mp ho
      exact ⟨s, conn, rfl, hconn, fun _ _ => trivial⟩
    · cases ho
  · cases ho

theorem respond_obeys (s : Fin n) (rpcId : Option RequestId) (r : AgentResponse) :
    Obeys G m (m.respond s rpcId r) := by
  unfold respond
  split
  · rename_i conn hconn
    exact (Obeys.refl m).say ⟨s, conn, rfl, hconn, fun _ _ => trivial⟩
  · exact .refl m

theorem respondPermission_obeys (requestId optionId : String) :
    Obeys G m (m.respondPermission requestId optionId) := by
  unfold respondPermission
  split
  · exact .refl m
  · rename_i s _
    have hmodify : Obeys G m (m.modifySlot s fun slot =>
        { slot with pendingPermissions := slot.pendingPermissions.remove requestId }) :=
      (Obeys.refl m).modifySlot rfl rfl
    dsimp only
    split
    · rename_i conn hconn
      exact hmodify.say ⟨s, conn, rfl, hconn, fun _ _ => trivial⟩
    · exact hmodify

theorem handleIncoming_obeys (s : Fin n) (msg : IncomingMessage) :
    Obeys G m (m.handleIncoming s msg) := by
  cases msg with
  | sessionUpdate u =>
      rw [handleIncoming, forwardSessionUpdate]
      split
      · exact .refl m
      · split
        · rename_i k _ _
          have hemit : Obeys G m (m.emit (.event (.deliverMessage k (.update u)))) :=
            (Obeys.refl m).emit rfl
          dsimp only
          split
          · exact hemit.trans (.of_eq rfl rfl rfl)
          · exact hemit
        · exact .refl m
  | malformedUpdate sessionId error =>
      rw [handleIncoming, forwardMalformedUpdateError]
      split
      · exact .refl m
      · exact (Obeys.refl m).sendEvents _
  | requestPermission r =>
      rw [handleIncoming, handlePermissionRequest]
      dsimp only
      split
      · exact Obeys.modifySlot (Obeys.emit (Obeys.refl m) rfl) rfl rfl
      · exact respond_obeys m s r.rpcId _
  | sessionPush rpcId params =>
      rw [handleIncoming]
      cases params with
      | missing => exact respond_obeys m s rpcId _
      | invalid => exact respond_obeys m s rpcId _
      | valid sessionId content =>
          rw [handleSessionPush]
          split
          · exact respond_obeys m s rpcId _
          · split
            · exact ((Obeys.refl m).sendEvents _).trans (respond_obeys _ s rpcId _)
            · exact respond_obeys m s rpcId _
  | fsRequest rpcId outcome => exact respond_obeys m s rpcId _
  | otherMethod rpcId => exact respond_obeys m s rpcId _

theorem handlePlatformCommand_obeys (command : PlatformCommand) (s : Fin n) (name : String)
    (k : SessionKey) (a : Answers) :
    Obeys G m (handlePlatformCommand cfg m command s name k a).2 := by
  have hrelease : ∀ m₁ : AgentsManager n, Obeys G m₁ (m₁.releaseKey k) := fun _ =>
    .of_eq rfl rfl rfl
  unfold handlePlatformCommand
  cases command with
  | new =>
      have hcleared : Obeys G m (m.modifySlot s fun slot => slot.unmapSession k) :=
        (Obeys.refl m).modifySlot rfl rfl
      have hcreate := hcleared.trans (createSession_obeys _ cfg name k a)
      dsimp only
      split
      · rename_i heq
        rwa [heq] at hcreate
      · rename_i heq
        rw [heq] at hcreate
        exact (hcreate.sendEvents _).trans (hrelease _)
  | cancel =>
      have hcancel : Obeys G m (cancelSession cfg m name k a).2 :=
        cancelSession_obeys m cfg name k a
      dsimp only
      split
      · rename_i heq
        rw [heq] at hcancel
        exact (hcancel.sendEvents _).trans (hrelease _)
      · rename_i heq
        rw [heq] at hcancel
        exact hcancel.sendEvents _

/-! ### Prompts -/

theorem preparePrompt_obeys (s : Fin n) (id : AcpSessionId) :
    Obeys G m (m.modifySlot s fun slot => preparePrompt slot id) :=
  (Obeys.refl m).modifySlot rfl rfl

theorem trackPrompt_obeys {s : Fin n} {conn : AgentConnection} (k : SessionKey)
    (id : AcpSessionId) (parts : List ContentPart) (origin : List MessageNo) (a : Answers)
    (hconn : (m.slots s).connection = some conn) :
    Obeys G m (m.trackPrompt s conn k id parts origin a) := by
  have htracked : Obeys G m ((m.writeStore a fun store =>
      store.updateLastActive k.text a.now).modifySlot s fun slot =>
        { slot with activePrompts := slot.activePrompts.set id m.nextPrompt }) :=
    ((Obeys.refl m).writeStore a _).modifySlot rfl rfl
  have hnumbered : Obeys G m { (m.writeStore a fun store =>
      store.updateLastActive k.text a.now).modifySlot s (fun slot =>
        { slot with activePrompts := slot.activePrompts.set id m.nextPrompt }) with
      prompts := m.prompts ++
        [{ no := m.nextPrompt, slotIdx := s, connection := conn.no, sessionKey := k
           acpSessionId := id, awaited := true }]
      nextPrompt := m.nextPrompt + 1 } := htracked.trans (.of_eq rfl rfl rfl)
  refine hnumbered.say ⟨s, conn, rfl, ?_, fun _ _ => trivial⟩
  simpa [slots_modifySlot] using hconn

theorem writePrompt_obeys (s : Fin n) (k : SessionKey) (id : AcpSessionId)
    (payload : RichPayload) (a : Answers) :
    Obeys G m (m.writePrompt s k id payload a).2 := by
  unfold writePrompt
  dsimp only
  split
  · exact preparePrompt_obeys m s id
  · rename_i conn hconn
    split
    · exact (preparePrompt_obeys m s id).trans
        (trackPrompt_obeys _ k id _ payload.origin a hconn)
    · exact preparePrompt_obeys m s id

theorem promptSession_obeys (name : String) (k : SessionKey) (payload : RichPayload)
    (a : Answers) : Obeys G m (promptSession cfg m name k payload a).2 := by
  unfold promptSession
  split
  · exact .refl m
  · rename_i s _
    split
    · exact handlePlatformCommand_obeys m cfg _ s name k a
    · have hmapped : Obeys G m (ensureMapped cfg m s name k a).2 :=
        ensureMapped_obeys m cfg s name k a
      split
      · rename_i heq
        rwa [heq] at hmapped
      · rename_i m₁ heq
        rw [heq] at hmapped
        split
        · exact hmapped
        · exact hmapped.trans (writePrompt_obeys m₁ s k _ payload a)

theorem sendPromptToSlot_obeys (s : Fin n) (message : String) (a : Answers) :
    Obeys G m (m.sendPromptToSlot s message a) := by
  unfold sendPromptToSlot
  split
  · rename_i conn k id hconn hlive
    split
    · have hnumbered : Obeys G m { m with
          prompts := m.prompts ++
            [{ no := m.nextPrompt, slotIdx := s, connection := conn.no, sessionKey := k
               acpSessionId := id, awaited := false }]
          nextPrompt := m.nextPrompt + 1 } := .of_eq rfl rfl rfl
      exact hnumbered.say (o := .request s conn.no (.sessionPrompt id [.text message]))
        ⟨s, conn, rfl, hconn, fun _ _ => trivial⟩
    · exact .refl m
  · exact .refl m

theorem flushAndDispatch_obeys (name : String) (k : SessionKey) (a : Answers) :
    Obeys G m (flushAndDispatch cfg m name k a).2 := by
  have hqueue : ∀ q, Obeys G m (m.withQueue q) := fun _ => .of_eq rfl rfl rfl
  unfold flushAndDispatch
  split
  · exact hqueue _
  · exact ((hqueue _).sendEvents _).trans (promptSession_obeys _ cfg name k _ a)

theorem enqueueMessage_obeys (name : String) (k : SessionKey) (content : List ContentPart)
    (metadata : Option MessageMetadata) (a : Answers) :
    Obeys G m (enqueueMessage cfg m name k content metadata a) := by
  have htake : Obeys G m m.takeNumber := .of_eq rfl rfl rfl
  have hqueue : ∀ q, Obeys G m (m.takeNumber.withQueue q) := fun _ => .of_eq rfl rfl rfl
  unfold enqueueMessage
  dsimp only
  split
  · split
    · exact htake.emit rfl
    · exact (htake.trans (handlePlatformCommand_obeys _ cfg _ _ name k a)).emit rfl
  · split
    · exact (hqueue _).emit rfl
    · exact ((hqueue _).trans (flushAndDispatch_obeys _ cfg name k a)).emit rfl

theorem dispatchQueued_obeys (k : SessionKey) (a : Answers) :
    Obeys G m (dispatchQueued cfg m k a) := by
  have hqueue : ∀ q, Obeys G m (m.withQueue q) := fun _ => .of_eq rfl rfl rfl
  unfold dispatchQueued
  split
  · exact hqueue _
  · dsimp only
    split
    · exact hqueue _
    · exact ((hqueue _).sendEvents _).trans (promptSession_obeys _ cfg _ k _ a)

theorem expireSession_obeys (k : SessionKey) : Obeys G m (m.expireSession k) := by
  refine .frame (fun s => ?_) (fun s => ?_) rfl rfl
  all_goals
    unfold AgentsManager.expireSession AgentSlot.expireSession
    dsimp only
    split <;> rfl

theorem reportCompletion_obeys (c : PromptCompletion) (a : Answers) :
    Obeys G m (m.reportCompletion c a) := by
  have herased : Obeys G m
      { m with streamingCompleted := m.streamingCompleted.erase c.sessionKey } :=
    .of_eq rfl rfl rfl
  unfold reportCompletion
  dsimp only
  refine Obeys.sendEvents ?_ _
  have hcancelled : Obeys G m (if c.idleTimedOut = true then (cancelSessionByKey
      { m with streamingCompleted := m.streamingCompleted.erase c.sessionKey } c.sessionKey a).2
      else { m with streamingCompleted := m.streamingCompleted.erase c.sessionKey }) := by
    split
    · exact herased.trans (cancelSessionByKey_obeys _ c.sessionKey a)
    · exact herased
  split
  · exact hcancelled.trans (expireSession_obeys _ c.sessionKey)
  · exact hcancelled

theorem finishPromptCompletion_obeys (c : PromptCompletion) (a : Answers) :
    Obeys G m (finishPromptCompletion cfg m c a) :=
  (reportCompletion_obeys m c a).trans (dispatchQueued_obeys _ cfg c.sessionKey a)

theorem shutdown_obeys : Obeys G m m.shutdown :=
  (Obeys.refl m).close (fun _ => True) (fun _ _ => rfl) (fun _ h => absurd trivial h)
    (fun _ h => absurd trivial h) rfl rfl

theorem handleCommand_obeys (a : Answers) (c : AgentsCommand) :
    Obeys G m (handleCommand cfg m a c) := by
  cases c with
  | sendPrompt message =>
      rw [handleCommand]
      split
      · exact sendPromptToSlot_obeys m _ message a
      · exact .refl m
  | cancelOperation => exact cancelOperation_obeys m a
  | respondPermission requestId optionId => exact respondPermission_obeys m requestId optionId
  | shutdown => exact shutdown_obeys m
  | createSession name k => exact createOrHeal_obeys m cfg name k a
  | enqueueMessage name k content metadata => exact enqueueMessage_obeys m cfg name k content metadata a
  | forkSession name k => exact forkSession_obeys m cfg name k a
  | listSessions name => exact listSessions_obeys m cfg name a
  | cancelSession name k => exact cancelSession_obeys m cfg name k a

end Handlers

end AgentsManager

end Anyclaw
