import Anyclaw.Agents.Manager

/-!
# Creating and recovering sessions

`create_session`, `heal_session` and the recovery of a slot after a crash.

They are in `commands.rs` and `session_recovery.rs` of `crates/anyclaw-agents/src`.  A
recovery asks the agent for one session, in a way that the agent has offered; what becomes of
the other sessions of the slot depends on where it is made.
-/

namespace Anyclaw.AgentsManager

variable {n : Nat} (cfg : AgentsManagerConfig n) (m : AgentsManager n)

/-! ### `create_session` -/

def persistSession (a : Answers) (agentName : String) (k : SessionKey) (id : AcpSessionId) :
    AgentsManager n :=
  m.writeStore a fun store =>
    store.upsertSession
      { sessionKey := k.text
        agentName := agentName
        acpSessionId := id
        createdAt := a.now
        lastActiveAt := a.now
        closed := false }

/-- Cache the tool context on first session creation for this slot. -/
def cacheToolContext (s : Fin n) (a : Answers) : AgentsManager n :=
  if (m.slots s).toolContext.isNone then
    m.modifySlot s fun slot => { slot with toolContext := fetchToolContext a.toolDescriptions }
  else m

/-- `create_session` for a key that is not mapped. -/
def openSession (s : Fin n) (agentName : String) (k : SessionKey) (a : Answers) :
    Except AgentsError AcpSessionId × AgentsManager n :=
  match startSession cfg m s a with
  | (.error e, m) => (.error e, m)
  | (.ok id, m) =>
      let m := m.cacheToolContext s a
      let m := m.modifySlot s fun slot => slot.registerSession k id
      (.ok id, m.persistSession a agentName k id)

def createSession (agentName : String) (k : SessionKey) (a : Answers) :
    Except AgentsError AcpSessionId × AgentsManager n :=
  match findSlotByName cfg agentName with
  | none => (.error (.agentNotFound agentName), m)
  | some s =>
      match (m.slots s).sessionMap.get? k with
      | some id => (.ok id, m)
      | none => openSession cfg m s agentName k a

/-! ### `heal_session` -/

/-- A stale session of `k` is live again under the id the agent returned. -/
def recoverSession (s : Fin n) (agentName : String) (k : SessionKey) (id : AcpSessionId)
    (a : Answers) : AgentsManager n :=
  (m.modifySlot s fun slot => (slot.forgetStale k).registerSession k id).persistSession
    a agentName k id

/-- The fallback: give the stale session up and create a fresh one. -/
def healByCreating (s : Fin n) (agentName : String) (k : SessionKey) (a : Answers) :
    Except AgentsError Unit × AgentsManager n :=
  match createSession cfg (m.modifySlot s fun slot => slot.forgetStale k) agentName k a with
  | (.error e, m) => (.error e, m)
  | (.ok _, m) => (.ok (), m)

/-- Attempt to recover a missing session before a prompt:
    1. try `session/resume` if the agent supports it and a stale session id exists;
    2. try `session/load` if the agent supports it and a stale session id exists;
    3. fall back to `create_session` otherwise. -/
def healSession (s : Fin n) (agentName : String) (k : SessionKey) (a : Answers) :
    Except AgentsError Unit × AgentsManager n :=
  match (m.slots s).staleSessions.get? k with
  | none => healByCreating cfg m s agentName k a
  | some staleId =>
      if (m.slots s).supportsResume then
        match (m.slots s).connection with
        | none => (.error .connectionClosed, m)
        | some conn =>
            match resumeSession cfg m s conn staleId a with
            | (some id, m) => (.ok (), m.recoverSession s agentName k id a)
            | (none, m) => healByCreating cfg m s agentName k a
      else if (m.slots s).supportsLoad then
        match (m.slots s).connection with
        | none => (.error .connectionClosed, m)
        | some conn =>
            match loadSession cfg m s conn staleId a with
            | (some id, m) =>
                let m := m.modifySlot s fun slot => slot.awaitFirstPrompt id
                (.ok (), m.recoverSession s agentName k id a)
            | (none, m) => healByCreating cfg m s agentName k a
      else
        healByCreating cfg m s agentName k a

/-! ### Recovery after a crash -/

/-- Record the crash and drop the old connection; `false` when the slot is disabled. -/
def prepareRestart (s : Fin n) (a : Answers) : Bool × AgentsManager n :=
  let (action, lifecycle) :=
    (m.slots s).lifecycle.recordCrashAndCheck a.crashRecordedAt a.crashCheckedAt
  let m := m.modifySlot s fun slot =>
    { slot with
      lifecycle := lifecycle
      connection := none
      -- killing the connection aborts its reader task
      readerAlive := slot.connection.isNone && slot.readerAlive }
  match action with
  | .disabled => (false, m)
  | .restartAfter _ => (true, m)

/-- The crash notices of a slot: an error result for every live session without an
    active prompt. -/
def crashNotices (slot : AgentSlot) (agentName : String) : List ChannelEvent :=
  let idle := slot.sessionMap.entries.filter fun e => !slot.activePrompts.contains e.2
  idle.map fun e =>
    .deliverMessage e.1 (.errorResult ("Agent crashed — restarting (" ++ agentName ++ ")"))

def notifyCrashToChannels (s : Fin n) : AgentsManager n :=
  (m.sendEvents (crashNotices (m.slots s) (cfg.agents s).name)).modifySlot s fun slot =>
    { slot with activePrompts := ∅ }

def spawnConnection (s : Fin n) : AgentsManager n :=
  let m' := m.modifySlot s fun slot =>
    { slot with connection := some ⟨m.nextConnection⟩, readerAlive := true }
  { m' with nextConnection := m.nextConnection + 1 }.emit (.spawned s m.nextConnection)

def dropConnection (s : Fin n) : AgentsManager n :=
  m.modifySlot s fun slot => { slot with connection := none }

def respawnAndInitialize (s : Fin n) (a : Answers) : Bool × AgentsManager n :=
  if a.spawned then
    match initializeAgent cfg (m.spawnConnection s) s a with
    | (.error _, m) => (false, m.dropConnection s)
    | (.ok (), m) => (true, m)
  else (false, m)

/-- The stale session that the iteration over the stale sessions yields first. -/
def firstStaleId (slot : AgentSlot) (a : Answers) : Option AcpSessionId :=
  (slot.staleSessions.get? a.firstStale).or slot.staleSessions.values.head?

/-- Restore one stale session in the new process; all stale sessions become live. -/
def tryRestoreSession (s : Fin n) (a : Answers) : Bool × AgentsManager n :=
  match firstStaleId (m.slots s) a, (m.slots s).connection with
  | some firstAcpId, some conn =>
      if (m.slots s).supportsResume then
        match resumeSession cfg m s conn firstAcpId a with
        | (some id, m) => (true, m.modifySlot s fun slot => slot.reinstateSessions firstAcpId id)
        | (none, m) => (false, m)
      else if (m.slots s).supportsLoad then
        match loadSession cfg m s conn firstAcpId a with
        | (some id, m) =>
            (true, m.modifySlot s fun slot =>
              (slot.reinstateSessions firstAcpId id).awaitAllFirstPrompts)
        | (none, m) => (false, m)
      else (false, m)
  | _, _ => (false, m)

def restoreOrStartSession (s : Fin n) (a : Answers) : AgentsManager n :=
  let m := m.modifySlot s AgentSlot.retireSessions
  match tryRestoreSession cfg m s a with
  | (true, m) => m
  | (false, m) =>
      match startSession cfg m s a with
      | (.ok id, m) => m.modifySlot s fun slot => slot.restartSessions (cfg.agents s).name id
      | (.error _, m) => m.dropConnection s

def handleCrash (s : Fin n) (a : Answers) : AgentsManager n :=
  match m.prepareRestart s a with
  | (false, m) => m
  | (true, m) =>
      match respawnAndInitialize cfg (notifyCrashToChannels cfg m s) s a with
      | (false, m) => m
      | (true, m) => restoreOrStartSession cfg m s a

end Anyclaw.AgentsManager
