import Mathlib.Data.List.Infix
import Anyclaw.Library.Transition
import Anyclaw.Agents.Incoming

/-!
# The agents manager as a machine

One label is one event: an event of the environment (a reader task puts a message
into the incoming queue, a prompt ends), or one turn of the run loop.  The drain at
the start of `handle_prompt_completion` is a turn for each message, because readers
go on writing while it lasts; every other handler is one turn.

The run loop is `AgentsManager::run` of `crates/anyclaw-agents/src/manager.rs`; the drain is
in `incoming.rs`.
-/

namespace Anyclaw

inductive PromptAnswer where
  | error (message data : String)
  /-- `none` when the result does not parse. -/
  | result (stopReason : Option StopReason)
deriving DecidableEq

inductive Label (n : Nat) where
  /-- The reader of slot `s` queues a message. -/
  | incoming (s : Fin n) (msg : IncomingMessage)
  /-- The reader of slot `s` has come to the end of the output. -/
  | eof (s : Fin n)
  | promptAnswered (no : Nat) (answer : PromptAnswer)
  /-- The connection of a prompt has been dropped. -/
  | promptLost (no : Nat)
  | promptIdle (no : Nat)
  | command (c : AgentsCommand) (a : Answers)
  | recvIncoming (a : Answers)
  | recvCompletion
  | drainIncoming (a : Answers)
  | finishCompletion (a : Answers)
  | cancelled

namespace AgentsManager

variable {n : Nat} (cfg : AgentsManagerConfig n) (m : AgentsManager n)

/-! ### Prompts end -/

def containsIgnoreCase (text phrase : String) : Bool :=
  decide (phrase.toList <:+: text.toList.map Char.toLower)

def answerCompletion (p : OutstandingPrompt n) : PromptAnswer → PromptCompletion
  | .error message data =>
      { sessionKey := p.sessionKey
        sessionExpired := containsIgnoreCase (message ++ " " ++ data) "session not found"
        idleTimedOut := false
        errorMessage := some message
        stopReason := .refusal
        prompt := p.no }
  | .result stopReason =>
      { sessionKey := p.sessionKey
        sessionExpired := false
        idleTimedOut := false
        errorMessage := none
        stopReason := stopReason.getD .endTurn
        prompt := p.no }

/-- `send_prompt_error`. -/
def errorCompletion (p : OutstandingPrompt n) (message : String) (idleTimedOut : Bool) :
    PromptCompletion where
  sessionKey := p.sessionKey
  sessionExpired := false
  idleTimedOut := idleTimedOut
  errorMessage := some message
  stopReason := .refusal
  prompt := p.no

def findPrompt (no : Nat) : Option (OutstandingPrompt n) := m.prompts.find? fun p => p.no == no

/-- The request is over; its task, if it still waits, sends a completion. -/
def endPrompt (p : OutstandingPrompt n) (c : PromptCompletion) : AgentsManager n :=
  { m with
    prompts := m.prompts.filter fun p' => p'.no != p.no
    completions := if p.awaited then m.completions ++ [c] else m.completions }

/-- The task of a prompt gives up; the request stays unanswered. -/
def abandonPrompt (p : OutstandingPrompt n) (c : PromptCompletion) : AgentsManager n :=
  { m with
    prompts := m.prompts.map fun p' => if p'.no = p.no then { p' with awaited := false } else p'
    completions := m.completions ++ [c] }

def idleMessage : String :=
  "Agent idle timeout after " ++ toString cfg.promptIdleTimeoutSecs ++ "s with no activity"

/-! ### Turns of the run loop -/

def handleSlotIncoming (msg : SlotIncoming n) (a : Answers) : AgentsManager n :=
  match msg.msg with
  | some incoming => m.handleIncoming msg.slotIdx incoming
  | none => handleCrash cfg m msg.slotIdx a

/-- Whether the run loop can take the next event. -/
def idle : Bool := m.running && m.completing.isNone

def step : Label n → Option (AgentsManager n)
  | .incoming s msg =>
      if (m.slots s).readerAlive then some (m.receive [⟨s, some msg⟩]) else none
  | .eof s =>
      if (m.slots s).readerAlive then
        some ((m.receive [⟨s, none⟩]).modifySlot s fun slot => { slot with readerAlive := false })
      else none
  | .promptAnswered no answer =>
      match m.findPrompt no with
      | none => none
      | some p =>
          if (m.slots p.slotIdx).readerAlive ∧
              (m.slots p.slotIdx).connection = some ⟨p.connection⟩ then
            some (m.endPrompt p (answerCompletion p answer))
          else none
  | .promptLost no =>
      match m.findPrompt no with
      | none => none
      | some p =>
          if (m.slots p.slotIdx).connection ≠ some ⟨p.connection⟩ then
            some (m.endPrompt p (errorCompletion p "Agent connection lost" false))
          else none
  | .promptIdle no =>
      match m.findPrompt no with
      | none => none
      | some p =>
          if cfg.promptIdleTimeoutSecs ≠ 0 ∧ p.awaited then
            some (m.abandonPrompt p (errorCompletion p (idleMessage cfg) true))
          else none
  | .command c a => if m.idle then some (handleCommand cfg m a c) else none
  | .recvIncoming a =>
      match m.incoming with
      | [] => none
      | msg :: rest =>
          if m.idle then
            let m := { m with incoming := rest }
            -- a slot that is disabled is not recovered
            if msg.msg.isNone && (m.slots msg.slotIdx).lifecycle.disabled then some m
            else some (handleSlotIncoming cfg m msg a)
          else none
  | .recvCompletion =>
      match m.completions with
      | [] => none
      | c :: rest =>
          if m.idle then some { m with completions := rest, completing := some c } else none
  | .drainIncoming a =>
      match m.completing, m.incoming with
      | some _, msg :: rest => some (handleSlotIncoming cfg { m with incoming := rest } msg a)
      | _, _ => none
  | .finishCompletion a =>
      match m.completing, m.incoming with
      | some c, [] => some (finishPromptCompletion cfg { m with completing := none } c a)
      | _, _ => none
  | .cancelled => if m.idle then some m.shutdown else none

/-! ### What a label does -/

theorem findPrompt_eq_some {m : AgentsManager n} {no : Nat} {p : OutstandingPrompt n}
    (h : m.findPrompt no = some p) : p ∈ m.prompts ∧ p.no = no := by
  have hno := List.find?_some h
  exact ⟨List.mem_of_find?_eq_some h, by simpa using hno⟩

/-- The steps of the machine, one case for each way to take a label. -/
inductive Turn : Label n → AgentsManager n → Prop
  | incoming {s : Fin n} {msg : IncomingMessage} (hreader : (m.slots s).readerAlive) :
      Turn (.incoming s msg) (m.receive [⟨s, some msg⟩])
  | eof {s : Fin n} (hreader : (m.slots s).readerAlive) :
      Turn (.eof s)
        ((m.receive [⟨s, none⟩]).modifySlot s fun slot => { slot with readerAlive := false })
  | promptAnswered {p : OutstandingPrompt n} {answer : PromptAnswer} (hp : p ∈ m.prompts)
      (hreader : (m.slots p.slotIdx).readerAlive)
      (hconn : (m.slots p.slotIdx).connection = some ⟨p.connection⟩) :
      Turn (.promptAnswered p.no answer) (m.endPrompt p (answerCompletion p answer))
  | promptLost {p : OutstandingPrompt n} (hp : p ∈ m.prompts)
      (hconn : (m.slots p.slotIdx).connection ≠ some ⟨p.connection⟩) :
      Turn (.promptLost p.no) (m.endPrompt p (errorCompletion p "Agent connection lost" false))
  | promptIdle {p : OutstandingPrompt n} (hp : p ∈ m.prompts)
      (htimeout : cfg.promptIdleTimeoutSecs ≠ 0) (hawaited : p.awaited = true) :
      Turn (.promptIdle p.no) (m.abandonPrompt p (errorCompletion p (idleMessage cfg) true))
  | command {c : AgentsCommand} {a : Answers} (hidle : m.idle) :
      Turn (.command c a) (handleCommand cfg m a c)
  | recvIncoming {msg : SlotIncoming n} {rest : List (SlotIncoming n)} {a : Answers}
      (hidle : m.idle) (hincoming : m.incoming = msg :: rest)
      (henabled : msg.msg = none → (m.slots msg.slotIdx).lifecycle.disabled = false) :
      Turn (.recvIncoming a) (handleSlotIncoming cfg { m with incoming := rest } msg a)
  /-- The end of the output of a disabled slot. -/
  | recvDisabled {msg : SlotIncoming n} {rest : List (SlotIncoming n)} {a : Answers}
      (hidle : m.idle) (hincoming : m.incoming = msg :: rest) (hmsg : msg.msg = none)
      (hdisabled : (m.slots msg.slotIdx).lifecycle.disabled) :
      Turn (.recvIncoming a) { m with incoming := rest }
  | recvCompletion {c : PromptCompletion} {rest : List PromptCompletion} (hidle : m.idle)
      (hcompletions : m.completions = c :: rest) :
      Turn .recvCompletion { m with completions := rest, completing := some c }
  | drainIncoming {msg : SlotIncoming n} {rest : List (SlotIncoming n)} {a : Answers}
      {c : PromptCompletion} (hc : m.completing = some c) (hincoming : m.incoming = msg :: rest) :
      Turn (.drainIncoming a) (handleSlotIncoming cfg { m with incoming := rest } msg a)
  | finishCompletion {c : PromptCompletion} {a : Answers} (hc : m.completing = some c)
      (hincoming : m.incoming = []) :
      Turn (.finishCompletion a) (finishPromptCompletion cfg { m with completing := none } c a)
  | cancelled (hidle : m.idle) : Turn .cancelled m.shutdown

theorem turn_of_step {m' : AgentsManager n} {l : Label n} (h : step cfg m l = some m') :
    Turn cfg m l m' := by
  cases l with
  | incoming s msg =>
      obtain ⟨hreader, hm⟩ := Option.ite_none_right_eq_some.mp h
      cases hm
      exact .incoming hreader
  | eof s =>
      obtain ⟨hreader, hm⟩ := Option.ite_none_right_eq_some.mp h
      cases hm
      exact .eof hreader
  | promptAnswered no answer =>
      rw [step] at h
      split at h
      · cases h
      · rename_i p hfind
        obtain ⟨hp, rfl⟩ := findPrompt_eq_some hfind
        obtain ⟨⟨hreader, hconn⟩, hm⟩ := Option.ite_none_right_eq_some.mp h
        cases hm
        exact .promptAnswered hp hreader hconn
  | promptLost no =>
      rw [step] at h
      split at h
      · cases h
      · rename_i p hfind
        obtain ⟨hp, rfl⟩ := findPrompt_eq_some hfind
        obtain ⟨hconn, hm⟩ := Option.ite_none_right_eq_some.mp h
        cases hm
        exact .promptLost hp hconn
  | promptIdle no =>
      rw [step] at h
      split at h
      · cases h
      · rename_i p hfind
        obtain ⟨hp, rfl⟩ := findPrompt_eq_some hfind
        obtain ⟨⟨htimeout, hawaited⟩, hm⟩ := Option.ite_none_right_eq_some.mp h
        cases hm
        exact .promptIdle hp htimeout hawaited
  | command c a =>
      obtain ⟨hidle, hm⟩ := Option.ite_none_right_eq_some.mp h
      cases hm
      exact .command hidle
  | recvIncoming a =>
      rw [step] at h
      split at h
      · cases h
      · rename_i msg rest hincoming
        obtain ⟨hidle, hm⟩ := Option.ite_none_right_eq_some.mp h
        dsimp only at hm
        split at hm
        · rename_i hskip
          rw [Bool.and_eq_true, Option.isNone_iff_eq_none] at hskip
          cases hm
          exact .recvDisabled hidle hincoming hskip.1 hskip.2
        · rename_i hnot
          cases hm
          refine .recvIncoming hidle hincoming fun hmsg => ?_
          rw [Bool.and_eq_true, Option.isNone_iff_eq_none] at hnot
          exact Bool.eq_false_iff.mpr fun hdisabled => hnot ⟨hmsg, hdisabled⟩
  | recvCompletion =>
      rw [step] at h
      split at h
      · cases h
      · rename_i c rest hcompletions
        obtain ⟨hidle, hm⟩ := Option.ite_none_right_eq_some.mp h
        cases hm
        exact .recvCompletion hidle hcompletions
  | drainIncoming a =>
      rw [step] at h
      split at h
      · rename_i c msg rest hc hincoming
        cases h
        exact .drainIncoming hc hincoming
      · cases h
  | finishCompletion a =>
      rw [step] at h
      split at h
      · rename_i c hc hincoming
        cases h
        exact .finishCompletion hc hincoming
      · cases h
  | cancelled =>
      obtain ⟨hidle, hm⟩ := Option.ite_none_right_eq_some.mp h
      cases hm
      exact .cancelled hidle

theorem idle_iff : m.idle = true ↔ m.running = true ∧ m.completing = none := by
  unfold idle
  rw [Bool.and_eq_true, Option.isNone_iff_eq_none]

/-! ### Boot -/

def fresh (channelsSender : Bool) (store : SessionStore) : AgentsManager n where
  slots := fun s => AgentSlot.new (cfg.agents s)
  queue := SessionQueue.new
  channelsSender := channelsSender
  streamingCompleted := ∅
  sessionStore := store
  incoming := []
  completions := []
  completing := none
  prompts := []
  running := true
  nextConnection := 0
  nextPrompt := 0
  nextMessage := 0
  trace := []

structure StartAnswers (n : Nat) where
  agents : Fin n → Answers
  now : Nat
  expiryOk : Bool
  /-- The open sessions in the order in which the store returns them; `none` when they
      cannot be loaded. -/
  openSessions : Option (List PersistedSession)

def buildStartedSlot (s : Fin n) (a : Answers) : Except AgentsError Unit × AgentsManager n :=
  if a.spawned then
    match initializeAgent cfg (m.spawnConnection s) s a with
    | (.error e, m) => (.error e, m)
    | (.ok (), m) =>
        match startSession cfg m s a with
        | (.error e, m) => (.error e, m)
        | (.ok id, m) =>
            (.ok (), m.modifySlot s fun slot =>
              slot.registerDefaultSession (cfg.agents s).name id)
  else (.error (.spawnFailed (cfg.agents s).name), m)

def startSlots (b : StartAnswers n) : List (Fin n) → AgentsManager n → Option (AgentsManager n)
  | [], m => some m
  | s :: rest, m =>
      match buildStartedSlot cfg m s (b.agents s) with
      | (.ok (), m) => startSlots b rest m
      | (.error _, _) => none

def storedKey (row : PersistedSession) : SessionKey :=
  match SessionKey.parse row.sessionKey with
  | .ok k => k
  | .error _ => SessionKey.new row.agentName "restored" row.acpSessionId

def loadRow (row : PersistedSession) : AgentsManager n :=
  match findSlotByName cfg row.agentName with
  | none => m
  | some s =>
      (m.modifySlot s fun slot =>
        { slot with
          staleSessions := slot.staleSessions.setIfAbsent (storedKey row) row.acpSessionId }).emit
        (.stored s row.acpSessionId)

/-- Remove expired rows and load the others. -/
def loadStore (b : StartAnswers n) : Option (AgentsManager n) :=
  let m :=
    if b.expiryOk then
      { m with sessionStore := m.sessionStore.deleteExpired b.now cfg.sessionTtlSecs }
    else m
  match b.openSessions with
  | none => some m
  | some rows =>
      if rows.Perm m.sessionStore.openSessions then some (rows.foldl (loadRow cfg) m) else none

def start (b : StartAnswers n) : Option (AgentsManager n) :=
  (startSlots cfg b (List.finRange n) m).bind fun m => loadStore cfg m b

/-- One life of the manager: from a successful `start` on a store. -/
def life : Machine (AgentsManager n) (Label n) where
  init m := ∃ channelsSender store b, start cfg (fresh cfg channelsSender store) b = some m
  step := step cfg

/-- What a restart of the supervisor keeps: the store, and in the model the trace and
    the numbering of processes. -/
def reborn : AgentsManager n :=
  { fresh cfg m.channelsSender m.sessionStore with
    nextConnection := m.nextConnection
    trace := m.trace }

/-- Any number of lives on one store, which is empty at first. -/
def lives : Machine (AgentsManager n) (Label n ⊕ StartAnswers n) where
  init m := ∃ channelsSender b, start cfg (fresh cfg channelsSender ∅) b = some m
  step m
    | .inl l => step cfg m l
    | .inr b => start cfg (reborn cfg m) b

/-! ### Executions -/

/-- Boot on a store, then take the labels, all of which must satisfy the guard. -/
def execute (G : AgentsManager n → Label n → Prop) [∀ m l, Decidable (G m l)]
    (channelsSender : Bool) (store : SessionStore) (b : StartAnswers n) (ls : List (Label n)) :
    Option (AgentsManager n) :=
  (start cfg (fresh cfg channelsSender store) b).bind fun m => (life cfg).run G m ls

theorem reachable_of_execute {G : AgentsManager n → Label n → Prop} [∀ m l, Decidable (G m l)]
    {channelsSender : Bool} {store : SessionStore} {b : StartAnswers n} {ls : List (Label n)}
    {m : AgentsManager n} (h : execute cfg G channelsSender store b ls = some m) :
    (life cfg).ReachableUnder G m := by
  obtain ⟨m₀, hstart, hrun⟩ := Option.bind_eq_some_iff.mp h
  exact Machine.reachable_of_run ls ⟨channelsSender, store, b, hstart⟩ hrun

/-- Boot on an empty store, then take labels and restart, all under the guard. -/
def executeLives (G : AgentsManager n → Label n ⊕ StartAnswers n → Prop)
    [∀ m l, Decidable (G m l)] (channelsSender : Bool) (b : StartAnswers n)
    (ls : List (Label n ⊕ StartAnswers n)) : Option (AgentsManager n) :=
  (start cfg (fresh cfg channelsSender ∅) b).bind fun m => (lives cfg).run G m ls

theorem reachable_of_executeLives {G : AgentsManager n → Label n ⊕ StartAnswers n → Prop}
    [∀ m l, Decidable (G m l)] {channelsSender : Bool} {b : StartAnswers n}
    {ls : List (Label n ⊕ StartAnswers n)} {m : AgentsManager n}
    (h : executeLives cfg G channelsSender b ls = some m) : (lives cfg).ReachableUnder G m := by
  obtain ⟨m₀, hstart, hrun⟩ := Option.bind_eq_some_iff.mp h
  exact Machine.reachable_of_run ls ⟨channelsSender, b, hstart⟩ hrun

end AgentsManager

/-! ### A sample configuration -/

namespace Sample

open AgentsManager

def cfg : AgentsManagerConfig 1 where
  agents := fun _ =>
    { name := "a", workspace := .localProcess, cwd := "/", tools := [], acpTimeoutSecs := none, backoff := none
      crashTracker := none }
  names_distinct := fun _ _ _ => Subsingleton.elim _ _
  acpTimeoutSecs := 30
  promptIdleTimeoutSecs := 120
  sessionTtlSecs := 1000

def bob : SessionKey := SessionKey.new "chat" "direct" "bob"

def answers (newId : AcpSessionId) : Answers where
  mcpUrls := .replied []
  newMcpUrls := .replied []
  toolDescriptions := .replied []
  sessionNew := .answered (some newId)
  recovery := .unsent
  replayed := []
  fork := .unsent
  list := .unsent
  promptSent := true
  cancelSent := true
  storeOk := true
  spawned := true
  initializeAnswer := .answered (some ⟨2, some ⟨true, ⟨true, true, false⟩⟩⟩)
  firstStale := bob
  firstLive := bob
  crashRecordedAt := 0
  crashCheckedAt := 0
  now := 5

def boot : StartAnswers 1 where
  agents := fun _ => answers "default"
  now := 0
  expiryOk := true
  openSessions := some []

def send (text : String) (a : Answers) : Label 1 :=
  .command (.enqueueMessage "a" bob [.text text] none) a

/-- Execute labels on an empty store with a channels manager connected. -/
def execute (ls : List (Label 1)) : Option (AgentsManager 1) :=
  AgentsManager.execute cfg (fun _ _ => True) true ∅ boot ls

/-- The same, in any number of lives. -/
def executeLives (G : AgentsManager 1 → Label 1 ⊕ StartAnswers 1 → Prop)
    [∀ m l, Decidable (G m l)] (ls : List (Label 1 ⊕ StartAnswers 1)) :
    Option (AgentsManager 1) :=
  AgentsManager.executeLives cfg G true boot ls

/-- The process ends, and the run loop handles the crash. -/
def crash (a : Answers) : List (Label 1) := [.eof (Fin.last 0), .recvIncoming a]

end Sample

end Anyclaw
