import Mathlib.Logic.Function.Basic
import Anyclaw.Library.Mpsc
import Anyclaw.Library.Transition
import Anyclaw.Jsonrpc.Connection
import Anyclaw.Agents.Manager

/-!
# Reader tasks and the incoming queue

The output of each agent process is read by a task of its own, line by line.  A response
resolves the request that it answers; everything else goes through one bounded queue to the
manager, and the task waits when the queue is full.  The manager takes messages from this
queue in its run loop only.  While it awaits a response inline, in `start` or in a handler,
nobody makes room, so a response that stands behind too many messages is not read before
the manager gives up.

What the manager does besides is left open: between two requests that it awaits it may take
messages, start and drop processes, and send requests that other tasks await.

`response_reachable` is the exact room that the messages before the response need.

The tasks are `spawn_reader_task` and `spawn_writer_task` of
`crates/anyclaw-agents/src/connection.rs`, with `route_incoming_message` and
`handle_pending_response`; the run loop is in `manager.rs`.
-/

namespace Anyclaw

/-! ### Processes and reader tasks -/

/-- A line that an agent process writes, or the end of its output. -/
inductive OutputLine where
  | message (m : JsonRpcMessage)
  /-- Skipped by the reader. -/
  | malformed
  | eof
deriving DecidableEq

/-- `IncomingMessage` of the connection: a request of the agent, with or without id. -/
inductive AgentMessage where
  | agentRequest (r : JsonRpcRequest)
  | agentNotification (r : JsonRpcRequest)
deriving DecidableEq

def AgentMessage.ofRequest (r : JsonRpcRequest) : AgentMessage :=
  if r.id.isSome then .agentRequest r else .agentNotification r

/-- An entry of the incoming queue, as a reader task makes it; `none` at the end of the
    output. -/
structure BridgeMessage (n : Nat) where
  slotIdx : Fin n
  msg : Option AgentMessage
deriving DecidableEq

inductive ReaderTask where
  | reading
  /-- `route_incoming_message`: the message is being sent to the manager. -/
  | routing (msg : Option AgentMessage)
  | gone
deriving DecidableEq

/-- A slot, seen from its process: `stdout` is what the process has written and the reader
    has not read. -/
structure AgentIo where
  connection : Connection
  connected : Bool
  exited : Bool
  stdout : List OutputLine
  reader : ReaderTask

namespace AgentIo

def new : AgentIo where
  connection := .spawned
  connected := false
  exited := true
  stdout := []
  reader := .gone

def spawned : AgentIo where
  connection := .spawned
  connected := true
  exited := false
  stdout := []
  reader := .reading

variable (io : AgentIo)

/-- `kill` aborts the reader task. -/
def kill : AgentIo := { io with connected := false, exited := true, reader := .gone }

def write (line : OutputLine) : AgentIo :=
  { io with stdout := io.stdout ++ [line], exited := decide (line = .eof) }

/-- `send_request` by a task that has the connection: the id, and the connection after. -/
def sendRequest : UInt64 × AgentIo :=
  let i := io.connection.calls.length
  (io.connection.nextId,
    { io with connection := (io.connection.fetchId.insertPending i io.connection.nextId).handOver i })

/-- One round of the loop of `spawn_reader_task`, up to the send. -/
def read : Option AgentIo :=
  match io.reader, io.stdout with
  | .reading, .message (.response r) :: rest =>
      some { io with
        stdout := rest
        connection := (io.connection.handlePendingResponse r).record r }
  | .reading, .message (.request r) :: rest =>
      some { io with stdout := rest, reader := .routing (some (.ofRequest r)) }
  | .reading, .malformed :: rest => some { io with stdout := rest }
  | .reading, .eof :: rest => some { io with stdout := rest, reader := .routing none }
  | _, _ => none

/-- The reader when its message has been sent: it ends after the end of the output. -/
def routed (msg : Option AgentMessage) : AgentIo :=
  { io with reader := if msg.isSome then .reading else .gone }

end AgentIo

/-! ### The machine -/

/-- The processes, their readers, the incoming queue and what the manager awaits: the id of
    a request to a slot. -/
structure AgentsIo (n : Nat) where
  slots : Fin n → AgentIo
  incoming : Mpsc (BridgeMessage n) eventChannelCapacity
  awaiting : Option (Fin n × UInt64)
  /-- The run loop has begun. -/
  running : Bool

inductive IoLabel (n : Nat) where
  | spawn (s : Fin n)
  | kill (s : Fin n)
  /-- The connection is dropped; its reader lives on. -/
  | dropConnection (s : Fin n)
  /-- The process of slot `s` writes a line. -/
  | write (s : Fin n) (line : OutputLine)
  /-- The writer task of slot `s` has come to an error. -/
  | writerGone (s : Fin n)
  | read (s : Fin n)
  /-- The message of the reader of slot `s` enters the queue. -/
  | route (s : Fin n)
  | request (s : Fin n) (r : AcpRequest)
  /-- The response that the manager awaits has been resolved. -/
  | received
  /-- The timeout of the request has passed. -/
  | timedOut
  | run
  | recvIncoming

/-- All requests are awaited inline but prompts. -/
def AcpRequest.awaitedInline : AcpRequest → Bool
  | .sessionPrompt _ _ => false
  | _ => true

namespace AgentsIo

variable {n : Nat} (m : AgentsIo n)

def init : AgentsIo n where
  slots := fun _ => .new
  incoming := .empty
  awaiting := none
  running := false

def setSlot (s : Fin n) (io : AgentIo) : AgentsIo n :=
  { m with slots := Function.update m.slots s io }

def write (s : Fin n) (line : OutputLine) : AgentsIo n := m.setSlot s ((m.slots s).write line)

/-- The manager awaits the response to request `id` of slot `s`: the sender is in the
    table. -/
def Awaits (s : Fin n) (id : UInt64) : Prop :=
  m.awaiting = some (s, id) ∧ (m.slots s).connection.pendingRequests.contains id

def Blocked (s : Fin n) : Prop :=
  (∃ msg, (m.slots s).reader = .routing msg) ∧ m.incoming.Full

def step : IoLabel n → Option (AgentsIo n)
  | .spawn s =>
      if m.awaiting = none ∧ (m.slots s).reader = .gone then some (m.setSlot s .spawned) else none
  | .kill s =>
      if m.awaiting = none ∧ (m.slots s).connected then some (m.setSlot s (m.slots s).kill)
      else none
  | .dropConnection s =>
      if m.awaiting = none ∧ (m.slots s).connected then
        some (m.setSlot s { m.slots s with connected := false })
      else none
  | .write s line => if (m.slots s).exited then none else some (m.write s line)
  | .writerGone s =>
      some (m.setSlot s { m.slots s with
        connection := { (m.slots s).connection with writerAlive := false } })
  | .read s => (m.slots s).read.map fun io => m.setSlot s io
  | .route s =>
      match (m.slots s).reader with
      | .routing msg =>
          (m.incoming.send ⟨s, msg⟩).map fun q =>
            { m.setSlot s ((m.slots s).routed msg) with incoming := q }
      | _ => none
  | .request s r =>
      if m.awaiting = none ∧ (m.slots s).connected then
        let (id, io) := (m.slots s).sendRequest
        some { m.setSlot s io with
          awaiting := if r.awaitedInline ∧ io.connection.writerAlive then some (s, id) else none }
      else none
  | .received =>
      match m.awaiting with
      | some (s, id) =>
          if (m.slots s).connection.pendingRequests.contains id then none
          else some { m with awaiting := none }
      | none => none
  | .timedOut => if m.awaiting = none then none else some { m with awaiting := none }
  | .run => if m.awaiting = none ∧ !m.running then some { m with running := true } else none
  | .recvIncoming =>
      if m.awaiting = none ∧ m.running then
        m.incoming.recv.map fun r => { m with incoming := r.2 }
      else none

def life (n : Nat) : Machine (AgentsIo n) (IoLabel n) where
  init m := m = init
  step := step

end AgentsIo

/-! ### What is on its way to the queue -/

def OutputLine.isRouted : OutputLine → Bool
  | .message (.request _) => true
  | .eof => true
  | _ => false

def OutputLine.answers (id : UInt64) : OutputLine → Bool
  | .message (.response r) => decide (Connection.responseId r = id)
  | _ => false

theorem OutputLine.answers_iff {id : UInt64} {line : OutputLine} : line.answers id = true ↔
    ∃ r, line = .message (.response r) ∧ Connection.responseId r = id := by
  unfold answers
  split
  · rename_i r
    simp
  · rename_i h
    constructor
    · intro hfalse
      cases hfalse
    · rintro ⟨r, rfl, _⟩
      exact absurd rfl (h r)

/-- The messages in an output, up to the first line that `stop` accepts. -/
def unread (stop : OutputLine → Bool) (lines : List OutputLine) : Nat :=
  (lines.takeWhile fun line => !stop line).countP OutputLine.isRouted

theorem unread_cons {stop : OutputLine → Bool} {line : OutputLine} (rest : List OutputLine)
    (h : stop line = false) :
    unread stop (line :: rest) = unread stop rest + if line.isRouted then 1 else 0 := by
  unfold unread
  rw [List.takeWhile_cons_of_pos (by rw [h]; rfl), List.countP_cons]

namespace AgentIo

variable (io : AgentIo)

def held : Nat :=
  match io.reader with
  | .routing _ => 1
  | _ => 0

/-- The messages that are written and not yet in the queue, up to the first line that
    `stop` accepts. -/
def unrouted (stop : OutputLine → Bool) : Nat := io.held + unread stop io.stdout

variable {io} {io' : AgentIo} {stop : OutputLine → Bool}

/-- What the reader reads is either not routed or held afterwards. -/
theorem unrouted_of_read (h : io.read = some io')
    (hstop : ∀ line ∈ io.stdout.head?, stop line = false) : io'.unrouted stop = io.unrouted stop := by
  have hcons : ∀ line rest, io.stdout = line :: rest →
      unread stop io.stdout = unread stop rest + if line.isRouted then 1 else 0 := by
    intro line rest hstdout
    rw [hstdout] at hstop ⊢
    exact unread_cons rest (hstop line rfl)
  unfold read at h
  unfold unrouted held
  split at h
  · rename_i hreader hstdout
    cases h
    simp [hreader, hcons _ _ hstdout, OutputLine.isRouted]
  · rename_i hreader hstdout
    cases h
    simp [hreader, hcons _ _ hstdout, OutputLine.isRouted, Nat.add_comm]
  · rename_i hreader hstdout
    cases h
    simp [hreader, hcons _ _ hstdout, OutputLine.isRouted]
  · rename_i hreader hstdout
    cases h
    simp [hreader, hcons _ _ hstdout, OutputLine.isRouted, Nat.add_comm]
  · cases h

theorem unrouted_routed {msg : Option AgentMessage} (h : io.reader = .routing msg) :
    (io.routed msg).unrouted stop + 1 = io.unrouted stop := by
  unfold unrouted held routed
  rw [h]
  cases msg <;> simp [Nat.add_comm]

theorem held_pos (h : ∃ msg, io.reader = .routing msg) : 0 < io.unrouted stop := by
  obtain ⟨msg, hmsg⟩ := h
  unfold unrouted held
  rw [hmsg]
  exact Nat.lt_add_right _ Nat.one_pos

/-- A request that is awaited after a round of the reader was not answered in it. -/
theorem contains_of_read {id : UInt64} (h : io.read = some io')
    (hafter : io'.connection.pendingRequests.contains id = true) :
    io.connection.pendingRequests.contains id = true ∧
      ∀ line ∈ io.stdout.head?, line.answers id = false := by
  have hother : ∀ line rest, io.stdout = line :: rest → (∀ r, line ≠ .message (.response r)) →
      ∀ line ∈ io.stdout.head?, line.answers id = false := by
    intro line rest hstdout hline line' hmem
    rw [hstdout] at hmem
    cases hmem
    rw [← Bool.not_eq_true, OutputLine.answers_iff]
    rintro ⟨r, hr, _⟩
    exact hline r hr
  unfold read at h
  split at h
  · rename_i r rest _ hstdout
    cases h
    have hpending : (io.connection.handlePendingResponse r).pendingRequests.contains id = true :=
      hafter
    have hne : Connection.responseId r ≠ id := by
      rintro rfl
      unfold Connection.handlePendingResponse at hpending
      split at hpending
      · simp [KeyedMap.contains] at hpending
      · rename_i hnone
        simp [KeyedMap.contains, hnone] at hpending
    refine ⟨?_, fun line hmem => ?_⟩
    · unfold Connection.handlePendingResponse at hpending
      split at hpending
      · simpa [KeyedMap.contains, hne.symm] using hpending
      · exact hpending
    · rw [hstdout] at hmem
      cases hmem
      exact decide_eq_false hne
  · rename_i hstdout
    cases h
    exact ⟨hafter, hother _ _ hstdout fun r => by simp⟩
  · rename_i hstdout
    cases h
    exact ⟨hafter, hother _ _ hstdout fun r => by simp⟩
  · rename_i hstdout
    cases h
    exact ⟨hafter, hother _ _ hstdout fun r => by simp⟩
  · cases h

end AgentIo

namespace AgentsIo

variable {n : Nat} (m : AgentsIo n)

/-- The messages of each slot that are on their way to the queue; of the slot that is asked
    only those that stand before the response. -/
def unsent (s : Fin n) (id : UInt64) (s' : Fin n) : Nat :=
  (m.slots s').unrouted (if s' = s then OutputLine.answers id else fun _ => false)

/-- Nothing stands before the response to request `id` of slot `s`, or everything that is on
    its way to the queue fits into it. -/
def Fits (s : Fin n) (id : UInt64) : Prop :=
  m.unsent s id s = 0 ∨ m.incoming.load (m.unsent s id) ≤ eventChannelCapacity

instance (s : Fin n) (id : UInt64) : Decidable (m.Fits s id) :=
  inferInstanceAs (Decidable (_ ∨ _))

/-- **What stands before a response fits into the queue**, when the manager begins to wait
    for it and with every line that a process writes while it waits. -/
def ResponsesFit : IoLabel n → Prop
  | .request s r => r.awaitedInline = true → m.Fits s (m.slots s).connection.nextId
  | .write s line => ∀ e ∈ m.awaiting,
      (m.slots e.1).connection.pendingRequests.contains e.2 = true → (m.write s line).Fits e.1 e.2
  | _ => True

instance : ∀ l : IoLabel n, Decidable (ResponsesFit m l)
  | .request _ _ => inferInstanceAs (Decidable (_ → _))
  | .write s line =>
      -- the pairs in question are those of one option, not all there are
      (Option.decidableForallMem m.awaiting : Decidable (∀ e ∈ m.awaiting,
        (m.slots e.1).connection.pendingRequests.contains e.2 = true →
          (m.write s line).Fits e.1 e.2))
  | .spawn _ | .kill _ | .dropConnection _ | .writerGone _ | .read _ | .route _ | .received
  | .timedOut | .run | .recvIncoming => inferInstanceAs (Decidable True)

variable {m} {m' : AgentsIo n} {l : IoLabel n}

/-! ### Steps -/

/-- The responses that the manager awaits find room. -/
def Roomy (m : AgentsIo n) : Prop := ∀ s id, m.Awaits s id → m.Fits s id

theorem Roomy.of_idle (h : m.awaiting = none) : Roomy m := by
  rintro s id ⟨hawaiting, _⟩
  rw [h] at hawaiting
  cases hawaiting

theorem setSlot_slots (m : AgentsIo n) (s s' : Fin n) (io : AgentIo) :
    (m.setSlot s io).slots s' = if s' = s then io else m.slots s' := by
  exact Function.update_apply m.slots s io s'

/-- A slot changes and what is on its way stays the same. -/
theorem Fits.of_unsent {s : Fin n} {id : UInt64} (h : m.Fits s id)
    (hincoming : m'.incoming = m.incoming) (hunsent : ∀ s', m'.unsent s id s' = m.unsent s id s') :
    m'.Fits s id := by
  unfold Fits
  rw [hincoming, hunsent, show m'.unsent s id = m.unsent s id from funext hunsent]
  exact h

/-- A slot in which neither the output, the reader nor the table has changed. -/
theorem Roomy.of_outputs {s : Fin n} {io : AgentIo} (h : Roomy m)
    (hpending : io.connection.pendingRequests = (m.slots s).connection.pendingRequests)
    (hstdout : io.stdout = (m.slots s).stdout) (hreader : io.reader = (m.slots s).reader) :
    Roomy (m.setSlot s io) := by
  rintro s' id ⟨hawaiting, hcontains⟩
  rw [setSlot_slots] at hcontains
  have hbefore : (m.slots s').connection.pendingRequests.contains id = true := by
    split at hcontains
    · rename_i hs
      rw [hs, ← hpending]
      exact hcontains
    · exact hcontains
  refine (h s' id ⟨hawaiting, hbefore⟩).of_unsent rfl fun s'' => ?_
  unfold unsent
  rw [setSlot_slots]
  split
  · rename_i hs
    unfold AgentIo.unrouted AgentIo.held
    rw [hs, hstdout, hreader]
  · rfl

theorem Roomy.read {s : Fin n} {io : AgentIo} (h : Roomy m) (hread : (m.slots s).read = some io) :
    Roomy (m.setSlot s io) := by
  rintro s' id ⟨hawaiting, hcontains⟩
  rw [setSlot_slots] at hcontains
  have hbefore : (m.slots s').connection.pendingRequests.contains id = true ∧
      (s' = s → ∀ line ∈ (m.slots s).stdout.head?, line.answers id = false) := by
    split at hcontains
    · rename_i hs
      subst hs
      obtain ⟨hold, hline⟩ := AgentIo.contains_of_read hread hcontains
      exact ⟨hold, fun _ => hline⟩
    · rename_i hs
      exact ⟨hcontains, fun heq => absurd heq hs⟩
  refine (h s' id ⟨hawaiting, hbefore.1⟩).of_unsent rfl fun s'' => ?_
  unfold unsent
  rw [setSlot_slots]
  split
  · rename_i hs
    subst hs
    refine AgentIo.unrouted_of_read hread fun line hline => ?_
    split
    · rename_i hs
      exact hbefore.2 hs.symm line hline
    · rfl
  · rfl

theorem Roomy.route {s : Fin n} {msg : Option AgentMessage}
    {q : Mpsc (BridgeMessage n) eventChannelCapacity} (h : Roomy m)
    (hreader : (m.slots s).reader = .routing msg) (hsend : m.incoming.send ⟨s, msg⟩ = some q) :
    Roomy { m.setSlot s ((m.slots s).routed msg) with incoming := q } := by
  rintro s' id ⟨hawaiting, hcontains⟩
  have hbefore : (m.slots s').connection.pendingRequests.contains id = true := by
    dsimp only at hcontains
    rw [setSlot_slots] at hcontains
    split at hcontains
    · rename_i hs
      subst hs
      exact hcontains
    · exact hcontains
  have hone : unsent { m.setSlot s ((m.slots s).routed msg) with incoming := q } s' id s + 1 =
      m.unsent s' id s := by
    unfold unsent
    dsimp only
    rw [setSlot_slots, if_pos rfl]
    exact AgentIo.unrouted_routed hreader
  have hothers : ∀ s'', s'' ≠ s →
      unsent { m.setSlot s ((m.slots s).routed msg) with incoming := q } s' id s'' =
        m.unsent s' id s'' := by
    intro s'' hs
    unfold unsent
    dsimp only
    rw [setSlot_slots, if_neg hs]
  rcases h s' id ⟨hawaiting, hbefore⟩ with hzero | hload
  · left
    by_cases hs : s' = s
    · subst hs
      omega
    · rw [hothers s' hs]
      exact hzero
  · right
    have hsame := Mpsc.load_of_send hsend hone hothers
    exact hsame.trans_le hload

theorem Roomy.step (h : Roomy m) (hguard : ResponsesFit m l) (hstep : step m l = some m') :
    Roomy m' := by
  cases l with
  | spawn s =>
      obtain ⟨⟨hidle, _⟩, hm⟩ := Option.ite_none_right_eq_some.mp hstep
      cases hm
      exact .of_idle hidle
  | kill s =>
      obtain ⟨⟨hidle, _⟩, hm⟩ := Option.ite_none_right_eq_some.mp hstep
      cases hm
      exact .of_idle hidle
  | dropConnection s =>
      obtain ⟨⟨hidle, _⟩, hm⟩ := Option.ite_none_right_eq_some.mp hstep
      cases hm
      exact .of_idle hidle
  | write s line =>
      obtain ⟨_, hm⟩ := Option.ite_none_left_eq_some.mp hstep
      cases hm
      rintro s' id ⟨hawaiting, hcontains⟩
      refine hguard (s', id) hawaiting ?_
      unfold AgentsIo.write at hcontains
      rw [setSlot_slots] at hcontains
      split at hcontains
      · rename_i hs
        subst hs
        exact hcontains
      · exact hcontains
  | writerGone s =>
      cases hstep
      exact h.of_outputs rfl rfl rfl
  | read s =>
      obtain ⟨io, hread, rfl⟩ := Option.map_eq_some_iff.mp hstep
      exact h.read hread
  | route s =>
      rw [AgentsIo.step] at hstep
      split at hstep
      · rename_i msg hreader
        obtain ⟨q, hsend, rfl⟩ := Option.map_eq_some_iff.mp hstep
        exact h.route hreader hsend
      · cases hstep
  | request s r =>
      obtain ⟨⟨hidle, _⟩, hm⟩ := Option.ite_none_right_eq_some.mp hstep
      cases hm
      rintro s' id ⟨hawaiting, hcontains⟩
      dsimp only at hawaiting
      obtain ⟨⟨hinline, _⟩, heq⟩ := Option.ite_none_right_eq_some.mp hawaiting
      cases heq
      refine (hguard hinline).of_unsent rfl fun s'' => ?_
      unfold unsent
      dsimp only
      rw [setSlot_slots]
      split
      · rename_i hs
        subst hs
        rfl
      · rfl
  | received =>
      rw [AgentsIo.step] at hstep
      split at hstep
      · obtain ⟨_, hm⟩ := Option.ite_none_left_eq_some.mp hstep
        cases hm
        exact .of_idle rfl
      · cases hstep
  | timedOut =>
      obtain ⟨_, hm⟩ := Option.ite_none_left_eq_some.mp hstep
      cases hm
      exact .of_idle rfl
  | run =>
      obtain ⟨⟨hidle, _⟩, hm⟩ := Option.ite_none_right_eq_some.mp hstep
      cases hm
      exact .of_idle hidle
  | recvIncoming =>
      obtain ⟨⟨hidle, _⟩, hrecv⟩ := Option.ite_none_right_eq_some.mp hstep
      obtain ⟨r, _, rfl⟩ := Option.map_eq_some_iff.mp hrecv
      exact .of_idle hidle

theorem roomy_of_responsesFit (h : (life n).ReachableUnder ResponsesFit m) : Roomy m := by
  refine h.invariant (I := fun m => Roomy m) ?_ fun m l m' _ hI hguard hstep =>
    hI.step hguard hstep
  rintro m rfl
  exact .of_idle rfl

/-- **A response that the manager awaits can be read**, in every run in which what stands
    before it fits into the queue. -/
theorem response_reachable (h : (life n).ReachableUnder ResponsesFit m) :
    ∀ s id, m.Awaits s id → ¬ m.Blocked s := by
  rintro s id hawaits ⟨hrouting, hfull⟩
  have hpos : 0 < m.unsent s id s := AgentIo.held_pos hrouting
  rcases roomy_of_responsesFit h s id hawaits with hzero | hload
  · omega
  · exact Mpsc.room_of_fits hload hpos hfull

end AgentsIo

/-! ### A long replay -/

namespace Sample

def note : JsonRpcRequest := .new "session/update" none none

def answerTo (no : Int64) : JsonRpcResponse where
  jsonrpc := "2.0"
  id := some (.number no)
  result := none
  error := none

/-- A process is started and initialized, and a session is created. -/
def bootIo : List (IoLabel 1) :=
  [.spawn 0, .request 0 .initializeAgent, .write 0 (.message (.response (answerTo 1))), .read 0,
    .received, .request 0 (.sessionNew "/" []), .write 0 (.message (.response (answerTo 2))),
    .read 0, .received, .run]

def replayIo (length : Nat) : List (IoLabel 1) :=
  .request 0 (.sessionLoad "old" "/" []) ::
    (List.replicate length (.write 0 (.message (.request note))) ++
      [.write 0 (.message (.response (answerTo 3)))])

/-- The reader sends this many messages and reads one more. -/
def readIo (count : Nat) : List (IoLabel 1) :=
  (List.replicate count [.read 0, .route 0]).flatten ++ [.read 0]

end Sample

namespace AgentsIo

/-- Two messages before the response to `session/load`; the reader is sending the second. -/
theorem response_reachable_short :
    ∃ m : AgentsIo 1, m.Awaits 0 3 ∧
      (m.slots 0).reader = .routing (some (.agentNotification Sample.note)) ∧ ¬ m.Blocked 0 := by
  have hrun : ∃ m ∈ (life 1).run ResponsesFit init
      (Sample.bootIo ++ Sample.replayIo 2 ++ Sample.readIo 1),
      (m.awaiting = some (0, 3) ∧
        (m.slots 0).connection.pendingRequests.contains 3 = true) ∧
      (m.slots 0).reader = .routing (some (.agentNotification Sample.note)) := by
    decide
  obtain ⟨m, hm, hawaits, hreader⟩ := hrun
  exact ⟨m, hawaits, hreader,
    response_reachable (Machine.reachable_of_run _ rfl hm) 0 3 hawaits⟩

/-- The agent replays one message more than the queue has places.  Its response is written,
    the manager awaits it, and the reader waits for the manager. -/
theorem long_replay_hides_response :
    ¬ ∀ m, (life 1).Reachable m → ∀ s id, m.Awaits s id → ¬ m.Blocked s := by
  intro hall
  have hrun : ∃ m ∈ (life 1).run (fun _ _ => True) init
      (Sample.bootIo ++ Sample.replayIo 65 ++ Sample.readIo 64),
      (m.awaiting = some (0, 3) ∧
        (m.slots 0).connection.pendingRequests.contains 3 = true) ∧
      (m.slots 0).reader = .routing (some (.agentNotification Sample.note)) ∧
      m.incoming.Full ∧ (m.slots 0).stdout = [.message (.response (Sample.answerTo 3))] := by
    decide +kernel
  obtain ⟨m, hm, hawaits, hreader, hfull, _⟩ := hrun
  exact hall m (Machine.reachable_of_run _ rfl hm) 0 3 hawaits ⟨⟨_, hreader⟩, hfull⟩

end AgentsIo

end Anyclaw
