import Anyclaw.Agents.Permissions
import Anyclaw.Channels.Permissions

/-!
# Permission requests between the managers

Both managers as one machine.  What they tell each other about permissions travels in two
queues, the channel events and the `RespondPermission` commands; the rest of what the
channels manager asks of the agents manager is left to the labels of the two.

The managers pass on the id of a request only.  What it stands for is kept beside it: which
process wrote a request, which request an answer is for, and what the channel said.

The managers are those of `crates/anyclaw-agents/src/manager.rs` and
`crates/anyclaw-channels/src/manager.rs`.
-/

namespace Anyclaw

variable {n c : Nat}

/-- What a channel says to a permission request. -/
inductive Said where
  | option (optionId : String)
  /-- An answer that names no option. -/
  | unreadable
  /-- Nothing, until the time was up or the connection was dropped. -/
  | nothing
deriving DecidableEq

/-- A permission request, and the process that wrote it. -/
structure AskedPermission (n : Nat) where
  slotIdx : Fin n
  process : Option Nat
  request : PermissionRequest

/-- A permission request that the agents manager has taken from its queue, and where it was
    shown; `none` when it had no route. -/
structure TakenPermission (n : Nat) extends AskedPermission n where
  route : Option SessionKey

/-- A `RespondPermission` command.  `request` is the number of the request that it is meant
    for, which the code does not carry. -/
structure PermissionAnswer where
  request : Option Nat
  said : Said
  requestId : String
  optionId : String
deriving DecidableEq

/-- An option that was sent to an agent as the selected one, and the command for it. -/
structure Selection (n : Nat) where
  answer : PermissionAnswer
  slotIdx : Fin n
  connection : Nat
  rpcId : Option RequestId
  optionId : String
deriving DecidableEq

structure PermissionSystem (n c : Nat) where
  agents : AgentsManager n
  channels : ChannelsManager c
  /-- The events on their way to the channels manager; one that shows a request comes with
      the number of the request. -/
  events : List (Nat × ChannelEvent)
  /-- The answers on their way to the agents manager. -/
  answers : List PermissionAnswer
  /-- The requests in the incoming queue of the agents manager. -/
  asked : List (AskedPermission n)
  /-- The requests that were taken from it, by number. -/
  requests : List (TakenPermission n)
  selections : List (Selection n)

inductive SystemLabel (n c : Nat) where
  | agents (l : Label n)
  /-- The agents manager takes the next answer. -/
  | answer (a : Answers)
  /-- The channels manager takes the next event. -/
  | event (a : ChannelAnswers)
  /-- Another step of the channels manager; `about` is the request that a channel means when
      it answers on its own. -/
  | channels (l : ChannelsLabel c) (about : Option Nat)

/-- The request was shown to a channel under this id. -/
def TakenPermission.shownAs (q : TakenPermission n) (id : String) : Bool :=
  q.route.isSome && AgentsManager.permissionId q.request == id

def ChannelsLabel.isEvent : ChannelsLabel c → Bool
  | .recvEvent _ _ _ => true
  | _ => false

/-- What the channel said when a label sends an answer with this option. -/
def ChannelsLabel.said : ChannelsLabel c → String → Said
  | .permissionAnswered _ none, _ => .unreadable
  | .permissionTimedOut _, _ => .nothing
  | .permissionClosed _, _ => .nothing
  | _, optionId => .option optionId

def Output.selection (p : PermissionAnswer) : Output n → Option (Selection n)
  | .respond s no rpcId (.permissionSelected optionId) => some ⟨p, s, no, rpcId, optionId⟩
  | _ => none

namespace PermissionSystem

variable (cfg : AgentsManagerConfig n) (chCfg : ChannelsManagerConfig c)
  (x : PermissionSystem n c)

/-- `about` is a request that was shown under this id; with `none`, no request was. -/
def Names (about : Option Nat) (id : String) : Prop :=
  match about with
  | some e => ∃ q ∈ x.requests[e]?, q.shownAs id = true
  | none => ∀ q ∈ x.requests, q.shownAs id = false

instance (about : Option Nat) (id : String) : Decidable (x.Names about id) := by
  unfold Names
  split <;> infer_instance

/-- The ids in a step of the channels manager are those of the requests that are meant. -/
def Apt (l : ChannelsLabel c) (about : Option Nat) : Prop :=
  (∀ p ∈ x.channels.volunteered l, x.Names about p.1) ∧
    ∀ p ∈ l.brings, x.Names (some p.1) p.2

instance (l : ChannelsLabel c) (about : Option Nat) : Decidable (x.Apt l about) :=
  inferInstanceAs (Decidable (_ ∧ _))

/-- The request that an answer is for: the one whose wait ends, or the one that is meant. -/
def subject (l : ChannelsLabel c) (about : Option Nat) : Option Nat :=
  match l.endsWait with
  | some (i, _) => x.channels.waits[i]?.map PermissionWait.event
  | none => about

/-! ### Steps -/

@[simps] def afterAgents (l : Label n) (m : AgentsManager n) : PermissionSystem n c :=
  { x with
    agents := m
    events := x.events ++ (x.agents.sent m).map fun e => (x.requests.length, e)
    asked := x.asked.drop (x.agents.takes l).toList.length ++
      (l.asks.map fun q => ⟨q.1, x.agents.latestProcess q.1, q.2⟩).toList
    requests := x.requests ++ (x.asked.take (x.agents.takes l).toList.length).map fun q =>
      ⟨q, x.agents.permissionRoute q.slotIdx q.request⟩ }

/-- The agents manager has taken the answer `p` and is in state `m`. -/
@[simps] def afterAnswer (p : PermissionAnswer) (rest : List PermissionAnswer) (m : AgentsManager n) :
    PermissionSystem n c :=
  { x with
    agents := m
    answers := rest
    selections := x.selections ++
      (m.trace.drop x.agents.trace.length).filterMap (Output.selection p) }

@[simps] def afterChannels (l : ChannelsLabel c) (about : Option Nat) (ch : ChannelsManager c) :
    PermissionSystem n c :=
  { x with
    channels := ch
    answers := x.answers ++ (ChannelsManager.answersSent x.channels ch).map fun p =>
      ⟨x.subject l about, l.said p.2, p.1, p.2⟩ }

def step : SystemLabel n c → Option (PermissionSystem n c)
  | .agents l =>
      if l.answersPermission then none
      else (AgentsManager.step cfg x.agents l).map (x.afterAgents l)
  | .answer a =>
      match x.answers with
      | [] => none
      | p :: rest =>
          (AgentsManager.step cfg x.agents
            (.command (.respondPermission p.requestId p.optionId) a)).map (x.afterAnswer p rest)
  | .event a =>
      match x.events with
      | [] => none
      | (no, e) :: rest =>
          (ChannelsManager.step chCfg x.channels (.recvEvent no e a)).map fun ch =>
            { x with channels := ch, events := rest }
  | .channels l about =>
      if l.isEvent = false ∧ x.Apt l about then
        (ChannelsManager.step chCfg x.channels l).map (x.afterChannels l about)
      else none

def fresh (m : AgentsManager n) (ch : ChannelsManager c) : PermissionSystem n c where
  agents := m
  channels := ch
  events := []
  answers := []
  asked := []
  requests := []
  selections := []

def life : Machine (PermissionSystem n c) (SystemLabel n c) where
  init x := ∃ m ch, (AgentsManager.life cfg).init m ∧ (ChannelsManager.life chCfg).init ch ∧
    x = fresh m ch
  step := step cfg chCfg

inductive Move : SystemLabel n c → PermissionSystem n c → Prop
  | agents {l : Label n} {m : AgentsManager n} (hl : l.answersPermission = false)
      (hstep : AgentsManager.step cfg x.agents l = some m) :
      Move (.agents l) (x.afterAgents l m)
  | answer {p : PermissionAnswer} {rest : List PermissionAnswer} {a : Answers}
      {m : AgentsManager n} (hanswers : x.answers = p :: rest)
      (hstep : AgentsManager.step cfg x.agents
        (.command (.respondPermission p.requestId p.optionId) a) = some m) :
      Move (.answer a) (x.afterAnswer p rest m)
  | event {no : Nat} {e : ChannelEvent} {rest : List (Nat × ChannelEvent)} {a : ChannelAnswers}
      {ch : ChannelsManager c} (hevents : x.events = (no, e) :: rest)
      (hstep : ChannelsManager.step chCfg x.channels (.recvEvent no e a) = some ch) :
      Move (.event a) { x with channels := ch, events := rest }
  | channels {l : ChannelsLabel c} {about : Option Nat} {ch : ChannelsManager c}
      (hl : l.isEvent = false) (hapt : x.Apt l about)
      (hstep : ChannelsManager.step chCfg x.channels l = some ch) :
      Move (.channels l about) (x.afterChannels l about ch)

variable {cfg chCfg x} {x' : PermissionSystem n c} {l : SystemLabel n c}

theorem move_of_step (h : step cfg chCfg x l = some x') : Move cfg chCfg x l x' := by
  cases l with
  | agents l =>
      rw [step] at h
      split at h
      · cases h
      · rename_i hl
        obtain ⟨m, hstep, rfl⟩ := Option.map_eq_some_iff.mp h
        exact .agents (Bool.eq_false_iff.mpr hl) hstep
  | answer a =>
      rw [step] at h
      split at h
      · cases h
      · rename_i p rest hanswers
        obtain ⟨m, hstep, rfl⟩ := Option.map_eq_some_iff.mp h
        exact .answer hanswers hstep
  | event a =>
      rw [step] at h
      split at h
      · cases h
      · rename_i no e rest hevents
        obtain ⟨ch, hstep, rfl⟩ := Option.map_eq_some_iff.mp h
        exact .event hevents hstep
  | channels l about =>
      obtain ⟨⟨hl, hapt⟩, hmap⟩ := Option.ite_none_right_eq_some.mp h
      obtain ⟨ch, hstep, rfl⟩ := Option.map_eq_some_iff.mp hmap
      exact .channels hl hapt hstep

/-! ### Executions -/

/-- Boot on an empty store, then take the labels, all of which must satisfy the guard. -/
def execute (cfg : AgentsManagerConfig n) (chCfg : ChannelsManagerConfig c)
    (G : PermissionSystem n c → SystemLabel n c → Prop) [∀ x l, Decidable (G x l)]
    (b : AgentsManager.StartAnswers n) (ls : List (SystemLabel n c)) : Option (PermissionSystem n c) :=
  (AgentsManager.start cfg (AgentsManager.fresh cfg true ∅) b).bind fun m =>
    (life cfg chCfg).run G (fresh m (ChannelsManager.fresh chCfg true)) ls

theorem reachable_of_execute {G : PermissionSystem n c → SystemLabel n c → Prop}
    [∀ x l, Decidable (G x l)] {b : AgentsManager.StartAnswers n} {ls : List (SystemLabel n c)}
    (h : execute cfg chCfg G b ls = some x) : (life cfg chCfg).ReachableUnder G x := by
  obtain ⟨m, hstart, hrun⟩ := Option.bind_eq_some_iff.mp h
  exact Machine.reachable_of_run ls ⟨m, _, ⟨true, ∅, b, hstart⟩, ⟨true, rfl⟩, rfl⟩ hrun

end PermissionSystem

/-! ### A sample run -/

namespace Sample

/-- A message of `bob` on the channel, for whom both managers make a session. -/
def greeting : List (SystemLabel 1 1) :=
  [.channels (.start fun _ => channelAnswers "s") none,
    .channels (.incoming (Fin.last 0)
      (.sendMessage ⟨⟨"chat", "bob", "direct"⟩, [.text "hello"], none⟩)) none,
    .channels (.recvStream (Fin.last 0) (channelAnswers "s")) none,
    .agents (send "hello" (answers "s")), .event (channelAnswers "s")]

/-- A permission request for the session of `bob`, known by its JSON-RPC id. -/
def request (rpcId : RequestId) : PermissionRequest where
  rpcId := some rpcId
  requestId := none
  sessionId := some "s"
  description := none
  toolTitle := none
  options := some [⟨"allow", "Allow"⟩]

def ask (r : PermissionRequest) : List (SystemLabel 1 1) :=
  [.agents (.incoming (Fin.last 0) (.requestPermission r)), .agents (.recvIncoming (answers "s")),
    .event (channelAnswers "s")]

end Sample

end Anyclaw
