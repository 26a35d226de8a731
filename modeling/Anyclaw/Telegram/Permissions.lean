import Anyclaw.Channels.Isolation
import Anyclaw.Telegram.Dispatcher

/-!
# Permission prompts of the Telegram channel

The machine below is the channels manager with access control and the Telegram process of
slot `t`.  Messages of users travel to the run loop in the order in which they are handed
over.  A permission request travels to the process, which shows it with buttons; the answer
to a press is sent through `permission_tx` to the loop of the process, which looks up the
request and writes the response.

The answer of a press names the request and the option only.  The press that it is for is
kept beside it.

The process is that of `ext/channels/telegram/src`: a request is shown by
`show_permission_prompt` (`channel.rs`), a press is handled by `handle_callback_query`
(`dispatcher.rs`) and `process_callback` (`permissions.rs`).
-/

namespace Anyclaw

variable {c : Nat}

/-! ### Button presses -/

structure CallbackQuery where
  sender : TelegramUser
  chatId : Int64
  chatType : ChatType
  data : Option String
deriving DecidableEq

/-- The parts before and behind the last colon. -/
def parseCallbackData (data : String) : Option PermissionResponse :=
  if ':' ∈ data.toList then
    some {
      requestId := String.ofList (data.toList.reverse.dropWhile (· != ':')).tail.reverse
      optionId := String.ofList (data.toList.reverse.takeWhile (· != ':')).reverse }
  else none

def CallbackQuery.pressed (q : CallbackQuery) : List (PermissionResponse × CallbackQuery) :=
  ((q.data.bind parseCallbackData).map (·, q)).toList

/-- A response that was written to the manager, and the press that it is for. -/
structure WrittenResponse (c : Nat) where
  wait : PermissionWait c
  optionId : String
  query : CallbackQuery
deriving DecidableEq

/-! ### State -/

structure TelegramInbox (c : Nat) where
  manager : ChannelsManager c
  contexts : ContextStore
  /-- The messages that the process has handed over. -/
  queue : List SentMessage
  /-- The permission requests on their way to the process. -/
  requests : List (PermissionWait c)
  /-- The requests that were shown and wait for an answer, by request id. -/
  pendingPermissions : KeyedMap String (PermissionWait c)
  /-- What is in `permission_tx`. -/
  responses : List (PermissionResponse × CallbackQuery)
  /-- The responses on their way to the manager. -/
  written : List (WrittenResponse c)

inductive TelegramLabel (c : Nat) where
  | message (m : TelegramMessage)
  | callbackQuery (q : CallbackQuery)
  /-- The process takes the next permission request and shows it. -/
  | showPermissionPrompt
  /-- The process takes the next answer from `permission_tx`. -/
  | flushPermission
  /-- The response `j` reaches the task that waits for it. -/
  | respond (j : Nat)
  /-- The run loop takes the next message of the process. -/
  | collect (sa : StoreAnswers) (a : ChannelAnswers)
  /-- A step of the manager that is about another slot, or about no message. -/
  | channels (l : InboxLabel c)

namespace TelegramInbox

variable (cfg : ChannelsManagerConfig c) (options : Fin c → ChannelOptions) (t : Fin c)
  (x : TelegramInbox c)

def alive : Bool := (x.manager.slots t).stream.any fun stream => !stream.ended

/-! ### The process -/

def handleTextMessage (m : TelegramMessage) : TelegramInbox c :=
  { x with queue := x.queue ++ m.toSent.toList }

def handleCallbackQuery (q : CallbackQuery) : TelegramInbox c :=
  { x with responses := x.responses ++ q.pressed }

def showPermissionPrompt : Option (TelegramInbox c) :=
  match x.requests with
  | [] => none
  | w :: rest =>
      some { x with
        requests := rest
        pendingPermissions := x.pendingPermissions.set w.requestId w }

/-- An answer to an unknown request is dropped. -/
def flushPermission : Option (TelegramInbox c) :=
  match x.responses with
  | [] => none
  | (response, q) :: rest =>
      match x.pendingPermissions.get? response.requestId with
      | none => some { x with responses := rest }
      | some w =>
          some { x with
            responses := rest
            pendingPermissions := x.pendingPermissions.remove response.requestId
            written := x.written ++ [⟨w, response.optionId, q⟩] }

/-! ### The manager -/

/-- A response that nobody waits for any more is dropped. -/
def respond (j : Nat) : Option (TelegramInbox c) :=
  match x.written[j]? with
  | none => none
  | some p =>
      match x.manager.waits.idxOf? p.wait with
      | none => some { x with written := x.written.eraseIdx j }
      | some i =>
          (ChannelsManager.step cfg x.manager (.permissionAnswered i (some p.optionId))).map
            fun manager => { x with manager := manager, written := x.written.eraseIdx j }

def collect (sa : StoreAnswers) (a : ChannelAnswers) : Option (TelegramInbox c) :=
  match x.queue with
  | [] => none
  | m :: rest =>
      if x.manager.idle then
        match ChannelsManager.collectSentMessage cfg x.manager (options t) x.contexts t m sa a with
        | (manager, contexts) =>
            some { x with manager := manager, contexts := contexts, queue := rest }
      else none

/-- The messages and answers of slot `t` come from the process, and the end of its output is
    noticed when its messages have been taken. -/
def Elsewhere : InboxLabel c → Prop
  | .collect s _ _ _ _ => s ≠ t
  | .channels (.incoming s _) => s ≠ t
  | .channels (.recvStream s _) => s = t → x.queue = []
  | .channels (.permissionAnswered i _) => ∀ w ∈ x.manager.waits[i]?, w.slotIndex ≠ t
  | .channels _ => True

instance : DecidablePred (x.Elsewhere t) := by
  intro l
  unfold Elsewhere
  induction l using InboxLabel.casesOn with
  | channels l => induction l using ChannelsLabel.casesOn <;> dsimp only <;> infer_instance
  | collect =>
      dsimp only
      infer_instance

/-- The run loop has noticed that the process has ended. -/
def endsProcess : InboxLabel c → Bool
  | .channels (.recvStream s _) => s == t
  | _ => false

def requested (ch ch' : ChannelsManager c) : List (PermissionWait c) :=
  (ch'.waits.drop ch.waits.length).filter fun w => w.slotIndex == t

/-- A process that is spawned knows of nothing. -/
def afterChannels (l : InboxLabel c) (y : ChannelsInbox c) : TelegramInbox c :=
  if endsProcess t l then
    { manager := y.manager
      contexts := y.contexts
      queue := []
      requests := []
      pendingPermissions := ∅
      responses := []
      written := [] }
  else
    { x with
      manager := y.manager
      contexts := y.contexts
      requests := x.requests ++ requested t x.manager y.manager }

def channels (l : InboxLabel c) : Option (TelegramInbox c) :=
  if x.Elsewhere t l then
    (ChannelsInbox.step cfg options (ChannelsInbox.fresh x.manager x.contexts) l).map
      (x.afterChannels t l)
  else none

def step : TelegramLabel c → Option (TelegramInbox c)
  | .message m => if x.alive t then some (x.handleTextMessage m) else none
  | .callbackQuery q => if x.alive t then some (x.handleCallbackQuery q) else none
  | .showPermissionPrompt => if x.alive t then x.showPermissionPrompt else none
  | .flushPermission => if x.alive t then x.flushPermission else none
  | .respond j => respond cfg x j
  | .collect sa a => collect cfg options t x sa a
  | .channels l => channels cfg options t x l

def fresh (ch : ChannelsManager c) (contexts : ContextStore) : TelegramInbox c where
  manager := ch
  contexts := contexts
  queue := []
  requests := []
  pendingPermissions := ∅
  responses := []
  written := []

def life : Machine (TelegramInbox c) (TelegramLabel c) where
  init x := ∃ ch contexts, (ChannelsManager.life cfg).init ch ∧ x = fresh ch contexts
  step := step cfg options t

end TelegramInbox

end Anyclaw
