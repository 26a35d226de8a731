import Anyclaw.Channels.AccessControl
import Anyclaw.Channels.Manager
import Anyclaw.Core.ContextStore
import Anyclaw.Library.Decimal

/-!
# What a channel's messages become

`admitMessage` is the part of `collect_send_message` that precedes the routing: access control, the
buffered context of a group, and the suppression of reply context.  What is left of a message
is the answer `admitted` of the handlers in `Channels.Manager`.

`collect_send_message` is in `crates/anyclaw-channels/src/manager.rs`, as are
`format_context_block` and `format_timestamp`, which make the context block.
-/

namespace Anyclaw

structure SenderInfo where
  senderId : Option String
  senderName : Option String
deriving DecidableEq

/-- A `channel/sendMessage` with what access control reads of it. -/
structure SentMessage extends ChannelSendMessage where
  senderInfo : Option SenderInfo
  wasMentioned : Option Bool
deriving DecidableEq

/-- The options of a channel that the manager reads. -/
structure ChannelOptions where
  accessControl : Option AccessConfig
  /-- `context_history_limit`, 50 when it is not given. -/
  contextHistoryLimit : Nat

/-- What the clock and the context store answer while a message is collected. -/
structure StoreAnswers where
  now : Nat
  inserted : Bool
  trimmed : Bool
  taken : Bool

/-! ### Context -/

def twoDigits (n : Nat) : String := if n < 10 then "0" ++ n.repr else n.repr

def formatTimestamp (unixSecs : Nat) : String :=
  let secsInDay := unixSecs % 86400
  twoDigits (secsInDay / 3600) ++ ":" ++ twoDigits (secsInDay % 3600 / 60)

def formatContextBlock (messages : List ContextMessage) : String :=
  "[Recent group messages for context]\n" ++
    String.join (messages.map fun msg =>
      "[" ++ msg.sender ++ ", " ++ formatTimestamp msg.timestamp ++ "] " ++ msg.content ++ "\n") ++
    "\n[Current message]\n"

/-! ### What access control reads of a message -/

def afterColon (peerId : String) : Option String :=
  if ':' ∈ peerId.toList then
    some (String.ofList (peerId.toList.dropWhile (· != ':')).tail)
  else none

namespace SentMessage

variable (m : SentMessage)

def sender : SenderIdentity :=
  (m.senderInfo.map fun si => ⟨si.senderId.bind readInt64, si.senderName⟩).getD .default

def isGroup : Bool := m.peerInfo.kind == "group" || m.peerInfo.kind == "supergroup"

def botMentioned : Bool := m.wasMentioned.getD false

/-- The chat, 0 when the peer id names none. -/
def chatId : Int64 := ((afterColon m.peerInfo.peerId).bind readInt64).getD 0

def textContent : String :=
  " ".intercalate (m.content.filterMap fun part =>
    match part with
    | .text text => some text
    | _ => none)

def asContext (now : Nat) : ContextMessage where
  groupKey := m.peerInfo.peerId
  sender := (m.senderInfo.bind SenderInfo.senderName).getD "unknown"
  content := m.textContent
  timestamp := now

end SentMessage

def MessageMetadata.replySender (metadata : MessageMetadata) : SenderIdentity where
  userId := metadata.replyToSenderId.bind readInt64
  username := metadata.replyToSender

/-! ### Admission -/

def SentMessage.decision (m : SentMessage) (cfg : AccessConfig) : AccessDecision :=
  evaluateAccess cfg m.chatId m.sender m.isGroup m.botMentioned

def keptMetadata (cfg : AccessConfig) (m : SentMessage) : Option MessageMetadata :=
  if m.isGroup && m.metadata.any fun metadata =>
      shouldSuppressReplyContext cfg m.chatId metadata.replySender true then none
  else m.metadata

def takenContext (store : ContextStore) (m : SentMessage) (a : StoreAnswers) :
    List ContextMessage × ContextStore :=
  if m.isGroup && m.botMentioned then store.takeContext m.peerInfo.peerId a.taken else ([], store)

def withContext (context : List ContextMessage) (content : List ContentPart) : List ContentPart :=
  if context.isEmpty then content else .text (formatContextBlock context) :: content

/-- What is left of a message, and the context store afterwards. -/
def admitMessage (options : ChannelOptions) (store : ContextStore) (m : SentMessage) (a : StoreAnswers) :
    Option (List ContentPart × Option MessageMetadata) × ContextStore :=
  match options.accessControl with
  | none => (some (m.content, m.metadata), store)
  | some cfg =>
      match m.decision cfg with
      | .deny _ => (none, store)
      | .skipNoMention =>
          (none, store.storeContext (m.asContext a.now) options.contextHistoryLimit a.inserted
            a.trimmed)
      | .allow =>
          match takenContext store m a with
          | (context, store) =>
              (some (withContext context m.content, keptMetadata cfg m), store)

namespace ChannelsManager

variable {c : Nat} (cfg : ChannelsManagerConfig c) (ch : ChannelsManager c)

/-- `collect_send_message`, with access control. -/
def collectSentMessage (options : ChannelOptions) (store : ContextStore) (s : Fin c)
    (m : SentMessage) (sa : StoreAnswers) (a : ChannelAnswers) :
    ChannelsManager c × ContextStore :=
  match admitMessage options store m sa with
  | (admitted, store) =>
      (collectSendMessage cfg ch s m.toChannelSendMessage { a with admitted := admitted }, store)

end ChannelsManager

namespace Sample

/-- Everything succeeds, at the time 0. -/
def storeAnswers : StoreAnswers := ⟨0, true, true, true⟩

end Sample

end Anyclaw
