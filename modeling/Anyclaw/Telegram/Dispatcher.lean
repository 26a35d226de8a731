import Anyclaw.Channels.Admission
import Anyclaw.Channels.SessionKeys

/-!
# Messages of the Telegram channel

`TelegramMessage.toSent` is the `channel/sendMessage` that the dispatcher makes of a message:
its peer, its content, the reply metadata and the sender.  Whether the bot was mentioned, and
what the download of a photo gives, are taken as found.

The functions are `process_text_message` and `process_media_message` of
`ext/channels/telegram/src/dispatcher.rs`, with `reply_metadata_from_message` and
`sender_info_from_message`.
-/

namespace Anyclaw

structure TelegramUser where
  id : UInt64
  /-- The unique name, which not every user has. -/
  username : Option String
  /-- The display name, which the user chooses. -/
  firstName : String
deriving DecidableEq

inductive ChatType where
  | «private»
  | group
  | supergroup
  | channel
deriving DecidableEq

inductive TelegramMedia where
  | photo
  | video
  | audio
  | voice
  | videoNote
  | animation
  | document
  | sticker
  | location
  | contact
deriving DecidableEq

/-- `media_type_from_message`. -/
def TelegramMedia.type : TelegramMedia → String
  | .photo => "image"
  | .video => "video"
  | .audio => "audio"
  | .voice => "voice"
  | .videoNote => "video_note"
  | .animation => "animation"
  | .document => "document"
  | .sticker => "sticker"
  | .location => "location"
  | .contact => "contact"

/-- `media_label_from_type`. -/
def TelegramMedia.label : TelegramMedia → String
  | .photo => "📷 Photo"
  | .video => "🎬 Video"
  | .audio => "🎵 Audio"
  | .voice => "🎤 Voice"
  | .videoNote => "📹 Video note"
  | .animation => "🎞 GIF"
  | .document => "📎 Document"
  | .sticker => "🏷 Sticker"
  | .location => "📍 Location"
  | .contact => "👤 Contact"

structure RepliedMessage where
  id : Int32
  sender : Option TelegramUser
  text : Option String
  caption : Option String
  media : Option TelegramMedia
  /-- Its photo, when it has one that could be fetched. -/
  photo : Option String
deriving DecidableEq

inductive TelegramBody where
  | text (text : String)
  /-- `image` is the photo, when it could be fetched. -/
  | media (media : TelegramMedia) (caption image : Option String)
  | other
deriving DecidableEq

structure TelegramMessage where
  chatId : Int64
  chatType : ChatType
  sender : Option TelegramUser
  body : TelegramBody
  reply : Option RepliedMessage
  /-- The part of another message that the user has selected. -/
  quote : Option String
  threadId : Option Int32
  /-- Whether the bot is mentioned, or the message replies to it. -/
  mentioned : Bool
deriving DecidableEq

/-! ### The peer -/

def chatTypeStr : ChatType → String
  | .private => "private"
  | .group => "group"
  | .supergroup => "supergroup"
  | .channel => "channel"

def peerInfoFromChat (chatId : Int64) (chatType : String) : PeerInfo where
  channelName := "telegram"
  peerId := "telegram:" ++ toString chatId.toInt
  kind :=
    match chatType with
    | "private" => "direct"
    | "group" | "supergroup" => "group"
    | "channel" => "channel"
    | _ => "unknown"

/-- The colon of a Telegram peer does no harm: it is in the last part of the key. -/
theorem separable_peerInfoFromChat (chatId : Int64) (chatType : String) :
    (peerInfoFromChat chatId chatType).Separable := by
  constructor
  · change ':' ∉ ("telegram" : String).toList
    decide
  · unfold peerInfoFromChat
    dsimp only
    split <;> decide

/-- The keys of all Telegram chats can be told apart and taken apart again. -/
theorem legible_telegram :
    Legible {p | ∃ chatId chatType, p = peerInfoFromChat chatId chatType} := by
  apply legible_of_separable
  rintro p ⟨chatId, chatType, rfl⟩
  exact separable_peerInfoFromChat chatId chatType

/-! ### Reply context -/

namespace TelegramUser

def idString (u : TelegramUser) : String := u.id.toNat.repr

/-- The name that the reply context gives an author. -/
def replyName (u : TelegramUser) : String := u.username.getD u.firstName

end TelegramUser

namespace TelegramMessage

variable (m : TelegramMessage)

/-- The selected part, or the text of the message replied to. -/
def replyText : Option String :=
  match m.quote with
  | some quote => some quote
  | none => m.reply.bind fun r => r.text.or r.caption

def replyAuthor : Option TelegramUser := m.reply.bind RepliedMessage.sender

/-- `resolve_reply_photo`. -/
def replyPhoto : Option String := m.reply.bind RepliedMessage.photo

def replyMetadataFromMessage : Option MessageMetadata :=
  if m.reply.isNone && m.threadId.isNone then none
  else
    some {
      replyToMessageId := m.reply.map fun r => toString r.id.toInt
      replyToText := m.replyText
      replyToSender := m.replyAuthor.map TelegramUser.replyName
      replyToSenderId := m.replyAuthor.map TelegramUser.idString
      replyToIsQuote := m.quote.map fun _ => true
      replyToMediaType :=
        (m.reply.filter fun _ => m.replyText.isNone).bind fun r => r.media.map TelegramMedia.type
      threadId := m.threadId.map fun t => toString t.toInt }

def senderInfoFromMessage : Option SenderInfo :=
  m.sender.map fun u => ⟨some u.idString, u.username⟩

/-! ### The message that is sent on -/

def ownContent : TelegramBody → List ContentPart
  | .text text => [.text text]
  | .media media caption image =>
      match image.filter fun _ => media == .photo with
      | some url => .image url :: (caption.map ContentPart.text).toList
      | none =>
          match caption with
          | some caption => [.text ("[" ++ media.label ++ "] " ++ caption)]
          | none => [.text ("[" ++ media.label ++ "]")]
  | .other => []

/-- `handle_text_message` and `handle_media_message`; nothing is made of other messages. -/
def toSent : Option SentMessage :=
  if m.body = .other then none
  else
    some {
      peerInfo := peerInfoFromChat m.chatId (chatTypeStr m.chatType)
      content := (m.replyPhoto.map ContentPart.image).toList ++ ownContent m.body
      metadata := m.replyMetadataFromMessage
      senderInfo := m.senderInfoFromMessage
      wasMentioned := some m.mentioned }

end TelegramMessage

end Anyclaw
