import Anyclaw.Sdk.SessionKey

/-!
# Message content and the events sent to the channels manager

The content of a session update is forwarded as the agent wrote it; the model
keeps the session it belongs to and the kind of the update, on which the manager
branches, and leaves the raw JSON out.

The types are those of `acp.rs`, `channel.rs`, `channel_event.rs` and `permission.rs` of
`crates/anyclaw-sdk-types/src`.
-/

namespace Anyclaw

/-! ### Content of user messages -/

inductive ContentPart where
  | text (text : String)
  | image (url : String)
  | file (url : String) (filename mimeType : Option String)
  | audio (url : String) (mimeType : Option String)
deriving DecidableEq

/-- Threading and reply context of a user message. -/
structure MessageMetadata where
  replyToMessageId : Option String
  replyToText : Option String
  replyToSender : Option String
  replyToSenderId : Option String
  replyToIsQuote : Option Bool
  replyToMediaType : Option String
  threadId : Option String
deriving DecidableEq

/-! ### Session updates -/

inductive StopReason where
  | endTurn
  | maxTokens
  | maxTurnRequests
  | refusal
  | cancelled
  | other
deriving DecidableEq

inductive SessionUpdateType where
  | agentThoughtChunk
  | agentMessageChunk
  | result (isError : Bool)
  | toolCall
  | toolCallUpdate
  | plan
  | usageUpdate
  | userMessageChunk
  | availableCommandsUpdate
  | currentModeUpdate
  | configOptionUpdate
  | sessionInfoUpdate
deriving DecidableEq

def SessionUpdateType.isResult : SessionUpdateType → Bool
  | .result _ => true
  | _ => false

/-- A `session/update` that deserialized.  `replay` is not part of the wire format:
    it marks the updates that the agent sent for a session between a `session/load`
    of it and the answer, so that statements can speak about them. -/
structure SessionUpdate where
  sessionId : AcpSessionId
  update : SessionUpdateType
  replay : Bool
deriving DecidableEq

/-! ### Peers -/

structure PeerInfo where
  channelName : String
  peerId : String
  kind : String
deriving DecidableEq

/-! ### Events for the channels manager -/

structure PermissionOption where
  optionId : String
  label : String
deriving DecidableEq

structure PermissionResponse where
  requestId : String
  optionId : String
deriving DecidableEq

inductive Delivered where
  /-- An update of the agent, forwarded. -/
  | update (u : SessionUpdate)
  /-- An `agent_message_chunk` with a text of the manager. -/
  | chunk (text : String)
  /-- An `agent_message_chunk` with a part the agent pushed. -/
  | pushed (part : ContentPart)
  /-- A `result` with `isError` set. -/
  | errorResult (content : String)
  /-- A `result` without error that answers a platform command. -/
  | commandResult (content : String)
  /-- A `result` made from the stop reason of a finished prompt. -/
  | syntheticResult (sessionId : AcpSessionId) (stopReason : StopReason)
deriving DecidableEq

def Delivered.isErrorResult : Delivered → Bool
  | .errorResult _ => true
  | _ => false

/-- Whether the content ends a turn for the channel. -/
def Delivered.isResult : Delivered → Bool
  | .update u => u.update.isResult
  | .errorResult _ => true
  | .commandResult _ => true
  | .syntheticResult _ _ => true
  | .chunk _ => false
  | .pushed _ => false

inductive ChannelEvent where
  | deliverMessage (sessionKey : SessionKey) (content : Delivered)
  | sessionComplete (sessionKey : SessionKey) (stopReason : StopReason)
  | routePermission (sessionKey : SessionKey) (requestId description : String)
      (options : List PermissionOption)
  | ackMessage (sessionKey : SessionKey) (channelName peerId : String)
      (messageId : Option String)
  | dispatchStarted (sessionKey : SessionKey)
deriving DecidableEq

end Anyclaw
