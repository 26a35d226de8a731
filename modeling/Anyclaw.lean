import Anyclaw.Agents.ActivePrompts
import Anyclaw.Agents.AtMostOnce
import Anyclaw.Agents.Backlog
import Anyclaw.Agents.Boot
import Anyclaw.Agents.Commands
import Anyclaw.Agents.ContextOnce
import Anyclaw.Agents.CrashNotices
import Anyclaw.Agents.CrashOutcomes
import Anyclaw.Agents.Delivery
import Anyclaw.Agents.Disabled
import Anyclaw.Agents.Dispatch
import Anyclaw.Agents.DispatchBrackets
import Anyclaw.Agents.EventCount
import Anyclaw.Agents.ExecutedCommands
import Anyclaw.Agents.ForwardedContent
import Anyclaw.Agents.Frames
import Anyclaw.Agents.FsSandbox
import Anyclaw.Agents.GivingUp
import Anyclaw.Agents.Greetings
import Anyclaw.Agents.Handshake
import Anyclaw.Agents.History
import Anyclaw.Agents.Hosts
import Anyclaw.Agents.Incoming
import Anyclaw.Agents.LiveSessions
import Anyclaw.Agents.Manager
import Anyclaw.Agents.NewConversation
import Anyclaw.Agents.Ownership
import Anyclaw.Agents.Permissions
import Anyclaw.Agents.Persistence
import Anyclaw.Agents.PlatformCommands
import Anyclaw.Agents.Processes
import Anyclaw.Agents.Progress
import Anyclaw.Agents.PromptContents
import Anyclaw.Agents.PromptOrder
import Anyclaw.Agents.QueueInvariants
import Anyclaw.Agents.QueueRefinement
import Anyclaw.Agents.ReaderTasks
import Anyclaw.Agents.Replay
import Anyclaw.Agents.Results
import Anyclaw.Agents.Retries
import Anyclaw.Agents.Run
import Anyclaw.Agents.Serialization
import Anyclaw.Agents.SessionChanges
import Anyclaw.Agents.SessionHandlers
import Anyclaw.Agents.SessionMaps
import Anyclaw.Agents.SessionOutcomes
import Anyclaw.Agents.SessionQueue
import Anyclaw.Agents.SessionRecovery
import Anyclaw.Agents.SessionSteps
import Anyclaw.Agents.SessionTables
import Anyclaw.Agents.Slot
import Anyclaw.Agents.Tickets
import Anyclaw.Agents.ToolContext
import Anyclaw.Agents.UpdateOrder
import Anyclaw.Agents.UpdateParsing
import Anyclaw.Channels.AccessControl
import Anyclaw.Channels.AccessOptions
import Anyclaw.Channels.Admission
import Anyclaw.Channels.Announcements
import Anyclaw.Channels.ContextBlock
import Anyclaw.Channels.Conversations
import Anyclaw.Channels.Emissions
import Anyclaw.Channels.GroupContext
import Anyclaw.Channels.Isolation
import Anyclaw.Channels.Lifecycle
import Anyclaw.Channels.Manager
import Anyclaw.Channels.Permissions
import Anyclaw.Channels.Retries
import Anyclaw.Channels.Run
import Anyclaw.Channels.SessionKeys
import Anyclaw.Channels.Wire
import Anyclaw.Config.EnvYaml
import Anyclaw.Config.Limits
import Anyclaw.Config.Runnable
import Anyclaw.Core.Backoff
import Anyclaw.Core.ContextStore
import Anyclaw.Core.CrashLoops
import Anyclaw.Core.Lifecycle
import Anyclaw.Core.SessionStore
import Anyclaw.Core.SqliteStore
import Anyclaw.DebugHttp.Authorization
import Anyclaw.DebugHttp.Channel
import Anyclaw.DebugHttp.Messages
import Anyclaw.DebugHttp.Permissions
import Anyclaw.DebugHttp.Steps
import Anyclaw.Jsonrpc.Acceptance
import Anyclaw.Jsonrpc.Chunking
import Anyclaw.Jsonrpc.Codec
import Anyclaw.Jsonrpc.Connection
import Anyclaw.Jsonrpc.Stream
import Anyclaw.Jsonrpc.Types
import Anyclaw.Library.Binary64
import Anyclaw.Library.Brackets
import Anyclaw.Library.Decimal
import Anyclaw.Library.DecimalFloat
import Anyclaw.Library.Delimited
import Anyclaw.Library.Erasure
import Anyclaw.Library.FileTree
import Anyclaw.Library.Inevitable
import Anyclaw.Library.Joined
import Anyclaw.Library.Json
import Anyclaw.Library.JsonEdit
import Anyclaw.Library.KeyedMap
import Anyclaw.Library.Links
import Anyclaw.Library.LowerCase
import Anyclaw.Library.Mailbox
import Anyclaw.Library.Markup
import Anyclaw.Library.Mpsc
import Anyclaw.Library.Serde
import Anyclaw.Library.SerdeRoundTrip
import Anyclaw.Library.Service
import Anyclaw.Library.Slices
import Anyclaw.Library.Table
import Anyclaw.Library.Transition
import Anyclaw.Library.Utf16
import Anyclaw.Permissions.Choices
import Anyclaw.Permissions.Identity
import Anyclaw.Permissions.Responses
import Anyclaw.Permissions.System
import Anyclaw.Permissions.Tokens
import Anyclaw.Sdk.Content
import Anyclaw.Sdk.ContentBlocks
import Anyclaw.Sdk.ContentKind
import Anyclaw.Sdk.HarnessAnswers
import Anyclaw.Sdk.HarnessDrain
import Anyclaw.Sdk.HarnessProtocol
import Anyclaw.Sdk.SessionKey
import Anyclaw.Sdk.SessionUpdate
import Anyclaw.Sdk.UpdateRoundTrip
import Anyclaw.Supervisor.EventPipe
import Anyclaw.Supervisor.Managers
import Anyclaw.Supervisor.Restarts
import Anyclaw.Supervisor.Shutdown
import Anyclaw.Supervisor.ShutdownTasks
import Anyclaw.Supervisor.Wiring
import Anyclaw.System.Answers
import Anyclaw.System.Messages
import Anyclaw.System.Updates
import Anyclaw.Telegram.Attribution
import Anyclaw.Telegram.Deliver
import Anyclaw.Telegram.DeniedSenders
import Anyclaw.Telegram.Dispatcher
import Anyclaw.Telegram.Effects
import Anyclaw.Telegram.Extraction
import Anyclaw.Telegram.FormatHtml
import Anyclaw.Telegram.Formatting
import Anyclaw.Telegram.Keyboard
import Anyclaw.Telegram.MarkPasses
import Anyclaw.Telegram.Mentions
import Anyclaw.Telegram.MessageLimits
import Anyclaw.Telegram.OpenTags
import Anyclaw.Telegram.Outbox
import Anyclaw.Telegram.Parts
import Anyclaw.Telegram.Permissions
import Anyclaw.Telegram.Placeholders
import Anyclaw.Telegram.PostedOnce
import Anyclaw.Telegram.Rendering
import Anyclaw.Telegram.ReplyContext
import Anyclaw.Telegram.ToolCalls
import Anyclaw.Telegram.Tracking
import Anyclaw.Telegram.Turn
import Anyclaw.Telegram.TurnTasks
import Anyclaw.Telegram.TypedCommands
import Anyclaw.Telegram.Utf16Slices
import Anyclaw.Telegram.WellFormatted
import Anyclaw.Telegram.WholeAnswer
import Anyclaw.Tools.Allowlist
import Anyclaw.Tools.Manager
import Anyclaw.Tools.Routing
