import Anyclaw.Library.Fallible
import Anyclaw.Library.Serde

/-!
# The configuration

The part of the configuration that the validator and the start of the supervisor read.  Code
that may panic returns a `MayPanic`; the errors that it returns are values.

The types are those of `crates/anyclaw-config/src/types.rs`.
-/

namespace Anyclaw.Config

open Fallible
open Json (Reader)

/-! ### Panics -/

inductive Panic where
  /-- An index is not below the length of a vector. -/
  | indexOutOfBounds
  /-- A string is split within a character. -/
  | charBoundary
  /-- An interval without a period. -/
  | zeroPeriod
  | expect (message : String)
deriving DecidableEq

abbrev MayPanic (α : Type) := Except Panic α

/-! ### Commands -/

/-- A plain string or an array of strings. -/
structure StringOrArray where
  elements : List String
deriving DecidableEq

namespace StringOrArray

variable (b : StringOrArray)

/-- `self.0[0]`. -/
def index0 : MayPanic String :=
  match b.elements with
  | [] => .error .indexOutOfBounds
  | command :: _ => .ok command

def commandAndArgs : MayPanic (String × List String) :=
  match b.elements with
  | [] => .error (.expect "StringOrArray must contain at least one element")
  | command :: args => .ok (command, args)

def setCommand (command : String) : StringOrArray := ⟨command :: b.elements.tail⟩

theorem returns_index0 : Returns b.index0 ↔ b.elements ≠ [] := by
  unfold index0
  cases b.elements <;> simp

theorem returns_commandAndArgs : Returns b.commandAndArgs ↔ b.elements ≠ [] := by
  unfold commandAndArgs
  cases b.elements <;> simp

end StringOrArray

/-- A string, or an array of strings, which may be empty. -/
def readStringOrArray : Reader StringOrArray := fun j =>
  (Json.readString j).map (fun s => ⟨[s]⟩) <|> (Json.readList Json.readString j).map (⟨·⟩)

/-! ### Configurations -/

structure LocalWorkspaceConfig where
  binary : StringOrArray
  workingDir : Option String
  env : List (String × String)

inductive PullPolicy where
  | always
  | never
  | ifNotPresent
deriving DecidableEq

structure DockerWorkspaceConfig where
  image : String
  entrypoint : Option StringOrArray
  volumes : List String
  memoryLimit : Option String
  cpuLimit : Option String
  dockerHost : Option String
  network : Option String
  pullPolicy : PullPolicy
  extraHosts : List String

inductive WorkspaceConfig where
  | «local» (config : LocalWorkspaceConfig)
  | docker (config : DockerWorkspaceConfig)

structure AgentConfig where
  workspace : WorkspaceConfig
  enabled : Bool
  acpTimeoutSecs : Option UInt64

structure ChannelConfig where
  binary : String

structure ToolConfig where
  binary : Option String

/-- The maps of the configuration are lists, in the order in which they are iterated. -/
structure AnyclawConfig where
  logLevel : String
  /-- The directory that `@built-in/` stands for. -/
  extensionsDir : String
  agents : List (String × AgentConfig)
  channels : List (String × ChannelConfig)
  tools : List (String × ToolConfig)
  /-- `agents_manager.acp_timeout_secs`. -/
  acpTimeoutSecs : UInt64
  toolsServerHost : String
  /-- `supervisor.health_check_interval_secs`. -/
  healthCheckIntervalSecs : UInt64

end Anyclaw.Config
