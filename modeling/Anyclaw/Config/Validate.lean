import Anyclaw.Config.Types
import Anyclaw.Library.Slices

/-!
# Validation of configurations

`validate_config` collects errors about the values of a configuration and about files that
are missing.  Parsing of numbers and addresses is a parameter (`StdParsers`), and so are the
files of the host (`HostFiles`).

The source is `crates/anyclaw-config/src/validate.rs`, with the parsers of `parse.rs`.
-/

namespace Anyclaw.Config

open Fallible Slices

/-! ### What the standard library and the host answer -/

/-- Numbers of type `f64` and IP addresses. -/
structure StdParsers (F : Type) where
  /-- `str::parse::<IpAddr>` accepts the text. -/
  isIpAddr : String → Bool
  /-- `str::parse::<f64>`. -/
  parseF64 : String → Option F
  /-- `x <= 0.0`. -/
  nonpositive : F → Bool
  /-- `(x * multiplier as f64) as i64`. -/
  scaled : F → Nat → Int64

def hasNul (s : String) : Bool := s.toList.contains '\x00'

/-- The files of the host; no path has a NUL character in it. -/
structure HostFiles where
  isFile : String → Bool
  /-- A command with the argument `--version` can be spawned. -/
  commandRuns : String → Bool
  pathExists : String → Bool
  file_nul : ∀ p, hasNul p = true → isFile p = false
  command_nul : ∀ p, hasNul p = true → commandRuns p = false
  path_nul : ∀ p, hasNul p = true → pathExists p = false

def isAbsolute (path : String) : Bool := path.toList.head? == some '/'

def binaryExists (files : HostFiles) (binary : String) : Bool :=
  if isAbsolute binary then files.isFile binary else files.commandRuns binary

/-! ### Limits -/

inductive ConfigError where
  | invalidMemoryLimit (value reason : String)
  | invalidCpuLimit (value reason : String)
deriving DecidableEq

def ConfigError.toString : ConfigError → String
  | .invalidMemoryLimit value reason => "invalid memory limit '" ++ value ++ "': " ++ reason
  | .invalidCpuLimit value reason => "invalid cpu limit '" ++ value ++ "': " ++ reason

/-- `str::trim`. -/
def trim (s : String) : List Char :=
  ((s.toList.dropWhile isWhitespace).reverse.dropWhile isWhitespace).reverse

/-- The factor that the unit of a memory limit stands for. -/
def memoryMultiplier (unit : Char) : Option Nat :=
  if unit.toLower = 'k' then some 1024
  else if unit.toLower = 'm' then some (1024 * 1024)
  else if unit.toLower = 'g' then some (1024 * 1024 * 1024)
  else none

section Limits

variable {F : Type} (std : StdParsers F)

/-- The number and the unit of a memory limit are taken apart one byte before the end. -/
def parseMemoryLimit (s : String) : MayPanic (Except ConfigError Int64) :=
  let s := trim s
  let value := String.ofList s
  match s.getLast? with
  | none => return .error (.invalidMemoryLimit value "empty string")
  | some unit =>
      if unit.utf8Size ≠ 1 then .error .charBoundary
      else
        let num := String.ofList s.dropLast
        match memoryMultiplier unit with
        | none =>
            return .error (.invalidMemoryLimit value
              ("unknown unit suffix '" ++ unit.toString ++ "', expected k, m, or g"))
        | some multiplier =>
            match std.parseF64 num with
            | none =>
                return .error (.invalidMemoryLimit value
                  ("'" ++ num ++ "' is not a valid number"))
            | some x =>
                if std.nonpositive x then
                  return .error (.invalidMemoryLimit value "value must be positive")
                else return .ok (std.scaled x multiplier)

def parseCpuLimit (s : String) : Except ConfigError Int64 :=
  let s := trim s
  let value := String.ofList s
  match s.getLast? with
  | none => .error (.invalidCpuLimit value "empty string")
  | some unit =>
      if unit = 'm' ∨ unit = 'M' then
        let millis := String.ofList s.dropLast
        match std.parseF64 millis with
        | none => .error (.invalidCpuLimit value ("'" ++ millis ++ "' is not a valid number"))
        | some x =>
            if std.nonpositive x then
              .error (.invalidCpuLimit value "value must be positive")
            else .ok (std.scaled x 1000000)
      else
        match std.parseF64 value with
        | none =>
            .error (.invalidCpuLimit value
              ("'" ++ value ++ "' is not a valid number or millicore value " ++
                "(e.g. '1.5' or '500m')"))
        | some x =>
            if std.nonpositive x then
              .error (.invalidCpuLimit value "value must be positive")
            else .ok (std.scaled x 1000000000)

end Limits

/-! ### Hosts -/

def isAlphanumeric (c : Char) : Bool := c.isAlpha || c.isDigit

def isValidHost {F : Type} (std : StdParsers F) (host : String) : Bool :=
  if host.isEmpty then false
  else if std.isIpAddr host then true
  else if host.utf8ByteSize > 253 then false
  else
    (host.toList.splitOn '.').all fun label =>
      !label.isEmpty && (String.ofList label).utf8ByteSize ≤ 63 &&
        label.all (fun c => isAlphanumeric c || c == '-') &&
        label.head? != some '-' && label.getLast? != some '-'

/-! ### Errors -/

inductive ValidationError where
  | binaryNotFound (field binary : String)
  | workingDirNotFound (path : String)
  | invalidMemoryLimit (field value reason : String)
  | invalidCpuLimit (field value reason : String)
  | invalidDockerHost (field value : String)
  | invalidVolumeMount (field value : String)
  | invalidExtraHost (field value : String)
  | invalidToolsServerHost (field value : String)
deriving DecidableEq

structure ValidationResult where
  errors : List ValidationError

def ValidationResult.isOk (r : ValidationResult) : Bool := r.errors.isEmpty

def workspaceField (name field : String) : String :=
  "agents_manager.agents." ++ name ++ ".workspace." ++ field

/-! ### The checks -/

section Checks

variable {F : Type} (std : StdParsers F) (files : HostFiles)

def validateToolsServerHost (cfg : AnyclawConfig) : List ValidationError :=
  if isValidHost std cfg.toolsServerHost then []
  else [.invalidToolsServerHost "tools_manager.tools_server_host" cfg.toolsServerHost]

def validateLocalAgent (name : String) (l : LocalWorkspaceConfig) :
    MayPanic (List ValidationError) := do
  let binary ← l.binary.index0
  return (if binaryExists files binary then []
      else [.binaryNotFound (workspaceField name "binary") binary]) ++
    (l.workingDir.toList.filter fun path => !files.pathExists path).map .workingDirNotFound

def validateMemoryLimit (name : String) (limit : Option String) :
    MayPanic (List ValidationError) :=
  match limit with
  | none => return []
  | some mem => do
      match ← parseMemoryLimit std mem with
      | .ok _ => return []
      | .error e =>
          return [.invalidMemoryLimit (workspaceField name "memory_limit") mem e.toString]

def validateCpuLimit (name : String) (limit : Option String) : List ValidationError :=
  match limit with
  | none => []
  | some cpu =>
      match parseCpuLimit std cpu with
      | .ok _ => []
      | .error e => [.invalidCpuLimit (workspaceField name "cpu_limit") cpu e.toString]

def isDockerHost (host : String) : Bool := host.startsWith "unix://" || host.startsWith "tcp://"

def withoutColon (entries : List String) : List String :=
  entries.filter fun entry => !entry.toList.contains ':'

def validateDockerAgent (name : String) (d : DockerWorkspaceConfig) :
    MayPanic (List ValidationError) := do
  let memory ← validateMemoryLimit std name d.memoryLimit
  return memory ++ validateCpuLimit std name d.cpuLimit ++
    (d.dockerHost.toList.filter fun host => !isDockerHost host).map
      (.invalidDockerHost (workspaceField name "docker_host")) ++
    (withoutColon d.volumes).map (.invalidVolumeMount (workspaceField name "volumes")) ++
    (withoutColon d.extraHosts).map (.invalidExtraHost (workspaceField name "extra_hosts"))

def validateAgent (e : String × AgentConfig) : MayPanic (List ValidationError) :=
  match e.2.workspace with
  | .local l => validateLocalAgent files e.1 l
  | .docker d => validateDockerAgent std e.1 d

def validateAgents (cfg : AnyclawConfig) : MayPanic (List ValidationError) := do
  let errors ← cfg.agents.mapM (validateAgent std files)
  return errors.flatten

def validateChannelBinaries (cfg : AnyclawConfig) : List ValidationError :=
  (cfg.channels.filter fun e => !binaryExists files e.2.binary).map fun e =>
    .binaryNotFound ("channels_manager.channels." ++ e.1 ++ ".binary") e.2.binary

def validateToolBinaries (cfg : AnyclawConfig) : List ValidationError :=
  cfg.tools.flatMap fun e =>
    (e.2.binary.toList.filter fun binary => !binaryExists files binary).map
      (.binaryNotFound ("tools_manager.tools." ++ e.1 ++ ".binary"))

def validateConfig (cfg : AnyclawConfig) : MayPanic ValidationResult := do
  let agents ← validateAgents std files cfg
  return ⟨validateToolsServerHost std cfg ++ agents ++ validateChannelBinaries files cfg ++
    validateToolBinaries files cfg⟩

/-! ### When validation returns -/

/-- What a memory limit is taken apart at is the end of a character. -/
def SplitsWell (limit : String) : Prop := ∀ unit ∈ (trim limit).getLast?, unit.utf8Size = 1

/-- The command of a local agent is there, and a memory limit can be taken apart. -/
def AgentConfig.Checkable (agent : AgentConfig) : Prop :=
  match agent.workspace with
  | .local l => l.binary.elements ≠ []
  | .docker d => ∀ limit ∈ d.memoryLimit, SplitsWell limit

variable {std files}

theorem returns_parseMemoryLimit {s : String} :
    Returns (parseMemoryLimit std s) ↔ SplitsWell s := by
  unfold parseMemoryLimit SplitsWell
  dsimp only
  cases (trim s).getLast? with
  | none => exact iff_of_true ⟨_, rfl⟩ fun _ h => nomatch h
  | some unit =>
      dsimp only
      by_cases hunit : unit.utf8Size = 1
      · rw [if_neg (not_not.mpr hunit)]
        refine iff_of_true ?_ fun u hu => ?_
        · split
          · exact ⟨_, rfl⟩
          · split
            · exact ⟨_, rfl⟩
            · split <;> exact ⟨_, rfl⟩
        · cases hu
          exact hunit
      · rw [if_pos hunit]
        exact iff_of_false (not_returns_error _) fun h => hunit (h unit rfl)

theorem returns_validateMemoryLimit {name : String} {limit : Option String} :
    Returns (validateMemoryLimit std name limit) ↔ ∀ l ∈ limit, SplitsWell l := by
  cases limit with
  | none => exact iff_of_true ⟨_, rfl⟩ fun _ h => nomatch h
  | some mem =>
      unfold validateMemoryLimit
      constructor
      · rintro ⟨errors, herrors⟩ l hl
        cases hl
        obtain ⟨parsed, hparsed, _⟩ := bind_eq_ok.mp herrors
        exact returns_parseMemoryLimit.mp ⟨parsed, hparsed⟩
      · intro h
        have hreturns : Returns (parseMemoryLimit std mem) :=
          returns_parseMemoryLimit.mpr (h mem rfl)
        obtain ⟨parsed, hparsed⟩ := hreturns
        cases parsed with
        | ok limit => exact ⟨[], bind_eq_ok.mpr ⟨_, hparsed, rfl⟩⟩
        | error e => exact ⟨_, bind_eq_ok.mpr ⟨_, hparsed, rfl⟩⟩

theorem returns_validateAgent {e : String × AgentConfig} :
    Returns (validateAgent std files e) ↔ e.2.Checkable := by
  unfold validateAgent AgentConfig.Checkable
  cases e.2.workspace with
  | «local» l =>
      dsimp only
      rw [← StringOrArray.returns_index0]
      unfold validateLocalAgent
      constructor
      · rintro ⟨errors, herrors⟩
        obtain ⟨binary, hbinary, _⟩ := bind_eq_ok.mp herrors
        exact ⟨binary, hbinary⟩
      · rintro ⟨binary, hbinary⟩
        exact ⟨_, bind_eq_ok.mpr ⟨binary, hbinary, rfl⟩⟩
  | docker d =>
      dsimp only
      rw [← @returns_validateMemoryLimit _ std e.1]
      unfold validateDockerAgent
      constructor
      · rintro ⟨errors, herrors⟩
        obtain ⟨memory, hmemory, _⟩ := bind_eq_ok.mp herrors
        exact ⟨memory, hmemory⟩
      · rintro ⟨memory, hmemory⟩
        exact ⟨_, bind_eq_ok.mpr ⟨memory, hmemory, rfl⟩⟩

theorem returns_validateConfig {cfg : AnyclawConfig} :
    Returns (validateConfig std files cfg) ↔ ∀ e ∈ cfg.agents, e.2.Checkable := by
  have hagents : Returns (cfg.agents.mapM (validateAgent std files)) ↔
      ∀ e ∈ cfg.agents, e.2.Checkable := by
    rw [returns_mapM]
    exact forall₂_congr fun _ _ => returns_validateAgent
  rw [← hagents]
  unfold validateConfig validateAgents
  constructor
  · rintro ⟨r, hr⟩
    obtain ⟨agents, hagents, _⟩ := bind_eq_ok.mp hr
    obtain ⟨errors, herrors, _⟩ := bind_eq_ok.mp hagents
    exact ⟨errors, herrors⟩
  · rintro ⟨errors, herrors⟩
    exact ⟨_, bind_eq_ok.mpr ⟨_, bind_eq_ok.mpr ⟨errors, herrors, rfl⟩, rfl⟩⟩

/-! ### What a validated configuration has -/

/-- Agents of a configuration without errors have none. -/
theorem validateAgent_eq_nil {cfg : AnyclawConfig} {r : ValidationResult}
    (h : validateConfig std files cfg = .ok r) (hok : r.isOk = true) :
    ∀ e ∈ cfg.agents, validateAgent std files e = .ok [] := by
  obtain ⟨agents, hagents, hr⟩ := bind_eq_ok.mp h
  obtain ⟨errors, herrors, hflat⟩ := bind_eq_ok.mp hagents
  cases hr
  cases hflat
  have hnil : errors.flatten = [] := by
    unfold ValidationResult.isOk at hok
    rw [List.isEmpty_iff] at hok
    simp only [List.append_eq_nil_iff] at hok
    exact hok.1.1.2
  intro e he
  obtain ⟨b, hb, hvalid⟩ := exists_mem_of_forall₂ (mapM_eq_ok.mp herrors) e he
  rw [hvalid, List.flatten_eq_nil_iff.mp hnil b hb]

/-- The limits of a Docker agent without errors can be parsed. -/
theorem limits_parse {name : String} {d : DockerWorkspaceConfig}
    (h : validateDockerAgent std name d = .ok []) :
    (∀ limit ∈ d.memoryLimit, ∃ n, parseMemoryLimit std limit = .ok (.ok n)) ∧
      ∀ limit ∈ d.cpuLimit, ∃ n, parseCpuLimit std limit = .ok n := by
  obtain ⟨memory, hmemory, hrest⟩ := bind_eq_ok.mp h
  have hnil := Except.ok.inj hrest
  simp only [List.append_eq_nil_iff] at hnil
  obtain ⟨⟨⟨⟨rfl, hcpu⟩, _⟩, _⟩, _⟩ := hnil
  constructor
  · intro limit hlimit
    rw [Option.mem_def] at hlimit
    rw [hlimit] at hmemory
    obtain ⟨parsed, hparsed, hnone⟩ := bind_eq_ok.mp hmemory
    cases parsed with
    | ok n => exact ⟨n, hparsed⟩
    | error e => cases hnone
  · intro limit hlimit
    rw [Option.mem_def] at hlimit
    rw [hlimit] at hcpu
    unfold validateCpuLimit at hcpu
    dsimp only at hcpu
    cases hparsed : parseCpuLimit std limit with
    | ok n => exact ⟨n, rfl⟩
    | error e =>
        rw [hparsed] at hcpu
        cases hcpu

end Checks

end Anyclaw.Config
