import Anyclaw.Config.Validate

/-!
# What runs with a validated configuration

The supervisor resolves the binaries of a configuration, starts the managers and then ticks.
Tools and channels that cannot be started are continued without; an agent that cannot be
started ends the start.  Processes are spawned and answer: what an agent answers is in time
unless its timeout is zero and the answer is not there at once.

The client for the Docker API is a parameter.  A daemon that it reaches does what it is asked; a
`docker_host` is always taken for the address of a daemon that is reached over HTTP.

The functions are `resolve_all_binary_paths` (`crates/anyclaw-config/src/resolve.rs`),
`build_backend` and the backends behind it (`connection.rs`, `local_backend.rs` and
`docker_backend.rs` of `crates/anyclaw-agents/src`), and `run_with_cancel`
(`crates/anyclaw-supervisor/src/lib.rs`).
-/

namespace Anyclaw.Config

open Fallible

/-! ### Resolving binaries -/

def legacyAliases : List (String × String) :=
  [("mock-agent", "agents/mock-agent"), ("telegram-channel", "channels/telegram"),
    ("debug-http", "channels/debug-http"), ("system-info", "tools/system-info"),
    ("opencode", "agents/opencode"), ("agents/opencode", "agents/acp-bridge"),
    ("agents/opencode-wrapper", "agents/acp-bridge"), ("acp", "agents/acp-bridge")]

/-- Names with a category and names without one are treated alike. -/
def resolveBinaryPath (binary extensionsDir : String) : String :=
  if "@built-in/".toList.isPrefixOf binary.toList then
    let name := String.ofList (binary.toList.drop "@built-in/".length)
    extensionsDir ++ "/" ++ (legacyAliases.lookup name).getD name
  else binary

section Resolve

variable (extensionsDir : String)

def StringOrArray.resolved (b : StringOrArray) : MayPanic StringOrArray := do
  let command ← b.index0
  return b.setCommand (resolveBinaryPath command extensionsDir)

def WorkspaceConfig.resolved : WorkspaceConfig → MayPanic WorkspaceConfig
  | .local l => do
      let binary ← l.binary.resolved extensionsDir
      return .local { l with binary := binary }
  | .docker d =>
      match d.entrypoint with
      | none => return .docker d
      | some ep => do
          let entrypoint ← ep.resolved extensionsDir
          return .docker { d with entrypoint := some entrypoint }

def resolveAgent (e : String × AgentConfig) : MayPanic (String × AgentConfig) := do
  let workspace ← e.2.workspace.resolved extensionsDir
  return (e.1, { e.2 with workspace := workspace })

end Resolve

def resolveAllBinaryPaths (cfg : AnyclawConfig) : MayPanic AnyclawConfig := do
  let agents ← cfg.agents.mapM (resolveAgent cfg.extensionsDir)
  return { cfg with
    agents := agents
    channels := cfg.channels.map fun e =>
      (e.1, ⟨resolveBinaryPath e.2.binary cfg.extensionsDir⟩)
    tools := cfg.tools.map fun e =>
      (e.1, ⟨e.2.binary.map fun binary => resolveBinaryPath binary cfg.extensionsDir⟩) }

/-- The supervisor keeps the configuration with its binaries resolved. -/
def Supervisor.new (cfg : AnyclawConfig) : MayPanic AnyclawConfig := resolveAllBinaryPaths cfg

/-! ### Starting agents -/

inductive AgentsError where
  | spawnFailed (message : String)
  | timeout (secs : UInt64)
  | dockerError (message : String)
  | imagePullFailed (image reason : String)
deriving DecidableEq

/-- An error of an agent that ends the start of a manager. -/
structure BootFailure where
  manager : String
  agent : String
  source : AgentsError
deriving DecidableEq

/-- What the processes of the agents do, by agent and method. -/
structure ProcessAnswers where
  /-- The answer is there before it is waited for. -/
  atOnce : String → String → Bool

inductive Docker where
  | localDefaults
  | http (address : String)
deriving DecidableEq

structure Bollard where
  connectWithHttp : String → Except String Unit
  /-- The error of a request over HTTP to this address, unless a daemon is reached there. -/
  unreachable : String → Option String
  /-- The images that a daemon has. -/
  present : Docker → String → Bool

namespace Bollard

variable (bollard : Bollard)

/-- A request to the daemon, which does what it is asked. -/
def request : Docker → Except String Unit
  | .localDefaults => .ok ()
  | .http address => (bollard.unreachable address).elim (.ok ()) .error

def doPull (docker : Docker) (image : String) : Except AgentsError Unit :=
  match bollard.request docker with
  | .ok () => .ok ()
  | .error reason => .error (.imagePullFailed image reason)

/-- An image that cannot be looked at is pulled. -/
def pullImageIfNeeded (docker : Docker) (image : String) : PullPolicy → Except AgentsError Unit
  | .never => .ok ()
  | .ifNotPresent =>
      match bollard.request docker with
      | .ok () => if bollard.present docker image then .ok () else bollard.doPull docker image
      | .error _ => bollard.doPull docker image
  | .always => bollard.doPull docker image

def createAndStartContainer (docker : Docker) : Except AgentsError Unit := do
  (bollard.request docker).mapError .dockerError
  (bollard.request docker).mapError .dockerError

def attachContainerStreams (docker : Docker) : Except AgentsError Unit :=
  (bollard.request docker).mapError .dockerError

/-- A daemon can be asked at this address over HTTP. -/
def Usable (address : String) : Prop :=
  bollard.connectWithHttp address = .ok () ∧ bollard.unreachable address = none

end Bollard

structure HostConfig where
  memory : Option Int64
  nanoCpus : Option Int64
  binds : Option (List String)
  networkMode : Option String
  extraHosts : Option (List String)

/-- A list that is left out when it is empty. -/
def nonemptyList (entries : List String) : Option (List String) :=
  if entries.isEmpty then none else some entries

section Start

variable {F : Type} (std : StdParsers F) (bollard : Bollard) (answers : ProcessAnswers)
  (cfg : AnyclawConfig)

def parsedMemory (limit : Option String) : MayPanic (Except AgentsError (Option Int64)) :=
  match limit with
  | none => return .ok none
  | some limit => do
      match ← parseMemoryLimit std limit with
      | .ok n => return .ok (some n)
      | .error e => return .error (.dockerError e.toString)

def parsedCpu (limit : Option String) : Except AgentsError (Option Int64) :=
  match limit with
  | none => .ok none
  | some limit =>
      match parseCpuLimit std limit with
      | .ok n => .ok (some n)
      | .error e => .error (.dockerError e.toString)

def buildHostConfig (d : DockerWorkspaceConfig) :
    MayPanic (Except AgentsError HostConfig) := do
  match ← parsedMemory std d.memoryLimit with
  | .error e => return .error e
  | .ok memory =>
      match parsedCpu std d.cpuLimit with
      | .error e => return .error e
      | .ok nanoCpus =>
          return .ok
            { memory := memory
              nanoCpus := nanoCpus
              binds := nonemptyList d.volumes
              networkMode := d.network
              extraHosts := nonemptyList d.extraHosts }

/-- Any address that is configured is connected to with HTTP. -/
def connect (d : DockerWorkspaceConfig) : Except AgentsError Docker :=
  match d.dockerHost with
  | some host =>
      match bollard.connectWithHttp host with
      | .ok () => .ok (.http host)
      | .error e => .error (.dockerError e)
  | none => .ok .localDefaults

/-- `DockerBackend::spawn`. -/
def spawnContainer (d : DockerWorkspaceConfig) : MayPanic (Except AgentsError Unit) :=
  match connect bollard d with
  | .error e => return .error e
  | .ok docker =>
      match bollard.pullImageIfNeeded docker d.image d.pullPolicy with
      | .error e => return .error e
      | .ok () => do
          match ← buildHostConfig std d with
          | .error e => return .error e
          | .ok _ => return do
              bollard.createAndStartContainer docker
              bollard.attachContainerStreams docker

/-- The environment of a local agent: the level of the log wins. -/
def agentEnv (l : LocalWorkspaceConfig) : List (String × String) :=
  (l.env.filter fun e => e.1 ≠ "RUST_LOG") ++ [("RUST_LOG", cfg.logLevel)]

/-- What a command is spawned with. -/
def spawnStrings (l : LocalWorkspaceConfig) : List String :=
  l.binary.elements ++ (agentEnv cfg l).flatMap (fun e => [e.1, e.2]) ++ [l.workingDir.getD "."]

/-- Nothing with a NUL character in it can be given to a process. -/
def spawn (l : LocalWorkspaceConfig) (command : String) : Except AgentsError Unit :=
  if (spawnStrings cfg l).any hasNul then
    .error (.spawnFailed (command ++ ": nul byte found in provided data"))
  else .ok ()

def buildBackend (agent : AgentConfig) : MayPanic (Except AgentsError Unit) :=
  match agent.workspace with
  | .local l => do
      let (command, _) ← l.binary.commandAndArgs
      return spawn cfg l command
  | .docker d => spawnContainer std bollard d

def acpTimeoutFor (agent : AgentConfig) : UInt64 := agent.acpTimeoutSecs.getD cfg.acpTimeoutSecs

def request (name method : String) (agent : AgentConfig) : Except AgentsError Unit :=
  if acpTimeoutFor cfg agent = 0 ∧ answers.atOnce name method = false then
    .error (.timeout (acpTimeoutFor cfg agent))
  else .ok ()

def buildStartedSlot (e : String × AgentConfig) : MayPanic (Except AgentsError Unit) := do
  match ← buildBackend std bollard cfg e.2 with
  | .error err => return .error err
  | .ok () =>
      match request answers cfg e.1 "initialize" e.2 with
      | .error err => return .error err
      | .ok () => return request answers cfg e.1 "session/new" e.2

/-- Disabled agents are skipped. -/
def startAgent (e : String × AgentConfig) : MayPanic (Except AgentsError Unit) :=
  if e.2.enabled then buildStartedSlot std bollard answers cfg e else return .ok ()

def startAgents : List (String × AgentConfig) → MayPanic (Except BootFailure Unit)
  | [] => return .ok ()
  | e :: rest => do
      match ← startAgent std bollard answers cfg e with
      | .error err => return .error ⟨"agents", e.1, err⟩
      | .ok () => startAgents rest

/-- `run_with_cancel` up to the first tick of the health interval. -/
def runWithCancel : MayPanic (Except BootFailure Unit) := do
  match ← startAgents std bollard answers cfg cfg.agents with
  | .error failure => return .error failure
  | .ok () => if cfg.healthCheckIntervalSecs = 0 then .error .zeroPeriod else return .ok ()

end Start

/-! ### Runnable configurations -/

def Succeeds {ε α : Type} (x : MayPanic (Except ε α)) : Prop := ∃ a, x = .ok (.ok a)

/-- Validation returns, and what it accepts runs. -/
structure Runnable {F : Type} (std : StdParsers F) (bollard : Bollard) (files : HostFiles)
    (answers : ProcessAnswers) (cfg : AnyclawConfig) : Prop where
  validates : Returns (validateConfig std files cfg)
  runs : ∀ r, validateConfig std files cfg = .ok r → r.isOk = true →
    ∃ resolved, Supervisor.new cfg = .ok resolved ∧ Succeeds (runWithCancel std bollard answers resolved)
  commands : ∀ r, validateConfig std files cfg = .ok r → r.isOk = true →
    ∀ e ∈ cfg.agents, e.2.enabled = true → ∀ l, e.2.workspace = .local l →
      Returns l.binary.commandAndArgs
  hostConfigs : ∀ r, validateConfig std files cfg = .ok r → r.isOk = true →
    ∀ e ∈ cfg.agents, ∀ d, e.2.workspace = .docker d → Succeeds (buildHostConfig std d)

/-- The validator finds no error when the files are those of some host. -/
def Accepted {F : Type} (std : StdParsers F) (cfg : AnyclawConfig) : Prop :=
  ∃ files r, validateConfig std files cfg = .ok r ∧ r.isOk = true

/-- A local workspace with its command resolved. -/
def LocalWorkspaceConfig.spawned (l : LocalWorkspaceConfig) (extensionsDir : String) :
    LocalWorkspaceConfig :=
  { l with
    binary := ⟨(l.binary.elements.head?.map (resolveBinaryPath · extensionsDir)).toList ++
      l.binary.elements.tail⟩ }

/-- What the start needs of a configuration and the validator does not look at. -/
structure Bootable (bollard : Bollard) (cfg : AnyclawConfig) : Prop where
  interval : cfg.healthCheckIntervalSecs ≠ 0
  entrypoints : ∀ e ∈ cfg.agents, ∀ d, e.2.workspace = .docker d →
    ∀ entrypoint ∈ d.entrypoint, entrypoint.elements ≠ []
  timeouts : ∀ e ∈ cfg.agents, e.2.enabled = true → acpTimeoutFor cfg e.2 ≠ 0
  spawnable : ∀ e ∈ cfg.agents, e.2.enabled = true → ∀ l, e.2.workspace = .local l →
    ∀ s ∈ spawnStrings cfg (l.spawned cfg.extensionsDir), hasNul s = false
  dockerHosts : ∀ e ∈ cfg.agents, e.2.enabled = true → ∀ d, e.2.workspace = .docker d →
    ∀ host ∈ d.dockerHost, bollard.Usable host

/-! ### Resolved configurations -/

theorem resolved_local {l : LocalWorkspaceConfig} {ext : String} {w : WorkspaceConfig} :
    (WorkspaceConfig.local l).resolved ext = .ok w ↔
      l.binary.elements ≠ [] ∧ w = .local (l.spawned ext) := by
  unfold WorkspaceConfig.resolved StringOrArray.resolved LocalWorkspaceConfig.spawned
  dsimp only
  rw [bind_eq_ok]
  cases helements : l.binary.elements with
  | nil =>
      rw [StringOrArray.index0, helements]
      constructor
      · rintro ⟨_, h, _⟩
        cases h
      · rintro ⟨hne, _⟩
        exact absurd rfl hne
  | cons command args =>
      rw [StringOrArray.index0, helements]
      constructor
      · rintro ⟨b, hb, hw⟩
        cases hb
        cases hw
        refine ⟨List.cons_ne_nil _ _, ?_⟩
        simp [StringOrArray.setCommand, helements]
      · rintro ⟨_, rfl⟩
        refine ⟨_, rfl, ?_⟩
        simp [StringOrArray.setCommand, helements]
        rfl

theorem resolved_docker {d : DockerWorkspaceConfig} {ext : String} {w : WorkspaceConfig}
    (h : (WorkspaceConfig.docker d).resolved ext = .ok w) :
    (∀ entrypoint ∈ d.entrypoint, entrypoint.elements ≠ []) ∧
      ∃ entrypoint, w = .docker { d with entrypoint := entrypoint } := by
  unfold WorkspaceConfig.resolved at h
  dsimp only at h
  cases hentrypoint : d.entrypoint with
  | none =>
      rw [hentrypoint] at h
      cases h
      exact ⟨fun _ hnone => (nomatch hnone), d.entrypoint, rfl⟩
  | some ep =>
      rw [hentrypoint] at h
      obtain ⟨ep', hep, hw⟩ := bind_eq_ok.mp h
      obtain ⟨command, hcommand, _⟩ := bind_eq_ok.mp hep
      cases hw
      refine ⟨?_, some ep', rfl⟩
      intro entrypoint hmem
      cases hmem
      exact (StringOrArray.returns_index0 _).mp ⟨command, hcommand⟩

theorem returns_resolved_docker {d : DockerWorkspaceConfig} {ext : String}
    (h : ∀ entrypoint ∈ d.entrypoint, entrypoint.elements ≠ []) :
    Returns ((WorkspaceConfig.docker d).resolved ext) := by
  unfold WorkspaceConfig.resolved
  dsimp only
  cases hentrypoint : d.entrypoint with
  | none => exact ⟨_, rfl⟩
  | some ep =>
      obtain ⟨command, hcommand⟩ := (StringOrArray.returns_index0 ep).mpr (h ep hentrypoint)
      exact ⟨_, bind_eq_ok.mpr ⟨_, bind_eq_ok.mpr ⟨command, hcommand, rfl⟩, rfl⟩⟩

theorem resolveAgent_eq_ok {ext : String} {e e' : String × AgentConfig} :
    resolveAgent ext e = .ok e' ↔
      ∃ w, e.2.workspace.resolved ext = .ok w ∧ e' = (e.1, { e.2 with workspace := w }) := by
  unfold resolveAgent
  rw [bind_eq_ok]
  refine exists_congr fun w => and_congr_right fun _ => ?_
  constructor
  · intro h
    cases h
    rfl
  · rintro rfl
    rfl

/-- The agents are resolved one by one, and the rest of the start does not change. -/
theorem new_eq_ok {cfg resolved : AnyclawConfig} (h : Supervisor.new cfg = .ok resolved) :
    List.Forall₂ (fun e e' => resolveAgent cfg.extensionsDir e = .ok e') cfg.agents
        resolved.agents ∧
      resolved.logLevel = cfg.logLevel ∧ resolved.acpTimeoutSecs = cfg.acpTimeoutSecs ∧
      resolved.healthCheckIntervalSecs = cfg.healthCheckIntervalSecs := by
  obtain ⟨agents, hagents, hresolved⟩ := bind_eq_ok.mp h
  cases hresolved
  exact ⟨mapM_eq_ok.mp hagents, rfl, rfl, rfl⟩

/-! ### Started agents -/

section Started

variable {F : Type} {std : StdParsers F} {bollard : Bollard} {answers : ProcessAnswers}
  {cfg : AnyclawConfig}

theorem startAgents_eq_ok {l : List (String × AgentConfig)} :
    startAgents std bollard answers cfg l = .ok (.ok ()) ↔
      ∀ e ∈ l, startAgent std bollard answers cfg e = .ok (.ok ()) := by
  induction l with
  | nil => exact iff_of_true rfl fun _ he => nomatch he
  | cons e rest ih =>
      rw [List.forall_mem_cons, ← ih, startAgents]
      cases hstart : startAgent std bollard answers cfg e with
      | error panic => simp [bind, Except.bind]
      | ok started =>
          cases started with
          | error err => simp [bind, Except.bind, pure, Except.pure]
          | ok _ => simp [bind, Except.bind]

theorem request_eq_ok {name method : String} {agent : AgentConfig} :
    request answers cfg name method agent = .ok () ↔
      acpTimeoutFor cfg agent ≠ 0 ∨ answers.atOnce name method = true := by
  unfold request
  by_cases htimeout : acpTimeoutFor cfg agent = 0
  · cases answers.atOnce name method <;> simp [htimeout]
  · simp [htimeout]

theorem spawn_eq_ok {l : LocalWorkspaceConfig} {command : String} :
    spawn cfg l command = .ok () ↔ ∀ s ∈ spawnStrings cfg l, hasNul s = false := by
  unfold spawn
  cases hany : (spawnStrings cfg l).any hasNul with
  | true =>
      obtain ⟨s, hs, hnul⟩ := List.any_eq_true.mp hany
      refine iff_of_false (fun h => nomatch h) fun h => ?_
      rw [h s hs] at hnul
      cases hnul
  | false =>
      refine iff_of_true rfl fun s hs => ?_
      rw [List.any_eq_false] at hany
      exact Bool.eq_false_iff.mpr (hany s hs)

theorem buildBackend_local {agent : AgentConfig} {l : LocalWorkspaceConfig}
    (h : agent.workspace = .local l) :
    buildBackend std bollard cfg agent = .ok (.ok ()) ↔
      l.binary.elements ≠ [] ∧ ∀ s ∈ spawnStrings cfg l, hasNul s = false := by
  unfold buildBackend
  rw [h]
  dsimp only
  rw [bind_eq_ok, ← l.binary.returns_commandAndArgs]
  constructor
  · rintro ⟨⟨command, args⟩, hcommand, hspawn⟩
    exact ⟨⟨_, hcommand⟩, spawn_eq_ok.mp (Except.ok.inj hspawn)⟩
  · rintro ⟨⟨⟨command, args⟩, hcommand⟩, hnul⟩
    exact ⟨(command, args), hcommand, congrArg Except.ok (spawn_eq_ok.mpr hnul)⟩

theorem pullImageIfNeeded_of_request {docker : Docker} {image : String} {policy : PullPolicy}
    (h : bollard.request docker = .ok ()) :
    bollard.pullImageIfNeeded docker image policy = .ok () := by
  have hpull : bollard.doPull docker image = .ok () := by
    unfold Bollard.doPull
    rw [h]
  cases policy with
  | always => exact hpull
  | never => rfl
  | ifNotPresent =>
      unfold Bollard.pullImageIfNeeded
      rw [h, hpull]
      exact ite_self _

theorem spawnContainer_eq_ok {d : DockerWorkspaceConfig}
    (hconfig : Succeeds (buildHostConfig std d)) :
    spawnContainer std bollard d = .ok (.ok ()) ↔ ∀ host ∈ d.dockerHost, bollard.Usable host := by
  obtain ⟨hostConfig, hconfig⟩ := hconfig
  have hrest : ∀ docker, connect bollard d = .ok docker →
      (spawnContainer std bollard d = .ok (.ok ()) ↔ bollard.request docker = .ok ()) := by
    intro docker hconnect
    unfold spawnContainer
    rw [hconnect]
    dsimp only
    constructor
    · intro h
      split at h
      · cases h
      · rw [hconfig] at h
        have hcontainer := Except.ok.inj h
        cases hrequest : bollard.request docker with
        | ok _ => rfl
        | error e =>
            unfold Bollard.createAndStartContainer at hcontainer
            rw [hrequest] at hcontainer
            cases hcontainer
    · intro h
      rw [pullImageIfNeeded_of_request h, hconfig]
      unfold Bollard.createAndStartContainer Bollard.attachContainerStreams
      rw [h]
      rfl
  cases hhost : d.dockerHost with
  | none =>
      have hconnect : connect bollard d = .ok .localDefaults := by
        unfold connect
        rw [hhost]
      rw [hrest _ hconnect]
      exact iff_of_true rfl fun _ h => nomatch h
  | some host =>
      cases hopen : bollard.connectWithHttp host with
      | error e =>
          have hconnect : connect bollard d = .error (.dockerError e) := by
            unfold connect
            rw [hhost]
            dsimp only
            rw [hopen]
          refine iff_of_false ?_ fun h => ?_
          · unfold spawnContainer
            rw [hconnect]
            exact fun h => nomatch h
          · have husable := (h host rfl).1
            rw [hopen] at husable
            cases husable
      | ok _ =>
          have hconnect : connect bollard d = .ok (.http host) := by
            unfold connect
            rw [hhost]
            dsimp only
            rw [hopen]
          rw [hrest _ hconnect]
          unfold Bollard.request Bollard.Usable
          simp only [Option.mem_some_iff, forall_eq', hopen, true_and]
          cases bollard.unreachable host <;> simp

theorem buildBackend_docker {agent : AgentConfig} {d : DockerWorkspaceConfig}
    (h : agent.workspace = .docker d) (hconfig : Succeeds (buildHostConfig std d)) :
    buildBackend std bollard cfg agent = .ok (.ok ()) ↔
      ∀ host ∈ d.dockerHost, bollard.Usable host := by
  unfold buildBackend
  rw [h]
  exact spawnContainer_eq_ok hconfig

theorem startAgent_eq_ok {e : String × AgentConfig} :
    startAgent std bollard answers cfg e = .ok (.ok ()) ↔
      (e.2.enabled = true → buildBackend std bollard cfg e.2 = .ok (.ok ()) ∧
        request answers cfg e.1 "initialize" e.2 = .ok () ∧
        request answers cfg e.1 "session/new" e.2 = .ok ()) := by
  unfold startAgent
  cases e.2.enabled with
  | false => exact iff_of_true rfl fun h => nomatch h
  | true =>
      rw [if_pos rfl]
      unfold buildStartedSlot
      rw [bind_eq_ok]
      constructor
      · rintro ⟨backend, hbackend, hrest⟩ _
        cases backend with
        | error err => cases hrest
        | ok _ =>
            dsimp only at hrest
            cases hinit : request answers cfg e.1 "initialize" e.2 with
            | error err =>
                rw [hinit] at hrest
                cases hrest
            | ok _ =>
                rw [hinit] at hrest
                exact ⟨hbackend, rfl, Except.ok.inj hrest⟩
      · intro h
        obtain ⟨hbackend, hinit, hsession⟩ := h rfl
        refine ⟨.ok (), hbackend, ?_⟩
        dsimp only
        rw [hinit, hsession]
        rfl

theorem succeeds_runWithCancel :
    Succeeds (runWithCancel std bollard answers cfg) ↔
      (∀ e ∈ cfg.agents, startAgent std bollard answers cfg e = .ok (.ok ())) ∧
        cfg.healthCheckIntervalSecs ≠ 0 := by
  rw [← startAgents_eq_ok]
  unfold runWithCancel Succeeds
  constructor
  · rintro ⟨_, h⟩
    obtain ⟨started, hstarted, hrest⟩ := bind_eq_ok.mp h
    cases started with
    | error failure => cases hrest
    | ok _ =>
        refine ⟨hstarted, ?_⟩
        intro hzero
        dsimp only at hrest
        rw [if_pos hzero] at hrest
        cases hrest
  · rintro ⟨hstarted, hne⟩
    refine ⟨(), bind_eq_ok.mpr ⟨_, hstarted, ?_⟩⟩
    dsimp only
    rw [if_neg hne]
    rfl

/-- Limits that can be parsed make a host configuration. -/
theorem succeeds_buildHostConfig {d : DockerWorkspaceConfig}
    (hmemory : ∀ limit ∈ d.memoryLimit, ∃ n, parseMemoryLimit std limit = .ok (.ok n))
    (hcpu : ∀ limit ∈ d.cpuLimit, ∃ n, parseCpuLimit std limit = .ok n) :
    Succeeds (buildHostConfig std d) := by
  have hm : ∃ m, parsedMemory std d.memoryLimit = .ok (.ok m) := by
    cases hlimit : d.memoryLimit with
    | none => exact ⟨none, rfl⟩
    | some limit =>
        obtain ⟨n, hn⟩ := hmemory limit hlimit
        exact ⟨some n, bind_eq_ok.mpr ⟨_, hn, rfl⟩⟩
  have hc : ∃ c, parsedCpu std d.cpuLimit = .ok c := by
    cases hlimit : d.cpuLimit with
    | none => exact ⟨none, rfl⟩
    | some limit =>
        obtain ⟨n, hn⟩ := hcpu limit hlimit
        refine ⟨some n, ?_⟩
        unfold parsedCpu
        dsimp only
        rw [hn]
  obtain ⟨m, hm⟩ := hm
  obtain ⟨c, hc⟩ := hc
  unfold Succeeds buildHostConfig
  rw [hm]
  simp only [bind, Except.bind, hc]
  exact ⟨_, rfl⟩

end Started

/-! ### Accepted configurations -/

section Accepted

variable {F : Type} {std : StdParsers F} {bollard : Bollard} {files : HostFiles}
  {cfg : AnyclawConfig} {r : ValidationResult}

theorem succeeds_hostConfig (h : validateConfig std files cfg = .ok r) (hok : r.isOk = true)
    {e : String × AgentConfig} (he : e ∈ cfg.agents) {d : DockerWorkspaceConfig}
    (hdocker : e.2.workspace = .docker d) : Succeeds (buildHostConfig std d) := by
  have hnil := validateAgent_eq_nil h hok e he
  unfold validateAgent at hnil
  rw [hdocker] at hnil
  obtain ⟨hmemory, hcpu⟩ := limits_parse hnil
  exact succeeds_buildHostConfig hmemory hcpu

theorem binary_ne_nil (h : ∀ e ∈ cfg.agents, e.2.Checkable) {e : String × AgentConfig}
    (he : e ∈ cfg.agents) {l : LocalWorkspaceConfig} (hlocal : e.2.workspace = .local l) :
    l.binary.elements ≠ [] := by
  have hcheckable := h e he
  unfold AgentConfig.Checkable at hcheckable
  rw [hlocal] at hcheckable
  exact hcheckable

/-- A started agent was resolved from one of the configuration. -/
theorem bootable_of_runs {resolved : AnyclawConfig} (hnew : Supervisor.new cfg = .ok resolved)
    (hvalid : ∀ e ∈ cfg.agents, ∀ d, e.2.workspace = .docker d → Succeeds (buildHostConfig std d))
    (hrun : Succeeds (runWithCancel std bollard ⟨fun _ _ => false⟩ resolved)) :
    Bootable bollard cfg := by
  obtain ⟨hagents, hlevel, htimeout, hinterval⟩ := new_eq_ok hnew
  obtain ⟨hstarted, hne⟩ := succeeds_runWithCancel.mp hrun
  have hresolved : ∀ e ∈ cfg.agents, ∃ e' ∈ resolved.agents,
      ∃ w, e.2.workspace.resolved cfg.extensionsDir = .ok w ∧
        e' = (e.1, { e.2 with workspace := w }) := by
    intro e he
    obtain ⟨e', he', h⟩ := exists_mem_of_forall₂ hagents e he
    exact ⟨e', he', resolveAgent_eq_ok.mp h⟩
  constructor
  · rw [← hinterval]
    exact hne
  · intro e he d hdocker
    obtain ⟨_, _, w, hw, _⟩ := hresolved e he
    rw [hdocker] at hw
    exact (resolved_docker hw).1
  · intro e he henabled
    obtain ⟨e', he', w, _, rfl⟩ := hresolved e he
    obtain ⟨_, hinit, _⟩ := startAgent_eq_ok.mp (hstarted _ he') henabled
    rcases request_eq_ok.mp hinit with hne | hnever
    · unfold acpTimeoutFor at hne ⊢
      rw [htimeout] at hne
      exact hne
    · cases hnever
  · intro e he henabled l hlocal
    obtain ⟨e', he', w, hw, rfl⟩ := hresolved e he
    rw [hlocal] at hw
    obtain ⟨_, rfl⟩ := resolved_local.mp hw
    obtain ⟨hbackend, _, _⟩ := startAgent_eq_ok.mp (hstarted _ he') henabled
    have hspawn := ((buildBackend_local rfl).mp hbackend).2
    unfold spawnStrings agentEnv at hspawn ⊢
    rw [hlevel] at hspawn
    exact hspawn
  · intro e he henabled d hdocker
    obtain ⟨e', he', w, hw, rfl⟩ := hresolved e he
    rw [hdocker] at hw
    obtain ⟨-, entrypoint, rfl⟩ := resolved_docker hw
    obtain ⟨hbackend, -, -⟩ := startAgent_eq_ok.mp (hstarted _ he') henabled
    have hconfig : Succeeds (buildHostConfig std { d with entrypoint := entrypoint }) :=
      hvalid e he d hdocker
    exact (buildBackend_docker rfl hconfig).mp hbackend

/-- The binaries of a configuration that was checked and can be booted are resolved. -/
theorem returns_new (hcheckable : ∀ e ∈ cfg.agents, e.2.Checkable) (hboot : Bootable bollard cfg) :
    Returns (Supervisor.new cfg) := by
  have hagents : Returns (cfg.agents.mapM (resolveAgent cfg.extensionsDir)) := by
    refine returns_mapM.mpr fun e he => ?_
    have hworkspace : Returns (e.2.workspace.resolved cfg.extensionsDir) := by
      cases hw : e.2.workspace with
      | «local» l => exact ⟨_, resolved_local.mpr ⟨binary_ne_nil hcheckable he hw, rfl⟩⟩
      | docker d => exact returns_resolved_docker (hboot.entrypoints e he d hw)
    obtain ⟨w, hw⟩ := hworkspace
    exact ⟨_, resolveAgent_eq_ok.mpr ⟨w, hw, rfl⟩⟩
  obtain ⟨agents, hagents⟩ := hagents
  exact ⟨_, bind_eq_ok.mpr ⟨agents, hagents, rfl⟩⟩

/-- Each agent of an accepted configuration that can be booted starts. -/
theorem runs_of_bootable (h : validateConfig std files cfg = .ok r) (hok : r.isOk = true)
    (hboot : Bootable bollard cfg) (answers : ProcessAnswers) {resolved : AnyclawConfig}
    (hnew : Supervisor.new cfg = .ok resolved) :
    Succeeds (runWithCancel std bollard answers resolved) := by
  obtain ⟨hagents, hlevel, htimeout, hinterval⟩ := new_eq_ok hnew
  refine succeeds_runWithCancel.mpr ⟨?_, by rw [hinterval]; exact hboot.interval⟩
  intro e' he'
  obtain ⟨e, he, hresolve⟩ := exists_mem_of_forall₂ hagents.flip e' he'
  obtain ⟨w, hw, rfl⟩ := resolveAgent_eq_ok.mp hresolve
  refine startAgent_eq_ok.mpr fun henabled => ⟨?_, ?_, ?_⟩
  · cases hworkspace : e.2.workspace with
    | «local» l =>
        rw [hworkspace] at hw
        obtain ⟨hne, rfl⟩ := resolved_local.mp hw
        have hspawn := hboot.spawnable e he henabled l hworkspace
        refine (buildBackend_local rfl).mpr ⟨?_, ?_⟩
        · obtain ⟨command, args, helements⟩ := List.exists_cons_of_ne_nil hne
          simp [LocalWorkspaceConfig.spawned, helements]
        · unfold spawnStrings agentEnv at hspawn ⊢
          rw [hlevel]
          exact hspawn
    | docker d =>
        rw [hworkspace] at hw
        obtain ⟨_, entrypoint, rfl⟩ := resolved_docker hw
        -- the entrypoint is not part of the host configuration
        have hconfig : Succeeds (buildHostConfig std d) := succeeds_hostConfig h hok he hworkspace
        refine (buildBackend_docker (d := { d with entrypoint := entrypoint }) rfl hconfig).mpr ?_
        exact hboot.dockerHosts e he henabled d hworkspace
  all_goals
    refine request_eq_ok.mpr (Or.inl ?_)
    have hne := hboot.timeouts e he henabled
    unfold acpTimeoutFor at hne ⊢
    rw [htimeout]
    exact hne

end Accepted

/-! ### Which configurations are runnable -/

def HostFiles.none : HostFiles where
  isFile _ := false
  commandRuns _ := false
  pathExists _ := false
  file_nul _ _ := rfl
  command_nul _ _ := rfl
  path_nul _ _ := rfl

namespace Sample

/-- No number and no address can be parsed. -/
def std : StdParsers Unit where
  isIpAddr _ := false
  parseF64 _ := none
  nonpositive _ := true
  scaled _ _ := 0

/-- Daemons are reached over TCP. -/
def bollard : Bollard where
  connectWithHttp _ := .ok ()
  unreachable address :=
    if address.startsWith "tcp://" then none else some "client error (Connect)"
  present _ _ := true

def configWith (binary : StringOrArray) : AnyclawConfig where
  logLevel := "info"
  extensionsDir := "/usr/local/bin"
  agents := [("default", ⟨.local ⟨binary, none, []⟩, false, none⟩)]
  channels := []
  tools := []
  acpTimeoutSecs := 30
  toolsServerHost := "localhost"
  healthCheckIntervalSecs := 5

/-- An agent in a container, which the documentation's `docker_host` is given for. -/
def contained : AgentConfig where
  workspace := .docker
    { image := "anyclaw/opencode:latest"
      entrypoint := none
      volumes := []
      memoryLimit := none
      cpuLimit := none
      dockerHost := some "unix:///var/run/docker.sock"
      network := none
      pullPolicy := .ifNotPresent
      extraHosts := [] }
  enabled := true
  acpTimeoutSecs := none

end Sample

/-- The address of a socket is accepted, and the agent does not start. -/
example : validateAgent Sample.std .none ("default", Sample.contained) = .ok [] ∧
    startAgent Sample.std Sample.bollard ⟨fun _ _ => true⟩ (Sample.configWith ⟨[]⟩)
      ("default", Sample.contained) = .ok (.error (.imagePullFailed "anyclaw/opencode:latest"
        "client error (Connect)")) := by
  decide +kernel

end Anyclaw.Config
