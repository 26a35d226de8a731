import Anyclaw.Agents.Manager

/-!
# The tools manager

`ToolsManager` loads the WASM modules and spawns the external MCP servers of its configuration,
and serves the tools of all of them at one URL.  Agents ask it for URLs and for descriptions
of tools, each filtered by the names that the agent's configuration lists.

What a spawned server lists is what it answers at the time; only the first page is asked for.

The source is `crates/anyclaw-tools/src/manager.rs`, with `external.rs`, `mcp_host.rs` and
`wasm_tool.rs` beside it.
-/

namespace Anyclaw

/-! ### Configuration -/

inductive ToolType where
  | mcp
  | wasm
deriving DecidableEq

structure ToolConfig where
  toolType : ToolType
  /-- The MCP server. -/
  binary : Option String
  enabled : Bool
  /-- The path of the WASM module. -/
  modulePath : Option String
  description : String
deriving DecidableEq

/-! ### Tools -/

structure Tool where
  name : String
  description : Option String
deriving DecidableEq

def Tool.describe (tool : Tool) : ToolDescription := ⟨tool.name, tool.description.getD ""⟩

/-- Who answers the calls of a tool. -/
inductive ToolSource where
  | native
  /-- The MCP server or WASM module that is configured under this name. -/
  | configured (name : String)
deriving DecidableEq

/-- A tool that runs in the process of the manager. -/
structure DynTool where
  name : String
  description : String
deriving DecidableEq

structure HostedTool extends DynTool where
  source : ToolSource
deriving DecidableEq

/-- The tools of the process by name. -/
structure McpHost where
  tools : KeyedMap String HostedTool
  keyed : ∀ name tool, tools.get? name = some tool → tool.name = name

namespace McpHost

def empty : McpHost := ⟨∅, fun _ _ h => (nomatch h)⟩

def add (host : McpHost) (tool : HostedTool) : McpHost where
  tools := host.tools.set tool.name tool
  keyed := by
    intro name tool' h
    rw [KeyedMap.get?_set] at h
    split at h
    · rename_i hname
      cases h
      exact hname.symm
    · exact host.keyed name tool' h

/-- The last tool of a name is kept. -/
def new (tools : List HostedTool) : McpHost := tools.foldl add empty

def toolList (host : McpHost) : List Tool :=
  host.tools.values.map fun tool => ⟨tool.name, some tool.description⟩

end McpHost

structure ExternalMcpServer where
  /-- The name in the configuration. -/
  name : String
  /-- What `list_tools` gives; `none` when it fails. -/
  listTools : Option (List Tool)
deriving DecidableEq

/-! ### The aggregated server -/

structure AggregatedToolServer where
  nativeHost : McpHost
  externalServers : List ExternalMcpServer

namespace AggregatedToolServer

variable (server : AggregatedToolServer)

def aggregateToolList : List Tool :=
  server.nativeHost.toolList ++
    server.externalServers.flatMap fun ext => ext.listTools.getD []

/-- `route_call`: who answers a call; `none` for an unknown tool. -/
def routeCall (name : String) : Option ToolSource :=
  match server.nativeHost.tools.get? name with
  | some tool => some tool.source
  | none =>
      (server.externalServers.find? fun ext =>
        (ext.listTools.getD []).any fun tool => tool.name == name).map fun ext =>
          .configured ext.name

/-- There is something to serve. -/
def hasTools : Bool := !server.nativeHost.toolList.isEmpty || !server.externalServers.isEmpty

end AggregatedToolServer

/-! ### The manager -/

structure ToolsManager where
  /-- The order of the entries is that in which they are iterated over. -/
  toolConfigs : KeyedMap String ToolConfig
  nativeTools : List DynTool
  serverUrls : List McpServerUrl
  /-- What is served, and where. -/
  serverHandles : List (String × AggregatedToolServer)
  nativeHost : Option McpHost
  externalServers : Option (List ExternalMcpServer)
  toolsServerHost : String

/-- What comes from outside while the manager starts. -/
structure ToolsAnswers where
  /-- Whether the WASM runner could be made, or an error. -/
  wasmRunner : Except String Unit
  /-- The module files that can be read. -/
  readable : String → Bool
  /-- The servers that could be spawned, by name and binary, with what they list. -/
  spawned : String → String → Option (Option (List Tool))
  /-- The port that was bound, or an error. -/
  bound : Except String Nat

/-- `WasmTool::new`. -/
def WasmTool.new (a : ToolsAnswers) (name : String) (config : ToolConfig) : Option HostedTool :=
  (config.modulePath.filter a.readable).map fun _ => ⟨⟨name, config.description⟩, .configured name⟩

def ExternalMcpServer.spawn (a : ToolsAnswers) (name : String) (config : ToolConfig) :
    Option ExternalMcpServer :=
  config.binary.bind fun binary => (a.spawned name binary).map fun listTools => ⟨name, listTools⟩

namespace ToolsManager

variable (m : ToolsManager) (a : ToolsAnswers)

def new (toolConfigs : KeyedMap String ToolConfig) (toolsServerHost : String)
    (nativeTools : List DynTool) : ToolsManager where
  toolConfigs := toolConfigs
  nativeTools := nativeTools
  serverUrls := []
  serverHandles := []
  nativeHost := none
  externalServers := none
  toolsServerHost := toolsServerHost

/-! ### Start -/

def enabledToolConfigs (toolType : ToolType) : List (String × ToolConfig) :=
  (m.toolConfigs.entries.map fun e => (e.1, e.2)).filter fun e =>
    e.2.toolType == toolType && e.2.enabled

/-- A module that cannot be loaded is skipped. -/
def loadAllTools (wasmConfigs : List (String × ToolConfig)) : Except String (List HostedTool) :=
  let allTools := m.nativeTools.map fun tool => ⟨tool, .native⟩
  if wasmConfigs.isEmpty then .ok allTools
  else
    match a.wasmRunner with
    | .error e => .error ("wasm runner: " ++ e)
    | .ok () => .ok (allTools ++ wasmConfigs.filterMap fun e => WasmTool.new a e.1 e.2)

/-- A server that cannot be spawned is skipped. -/
def spawnExternalServers (mcpConfigs : List (String × ToolConfig)) : List ExternalMcpServer :=
  mcpConfigs.filterMap fun e => ExternalMcpServer.spawn a e.1 e.2

/-- One URL under the name of every MCP server that is enabled. -/
def startAggregatedServerIfNeeded (server : AggregatedToolServer)
    (mcpConfigs : List (String × ToolConfig)) : Except String ToolsManager :=
  if server.hasTools then
    match a.bound with
    | .error e => .error ("tools server bind: " ++ e)
    | .ok port =>
        let url := "http://" ++ m.toolsServerHost ++ ":" ++ toString port ++ "/mcp"
        .ok { m with
          serverHandles := m.serverHandles ++ [(url, server)]
          serverUrls := m.serverUrls ++ mcpConfigs.map fun e => ⟨e.1, url⟩ }
  else .ok m

def start : Except String ToolsManager :=
  match m.loadAllTools a (m.enabledToolConfigs .wasm) with
  | .error e => .error e
  | .ok allTools =>
      let nativeHost := McpHost.new allTools
      let externalServers := spawnExternalServers a (m.enabledToolConfigs .mcp)
      { m with
        nativeTools := []
        nativeHost := some nativeHost
        externalServers := some externalServers }.startAggregatedServerIfNeeded a
          ⟨nativeHost, externalServers⟩ (m.enabledToolConfigs .mcp)

/-! ### Commands -/

def getMcpUrls (toolNames : Option (List String)) : List McpServerUrl :=
  match toolNames with
  | some names => m.serverUrls.filter fun u => u.name ∈ names
  | none => m.serverUrls

def collectToolDescriptions (toolNames : Option (List String)) : List ToolDescription :=
  let descriptions :=
    (m.nativeHost.elim [] fun host => host.toolList.map Tool.describe) ++
      (m.externalServers.getD []).flatMap fun ext => (ext.listTools.getD []).map Tool.describe
  match toolNames with
  | some names => descriptions.filter fun d => d.name ∈ names
  | none => descriptions

end ToolsManager

/-- The names that are sent along for an agent whose configuration lists these tools. -/
def toolNames (tools : List String) : Option (List String) :=
  if tools.isEmpty then none else some tools

end Anyclaw
