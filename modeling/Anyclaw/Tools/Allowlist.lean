import Anyclaw.Tools.Manager

/-!
# Per-agent tool allowlists

The `tools` of an agent's configuration name configured tools.  Every URL that an agent is
given leads to the server of all tools, and URLs exist under the names of MCP servers only;
descriptions are filtered by the names of the tools themselves.  The three views agree
under a condition on the configuration and on what the servers list.

The views are `server_urls` and `collect_tool_descriptions` of
`crates/anyclaw-tools/src/manager.rs`, and what `fetch_mcp_servers` and `fetch_tool_context`
(`crates/anyclaw-agents/src/manager.rs`) ask for; the configuration is that of
`crates/anyclaw-config/src/types.rs`.
-/

namespace Anyclaw

/-! ### What a server offers -/

def HostedTool.describe (tool : HostedTool) : ToolDescription := ⟨tool.name, tool.description⟩

namespace AggregatedToolServer

variable (server : AggregatedToolServer)

/-- The listed tools, with who lists them. -/
def offers : List (ToolSource × ToolDescription) :=
  (server.nativeHost.tools.values.map fun tool => (tool.source, tool.describe)) ++
    server.externalServers.flatMap fun ext =>
      (ext.listTools.getD []).map fun tool => (.configured ext.name, tool.describe)

/-- Of all who offer a tool of this name, the source comes first in the listing. -/
def FirstOffers (source : ToolSource) (name : String) : Prop :=
  ∃ before d after, server.offers = before ++ (source, d) :: after ∧ d.name = name ∧
    ∀ offer ∈ before, offer.2.name ≠ name

def sources : List ToolSource :=
  server.nativeHost.tools.values.map HostedTool.source ++
    server.externalServers.map fun ext => .configured ext.name

end AggregatedToolServer

namespace ToolsManager

variable (m : ToolsManager) (a : ToolsAnswers) (L : List String)

/-! ### What an agent gets -/

/-- The servers behind the URLs that an agent with this list is given. -/
def serversFor : List AggregatedToolServer :=
  (m.serverHandles.filter fun handle =>
    (m.getMcpUrls (toolNames L)).any fun u => u.url == handle.1).map Prod.snd

def Started (n : String) : Prop :=
  ∃ config ∈ m.toolConfigs.get? n, config.enabled = true ∧
    match config.toolType with
    | .wasm => (WasmTool.new a n config).isSome = true
    | .mcp => (ExternalMcpServer.spawn a n config).isSome = true

structure AllowlistKept : Prop where
  /-- The calls of the agent are answered by tools that its list names. -/
  allowed : ∀ server ∈ m.serversFor L, ∀ name, ∀ source ∈ server.routeCall name,
    ∃ n ∈ L, source = .configured n
  /-- The started tools that its list names are served to it, and what they list is answered by
      them. -/
  reachable : ∀ n ∈ L, m.Started a n → ∃ server ∈ m.serversFor L,
    .configured n ∈ server.sources ∧ ∀ d, (.configured n, d) ∈ server.offers →
      server.routeCall d.name = some (.configured n)
  /-- What is described to it is what it can call. -/
  described : ∀ d, d ∈ m.collectToolDescriptions (toolNames L) ↔
    ∃ server ∈ m.serversFor L, ∃ source ∈ server.routeCall d.name, (source, d) ∈ server.offers

/-! ### When the allowlist is kept -/

def server : AggregatedToolServer := ⟨m.nativeHost.getD .empty, m.externalServers.getD []⟩

/-- The list names an enabled MCP server, and there is something to serve. -/
def GivesUrl : Prop := (∃ e ∈ m.enabledToolConfigs .mcp, e.1 ∈ L) ∧ m.server.hasTools = true

instance : Decidable (m.GivesUrl L) := inferInstanceAs (Decidable (_ ∧ _))

/-- With a URL: every offered tool is named in the list, as is the one who offers the name first;
    this one describes it in the same way, and no other that the list names offers it.  Without a
    URL: nothing that the list names has started or is offered. -/
def ListFits : Prop :=
  if m.GivesUrl L then
    ∀ offer ∈ m.server.offers, offer.2.name ∈ L ∧
      ∃ n ∈ L, m.server.FirstOffers (.configured n) offer.2.name ∧
        (.configured n, offer.2) ∈ m.server.offers ∧
          ∀ n' ∈ L, ∀ d, (.configured n', d) ∈ m.server.offers → d.name = offer.2.name → n' = n
  else (∀ n ∈ L, ¬ m.Started a n) ∧ ∀ offer ∈ m.server.offers, offer.2.name ∉ L

end ToolsManager

/-! ### Calls -/

namespace AggregatedToolServer

variable {server : AggregatedToolServer} {name : String} {source : ToolSource}

theorem mem_offers {offer : ToolSource × ToolDescription} : offer ∈ server.offers ↔
    (∃ name tool, server.nativeHost.tools.get? name = some tool ∧
      offer = (tool.source, tool.describe)) ∨
    ∃ ext ∈ server.externalServers, ∃ tool ∈ ext.listTools.getD [],
      offer = (.configured ext.name, tool.describe) := by
  unfold offers
  rw [List.mem_append]
  refine or_congr ?_ ?_
  · constructor
    · intro hmem
      obtain ⟨tool, htool, rfl⟩ := List.mem_map.mp hmem
      obtain ⟨name, hname⟩ := (KeyedMap.mem_values _ _).mp htool
      exact ⟨name, tool, hname, rfl⟩
    · rintro ⟨name, tool, hname, rfl⟩
      exact List.mem_map.mpr ⟨tool, (KeyedMap.mem_values _ _).mpr ⟨name, hname⟩, rfl⟩
  · simp only [List.mem_flatMap, List.mem_map, eq_comm]

/-- A tool of the process is found under its name. -/
theorem find?_values (host : McpHost) (name : String) :
    host.tools.values.find? (fun tool => tool.name == name) = host.tools.get? name := by
  cases hget : host.tools.get? name with
  | none =>
      rw [List.find?_eq_none]
      intro tool htool heq
      obtain ⟨key, hkey⟩ := (KeyedMap.mem_values _ _).mp htool
      rw [← eq_of_beq heq, host.keyed key tool hkey, hkey] at hget
      cases hget
  | some tool =>
      have hmem : tool ∈ host.tools.values := (KeyedMap.mem_values _ _).mpr ⟨name, hget⟩
      have hsome : (host.tools.values.find? fun tool => tool.name == name).isSome = true := by
        rw [List.find?_isSome]
        exact ⟨tool, hmem, beq_iff_eq.mpr (host.keyed name tool hget)⟩
      obtain ⟨tool', htool'⟩ := Option.isSome_iff_exists.mp hsome
      obtain ⟨key, hkey⟩ := (KeyedMap.mem_values _ _).mp (List.mem_of_find?_eq_some htool')
      have hname := List.find?_some htool'
      rw [beq_iff_eq] at hname
      rw [← host.keyed key tool' hkey, hname, hget] at hkey
      rw [htool', ← hkey]

theorem find?_externalServers (servers : List ExternalMcpServer) (name : String) :
    ((servers.flatMap fun ext => (ext.listTools.getD []).map fun tool =>
      (ToolSource.configured ext.name, tool.describe)).find?
        fun offer => offer.2.name == name).map Prod.fst =
      (servers.find? fun ext => (ext.listTools.getD []).any fun tool => tool.name == name).map
        fun ext => .configured ext.name := by
  induction servers with
  | nil => rfl
  | cons ext rest ih =>
      have hfirst : ((ext.listTools.getD []).map fun tool =>
          (ToolSource.configured ext.name, tool.describe)).find?
            (fun offer => offer.2.name == name) =
          ((ext.listTools.getD []).find? fun tool => tool.name == name).map fun tool =>
            (.configured ext.name, tool.describe) := List.find?_map
      rw [List.flatMap_cons, List.find?_append, hfirst]
      cases hfound : (ext.listTools.getD []).find? fun tool => tool.name == name with
      | some tool =>
          have hname := List.find?_some hfound
          have hlists : ((ext.listTools.getD []).any fun tool => tool.name == name) = true :=
            List.any_eq_true.mpr ⟨tool, List.mem_of_find?_eq_some hfound, hname⟩
          simp [hlists]
      | none =>
          have hlists : ((ext.listTools.getD []).any fun tool => tool.name == name) = false := by
            rw [List.any_eq_false]
            exact List.find?_eq_none.mp hfound
          simpa [hlists] using ih

/-- A call is answered by the one who offers its name first. -/
theorem routeCall_eq (server : AggregatedToolServer) (name : String) : server.routeCall name =
    (server.offers.find? fun offer => offer.2.name == name).map Prod.fst := by
  have hnative : ((server.nativeHost.tools.values.map fun tool =>
      (tool.source, tool.describe)).find? fun offer => offer.2.name == name) =
        (server.nativeHost.tools.get? name).map fun tool => (tool.source, tool.describe) := by
    rw [List.find?_map, ← find?_values]
    rfl
  unfold routeCall offers
  rw [List.find?_append, hnative]
  cases server.nativeHost.tools.get? name with
  | some tool => rfl
  | none => exact (find?_externalServers _ _).symm

theorem routeCall_iff : server.routeCall name = some source ↔ server.FirstOffers source name := by
  rw [routeCall_eq, Option.map_eq_some_iff]
  constructor
  · rintro ⟨⟨_, d⟩, hfound, rfl⟩
    obtain ⟨hname, before, after, hsplit, hbefore⟩ := List.find?_eq_some_iff_append.mp hfound
    exact ⟨before, d, after, hsplit, eq_of_beq hname, fun offer hoffer => by
      simpa using hbefore offer hoffer⟩
  · rintro ⟨before, d, after, hsplit, hname, hbefore⟩
    refine ⟨(source, d), List.find?_eq_some_iff_append.mpr ⟨beq_iff_eq.mpr hname, before, after,
      hsplit, fun offer hoffer => ?_⟩, rfl⟩
    simpa using hbefore offer hoffer

/-- Who answers a call offers a tool of that name. -/
theorem offer_of_routeCall (h : server.routeCall name = some source) :
    ∃ d, (source, d) ∈ server.offers ∧ d.name = name := by
  obtain ⟨before, d, after, hsplit, hname, -⟩ := routeCall_iff.mp h
  refine ⟨d, ?_, hname⟩
  rw [hsplit]
  exact List.mem_append_right _ List.mem_cons_self

/-- A call of an offered tool is answered. -/
theorem routeCall_of_offer {offer : ToolSource × ToolDescription} (h : offer ∈ server.offers) :
    ∃ source, server.routeCall offer.2.name = some source := by
  have hfound : (server.offers.find? fun o => o.2.name == offer.2.name).isSome = true := by
    rw [List.find?_isSome]
    exact ⟨offer, h, beq_iff_eq.mpr rfl⟩
  obtain ⟨first, hfirst⟩ := Option.isSome_iff_exists.mp hfound
  exact ⟨first.1, by rw [routeCall_eq, hfirst]; rfl⟩

end AggregatedToolServer

/-! ### The tools of the process -/

namespace McpHost

theorem foldl_add_get? (tools : List HostedTool) (host : McpHost) (name : String) :
    (tools.foldl add host).tools.get? name =
      ((tools.reverse.find? fun tool => tool.name == name).or (host.tools.get? name)) := by
  induction tools generalizing host with
  | nil => rfl
  | cons tool tools ih =>
      rw [List.foldl_cons, ih, List.reverse_cons, List.find?_append, Option.or_assoc]
      congr 1
      unfold add
      dsimp only
      rw [KeyedMap.get?_set]
      split
      · rename_i hname
        have hfound : [tool].find? (fun tool => tool.name == name) = some tool :=
          List.find?_cons_of_pos (beq_iff_eq.mpr hname.symm)
        rw [hfound, Option.some_or]
      · rename_i hname
        have hnone : [tool].find? (fun tool => tool.name == name) = none :=
          List.find?_cons_of_neg (by simpa using Ne.symm hname)
        rw [hnone, Option.none_or]

theorem mem_of_new_get? {tools : List HostedTool} {name : String} {tool : HostedTool}
    (h : (new tools).tools.get? name = some tool) : tool ∈ tools := by
  unfold new at h
  rw [foldl_add_get?] at h
  rcases Option.or_eq_some_iff.mp h with hfound | ⟨-, hnone⟩
  · exact List.mem_reverse.mp (List.mem_of_find?_eq_some hfound)
  · cases hnone

/-- The last tool of its name is found. -/
theorem new_get?_of_last {before after : List HostedTool} {tool : HostedTool}
    (h : ∀ tool' ∈ after, tool'.name ≠ tool.name) :
    (new (before ++ tool :: after)).tools.get? tool.name = some tool := by
  unfold new
  rw [foldl_add_get?, List.reverse_append, List.reverse_cons, List.append_assoc,
    List.find?_append]
  have hafter : (after.reverse.find? fun tool' => tool'.name == tool.name) = none := by
    rw [List.find?_eq_none]
    intro tool' htool'
    simpa using h tool' (List.mem_reverse.mp htool')
  have hfound : (tool :: before.reverse).find? (fun tool' => tool'.name == tool.name) =
      some tool := List.find?_cons_of_pos (beq_iff_eq.mpr rfl)
  rw [hafter, Option.none_or, List.singleton_append, hfound, Option.some_or]

end McpHost

namespace ToolsManager

variable {m : ToolsManager} {a : ToolsAnswers} {L : List String}
  {toolConfigs : KeyedMap String ToolConfig} {host : String} {nativeTools : List DynTool}

theorem mem_enabledToolConfigs {toolType : ToolType} {n : String} {config : ToolConfig} :
    (n, config) ∈ m.enabledToolConfigs toolType ↔
      m.toolConfigs.get? n = some config ∧ config.toolType = toolType ∧ config.enabled = true := by
  unfold enabledToolConfigs
  rw [List.mem_filter, Bool.and_eq_true, beq_iff_eq]
  refine and_congr_left fun _ => ?_
  constructor
  · intro hmem
    obtain ⟨⟨n', config'⟩, hentry, heq⟩ := List.mem_map.mp hmem
    cases heq
    exact AList.mem_lookup_iff.mpr hentry
  · intro hget
    exact List.mem_map.mpr ⟨⟨n, config⟩, AList.mem_lookup_iff.mp hget, rfl⟩

/-! ### Start -/

structure StartedWith (m : ToolsManager) (a : ToolsAnswers) : Prop where
  native : ∃ nativeTools : List DynTool, m.nativeHost = some (McpHost.new
    (nativeTools.map (⟨·, .native⟩) ++
      (m.enabledToolConfigs .wasm).filterMap fun e => WasmTool.new a e.1 e.2))
  external : m.externalServers = some (spawnExternalServers a (m.enabledToolConfigs .mcp))
  served : if m.server.hasTools = true then ∃ url, m.serverHandles = [(url, m.server)] ∧
      m.serverUrls = (m.enabledToolConfigs .mcp).map fun e => ⟨e.1, url⟩
    else m.serverHandles = []

theorem startedWith_of_start (h : (new toolConfigs host nativeTools).start a = .ok m) :
    m.StartedWith a := by
  unfold start at h
  split at h
  · cases h
  · rename_i allTools hload
    have hall : allTools = nativeTools.map (⟨·, .native⟩) ++
        ((new toolConfigs host nativeTools).enabledToolConfigs .wasm).filterMap
          fun e => WasmTool.new a e.1 e.2 := by
      unfold loadAllTools at hload
      dsimp only at hload
      split at hload
      · rename_i hempty
        cases hload
        rw [List.isEmpty_iff.mp hempty, List.filterMap_nil, List.append_nil]
        rfl
      · split at hload
        · cases hload
        · cases hload
          rfl
    dsimp only at h
    unfold startAggregatedServerIfNeeded at h
    split at h
    · rename_i htools
      split at h
      · cases h
      · cases h
        refine ⟨⟨nativeTools, congrArg (fun tools => some (McpHost.new tools)) hall⟩, rfl, ?_⟩
        exact (if_pos htools).mpr ⟨_, rfl, rfl⟩
    · rename_i htools
      cases h
      refine ⟨⟨nativeTools, congrArg (fun tools => some (McpHost.new tools)) hall⟩, rfl, ?_⟩
      exact (if_neg htools).mpr rfl

/-- The loaded modules have different names, and replace a tool of the process. -/
theorem wasm_get? (hm : m.StartedWith a) {n : String} {config : ToolConfig} {tool : HostedTool}
    (hconfig : (n, config) ∈ m.enabledToolConfigs .wasm) (hload : WasmTool.new a n config = some tool) :
    m.server.nativeHost.tools.get? n = some tool := by
  have hname : ∀ n' config' tool', WasmTool.new a n' config' = some tool' → tool'.name = n' := by
    intro n' config' tool' hnew
    obtain ⟨_, -, rfl⟩ := Option.map_eq_some_iff.mp hnew
    rfl
  have hnodup : ((m.enabledToolConfigs .wasm).map Prod.fst).Nodup := by
    have hkeys : (m.toolConfigs.entries.map fun e => (e.1, e.2)).map Prod.fst =
        m.toolConfigs.keys := by
      rw [List.map_map]
      rfl
    refine List.Nodup.sublist (List.Sublist.map Prod.fst List.filter_sublist) ?_
    rw [hkeys]
    exact m.toolConfigs.keys_nodup
  obtain ⟨before, after, hsplit⟩ := List.append_of_mem hconfig
  obtain ⟨nativeTools, hnative⟩ := hm.native
  have hhost : m.server.nativeHost = McpHost.new (nativeTools.map (⟨·, .native⟩) ++
      (m.enabledToolConfigs .wasm).filterMap fun e => WasmTool.new a e.1 e.2) := by
    unfold server
    rw [hnative]
    rfl
  rw [hsplit, List.map_append, List.map_cons, List.nodup_append] at hnodup
  obtain ⟨-, hafter, -⟩ := hnodup
  rw [List.nodup_cons] at hafter
  have hloaded : ((n, config) :: after).filterMap (fun e => WasmTool.new a e.1 e.2) =
      tool :: after.filterMap fun e => WasmTool.new a e.1 e.2 := List.filterMap_cons_some hload
  rw [hhost, hsplit, List.filterMap_append, hloaded, ← List.append_assoc,
    ← hname n config tool hload]
  refine McpHost.new_get?_of_last ?_
  intro tool' htool' heq
  obtain ⟨⟨n', config'⟩, hmem, hnew⟩ := List.mem_filterMap.mp htool'
  rw [hname n' config' tool' hnew, hname n config tool hload] at heq
  exact hafter.1 (List.mem_map.mpr ⟨_, hmem, heq⟩)

/-- Whoever has started is served. -/
theorem source_mem_of_started (hm : m.StartedWith a) {n : String} (h : m.Started a n) :
    .configured n ∈ m.server.sources := by
  obtain ⟨config, hget, henabled, hstarted⟩ := h
  unfold AggregatedToolServer.sources
  rw [List.mem_append]
  cases htype : config.toolType with
  | wasm =>
      rw [htype] at hstarted
      obtain ⟨tool, htool⟩ := Option.isSome_iff_exists.mp hstarted
      have hconfig := mem_enabledToolConfigs.mpr ⟨hget, htype, henabled⟩
      have hsource : tool.source = .configured n := by
        obtain ⟨_, -, rfl⟩ := Option.map_eq_some_iff.mp htool
        rfl
      refine .inl (List.mem_map.mpr ⟨tool, ?_, hsource⟩)
      exact (KeyedMap.mem_values _ _).mpr ⟨n, wasm_get? hm hconfig htool⟩
  | mcp =>
      rw [htype] at hstarted
      obtain ⟨ext, hext⟩ := Option.isSome_iff_exists.mp hstarted
      have hname : ext.name = n := by
        obtain ⟨_, -, hspawn⟩ := Option.bind_eq_some_iff.mp hext
        obtain ⟨_, -, rfl⟩ := Option.map_eq_some_iff.mp hspawn
        rfl
      refine .inr (List.mem_map.mpr ⟨ext, ?_, congrArg ToolSource.configured hname⟩)
      unfold server
      rw [hm.external]
      exact List.mem_filterMap.mpr
        ⟨(n, config), mem_enabledToolConfigs.mpr ⟨hget, htype, henabled⟩, hext⟩

/-- Only those offer tools that have started. -/
theorem started_of_offer (hm : m.StartedWith a) {n : String} {d : ToolDescription}
    (h : (.configured n, d) ∈ m.server.offers) : m.Started a n := by
  rcases AggregatedToolServer.mem_offers.mp h with ⟨name, tool, hget, heq⟩ | ⟨ext, hext, _, _, heq⟩
  · obtain ⟨hsource, -⟩ := Prod.mk.inj heq
    obtain ⟨nativeTools, hnative⟩ := hm.native
    unfold server at hget
    rw [hnative] at hget
    rcases List.mem_append.mp (McpHost.mem_of_new_get? hget) with hmem | hmem
    · obtain ⟨_, -, rfl⟩ := List.mem_map.mp hmem
      cases hsource
    · obtain ⟨⟨n', config⟩, hconfig, hload⟩ := List.mem_filterMap.mp hmem
      obtain ⟨hget', htype, henabled⟩ := mem_enabledToolConfigs.mp hconfig
      have hname : tool.source = .configured n' := by
        obtain ⟨_, -, rfl⟩ := Option.map_eq_some_iff.mp hload
        rfl
      cases hsource.trans hname
      refine ⟨config, hget', henabled, ?_⟩
      rw [htype]
      exact Option.isSome_iff_exists.mpr ⟨tool, hload⟩
  · obtain ⟨hsource, -⟩ := Prod.mk.inj heq
    unfold server at hext
    rw [hm.external] at hext
    obtain ⟨⟨n', config⟩, hconfig, hspawn⟩ := List.mem_filterMap.mp hext
    obtain ⟨hget, htype, henabled⟩ := mem_enabledToolConfigs.mp hconfig
    have hname : ext.name = n' := by
      obtain ⟨_, -, hext⟩ := Option.bind_eq_some_iff.mp hspawn
      obtain ⟨_, -, rfl⟩ := Option.map_eq_some_iff.mp hext
      rfl
    rw [hname] at hsource
    cases hsource
    refine ⟨config, hget, henabled, ?_⟩
    rw [htype]
    exact Option.isSome_iff_exists.mpr ⟨ext, hspawn⟩

/-! ### The three views -/

theorem toolNames_of_ne_nil (hL : L ≠ []) : toolNames L = some L := by
  unfold toolNames
  rw [if_neg (by simpa using hL)]

/-- Either the agent gets the server of all tools, or none. -/
theorem serversFor_eq (hm : m.StartedWith a) (hL : L ≠ []) :
    m.serversFor L = if m.GivesUrl L then [m.server] else [] := by
  have hserved := hm.served
  unfold serversFor getMcpUrls
  rw [toolNames_of_ne_nil hL]
  dsimp only
  split at hserved
  · rename_i htools
    obtain ⟨url, hhandles, hurls⟩ := hserved
    have hany : ((m.serverUrls.filter fun u => u.name ∈ L).any fun u => u.url == url) =
        decide (m.GivesUrl L) := by
      rw [Bool.eq_iff_iff, decide_eq_true_iff, List.any_eq_true]
      constructor
      · rintro ⟨u, hu, -⟩
        obtain ⟨hmem, hname⟩ := List.mem_filter.mp hu
        rw [hurls] at hmem
        obtain ⟨e, he, rfl⟩ := List.mem_map.mp hmem
        exact ⟨⟨e, he, of_decide_eq_true hname⟩, htools⟩
      · rintro ⟨⟨e, he, hname⟩, -⟩
        refine ⟨⟨e.1, url⟩, List.mem_filter.mpr ⟨?_, decide_eq_true hname⟩, beq_iff_eq.mpr rfl⟩
        rw [hurls]
        exact List.mem_map.mpr ⟨e, he, rfl⟩
    rw [hhandles, List.filter_cons, List.filter_nil, hany]
    split
    · rename_i hgives
      rw [if_pos (of_decide_eq_true hgives)]
      rfl
    · rename_i hgives
      rw [if_neg fun h => hgives (decide_eq_true h)]
      rfl
  · rename_i htools
    rw [hserved, if_neg fun hgives : m.GivesUrl L => htools hgives.2]
    rfl

/-- The descriptions are those of the offered tools, filtered by name. -/
theorem mem_collectToolDescriptions (hm : m.StartedWith a) (hL : L ≠ []) {d : ToolDescription} :
    d ∈ m.collectToolDescriptions (toolNames L) ↔
      d.name ∈ L ∧ ∃ source, (source, d) ∈ m.server.offers := by
  obtain ⟨nativeTools, hnative⟩ := hm.native
  unfold collectToolDescriptions server AggregatedToolServer.offers McpHost.toolList
  rw [toolNames_of_ne_nil hL, hnative, hm.external]
  dsimp only [Option.elim_some, Option.getD_some]
  rw [List.mem_filter, decide_eq_true_iff, and_comm]
  refine and_congr_right fun _ => ?_
  rw [List.mem_append]
  constructor
  · rintro (hnative | hexternal)
    · obtain ⟨_, hlisted, rfl⟩ := List.mem_map.mp hnative
      obtain ⟨tool, htool, rfl⟩ := List.mem_map.mp hlisted
      exact ⟨tool.source, List.mem_append_left _ (List.mem_map.mpr ⟨tool, htool, rfl⟩)⟩
    · obtain ⟨ext, hext, hmem⟩ := List.mem_flatMap.mp hexternal
      obtain ⟨tool, htool, rfl⟩ := List.mem_map.mp hmem
      refine ⟨.configured ext.name, List.mem_append_right _ (List.mem_flatMap.mpr ⟨ext, hext, ?_⟩)⟩
      exact List.mem_map.mpr ⟨tool, htool, rfl⟩
  · rintro ⟨source, hmem⟩
    rcases List.mem_append.mp hmem with hnative | hexternal
    · obtain ⟨tool, htool, heq⟩ := List.mem_map.mp hnative
      cases heq
      exact .inl (List.mem_map.mpr ⟨_, List.mem_map.mpr ⟨tool, htool, rfl⟩, rfl⟩)
    · obtain ⟨ext, hext, hmem⟩ := List.mem_flatMap.mp hexternal
      obtain ⟨tool, htool, heq⟩ := List.mem_map.mp hmem
      cases heq
      exact .inr (List.mem_flatMap.mpr ⟨ext, hext, List.mem_map.mpr ⟨tool, htool, rfl⟩⟩)

/-! ### The allowlist -/

/-- **The allowlist of an agent is kept exactly when** it fits what has started and what is
    listed. -/
theorem allowlistKept_iff (h : (new toolConfigs host nativeTools).start a = .ok m)
    (hL : L ≠ []) : m.AllowlistKept a L ↔ m.ListFits a L := by
  have hm := startedWith_of_start h
  unfold ListFits
  by_cases hgives : m.GivesUrl L
  · have hservers : m.serversFor L = [m.server] := by
      rw [serversFor_eq hm hL, if_pos hgives]
    rw [if_pos hgives]
    constructor
    · intro hkept offer hoffer
      have hserver : m.server ∈ m.serversFor L := by
        rw [hservers]
        exact List.mem_singleton_self _
      obtain ⟨source, hroute⟩ := AggregatedToolServer.routeCall_of_offer hoffer
      obtain ⟨d, hd, hname⟩ := AggregatedToolServer.offer_of_routeCall hroute
      have hlisted : offer.2.name ∈ L := by
        rw [← hname]
        refine ((mem_collectToolDescriptions hm hL).mp ((hkept.described d).mpr ?_)).1
        exact ⟨m.server, hserver, source, by rw [hname]; exact hroute, hd⟩
      obtain ⟨n, hn, rfl⟩ := hkept.allowed m.server hserver offer.2.name source hroute
      obtain ⟨server, hmem, source', hroute', hoffer'⟩ := (hkept.described offer.2).mp
        ((mem_collectToolDescriptions hm hL).mpr ⟨hlisted, offer.1, hoffer⟩)
      rw [hservers] at hmem
      cases List.mem_singleton.mp hmem
      cases hroute.symm.trans hroute'
      refine ⟨hlisted, n, hn, AggregatedToolServer.routeCall_iff.mp hroute, hoffer', ?_⟩
      -- another one that the list names has started, so that it is called too
      intro n' hn' d' hd' hname'
      obtain ⟨server, hmem, -, hcalled⟩ := hkept.reachable n' hn' (started_of_offer hm hd')
      rw [hservers] at hmem
      cases List.mem_singleton.mp hmem
      have hroute' := hcalled d' hd'
      rw [hname', hroute] at hroute'
      cases hroute'
      rfl
    · intro hfits
      refine ⟨?_, ?_, ?_⟩
      · intro server hmem name source hroute
        rw [hservers] at hmem
        cases List.mem_singleton.mp hmem
        obtain ⟨d, hd, rfl⟩ := AggregatedToolServer.offer_of_routeCall hroute
        obtain ⟨-, n, hn, hfirst, -⟩ := hfits _ hd
        have hroute' := AggregatedToolServer.routeCall_iff.mpr hfirst
        exact ⟨n, hn, Option.some.inj (hroute.symm.trans hroute')⟩
      · intro n hn hstarted
        refine ⟨m.server, ?_, source_mem_of_started hm hstarted, fun d hd => ?_⟩
        · rw [hservers]
          exact List.mem_singleton_self _
        · obtain ⟨-, n', -, hfirst, -, honly⟩ := hfits _ hd
          rw [honly n hn d hd rfl]
          exact AggregatedToolServer.routeCall_iff.mpr hfirst
      · intro d
        rw [mem_collectToolDescriptions hm hL, hservers]
        constructor
        · rintro ⟨-, source, hoffer⟩
          obtain ⟨-, n, -, hfirst, hoffer', -⟩ := hfits _ hoffer
          exact ⟨m.server, List.mem_singleton_self _, .configured n,
            AggregatedToolServer.routeCall_iff.mpr hfirst, hoffer'⟩
        · rintro ⟨server, hmem, source, -, hoffer⟩
          cases List.mem_singleton.mp hmem
          exact ⟨(hfits _ hoffer).1, source, hoffer⟩
  · have hservers : m.serversFor L = [] := by
      rw [serversFor_eq hm hL, if_neg hgives]
    rw [if_neg hgives]
    constructor
    · intro hkept
      constructor
      · intro n hn hstarted
        obtain ⟨server, hmem, -⟩ := hkept.reachable n hn hstarted
        rw [hservers] at hmem
        cases hmem
      · intro offer hoffer hlisted
        obtain ⟨server, hmem, -⟩ := (hkept.described offer.2).mp
          ((mem_collectToolDescriptions hm hL).mpr ⟨hlisted, offer.1, hoffer⟩)
        rw [hservers] at hmem
        cases hmem
    · rintro ⟨hnone, hunlisted⟩
      refine ⟨?_, ?_, ?_⟩
      · intro server hmem
        rw [hservers] at hmem
        cases hmem
      · intro n hn hstarted
        exact absurd hstarted (hnone n hn)
      · intro d
        rw [mem_collectToolDescriptions hm hL, hservers]
        constructor
        · rintro ⟨hlisted, source, hoffer⟩
          exact absurd hlisted (hunlisted _ hoffer)
        · rintro ⟨server, hmem, -⟩
          cases hmem

end ToolsManager

/-! ### Samples -/

namespace Sample

def mcpTool (binary : String) : ToolConfig where
  toolType := .mcp
  binary := some binary
  enabled := true
  modulePath := none
  description := ""

/-- Every server starts, and lists one tool that has the name of its binary. -/
def toolsAnswers : ToolsAnswers where
  wasmRunner := .ok ()
  readable := fun _ => true
  spawned := fun _ binary => some (some [⟨binary, none⟩])
  bound := .ok 80

def clockOnly : KeyedMap String ToolConfig := (∅ : KeyedMap String ToolConfig).set "clock" (mcpTool "clock")

def clockAndShell : KeyedMap String ToolConfig := clockOnly.set "shell" (mcpTool "run")

end Sample

namespace ToolsManager

/-- One server, whose tool has the server's name. -/
theorem allowlistKept_iff_clock :
    ∃ m, (new Sample.clockOnly "127.0.0.1" []).start Sample.toolsAnswers = .ok m ∧
      m.getMcpUrls (toolNames ["clock"]) ≠ [] ∧ m.AllowlistKept Sample.toolsAnswers ["clock"] := by
  have hstart : ∃ m, (new Sample.clockOnly "127.0.0.1" []).start Sample.toolsAnswers = .ok m ∧
      m.getMcpUrls (toolNames ["clock"]) ≠ [] ∧ m.GivesUrl ["clock"] ∧
        m.server.offers = [(.configured "clock", ⟨"clock", ""⟩)] :=
    ⟨_, rfl, by decide, by decide, by decide⟩
  obtain ⟨m, hm, hurls, hgives, hoffers⟩ := hstart
  refine ⟨m, hm, hurls, (allowlistKept_iff hm (by decide)).mpr ?_⟩
  rw [ListFits, if_pos hgives]
  intro offer hoffer
  rw [hoffers] at hoffer
  cases List.mem_singleton.mp hoffer
  refine ⟨List.mem_singleton_self _, "clock", List.mem_singleton_self _, ?_, ?_, ?_⟩
  · exact ⟨[], ⟨"clock", ""⟩, [], hoffers, rfl, fun _ h => absurd h List.not_mem_nil⟩
  · rw [hoffers]
    exact List.mem_singleton_self _
  · intro n' hn' _ _ _
    exact List.mem_singleton.mp hn'

/-- An agent that is to use the clock only is given the shell. -/
theorem unlisted_tool_callable :
    ¬ ∀ (toolConfigs : KeyedMap String ToolConfig) (host : String) (nativeTools : List DynTool)
        (a : ToolsAnswers) (m : ToolsManager) (L : List String),
      (new toolConfigs host nativeTools).start a = .ok m → L ≠ [] → m.AllowlistKept a L := by
  intro hall
  have hkept := hall Sample.clockAndShell "127.0.0.1" [] Sample.toolsAnswers _ ["clock"] rfl
    (by decide)
  obtain ⟨n, hn, hsource⟩ := hkept.allowed _ List.mem_cons_self "run" (.configured "shell") rfl
  cases hsource
  exact absurd hn (by decide)

end ToolsManager

end Anyclaw
