import Mathlib.Data.Fin.Tuple.Basic
import Mathlib.Data.List.FinRange
import Anyclaw.Tools.Allowlist

/-!
# Listing and routing

`aggregate_tool_list` concatenates the tools of the process and what every external server
answers; `dispatch_tool_inner` looks into the process first and then asks the servers once
more, one after the other, until one lists the name.  The two agree under a condition on the
names, the pages and the answers.

Both are in `crates/anyclaw-tools/src/manager.rs`; a server is asked through
`ExternalMcpServer` (`external.rs`), which asks for the first page only.
-/

namespace Anyclaw

/-- An external server with the pages of its tool list.  `listed` says whether it answers
    the request made for a listing, `asked` whether it answers the one made when a tool of
    the given name is called. -/
structure PagedServer where
  name : String
  pages : List (List Tool)
  listed : Bool
  asked : String → Bool

namespace PagedServer

/-- What `list_tools` asks for. -/
def firstPage (server : PagedServer) : List Tool := server.pages.headD []

def lists (server : PagedServer) (name : String) : Bool :=
  server.firstPage.any fun tool => tool.name == name

theorem lists_iff {server : PagedServer} {name : String} :
    server.lists name = true ↔ name ∈ server.firstPage.map Tool.name := by
  simp [lists]

end PagedServer

/-- Native tools and those of WASM modules, in the order in which they are loaded, and the
    external servers. -/
structure ToolSources (k : Nat) where
  hosted : List HostedTool
  servers : Fin k → PagedServer

inductive CallSource (k : Nat) where
  | hosted (tool : HostedTool)
  | server (i : Fin k)
deriving DecidableEq

namespace ToolSources

variable {k : Nat} (σ : ToolSources k)

def host : McpHost := McpHost.new σ.hosted

def externalServers (answers : PagedServer → Bool) : List ExternalMcpServer :=
  (List.finRange k).map fun i =>
    ⟨(σ.servers i).name, if answers (σ.servers i) then some (σ.servers i).firstPage else none⟩

def atListing : AggregatedToolServer := ⟨σ.host, σ.externalServers PagedServer.listed⟩

def atCall (name : String) : AggregatedToolServer :=
  ⟨σ.host, σ.externalServers fun server => server.asked name⟩

/-- The listing, with whose tool each entry is. -/
def listing : List (Tool × CallSource k) :=
  (σ.host.tools.values.map fun tool => (⟨tool.name, some tool.description⟩, .hosted tool)) ++
    (List.finRange k).flatMap fun i =>
      (if (σ.servers i).listed then (σ.servers i).firstPage else []).map fun tool =>
        (tool, .server i)

def executed (name : String) : List (CallSource k) :=
  match σ.host.tools.get? name with
  | some tool => [.hosted tool]
  | none =>
      (((List.finRange k).find? fun i =>
        (σ.servers i).asked name && (σ.servers i).lists name).map CallSource.server).toList

/-- How the manager names a source. -/
def toolSource : CallSource k → ToolSource
  | .hosted tool => tool.source
  | .server i => .configured (σ.servers i).name

theorem map_fst_listing : σ.listing.map Prod.fst = σ.atListing.aggregateToolList := by
  unfold listing AggregatedToolServer.aggregateToolList atListing externalServers McpHost.toolList
  rw [List.map_append, List.map_map, List.map_flatMap, List.flatMap_map]
  congr 1
  apply List.flatMap_congr
  intro i _
  rw [List.map_map]
  cases (σ.servers i).listed <;> simp [Function.comp_def]

theorem routeCall_atCall (name : String) :
    (σ.atCall name).routeCall name = (σ.executed name).head?.map σ.toolSource := by
  unfold AggregatedToolServer.routeCall executed atCall
  dsimp only
  cases σ.host.tools.get? name with
  | some tool => rfl
  | none =>
      unfold externalServers
      dsimp only
      rw [List.find?_map, Option.map_map]
      have hsame : ((fun ext : ExternalMcpServer =>
            (ext.listTools.getD []).any fun tool => tool.name == name) ∘ fun i =>
            (⟨(σ.servers i).name,
              if (σ.servers i).asked name then some (σ.servers i).firstPage else none⟩ :
                ExternalMcpServer)) =
          fun i => (σ.servers i).asked name && (σ.servers i).lists name := by
        funext i
        cases hasked : (σ.servers i).asked name <;> simp [hasked, PagedServer.lists]
      rw [hsame]
      cases (List.finRange k).find? fun i =>
        (σ.servers i).asked name && (σ.servers i).lists name <;> rfl

/-! ### Calls follow the listing -/

/-- A source that answers the listing has a tool of this name, on whatever page. -/
def Offers (name : String) : Prop :=
  (∃ tool ∈ σ.hosted, tool.name = name) ∨
    ∃ i, (σ.servers i).listed = true ∧
      ∃ page ∈ (σ.servers i).pages, ∃ tool ∈ page, tool.name = name

/-- Some source has a tool of this name. -/
def Has (name : String) : Prop :=
  (∃ tool ∈ σ.hosted, tool.name = name) ∨
    ∃ i, ∃ page ∈ (σ.servers i).pages, ∃ tool ∈ page, tool.name = name

/-- Every offered name is listed once, a call of a listed tool is executed by the source that
    listed it and by no other, and a call of a name that no source has is refused. -/
structure FollowsListing : Prop where
  once : ∀ name, σ.Offers name → (σ.listing.countP fun e => e.1.name == name) = 1
  routed : ∀ e ∈ σ.listing, σ.executed e.1.name = [e.2]
  refused : ∀ name, ¬ σ.Has name →
    σ.executed name = [] ∧ (σ.atCall name).routeCall name = none

/-- The names on the first pages of the servers that answer the listing. -/
def firstNames : List String :=
  (List.finRange k).flatMap fun i =>
    if (σ.servers i).listed then (σ.servers i).firstPage.map Tool.name else []

/-- Names are met once, on the first page or in the process, and the servers answer the
    second request as they answered the first. -/
structure Unambiguous : Prop where
  firstPages : ∀ i, (σ.servers i).listed = true → ∀ page ∈ (σ.servers i).pages, ∀ tool ∈ page,
    (∃ tool' ∈ σ.hosted, tool'.name = tool.name) ∨ tool.name ∈ σ.firstNames
  distinct : σ.firstNames.Nodup
  apart : ∀ tool ∈ σ.hosted, tool.name ∉ σ.firstNames
  again : ∀ i, (σ.servers i).listed = true → ∀ tool ∈ (σ.servers i).firstPage,
    (σ.servers i).asked tool.name = true ∧
      ∀ j < i, (σ.servers j).listed = false → (σ.servers j).asked tool.name = true →
        (σ.servers j).lists tool.name = false

variable {σ}

/-! ### The names that are listed -/

theorem host_get? (name : String) :
    σ.host.tools.get? name = σ.hosted.reverse.find? fun tool => tool.name == name := by
  have hempty : (McpHost.empty.tools.get? name) = none := rfl
  unfold host McpHost.new
  rw [McpHost.foldl_add_get?, hempty, Option.or_none]

theorem host_get?_eq_none {name : String} :
    σ.host.tools.get? name = none ↔ ∀ tool ∈ σ.hosted, tool.name ≠ name := by
  rw [host_get?, List.find?_eq_none]
  simp

def hostNames (σ : ToolSources k) : List String := σ.host.tools.values.map fun tool => tool.name

theorem mem_hostNames {name : String} :
    name ∈ σ.hostNames ↔ ∃ tool ∈ σ.hosted, tool.name = name := by
  have hsome : name ∈ σ.hostNames ↔ σ.host.tools.get? name ≠ none := by
    rw [Option.ne_none_iff_exists']
    constructor
    · intro hmem
      obtain ⟨tool, htool, rfl⟩ := List.mem_map.mp hmem
      obtain ⟨key, hkey⟩ := (KeyedMap.mem_values _ _).mp htool
      rw [σ.host.keyed key tool hkey]
      exact ⟨tool, hkey⟩
    · rintro ⟨tool, htool⟩
      rw [← σ.host.keyed name tool htool]
      exact List.mem_map_of_mem ((KeyedMap.mem_values _ _).mpr ⟨name, htool⟩)
  rw [hsome, ne_eq, host_get?_eq_none]
  simp

theorem nodup_hostNames : σ.hostNames.Nodup := by
  have hkeys : σ.hostNames = σ.host.tools.keys := by
    unfold hostNames KeyedMap.values AList.keys List.keys
    rw [List.map_map]
    apply List.map_congr_left
    rintro ⟨key, tool⟩ hmem
    exact σ.host.keyed key tool (AList.mem_lookup_iff.mpr hmem)
  rw [hkeys]
  exact σ.host.tools.nodupKeys

theorem mem_firstNames {name : String} :
    name ∈ σ.firstNames ↔ ∃ i, (σ.servers i).listed = true ∧ (σ.servers i).lists name = true := by
  unfold firstNames
  rw [List.mem_flatMap]
  constructor
  · rintro ⟨i, _, hmem⟩
    split at hmem
    · rename_i hlisted
      exact ⟨i, hlisted, PagedServer.lists_iff.mpr hmem⟩
    · cases hmem
  · rintro ⟨i, hlisted, hlists⟩
    refine ⟨i, List.mem_finRange i, ?_⟩
    rw [if_pos hlisted]
    exact PagedServer.lists_iff.mp hlists

theorem names_listing :
    (σ.listing.map fun e => e.1.name) = σ.hostNames ++ σ.firstNames := by
  unfold listing hostNames firstNames
  rw [List.map_append, List.map_map, List.map_flatMap]
  congr 1
  apply List.flatMap_congr
  intro i _
  rw [List.map_map]
  split <;> simp [Function.comp_def]

theorem countP_listing (name : String) :
    (σ.listing.countP fun e => e.1.name == name) = (σ.hostNames ++ σ.firstNames).count name := by
  rw [← names_listing, List.count_eq_countP, List.countP_map]
  rfl

theorem offers_of_mem {name : String} (h : name ∈ σ.hostNames ++ σ.firstNames) :
    σ.Offers name := by
  rcases List.mem_append.mp h with hhost | hfirst
  · exact Or.inl (mem_hostNames.mp hhost)
  · obtain ⟨i, hlisted, hlists⟩ := mem_firstNames.mp hfirst
    obtain ⟨tool, htool, hname⟩ := List.mem_map.mp (PagedServer.lists_iff.mp hlists)
    refine Or.inr ⟨i, hlisted, ?_⟩
    unfold PagedServer.firstPage at htool
    cases hpages : (σ.servers i).pages with
    | nil =>
        rw [hpages] at htool
        cases htool
    | cons page pages =>
        rw [hpages] at htool
        exact ⟨page, List.mem_cons_self, tool, htool, hname⟩

/-- Every offered name is listed once exactly when the offered names are on first pages or in
    the process and none is met twice. -/
theorem once_iff :
    (∀ name, σ.Offers name → (σ.listing.countP fun e => e.1.name == name) = 1) ↔
      (∀ name, σ.Offers name → name ∈ σ.hostNames ++ σ.firstNames) ∧
        (σ.hostNames ++ σ.firstNames).Nodup := by
  simp only [countP_listing]
  constructor
  · intro h
    refine ⟨fun name hname => ?_, ?_⟩
    · apply List.count_pos_iff.mp
      rw [h name hname]
      exact Nat.one_pos
    · rw [List.nodup_iff_count_eq_one]
      exact fun name hname => h name (offers_of_mem hname)
  · rintro ⟨hmem, hnodup⟩ name hname
    exact List.nodup_iff_count_eq_one.mp hnodup name (hmem name hname)

/-! ### Who executes a call -/

theorem executed_hosted {tool : HostedTool} (h : tool ∈ σ.host.tools.values) :
    σ.executed tool.name = [.hosted tool] := by
  obtain ⟨name, hname⟩ := (KeyedMap.mem_values _ _).mp h
  unfold executed
  rw [σ.host.keyed name tool hname, hname]

/-- A server executes a call when it is the first that lists the name again. -/
theorem executed_server_iff {name : String} {i : Fin k} :
    σ.executed name = [.server i] ↔ name ∉ σ.hostNames ∧
      ((σ.servers i).asked name = true ∧ (σ.servers i).lists name = true) ∧
        ∀ j < i, (σ.servers j).asked name = true → (σ.servers j).lists name = false := by
  have hhost : name ∉ σ.hostNames ↔ σ.host.tools.get? name = none := by
    rw [mem_hostNames, host_get?_eq_none]
    simp
  rw [hhost]
  unfold executed
  cases σ.host.tools.get? name with
  | some tool => simp
  | none =>
      dsimp only
      rw [← Fin.find?_eq_find?_finRange]
      have hsome : ∀ o : Option (Fin k),
          ((o.map CallSource.server).toList = [CallSource.server i]) ↔ o = some i := by
        intro o
        cases o <;> simp
      rw [hsome, Fin.find?_eq_some_iff]
      simp only [true_and, Bool.and_eq_true, Bool.and_eq_false_imp]

theorem executed_unknown {name : String} (h : ¬ σ.Has name) : σ.executed name = [] := by
  have hhost : σ.host.tools.get? name = none :=
    host_get?_eq_none.mpr fun tool htool hname => h (Or.inl ⟨tool, htool, hname⟩)
  have hservers : ∀ i, (σ.servers i).lists name = false := by
    intro i
    rw [Bool.eq_false_iff]
    intro hlists
    obtain ⟨tool, htool, hname⟩ := List.mem_map.mp (PagedServer.lists_iff.mp hlists)
    refine h (Or.inr ⟨i, ?_⟩)
    unfold PagedServer.firstPage at htool
    cases hpages : (σ.servers i).pages with
    | nil =>
        rw [hpages] at htool
        cases htool
    | cons page pages =>
        rw [hpages] at htool
        exact ⟨page, List.mem_cons_self, tool, htool, hname⟩
  unfold executed
  rw [hhost]
  have hnone : ((List.finRange k).find? fun i =>
      (σ.servers i).asked name && (σ.servers i).lists name) = none := by
    rw [List.find?_eq_none]
    intro i _
    simp [hservers i]
  rw [hnone]
  rfl

theorem mem_listing_server {tool : Tool} {i : Fin k} :
    (tool, CallSource.server i) ∈ σ.listing ↔
      (σ.servers i).listed = true ∧ tool ∈ (σ.servers i).firstPage := by
  unfold listing
  rw [List.mem_append, List.mem_flatMap]
  constructor
  · rintro (hhost | ⟨j, _, hj⟩)
    · simp at hhost
    · obtain ⟨tool', htool', heq⟩ := List.mem_map.mp hj
      cases heq
      split at htool'
      · rename_i hlisted
        exact ⟨hlisted, htool'⟩
      · cases htool'
  · rintro ⟨hlisted, htool⟩
    refine Or.inr ⟨i, List.mem_finRange i, List.mem_map.mpr ⟨tool, ?_, rfl⟩⟩
    rwa [if_pos hlisted]

/-- Two servers that answer the listing share no name on their first pages. -/
theorem lists_unique (h : σ.firstNames.Nodup) {i j : Fin k} (hij : i ≠ j) {name : String}
    (hi : (σ.servers i).listed = true) (hlists : (σ.servers i).lists name = true)
    (hj : (σ.servers j).listed = true) : (σ.servers j).lists name = false := by
  have hsymm : Std.Symm (Function.onFun List.Disjoint fun i =>
      if (σ.servers i).listed then (σ.servers i).firstPage.map Tool.name else []) :=
    ⟨fun _ _ hdisjoint => List.Disjoint.symm hdisjoint⟩
  have hdisjoint := (List.nodup_flatMap.mp h).2.forall (List.mem_finRange i)
    (List.mem_finRange j) hij
  change List.Disjoint (if (σ.servers i).listed then _ else _)
    (if (σ.servers j).listed then _ else _) at hdisjoint
  rw [if_pos hi, if_pos hj] at hdisjoint
  rw [Bool.eq_false_iff]
  intro hboth
  exact hdisjoint (PagedServer.lists_iff.mp hlists) (PagedServer.lists_iff.mp hboth)

/-- **Calls follow the listing** exactly when names, pages and answers are unambiguous. -/
theorem followsListing_iff : σ.FollowsListing ↔ σ.Unambiguous := by
  constructor
  · intro h
    obtain ⟨hmem, hnodup⟩ := once_iff.mp h.once
    obtain ⟨_, hdistinct, hapart⟩ := List.nodup_append.mp hnodup
    refine ⟨?_, hdistinct, ?_, ?_⟩
    · intro i hlisted page hpage tool htool
      have hname := hmem tool.name (Or.inr ⟨i, hlisted, page, hpage, tool, htool, rfl⟩)
      rcases List.mem_append.mp hname with hhost | hfirst
      · exact Or.inl (mem_hostNames.mp hhost)
      · exact Or.inr hfirst
    · intro tool htool hfirst
      exact hapart _ (mem_hostNames.mpr ⟨tool, htool, rfl⟩) _ hfirst rfl
    · intro i hlisted tool htool
      have hexecuted := h.routed _ (mem_listing_server.mpr ⟨hlisted, htool⟩)
      obtain ⟨_, ⟨hasked, _⟩, hbefore⟩ := executed_server_iff.mp hexecuted
      exact ⟨hasked, fun j hj _ hjasked => hbefore j hj hjasked⟩
  · intro h
    refine ⟨once_iff.mpr ⟨?_, ?_⟩, ?_, ?_⟩
    · rintro name (hhost | ⟨i, hlisted, page, hpage, tool, htool, rfl⟩)
      · exact List.mem_append_left _ (mem_hostNames.mpr hhost)
      · rcases h.firstPages i hlisted page hpage tool htool with hhost | hfirst
        · exact List.mem_append_left _ (mem_hostNames.mpr hhost)
        · exact List.mem_append_right _ hfirst
    · refine List.nodup_append.mpr ⟨nodup_hostNames, h.distinct, ?_⟩
      rintro name hhost _ hfirst rfl
      obtain ⟨tool, htool, rfl⟩ := mem_hostNames.mp hhost
      exact h.apart tool htool hfirst
    · rintro ⟨tool, source⟩ he
      cases source with
      | hosted tool' =>
          unfold listing at he
          rcases List.mem_append.mp he with hhost | hserver
          · obtain ⟨_, hmem, heq⟩ := List.mem_map.mp hhost
            cases heq
            exact executed_hosted hmem
          · simp at hserver
      | server i =>
          obtain ⟨hlisted, htool⟩ := mem_listing_server.mp he
          have hlists : (σ.servers i).lists tool.name = true :=
            PagedServer.lists_iff.mpr (List.mem_map_of_mem htool)
          obtain ⟨hasked, hbefore⟩ := h.again i hlisted tool htool
          refine executed_server_iff.mpr ⟨?_, ⟨hasked, hlists⟩, ?_⟩
          · intro hhost
            obtain ⟨tool', htool', hname⟩ := mem_hostNames.mp hhost
            refine h.apart tool' htool' ?_
            rw [hname]
            exact mem_firstNames.mpr ⟨i, hlisted, hlists⟩
          · intro j hj hjasked
            cases hjlisted : (σ.servers j).listed with
            | false => exact hbefore j hj hjlisted hjasked
            | true => exact lists_unique h.distinct (ne_of_gt hj) hlisted hlists hjlisted
    · intro name hname
      have hnone := executed_unknown hname
      refine ⟨hnone, ?_⟩
      rw [routeCall_atCall, hnone]
      rfl

/-- A native tool and a server's tool of one name. -/
def twoClocks : ToolSources 1 where
  hosted := [⟨⟨"clock", "native"⟩, .native⟩]
  servers := fun _ => ⟨"time", [[⟨"clock", some "external"⟩]], true, fun _ => true⟩

/-- A name that two sources have is listed twice. -/
theorem clock_listed_twice : ¬ ∀ (k : Nat) (σ : ToolSources k), σ.FollowsListing := by
  intro hall
  have honce := (hall 1 twoClocks).once "clock"
    (Or.inl ⟨⟨⟨"clock", "native"⟩, .native⟩, List.mem_singleton_self _, rfl⟩)
  exact absurd honce (by decide)

end ToolSources

end Anyclaw
