import Anyclaw.Agents.Ownership

/-!
# The session maps agree

A live key must be found from its session id, because everything the agent sends is
routed by the reverse map.  Every operation keeps the two maps together, except the
restore after a crash: it makes the stale sessions live and leaves the reverse map as it
is.

The maps are `session_map` and `reverse_map` of `AgentSlot`
(`crates/anyclaw-agents/src/slot.rs`); the restore is `try_restore_session`
(`session_recovery.rs`).
-/

namespace Anyclaw

/-! ### Tables -/

namespace SessionTables

variable {t : SessionTables} {k k₀ : SessionKey} {id id₀ : AcpSessionId}

/-- Every live key is found from its id. -/
def Agree (t : SessionTables) : Prop :=
  ∀ k id, t.sessionMap.get? k = some id → t.reverseMap.get? id = some k

theorem agree_register (h : t.Agree)
    (hfresh : ∀ k, t.sessionMap.get? k = some id₀ → k = k₀) : (t.register k₀ id₀).Agree := by
  intro k id hlive
  rw [register_sessionMap, KeyedMap.get?_set] at hlive
  rw [register_reverseMap, KeyedMap.get?_set]
  split at hlive
  · rename_i hk
    cases hlive
    rw [if_pos rfl, hk]
  · rename_i hk
    have hne : id ≠ id₀ := fun heq => hk (hfresh k (heq ▸ hlive))
    rw [if_neg hne]
    exact h k id hlive

theorem agree_unmap (h : t.Agree) : (t.unmap k₀).Agree := by
  intro k id hlive
  obtain ⟨hk, hold⟩ := live_unmap hlive
  rw [unmap_reverseMap, KeyedMap.get?_retain, h k id hold]
  simp [Option.filter, hk]

theorem agree_cleared {kind : OperationKind} {t' : SessionTables} (h : t.Agree)
    (hcleared : Cleared t k₀ kind t') : t'.Agree := by
  cases hcleared with
  | same => exact h
  | forgotten => exact h
  | unmapped => exact agree_unmap h

theorem agree_expire (h : t.Agree) : (t.expire k₀).Agree := by
  unfold expire
  split
  · exact h
  · rename_i id₁ hlive₁
    intro k id hlive
    rw [KeyedMap.get?_remove] at hlive
    obtain ⟨hk, hold⟩ := Option.ite_none_left_eq_some.mp hlive
    have hback := h k id hold
    have hne : id ≠ id₁ := by
      rintro rfl
      rw [h k₀ id hlive₁] at hback
      exact hk (Option.some.inj hback).symm
    rw [KeyedMap.get?_remove, if_neg hne]
    exact hback

/-- No key is live after a crash. -/
theorem agree_retire : t.retire.Agree := by
  intro k id hlive
  cases hlive

theorem agree_restart {name : String} : (t.retire.restart name id₀).Agree := by
  refine agree_register ?_ ?_
  · intro k id hlive
    cases hlive
  · intro k hlive
    cases hlive

end SessionTables

namespace AgentsManager

variable {n : Nat}

/-! ### Routing -/

/-- What the agent of slot `s` sends for the session `id` goes to the key `k`. -/
structure RoutesTo (m : AgentsManager n) (s : Fin n) (id : AcpSessionId) (k : SessionKey) :
    Prop where
  update : ∀ u : SessionUpdate, u.sessionId = id → id ∉ (m.slots s).awaitingFirstPrompt →
    m.channelsSender = true →
      (m.forwardSessionUpdate s u).trace = m.trace ++ [.event (.deliverMessage k (.update u))]
  push : ∀ rpcId content, m.channelsSender = true →
    m.handleSessionPush s rpcId (.valid id content) =
      (m.sendEvents (content.map fun part => .deliverMessage k (.pushed part))).respond s rpcId
        .accepted
  permission : ∀ r : PermissionRequest, r.sessionId = some id → m.channelsSender = true →
    (m.handlePermissionRequest s r).trace = m.trace ++
      [.event (.routePermission k (permissionId r) (permissionDescription r) (r.options.getD []))]

theorem routesTo_of_reverseMap {m : AgentsManager n} {s : Fin n} {id : AcpSessionId}
    {k : SessionKey} (h : (m.slots s).reverseMap.get? id = some k) : RoutesTo m s id k where
  update := by
    rintro u rfl hawait hsender
    unfold forwardSessionUpdate
    rw [if_neg hawait]
    simp only [h, hsender]
    split <;> rfl
  push := by
    intro rpcId content hsender
    simp only [handleSessionPush, h, hsender, if_true]
  permission := by
    intro r hid hsender
    unfold handlePermissionRequest
    simp only [hid, Option.getD_some, h, hsender]
    rfl

/-! ### Runs -/

/-- Every session that a restore puts back is already found from the id it gets. -/
def RestoresRouted (m : AgentsManager n) (l : Label n) : Prop :=
  ∀ c ∈ m.crash l, (m.slots c.1).CanRestore c.2 →
    ∀ first ∈ firstStaleId (m.slots c.1).retireSessions c.2, ∀ id ∈ c.2.recovery.result?,
      ∀ e ∈ (m.slots c.1).retireSessions.staleSessions.entries,
        (m.slots c.1).reverseMap.get? (if e.2 = first then id else e.2) = some e.1

instance (m : AgentsManager n) (l : Label n) : Decidable (RestoresRouted m l) :=
  inferInstanceAs (Decidable (∀ c ∈ m.crash l, _))

/-- Fresh ids, and restores that find their way back. -/
def KeepsMaps (cfg : AgentsManagerConfig n) (m : AgentsManager n) :
    Label n ⊕ StartAnswers n → Prop
  | .inl l => FreshAnswers cfg m l ∧ RestoresRouted m l
  | .inr b => FreshLives cfg m (.inr b)

instance (cfg : AgentsManagerConfig n) (m : AgentsManager n) (l : Label n ⊕ StartAnswers n) :
    Decidable (KeepsMaps cfg m l) := by
  induction l using Sum.casesOn
  · exact inferInstanceAs (Decidable (_ ∧ _))
  · exact inferInstanceAs (Decidable (FreshLives cfg m (.inr _)))

variable {cfg : AgentsManagerConfig n} {m m' : AgentsManager n} {l : Label n}

theorem KeepsMaps.fresh {l : Label n ⊕ StartAnswers n} (h : KeepsMaps cfg m l) :
    FreshLives cfg m l := by
  cases l with
  | inl l => exact h.1
  | inr b => exact h

/-- An operation registers an id that no other key of the slot holds. -/
theorem agree_of_tablesOp {s : Fin n} {o : Operation} {t : SessionTables}
    {row : Option WrittenRow} {news : List (Output n)} (howned : Owned cfg m)
    (hagree : (m.slots s).tables.Agree) (hop : TablesOp (m.slots s) s o t row news)
    (hfresh : FreshIds m s ((m.slots s).staleSessions.get? o.key) o.answers) : t.Agree := by
  have hunheld : ∀ {id}, id ∉ namedSessions s m.trace → ∀ k, ¬ m.Holds s k id :=
    fun hnot k hk => hnot (howned.named s k _ (Or.inl hk))
  cases hop with
  | created hcleared hconn hid =>
      refine SessionTables.agree_register (SessionTables.agree_cleared hagree hcleared) ?_
      intro k hlive
      exact absurd (SessionTables.holds_cleared hcleared (Or.inl hlive))
        (hunheld (hfresh.1 _ hid) k)
  | @recovered staleId id _ _ hkind hstale hconn hid =>
      refine SessionTables.agree_register (t := (m.slots s).tables.forget o.key) hagree ?_
      intro k hlive
      rcases hfresh.2.2 _ hid with hsame | hnot
      · exact howned.unique s k o.key id (Or.inl (Or.inl hlive)) (Or.inl (Or.inr hsame))
      · exact absurd (Or.inl hlive) (hunheld hnot k)
  | forgotten _ _ _ => exact hagree
  | unmapped _ _ => exact SessionTables.agree_unmap hagree
  | forked _ hconn hid =>
      refine SessionTables.agree_register hagree ?_
      intro k hlive
      exact absurd (Or.inl hlive) (hunheld (hfresh.2.1 _ hid) k)

/-- **What one step does to the maps.** -/
theorem SessionStep.agree (h : SessionStep cfg m l m') (howned : Owned cfg m)
    (hfresh : FreshAnswers cfg m l) (hroutes : RestoresRouted m l)
    (hagree : ∀ s, (m.slots s).tables.Agree) : ∀ s, (m'.slots s).tables.Agree := by
  intro s
  cases h with
  | kept hkept => rw [hkept.tables]; exact hagree s
  | @changed _ o s₀ t row news _ ho hfind hop hchange =>
      rw [hchange.tables s]
      split
      · exact agree_of_tablesOp howned (hagree s₀) hop (hfresh.1 o ho s₀ hfind)
      · exact hagree s
  | expired _ hexpired =>
      rw [hexpired.tables]
      exact SessionTables.agree_expire (hagree s)
  | @crashed _ s₀ a msg rest _ hl hincoming hcrash =>
      cases hcrash with
      | down _ _ hchange =>
          rw [hchange.tables s]
          split
          · exact hagree s₀
          · exact hagree s
      | @restored first id conn how _ hcan hfirst hid hconn hchange =>
          rw [hchange.tables s]
          split
          · intro k id' hlive
            rw [SessionTables.retire_reinstate_get?] at hlive
            obtain ⟨id₁, hid₁, rfl⟩ := Option.map_eq_some_iff.mp hlive
            exact hroutes (s₀, a) hl hcan first hfirst id hid ⟨k, id₁⟩
              (AList.mem_lookup_iff.mp hid₁)
          · exact hagree s
      | restarted _ _ _ _ hchange =>
          rw [hchange.tables s]
          split
          · exact SessionTables.agree_restart
          · exact hagree s
      | retired _ _ _ hchange =>
          rw [hchange.tables s]
          split
          · exact SessionTables.agree_retire
          · exact hagree s
  | shutdown => exact hagree s

theorem Booted.agree {m₀ : AgentsManager n} {b : StartAnswers n} (h : Booted cfg b m₀ m)
    (s : Fin n) : (m.slots s).tables.Agree := by
  obtain ⟨conn, id₀, _, _, _, hmap, hreverse⟩ := h.slots s
  intro k id hlive
  rw [AgentSlot.tables_sessionMap, hmap, KeyedMap.get?_set] at hlive
  rw [AgentSlot.tables_reverseMap, hreverse, KeyedMap.get?_set]
  split at hlive
  · rename_i hk
    cases hlive
    rw [if_pos rfl, hk]
  · cases hlive

/-- **A live key is found from its session**, in every run with fresh ids in which every
    restore finds the ids it puts back in the reverse map. -/
theorem routed_of_keepsMaps (h : (lives cfg).ReachableUnder (KeepsMaps cfg) m) :
    ∀ s k id, (m.slots s).sessionMap.get? k = some id →
      (m.slots s).reverseMap.get? id = some k ∧ RoutesTo m s id k := by
  have hagree : ∀ s, (m.slots s).tables.Agree := by
    refine lives_invariant (I := fun m => ∀ s, (m.slots s).tables.Agree) ?_ ?_ ?_ h
    · intro m₀ b m _ _ hbooted
      exact hbooted.agree
    · intro m l m' hreach hI hguard hstep _
      have howned := owned_of_reachable (fun _ _ hG => KeepsMaps.fresh hG) hreach
      exact hstep.agree howned hguard.1 hguard.2 hI
    · intro m b m' _ _ _ hbooted
      exact hbooted.agree
  intro s k id hlive
  have hback := hagree s k id hlive
  exact ⟨hback, routesTo_of_reverseMap hback⟩

/-- A session that is loaded again under its own id is routed to its key. -/
theorem routed_of_keepsMaps_loaded :
    ∃ m : AgentsManager 1, (m.slots 0).sessionMap.get? Sample.bob = some "s" ∧
      (m.slots 0).reverseMap.get? "s" = some Sample.bob := by
  have hrun : ∃ m ∈ Sample.executeLives (KeepsMaps Sample.cfg)
      (List.map .inl (Sample.send "hello" (Sample.answers "s") ::
        Sample.crash { Sample.answers "t" with recovery := .answered (some "s") })),
      (m.slots 0).sessionMap.get? Sample.bob = some "s" := by
    decide
  obtain ⟨m, hm, hlive⟩ := hrun
  exact ⟨m, hlive, (routed_of_keepsMaps (reachable_of_executeLives Sample.cfg hm) 0 Sample.bob "s"
    hlive).1⟩

/-- After a crash the session is loaded under a new id, which the reverse map does not
    know. -/
theorem session_unrouted_after_restore :
    ¬ ∀ m, (lives Sample.cfg).ReachableUnder (FreshLives Sample.cfg) m → ∀ s k id,
      (m.slots s).sessionMap.get? k = some id →
        (m.slots s).reverseMap.get? id = some k ∧ RoutesTo m s id k := by
  intro hall
  have hrun : ∃ m ∈ Sample.executeLives (FreshLives Sample.cfg)
      (List.map .inl (Sample.send "hello" (Sample.answers "s") ::
        Sample.crash { Sample.answers "t" with recovery := .answered (some "u") })),
      (m.slots 0).sessionMap.get? Sample.bob = some "u" ∧
        (m.slots 0).reverseMap.get? "u" = none := by
    decide
  obtain ⟨m, hm, hlive, hnone⟩ := hrun
  have hback := (hall m (reachable_of_executeLives Sample.cfg hm) 0 Sample.bob "u" hlive).1
  rw [hnone] at hback
  cases hback

end AgentsManager

end Anyclaw
