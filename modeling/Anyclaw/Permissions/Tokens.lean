import Anyclaw.Permissions.System

/-!
# Requests and tokens

The queued requests mirror the incoming queue, and each was written by the latest process of
its slot.  A token is what may still turn into an answer: an event that shows a request, a
task that waits for an answer, an answer on its way.

The tokens are on the way from `handle_permission_request`
(`crates/anyclaw-agents/src/incoming.rs`) over `route_permission_event`
(`crates/anyclaw-channels/src/manager.rs`) back to `handle_command` (`commands.rs`).
-/

namespace Anyclaw

variable {n c : Nat}

def Output.shownId : Output n → Option String
  | .event (.routePermission _ requestId _ _) => some requestId
  | _ => none

theorem Output.shownId_of_not_isPermission {o : Output n} (h : o.isPermission = false) :
    o.shownId = none := by
  cases o with
  | event e =>
      cases e with
      | routePermission k requestId description options => cases h
      | _ => rfl
  | _ => rfl

theorem Output.selection_of_not_isPermission {p : PermissionAnswer} {o : Output n}
    (h : o.isPermission = false) : o.selection p = none := by
  cases o with
  | respond s no rpcId r =>
      cases r with
      | permissionSelected optionId => cases h
      | _ => rfl
  | _ => rfl

def SystemLabel.answers : SystemLabel n c → Bool
  | .answer _ => true
  | _ => false

namespace AgentsManager

variable {m m' : AgentsManager n} {l : Label n}

/-- The outputs of a step that concern permissions determine what is made of them. -/
theorem news_permissions {β : Type} {f : Output n → Option β} {os : List (Output n)}
    (hf : ∀ {o : Output n}, o.isPermission = false → f o = none)
    (htrace : m.trace <+: m'.trace) (hpermissions : m'.permissions = m.permissions ++ os) :
    (m'.trace.drop m.trace.length).filterMap f = os.filterMap f := by
  obtain ⟨added, hadded⟩ := htrace
  have hnews : added.filter Output.isPermission = os := by
    unfold permissions at hpermissions
    rw [← hadded, List.filter_append] at hpermissions
    exact List.append_cancel_left hpermissions
  rw [← hadded, List.drop_left, ← hnews, List.filterMap_filter]
  congr 1
  funext o
  split
  · rfl
  · rename_i ho
    exact hf (Bool.eq_false_iff.mpr ho)

/-- The ids of the events that show a request. -/
theorem sent_shownId (m m' : AgentsManager n) :
    (sent m m').filterMap (fun e => (Output.event e : Output n).shownId) =
      (m'.trace.drop m.trace.length).filterMap Output.shownId := by
  unfold sent
  rw [List.filterMap_filterMap]
  congr 1
  funext o
  cases o <;> rfl

theorem takes_toList (m : AgentsManager n) (l : Label n) :
    (m.takes l).toList = (m.dequeued l).toList.filterMap SlotIncoming.asks := by
  unfold takes
  cases m.dequeued l with
  | none => rfl
  | some msg =>
      rw [Option.bind_some, Option.toList_some, List.filterMap_cons]
      cases msg.asks <;> rfl

/-- A step queues the request that its label asks for. -/
theorem asks_arrived {cfg : AgentsManagerConfig n} (hplain : m.backlog.Plain)
    (hstep : step cfg m l = some m') :
    m'.incoming.filterMap SlotIncoming.asks =
      (m.unread l).filterMap SlotIncoming.asks ++ l.asks.toList := by
  cases hasks : l.asks with
  | some q =>
      cases l with
      | incoming s msg =>
          obtain ⟨_, hm⟩ := Option.ite_none_right_eq_some.mp hstep
          cases hm
          cases msg with
          | requestPermission r =>
              cases hasks
              exact List.filterMap_append
          | _ => cases hasks
      | _ => cases hasks
  | none =>
      obtain ⟨msgs, harrivals, hincoming⟩ := step_arrivals hplain hstep
      have hnone : msgs.filterMap SlotIncoming.asks = [] := by
        refine List.filterMap_eq_nil_iff.mpr fun msg hmsg => ?_
        refine Option.eq_none_iff_forall_ne_some.mpr fun q hq => ?_
        have hl := (harrivals.asks msg hmsg q hq).1
        rw [hasks] at hl
        cases hl
      rw [hincoming, List.filterMap_append, hnone]
      rfl

end AgentsManager

namespace PermissionSystem

variable {cfg : AgentsManagerConfig n} {chCfg : ChannelsManagerConfig c}
  {x x' : PermissionSystem n c} {l : SystemLabel n c}
  {G : PermissionSystem n c → SystemLabel n c → Prop}

/-! ### The managers -/

theorem agents_reachable (h : (life cfg chCfg).ReachableUnder G x) :
    (AgentsManager.life cfg).Reachable x.agents := by
  refine h.invariant (I := fun x => (AgentsManager.life cfg).Reachable x.agents) ?_ ?_
  · rintro x ⟨m, ch, hm, _, rfl⟩
    exact Machine.ReachableUnder.init hm
  · intro x l x' _ hI _ hstep
    cases move_of_step hstep with
    | agents _ hagents => exact Machine.ReachableUnder.step hI trivial hagents
    | @answer p _ a _ _ hagents =>
        exact Machine.ReachableUnder.step
          (l := .command (.respondPermission p.requestId p.optionId) a) hI trivial hagents
    | event _ _ => exact hI
    | channels _ _ _ => exact hI

/-! ### Requests -/

/-- The queued requests are known with the processes that wrote them. -/
structure Recorded (x : PermissionSystem n c) : Prop where
  asked : x.asked.map (fun q => (q.slotIdx, q.request)) =
    x.agents.incoming.filterMap SlotIncoming.asks
  process : ∀ q ∈ x.asked, q.process = x.agents.latestProcess q.slotIdx

theorem Recorded.agents {m : AgentsManager n} {l : Label n} (h : Recorded x)
    (hreach : (AgentsManager.life cfg).Reachable x.agents)
    (hstep : AgentsManager.step cfg x.agents l = some m) : Recorded (x.afterAgents l m) := by
  have hplain := (AgentsManager.orderly_of_reachable hreach).plain
  have hsplit : x.asked.map (fun q => (q.slotIdx, q.request)) =
      (x.agents.takes l).toList ++ (x.agents.unread l).filterMap SlotIncoming.asks := by
    rw [h.asked, AgentsManager.takes_toList, ← List.filterMap_append,
      AgentsManager.dequeued_unread]
  constructor
  · have harrived := AgentsManager.asks_arrived hplain hstep
    unfold afterAgents
    dsimp only
    rw [harrived, List.map_append, List.map_drop, hsplit, List.drop_left]
    congr 1
    cases l.asks <;> rfl
  · intro q hq
    have hhost := AgentsManager.step_hosts hplain hstep q.slotIdx
    rcases List.mem_append.mp hq with hold | hnew
    · have hmem : q ∈ x.asked := List.mem_of_mem_drop hold
      rw [h.process q hmem]
      cases hhost with
      | kept _ hprocesses =>
          unfold AgentsManager.latestProcess
          rw [afterAgents_agents, hprocesses]
      | started _ hhead _ _ _ =>
          -- nothing that the old process asked for is left behind its end
          obtain ⟨rest, hincoming⟩ := List.head?_eq_some_iff.mp hhead
          have hasked : (q.slotIdx, q.request) ∈
              x.agents.incoming.filterMap SlotIncoming.asks := by
            rw [← h.asked]
            exact List.mem_map.mpr ⟨q, hmem, rfl⟩
          have hsilent := AgentsManager.endsLast_of_reachable hreach
          unfold AgentsManager.EndsLast at hsilent
          rw [hincoming] at hasked hsilent
          obtain ⟨msg, hmsg, hmsgAsks⟩ := List.mem_filterMap.mp hasked
          rcases List.mem_cons.mp hmsg with rfl | hrest
          · cases hmsgAsks
          · exact absurd rfl ((List.pairwise_cons.mp hsilent).1 msg hrest rfl _ hmsgAsks)
    · obtain ⟨⟨s, r⟩, hasks, rfl⟩ := Option.map_eq_some_iff.mp (Option.mem_toList.mp hnew)
      cases hhost with
      | kept _ hprocesses =>
          dsimp only at hprocesses ⊢
          unfold AgentsManager.latestProcess
          rw [← hprocesses]
          rfl
      | started hcrash _ _ _ _ =>
          cases l with
          | incoming s' msg => cases hcrash
          | _ => cases hasks

theorem Recorded.answer {p : PermissionAnswer} {rest : List PermissionAnswer}
    {m : AgentsManager n} {a : Answers} (h : Recorded x)
    (hreach : (AgentsManager.life cfg).Reachable x.agents)
    (hstep : AgentsManager.step cfg x.agents
      (.command (.respondPermission p.requestId p.optionId) a) = some m) :
    Recorded (x.afterAnswer p rest m) := by
  have hagents := h.agents hreach hstep
  have hsame : (x.afterAgents (.command (.respondPermission p.requestId p.optionId) a) m).asked =
      x.asked := List.append_nil x.asked
  constructor
  · have hasked := hagents.asked
    rw [hsame] at hasked
    exact hasked
  · have hprocess := hagents.process
    rw [hsame] at hprocess
    exact hprocess

theorem recorded_of_reachable (h : (life cfg chCfg).ReachableUnder G x) : Recorded x := by
  refine h.invariant (I := Recorded) ?_ ?_
  · rintro x ⟨m, ch, ⟨sender, store, b, hstart⟩, _, rfl⟩
    constructor
    · unfold fresh
      rw [(AgentsManager.start_booted (fun _ => rfl) hstart).incoming]
      rfl
    · intro q hq
      cases hq
  · intro x l x' hreach hI _ hstep
    have hagents := agents_reachable hreach
    cases move_of_step hstep with
    | agents _ hmove => exact hI.agents hagents hmove
    | answer _ hmove => exact hI.answer hagents hmove
    | event _ _ => exact ⟨hI.asked, hI.process⟩
    | channels _ _ _ => exact ⟨hI.asked, hI.process⟩

theorem Recorded.taken {l : Label n} {s : Fin n} {r : PermissionRequest} (h : Recorded x)
    (htakes : x.agents.takes l = some (s, r)) :
    x.asked.take 1 = [⟨s, x.agents.latestProcess s, r⟩] := by
  have hsplit : x.asked.map (fun q => (q.slotIdx, q.request)) =
      (s, r) :: (x.agents.unread l).filterMap SlotIncoming.asks := by
    have htaken := AgentsManager.takes_toList x.agents l
    rw [htakes, Option.toList_some] at htaken
    rw [h.asked, ← AgentsManager.dequeued_unread x.agents l, List.filterMap_append, ← htaken]
    rfl
  cases hasked : x.asked with
  | nil =>
      rw [hasked] at hsplit
      cases hsplit
  | cons q rest =>
      have hprocess := h.process q (hasked ▸ List.mem_cons_self)
      rw [hasked] at hsplit
      obtain ⟨hpair, _⟩ := List.cons.inj hsplit
      cases hpair
      rw [← hprocess]
      rfl

/-! ### Turns -/

def crash (x : PermissionSystem n c) : SystemLabel n c → Option (Fin n × Answers)
  | .agents l => x.agents.crash l
  | _ => none

def takes (x : PermissionSystem n c) : SystemLabel n c → Option (Fin n × PermissionRequest)
  | .agents l => x.agents.takes l
  | _ => none

theorem takes_of_crash {s : Fin n} {a : Answers} (h : x.crash l = some (s, a)) :
    x.takes l = none := by
  cases l with
  | agents l =>
      cases l with
      | recvIncoming a' =>
          obtain ⟨msg, hfilter, _⟩ := Option.map_eq_some_iff.mp h
          obtain ⟨hhead, hend⟩ := Option.filter_eq_some_iff.mp hfilter
          rw [Bool.and_eq_true, Option.isNone_iff_eq_none] at hend
          unfold takes AgentsManager.takes AgentsManager.dequeued
          dsimp only
          rw [hhead, Option.bind_some]
          unfold SlotIncoming.asks
          rw [hend.1]
      | drainIncoming a' =>
          obtain ⟨msg, hfilter, _⟩ := Option.map_eq_some_iff.mp h
          obtain ⟨hhead, hend⟩ := Option.filter_eq_some_iff.mp hfilter
          rw [Option.isNone_iff_eq_none] at hend
          unfold takes AgentsManager.takes AgentsManager.dequeued
          dsimp only
          rw [hhead, Option.bind_some]
          unfold SlotIncoming.asks
          rw [hend]
      | _ => cases h
  | _ => cases h

/-- What a step does to the connection of slot `s`. -/
theorem step_connection (hreach : (AgentsManager.life cfg).Reachable x.agents)
    (hstep : step cfg chCfg x l = some x') (s : Fin n) :
    (x'.agents.slots s).connection = (x.agents.slots s).connection ∨
      (x'.agents.slots s).connection = none ∨
      ∃ a, x.crash l = some (s, a) ∧ (x.agents.slots s).ComesBack a ∧
        (x'.agents.slots s).connection = some ⟨x.agents.nextConnection⟩ := by
  have hplain := (AgentsManager.orderly_of_reachable hreach).plain
  have hhost : ∀ {l' : Label n} {m : AgentsManager n},
      AgentsManager.step cfg x.agents l' = some m →
      (m.slots s).connection = (x.agents.slots s).connection ∨ (m.slots s).connection = none ∨
        ∃ a, x.agents.crash l' = some (s, a) ∧ (x.agents.slots s).ComesBack a ∧
          (m.slots s).connection = some ⟨x.agents.nextConnection⟩ := by
    intro l' m hagents
    cases AgentsManager.step_hosts hplain hagents s with
    | kept hconn _ =>
        rcases hconn with hsame | hnone
        · exact Or.inl hsame
        · exact Or.inr (Or.inl hnone)
    | @started a hcrash _ hconn _ _ =>
        by_cases hback : (x.agents.slots s).ComesBack a
        · rw [if_pos hback] at hconn
          exact Or.inr (Or.inr ⟨a, hcrash, hback, hconn⟩)
        · rw [if_neg hback] at hconn
          exact Or.inr (Or.inl hconn)
  cases move_of_step hstep with
  | agents _ hagents => exact hhost hagents
  | answer _ hagents =>
      rcases hhost hagents with hsame | hnone | ⟨a, hcrash, _⟩
      · exact Or.inl hsame
      · exact Or.inr (Or.inl hnone)
      · cases hcrash
  | event _ _ => exact Or.inl rfl
  | channels _ _ _ => exact Or.inl rfl

theorem step_nextConnection (hreach : (AgentsManager.life cfg).Reachable x.agents)
    (hstep : step cfg chCfg x l = some x') :
    x.agents.nextConnection ≤ x'.agents.nextConnection := by
  have hplain := (AgentsManager.orderly_of_reachable hreach).plain
  cases move_of_step hstep with
  | agents _ hagents => exact (AgentsManager.step_processes hplain hagents).succeeds.nextConnection
  | answer _ hagents => exact (AgentsManager.step_processes hplain hagents).succeeds.nextConnection
  | event _ _ => exact le_rfl
  | channels _ _ _ => exact le_rfl

inductive Turn (x : PermissionSystem n c) : SystemLabel n c → PermissionSystem n c → Prop
  | shown {l : SystemLabel n c} {s : Fin n} {r : PermissionRequest} {k : SessionKey}
      {x' : PermissionSystem n c} (htakes : x.takes l = some (s, r))
      (hroute : x.agents.permissionRoute s r = some k)
      (hpending : AgentsManager.PendingBut x.agents x'.agents s
        ((x.agents.slots s).pendingPermissions.set (AgentsManager.permissionId r)
          (AgentsManager.pendingPermission r)))
      (hpermissions : x'.agents.permissions = x.agents.permissions ++
        [.event (.routePermission k (AgentsManager.permissionId r)
          (AgentsManager.permissionDescription r) (r.options.getD []))])
      (hrequests : x'.requests =
        x.requests ++ [⟨⟨s, x.agents.latestProcess s, r⟩, some k⟩])
      (hselections : x'.selections = x.selections) : Turn x l x'
  | approved {l : SystemLabel n c} {s : Fin n} {r : PermissionRequest} {x' : PermissionSystem n c}
      (htakes : x.takes l = some (s, r)) (hroute : x.agents.permissionRoute s r = none)
      (hpending : AgentsManager.SamePending x.agents x'.agents)
      (hpermissions : x'.agents.permissions = x.agents.permissions ++
        x.agents.written s r.rpcId (.permissionApproved (AgentsManager.permissionId r)
          (AgentsManager.autoOption r)))
      (hrequests : x'.requests = x.requests ++ [⟨⟨s, x.agents.latestProcess s, r⟩, none⟩])
      (hselections : x'.selections = x.selections) : Turn x l x'
  | selected {a : Answers} {p : PermissionAnswer} {rest : List PermissionAnswer} {s : Fin n}
      {pending : PendingPermission} {x' : PermissionSystem n c}
      (hanswers : x.answers = p :: rest)
      (hget : (x.agents.slots s).pendingPermissions.get? p.requestId = some pending)
      (hpending : AgentsManager.PendingBut x.agents x'.agents s
        ((x.agents.slots s).pendingPermissions.remove p.requestId))
      (hpermissions : x'.agents.permissions = x.agents.permissions ++
        x.agents.written s pending.rpcId (.permissionSelected p.optionId))
      (hrequests : x'.requests = x.requests)
      (hselections : x'.selections = x.selections ++
        ((x.agents.slots s).connection.map fun conn =>
          ⟨p, s, conn.no, pending.rpcId, p.optionId⟩).toList) : Turn x (.answer a) x'
  | ignored {a : Answers} {p : PermissionAnswer} {rest : List PermissionAnswer}
      {x' : PermissionSystem n c} (hanswers : x.answers = p :: rest)
      (hnone : ∀ s, (x.agents.slots s).pendingPermissions.get? p.requestId = none)
      (hpending : AgentsManager.SamePending x.agents x'.agents)
      (hpermissions : x'.agents.permissions = x.agents.permissions)
      (hrequests : x'.requests = x.requests) (hselections : x'.selections = x.selections) :
      Turn x (.answer a) x'
  | aside {l : SystemLabel n c} {x' : PermissionSystem n c} (hl : l.answers = false)
      (htakes : x.takes l = none) (hpending : AgentsManager.SamePending x.agents x'.agents)
      (hpermissions : x'.agents.permissions = x.agents.permissions)
      (hrequests : x'.requests = x.requests) (hselections : x'.selections = x.selections) :
      Turn x l x'

theorem agents_turn {l : Label n} {m : AgentsManager n} (hrecorded : Recorded x)
    (hreach : (AgentsManager.life cfg).Reachable x.agents) (hl : l.answersPermission = false)
    (hstep : AgentsManager.step cfg x.agents l = some m) :
    Turn x (.agents l) (x.afterAgents l m) := by
  have hplain := (AgentsManager.orderly_of_reachable hreach).plain
  have hrequests : ∀ {s : Fin n} {r : PermissionRequest},
      x.agents.takes l = some (s, r) → (x.afterAgents l m).requests =
        x.requests ++ [⟨⟨s, x.agents.latestProcess s, r⟩, x.agents.permissionRoute s r⟩] := by
    intro s r htakes
    have htaken := hrecorded.taken htakes
    rw [afterAgents_requests, htakes, Option.toList_some, List.length_singleton, htaken]
    rfl
  cases AgentsManager.step_permissions hplain hstep with
  | @routed _ s r k _ htakes hroute hpending hpermissions =>
      refine .shown htakes hroute hpending hpermissions ?_ rfl
      rw [hrequests htakes, hroute]
  | @unrouted _ s r _ htakes hroute hpending hpermissions =>
      refine .approved htakes hroute hpending hpermissions ?_ rfl
      rw [hrequests htakes, hroute]
  | answered _ _ _ => cases hl
  | unknown _ => cases hl
  | aside htakes _ hpending hpermissions =>
      refine .aside rfl htakes hpending hpermissions ?_ rfl
      rw [afterAgents_requests, htakes]
      exact List.append_nil _

theorem answer_turn {p : PermissionAnswer} {rest : List PermissionAnswer} {a : Answers}
    {m : AgentsManager n} (hreach : (AgentsManager.life cfg).Reachable x.agents)
    (hanswers : x.answers = p :: rest)
    (hstep : AgentsManager.step cfg x.agents
      (.command (.respondPermission p.requestId p.optionId) a) = some m) :
    Turn x (.answer a) (x.afterAnswer p rest m) := by
  have hplain := (AgentsManager.orderly_of_reachable hreach).plain
  have htrace := (AgentsManager.step_advances hplain hstep).trace
  have hselections : ∀ {os : List (Output n)}, m.permissions = x.agents.permissions ++ os →
      (x.afterAnswer p rest m).selections =
        x.selections ++ os.filterMap (Output.selection p) := by
    intro os hpermissions
    rw [afterAnswer_selections,
      AgentsManager.news_permissions Output.selection_of_not_isPermission htrace hpermissions]
  have hstepped := AgentsManager.step_permissions hplain hstep
  generalize hl : Label.command (.respondPermission p.requestId p.optionId) a = l at hstepped
  cases hstepped with
  | routed htakes _ _ _ =>
      rw [← hl] at htakes
      cases htakes
  | unrouted htakes _ _ _ =>
      rw [← hl] at htakes
      cases htakes
  | @answered _ _ _ s pending _ hget hpending hpermissions =>
      cases hl
      refine .selected hanswers hget hpending hpermissions rfl ?_
      rw [hselections hpermissions]
      congr 1
      unfold AgentsManager.written
      cases (x.agents.slots s).connection <;> rfl
  | unknown hnone =>
      cases hl
      refine .ignored hanswers hnone (fun _ => rfl) rfl rfl ?_
      rw [hselections (List.append_nil _).symm]
      exact List.append_nil _
  | aside _ hanswer _ _ =>
      rw [← hl] at hanswer
      cases hanswer

theorem step_turn (hreach : (life cfg chCfg).ReachableUnder G x)
    (hstep : step cfg chCfg x l = some x') : Turn x l x' := by
  have hagents := agents_reachable hreach
  cases move_of_step hstep with
  | agents hl hmove => exact agents_turn (recorded_of_reachable hreach) hagents hl hmove
  | answer hanswers hmove => exact answer_turn hagents hanswers hmove
  | event _ _ => exact .aside rfl rfl (fun _ => rfl) rfl rfl rfl
  | channels _ _ _ => exact .aside rfl rfl (fun _ => rfl) rfl rfl rfl

/-! ### Tokens -/

def shows : Nat × ChannelEvent → Option (String × Option Nat)
  | (no, .routePermission _ requestId _ _) => some (requestId, some no)
  | _ => none

/-- What may still turn into an answer, as the id that the answer will name and the number of
    the request that it will be for. -/
def tokens (x : PermissionSystem n c) : List (String × Option Nat) :=
  x.events.filterMap shows ++
    (x.channels.waits.map fun w => (w.requestId, some w.event)) ++
      x.answers.map fun p => (p.requestId, p.request)

/-- A step with the label brings a token up. -/
def Mints (x : PermissionSystem n c) (t : String × Option Nat) : SystemLabel n c → Prop
  | .agents l => ∃ s r, x.takes (.agents l) = some (s, r) ∧
      (x.agents.permissionRoute s r).isSome = true ∧
        t = (AgentsManager.permissionId r, some x.requests.length)
  | .channels l about => (∃ p ∈ x.channels.volunteered l, t = (p.1, about)) ∨
      ∃ p ∈ l.brings, t = (p.2, some p.1)
  | _ => False

/-- The next event shows a request that reaches no channel. -/
def Misses (x : PermissionSystem n c) (a : ChannelAnswers) : Prop :=
  match x.events with
  | (_, .routePermission k _ _ _) :: _ => ¬ x.channels.Reaches k a
  | _ => False

instance (a : ChannelAnswers) : Decidable (x.Misses a) := by
  unfold Misses
  split <;> infer_instance

/-- A step with the label uses a token up. -/
def Spends (x : PermissionSystem n c) (t : String × Option Nat) : SystemLabel n c → Prop
  | .answer _ => x.answers.head?.map (fun p => (p.requestId, p.request)) = some t
  | .event a => x.events.head?.bind shows = some t ∧ x.Misses a
  | _ => False

structure Flow (x : PermissionSystem n c) (l : SystemLabel n c) (x' : PermissionSystem n c) :
    Prop where
  minted : ∀ t ∈ x'.tokens, t ∈ x.tokens ∨ x.Mints t l
  kept : ∀ t ∈ x.tokens, t ∈ x'.tokens ∨ x.Spends t l

theorem mem_tokens {t : String × Option Nat} : t ∈ x.tokens ↔
    (∃ e ∈ x.events, shows e = some t) ∨
      (∃ w ∈ x.channels.waits, (w.requestId, some w.event) = t) ∨
        ∃ p ∈ x.answers, (p.requestId, p.request) = t := by
  unfold tokens
  rw [List.mem_append, List.mem_append, List.mem_filterMap, List.mem_map, List.mem_map, or_assoc]

theorem agents_flow {l : Label n} {m : AgentsManager n}
    (hreach : (AgentsManager.life cfg).Reachable x.agents)
    (hstep : AgentsManager.step cfg x.agents l = some m) (hl : l.answersPermission = false) :
    Flow x (.agents l) (x.afterAgents l m) := by
  have hplain := (AgentsManager.orderly_of_reachable hreach).plain
  have htrace := (AgentsManager.step_advances hplain hstep).trace
  constructor
  · intro t ht
    rcases mem_tokens.mp ht with ⟨e, he, hshows⟩ | hwaits | hanswers
    · rcases List.mem_append.mp he with hold | hnew
      · exact Or.inl (mem_tokens.mpr (Or.inl ⟨e, hold, hshows⟩))
      · -- the event was sent by this step
        obtain ⟨ev, hev, rfl⟩ := List.mem_map.mp hnew
        refine Or.inr ?_
        have hid : ∀ {id : String}, (Output.event ev : Output n).shownId = some id →
            id ∈ (m.trace.drop x.agents.trace.length).filterMap Output.shownId := by
          intro id hid
          rw [← AgentsManager.sent_shownId]
          exact List.mem_filterMap.mpr ⟨ev, hev, hid⟩
        cases ev with
        | routePermission k id description options =>
            cases hshows
            have hmem := hid rfl
            cases AgentsManager.step_permissions hplain hstep with
            | @routed _ s r k' _ htakes hroute _ hpermissions =>
                rw [AgentsManager.news_permissions Output.shownId_of_not_isPermission htrace
                  hpermissions] at hmem
                rw [List.mem_singleton.mp hmem]
                exact ⟨s, r, htakes, by rw [hroute]; rfl, rfl⟩
            | @unrouted _ s r _ _ _ _ hpermissions =>
                rw [AgentsManager.news_permissions Output.shownId_of_not_isPermission htrace
                  hpermissions] at hmem
                obtain ⟨o, ho, hshown⟩ := List.mem_filterMap.mp hmem
                obtain ⟨_, _, rfl⟩ := Option.map_eq_some_iff.mp (Option.mem_toList.mp ho)
                cases hshown
            | answered _ _ _ => cases hl
            | unknown _ => cases hl
            | aside _ _ _ hpermissions =>
                rw [AgentsManager.news_permissions Output.shownId_of_not_isPermission htrace
                  (hpermissions.trans (List.append_nil _).symm)] at hmem
                cases hmem
        | _ => cases hshows
    · exact Or.inl (mem_tokens.mpr (Or.inr (Or.inl hwaits)))
    · exact Or.inl (mem_tokens.mpr (Or.inr (Or.inr hanswers)))
  · intro t ht
    refine Or.inl (mem_tokens.mpr ?_)
    rcases mem_tokens.mp ht with ⟨e, he, hshows⟩ | hrest
    · exact Or.inl ⟨e, List.mem_append_left _ he, hshows⟩
    · exact Or.inr hrest

/-- The event that shows a request is a token. -/
theorem shown_token {s : Fin n} {r : PermissionRequest} {k : SessionKey}
    (hreach : (life cfg chCfg).ReachableUnder G x) (hstep : step cfg chCfg x l = some x')
    (htakes : x.takes l = some (s, r)) (hroute : x.agents.permissionRoute s r = some k) :
    (AgentsManager.permissionId r, some x.requests.length) ∈ x'.tokens := by
  have hagents := agents_reachable hreach
  cases move_of_step hstep with
  | @agents l m hl hmove =>
      have hplain := (AgentsManager.orderly_of_reachable hagents).plain
      have htrace := (AgentsManager.step_advances hplain hmove).trace
      have hid : AgentsManager.permissionId r ∈
          (AgentsManager.sent x.agents m).filterMap
            fun e => (Output.event e : Output n).shownId := by
        rw [AgentsManager.sent_shownId]
        cases AgentsManager.step_permissions hplain hmove with
        | routed htakes' _ _ hpermissions =>
            have hsame := htakes.symm.trans htakes'
            cases hsame
            rw [AgentsManager.news_permissions Output.shownId_of_not_isPermission htrace
              hpermissions]
            exact List.mem_singleton_self _
        | unrouted htakes' hnone _ _ =>
            have hsame := htakes.symm.trans htakes'
            cases hsame
            rw [hroute] at hnone
            cases hnone
        | answered _ _ _ => cases hl
        | unknown _ => cases hl
        | aside htakes' _ _ _ =>
            have hsame := htakes.symm.trans htakes'
            cases hsame
      obtain ⟨e, he, hshown⟩ := List.mem_filterMap.mp hid
      refine mem_tokens.mpr (Or.inl ⟨(x.requests.length, e), ?_, ?_⟩)
      · exact List.mem_append_right _ (List.mem_map.mpr ⟨e, he, rfl⟩)
      · cases e with
        | routePermission k' id description options =>
            cases hshown
            rfl
        | _ => cases hshown
  | answer _ _ => cases htakes
  | event _ _ => cases htakes
  | channels _ _ _ => cases htakes

theorem answer_flow {p : PermissionAnswer} {rest : List PermissionAnswer} {a : Answers}
    (m : AgentsManager n) (hanswers : x.answers = p :: rest) :
    Flow x (.answer a) (x.afterAnswer p rest m) := by
  constructor
  · intro t ht
    refine Or.inl (mem_tokens.mpr ?_)
    rcases mem_tokens.mp ht with hevents | hwaits | ⟨q, hq, hid⟩
    · exact Or.inl hevents
    · exact Or.inr (Or.inl hwaits)
    · exact Or.inr (Or.inr ⟨q, hanswers ▸ List.mem_cons_of_mem p hq, hid⟩)
  · intro t ht
    rcases mem_tokens.mp ht with hevents | hwaits | ⟨q, hq, hid⟩
    · exact Or.inl (mem_tokens.mpr (Or.inl hevents))
    · exact Or.inl (mem_tokens.mpr (Or.inr (Or.inl hwaits)))
    · rw [hanswers] at hq
      rcases List.mem_cons.mp hq with rfl | hmem
      · refine Or.inr ?_
        unfold Spends
        rw [hanswers, ← hid]
        rfl
      · exact Or.inl (mem_tokens.mpr (Or.inr (Or.inr ⟨q, hmem, hid⟩)))

/-- What a step of the channels manager sends for a token that it minted or took. -/
theorem mem_tokens_afterChannels {l : ChannelsLabel c} {about : Option Nat}
    {ch : ChannelsManager c} {t : String × Option Nat} :
    t ∈ (x.afterChannels l about ch).tokens ↔
      (∃ e ∈ x.events, shows e = some t) ∨ (∃ w ∈ ch.waits, (w.requestId, some w.event) = t) ∨
        (∃ p ∈ x.answers, (p.requestId, p.request) = t) ∨
          ∃ p ∈ ChannelsManager.answersSent x.channels ch, (p.1, x.subject l about) = t := by
  rw [mem_tokens, afterChannels_answers, afterChannels_channels, afterChannels_events]
  simp only [List.mem_append, or_and_right, exists_or, List.mem_map, exists_exists_and_eq_and]

theorem subject_of_endsWait {l : ChannelsLabel c} {about : Option Nat} {i : Nat}
    {w : PermissionWait c} {optionId : String} (hends : l.endsWait = some (i, optionId))
    (hw : x.channels.waits[i]? = some w) : x.subject l about = some w.event := by
  unfold subject
  rw [hends]
  dsimp only
  rw [hw]
  rfl

theorem subject_of_volunteered {l : ChannelsLabel c} {about : Option Nat} {p : String × String}
    (hvolunteer : x.channels.volunteered l = some p) : x.subject l about = about := by
  cases l with
  | recvStream s a => rfl
  | _ => cases hvolunteer

/-- An element is at the index, or it stays when the index is erased. -/
theorem mem_eraseIdx_or {α : Type} {xs : List α} {i : Nat} {a b : α} (ha : xs[i]? = some a)
    (hb : b ∈ xs) : b = a ∨ b ∈ xs.eraseIdx i := by
  obtain ⟨hlt, rfl⟩ := List.getElem?_eq_some_iff.mp ha
  exact List.mem_cons.mp ((List.getElem_cons_eraseIdx_perm hlt).symm.subset hb)

theorem channels_flow {l : ChannelsLabel c} {about : Option Nat} {ch : ChannelsManager c}
    (hstep : ChannelsManager.step chCfg x.channels l = some ch) :
    Flow x (.channels l about) (x.afterChannels l about ch) := by
  constructor
  · intro t ht
    rw [mem_tokens]
    rcases mem_tokens_afterChannels.mp ht with hevents | ⟨w, hw, hid⟩ | hanswers | ⟨p, hp, hid⟩
    · exact Or.inl (Or.inl hevents)
    · cases ChannelsManager.step_waits hstep with
      | idle hwaits _ _ =>
          rw [hwaits] at hw
          exact Or.inl (Or.inr (Or.inl ⟨w, hw, hid⟩))
      | asked hbrings hwaits _ =>
          rw [hwaits] at hw
          rcases List.mem_append.mp hw with hold | hnew
          · exact Or.inl (Or.inr (Or.inl ⟨w, hold, hid⟩))
          · rw [List.mem_singleton.mp hnew] at hid
            exact Or.inr (Or.inr ⟨_, hbrings, hid.symm⟩)
      | ended _ _ hwaits _ =>
          rw [hwaits] at hw
          exact Or.inl (Or.inr (Or.inl ⟨w, List.mem_of_mem_eraseIdx hw, hid⟩))
      | volunteered _ hwaits _ =>
          rw [hwaits] at hw
          exact Or.inl (Or.inr (Or.inl ⟨w, hw, hid⟩))
    · exact Or.inl (Or.inr (Or.inr hanswers))
    · cases ChannelsManager.step_waits hstep with
      | idle _ hsent _ =>
          rw [hsent] at hp
          cases hp
      | asked _ _ hsent =>
          rw [hsent] at hp
          cases hp
      | ended hends hw hwaits hsent =>
          rename_i i w optionId
          rw [hsent] at hp
          rw [List.mem_singleton.mp hp] at hid
          rw [subject_of_endsWait hends hw] at hid
          exact Or.inl (Or.inr (Or.inl ⟨w, List.mem_of_getElem? hw, hid⟩))
      | volunteered hvolunteer _ hsent =>
          rw [hsent] at hp
          rw [List.mem_singleton.mp hp, subject_of_volunteered hvolunteer] at hid
          exact Or.inr (Or.inl ⟨_, hvolunteer, hid.symm⟩)
  · intro t ht
    refine Or.inl (mem_tokens_afterChannels.mpr ?_)
    rcases mem_tokens.mp ht with hevents | ⟨w, hw, hid⟩ | hanswers
    · exact Or.inl hevents
    · cases ChannelsManager.step_waits hstep with
      | idle hwaits _ _ => exact Or.inr (Or.inl ⟨w, hwaits ▸ hw, hid⟩)
      | asked _ hwaits _ =>
          exact Or.inr (Or.inl ⟨w, hwaits ▸ List.mem_append_left _ hw, hid⟩)
      | ended hends hw' hwaits hsent =>
          rename_i i w' optionId
          rcases mem_eraseIdx_or hw' hw with heq | hmem
          · refine Or.inr (Or.inr (Or.inr ⟨(w'.requestId, optionId), ?_, ?_⟩))
            · rw [hsent]
              exact List.mem_singleton_self _
            · rw [subject_of_endsWait hends hw', ← hid, heq]
          · exact Or.inr (Or.inl ⟨w, hwaits ▸ hmem, hid⟩)
      | volunteered _ hwaits _ => exact Or.inr (Or.inl ⟨w, hwaits ▸ hw, hid⟩)
    · exact Or.inr (Or.inr (Or.inl hanswers))

theorem event_flow {no : Nat} {e : ChannelEvent} {rest : List (Nat × ChannelEvent)}
    {a : ChannelAnswers} {ch : ChannelsManager c} (hevents : x.events = (no, e) :: rest)
    (hstep : ChannelsManager.step chCfg x.channels (.recvEvent no e a) = some ch) :
    Flow x (.event a) { x with channels := ch, events := rest } := by
  -- the shown request is awaited, or it reaches no channel
  have hwaits : ch.waits = x.channels.waits ∧ (shows (no, e) ≠ none → x.Misses a) ∨
      ∃ w : PermissionWait c, shows (no, e) = some (w.requestId, some w.event) ∧
        ch.waits = x.channels.waits ++ [w] := by
    have hunshown : shows (no, e) = none → ch.waits = x.channels.waits := by
      intro hnone
      cases ChannelsManager.step_waits hstep with
      | idle hsame _ _ => exact hsame
      | asked hbrings _ _ =>
          cases e with
          | routePermission k id description options => cases hnone
          | _ => cases hbrings
      | ended hends _ _ _ => cases hends
      | volunteered hvolunteer _ _ => cases hvolunteer
    cases e with
    | routePermission k id description options =>
        obtain ⟨_, hch⟩ := Option.ite_none_right_eq_some.mp hstep
        cases hch
        rcases ChannelsManager.routePermission_waits x.channels k id description options no a with
          ⟨_, w, hevent, hid, hmore, _⟩ | ⟨hnot, hunasked⟩
        · refine Or.inr ⟨w, ?_, hmore⟩
          rw [hevent, hid]
          rfl
        · refine Or.inl ⟨hunasked.waits, fun _ => ?_⟩
          unfold Misses
          rw [hevents]
          exact hnot
    | _ => exact Or.inl ⟨hunshown rfl, fun hshows => absurd rfl hshows⟩
  constructor
  · intro t ht
    refine Or.inl (mem_tokens.mpr ?_)
    rcases mem_tokens.mp ht with ⟨e', he', hid⟩ | ⟨w, hw, hid⟩ | hanswers
    · exact Or.inl ⟨e', hevents ▸ List.mem_cons_of_mem _ he', hid⟩
    · rcases hwaits with ⟨hsame, _⟩ | ⟨w', hshows, hmore⟩
      · exact Or.inr (Or.inl ⟨w, hsame ▸ hw, hid⟩)
      · dsimp only at hw
        rw [hmore] at hw
        rcases List.mem_append.mp hw with hold | hnew
        · exact Or.inr (Or.inl ⟨w, hold, hid⟩)
        · rw [List.mem_singleton.mp hnew] at hid
          exact Or.inl ⟨(no, e), hevents ▸ List.mem_cons_self, hshows.trans (congrArg some hid)⟩
    · exact Or.inr (Or.inr hanswers)
  · intro t ht
    rcases mem_tokens.mp ht with ⟨e', he', hid⟩ | ⟨w, hw, hid⟩ | hanswers
    · rw [hevents] at he'
      rcases List.mem_cons.mp he' with rfl | hrest
      · rcases hwaits with ⟨_, hmisses⟩ | ⟨w, hshows, hmore⟩
        · refine Or.inr ⟨?_, hmisses ?_⟩
          · rw [hevents]
            exact hid
          · rw [hid]
            exact Option.some_ne_none t
        · rw [hid] at hshows
          cases hshows
          refine Or.inl (mem_tokens.mpr (Or.inr (Or.inl ⟨w, ?_, rfl⟩)))
          dsimp only
          rw [hmore]
          exact List.mem_append_right _ (List.mem_singleton_self w)
      · exact Or.inl (mem_tokens.mpr (Or.inl ⟨e', hrest, hid⟩))
    · refine Or.inl (mem_tokens.mpr (Or.inr (Or.inl ⟨w, ?_, hid⟩)))
      dsimp only
      rcases hwaits with ⟨hsame, _⟩ | ⟨w', _, hmore⟩
      · rw [hsame]
        exact hw
      · rw [hmore]
        exact List.mem_append_left _ hw
    · exact Or.inl (mem_tokens.mpr (Or.inr (Or.inr hanswers)))

/-- **Tokens are minted by requests and by channels, and spent by answers.** -/
theorem step_flow (hreach : (life cfg chCfg).ReachableUnder G x)
    (hstep : step cfg chCfg x l = some x') : Flow x l x' := by
  cases move_of_step hstep with
  | agents hl hmove => exact agents_flow (agents_reachable hreach) hmove hl
  | answer hanswers _ => exact answer_flow _ hanswers
  | event hevents hmove => exact event_flow hevents hmove
  | channels _ _ hmove => exact channels_flow hmove

end PermissionSystem

end Anyclaw
