import Anyclaw.Permissions.Choices

/-!
# Every permission request is answered once

A request is open while its permission is pending and it was the last one shown under its id.
While every request reaches a channel, an open request has no response and a token that will
bring one; a request that is not open has one response, unless its process has gone.

A response is written by `handle_permission_request` (`crates/anyclaw-agents/src/incoming.rs`)
or by `handle_command` (`commands.rs`).
-/

namespace Anyclaw

variable {n c : Nat}

def TakenPermission.answeredBy (q : TakenPermission n) : Output n → Bool
  | .respond s no rpcId (.permissionSelected _) =>
      decide (s = q.slotIdx ∧ some no = q.process ∧ rpcId = q.request.rpcId)
  | .respond s no rpcId (.permissionApproved _ _) =>
      decide (s = q.slotIdx ∧ some no = q.process ∧ rpcId = q.request.rpcId)
  | _ => false

theorem TakenPermission.isPermission_of_answeredBy (q : TakenPermission n) (o : Output n)
    (h : q.answeredBy o = true) : o.isPermission = true := by
  cases o with
  | respond s' no rpcId' r =>
      cases r with
      | permissionSelected optionId => rfl
      | permissionApproved requestId optionId => rfl
      | _ => cases h
  | _ => cases h

/-- Both requests came from one process, with one JSON-RPC id. -/
def TakenPermission.SameId (q q' : TakenPermission n) : Prop :=
  q.slotIdx = q'.slotIdx ∧ q.process = q'.process ∧ q.request.rpcId = q'.request.rpcId

namespace PermissionSystem

variable {cfg : AgentsManagerConfig n} {chCfg : ChannelsManagerConfig c}
  {x x' : PermissionSystem n c} {l : SystemLabel n c} {s : Fin n} {e : Nat}
  {q : TakenPermission n}

def responses (x : PermissionSystem n c) (q : TakenPermission n) : List (Output n) :=
  x.agents.trace.filter q.answeredBy

/-- The slot is connected to the process that wrote the request. -/
def Alive (x : PermissionSystem n c) (q : TakenPermission n) : Prop :=
  ∃ conn ∈ (x.agents.slots q.slotIdx).connection, q.process = some conn.no

instance : Decidable (Alive x q) :=
  inferInstanceAs (Decidable (∃ conn ∈ (x.agents.slots q.slotIdx).connection, _))

/-- The request `e` has been answered once, or something may still bring the answer, or its
    process has gone. -/
structure AnsweredOnce (x : PermissionSystem n c) (e : Nat) (q : TakenPermission n) : Prop where
  most : (x.responses q).length ≤ 1
  one : (∀ t ∈ x.tokens, t.2 ≠ some e) → Alive x q → (x.responses q).length = 1
  shape : ∀ o ∈ x.responses q, o.isSelection = true

/-- Ids are kept apart; a request has a route and a JSON-RPC id that its process has not used
    for another one; an event that shows a request reaches a channel. -/
def Serves (x : PermissionSystem n c) (l : SystemLabel n c) : Prop :=
  x.Separates l ∧
    match l with
    | .agents l => ∀ a ∈ x.agents.takes l,
        (x.agents.permissionRoute a.1 a.2).isSome = true ∧
          ∀ q ∈ x.requests, q.slotIdx = a.1 → q.process = x.agents.latestProcess a.1 →
            q.request.rpcId = a.2.rpcId → a.2.rpcId = none
    | .event a => ¬ x.Misses a
    | _ => True

instance : Decidable (Serves x l) := by
  unfold Serves
  refine @instDecidableAnd _ _ inferInstance ?_
  induction l using SystemLabel.casesOn <;> dsimp only <;> infer_instance

/-- The pending permission of the request is waiting for an answer. -/
def Open (x : PermissionSystem n c) (e : Nat) (q : TakenPermission n) : Prop :=
  x.latest (AgentsManager.permissionId q.request) = some e ∧
    ((x.agents.slots q.slotIdx).pendingPermissions.get?
      (AgentsManager.permissionId q.request)).isSome = true

structure Tally (x : PermissionSystem n c) (e : Nat) (q : TakenPermission n) : Prop where
  waits : Open x e q → x.agents.permissions.countP q.answeredBy = 0 ∧
    (AgentsManager.permissionId q.request, some e) ∈ x.tokens
  answered : ¬ Open x e q → x.agents.permissions.countP q.answeredBy ≤ 1 ∧
    (Alive x q → x.agents.permissions.countP q.answeredBy = 1)

/-- What holds while every request is served. -/
structure Served (x : PermissionSystem n c) : Prop where
  /-- Nothing is approved without being shown. -/
  shown : ∀ o ∈ x.agents.permissions, o.isApproval = false
  /-- A JSON-RPC id of a process belongs to one request. -/
  distinct : ∀ (e e' : Nat) (q q' : TakenPermission n), x.requests[e]? = some q →
    x.requests[e']? = some q' → q.request.rpcId ≠ none → q.SameId q' → e = e'
  numbered : ∀ q ∈ x.requests, ∀ no, q.process = some no → no < x.agents.nextConnection
  tally : ∀ e q, x.requests[e]? = some q → q.request.rpcId ≠ none → Tally x e q

theorem responses_length (x : PermissionSystem n c) (q : TakenPermission n) :
    (x.responses q).length = x.agents.permissions.countP q.answeredBy := by
  unfold responses
  rw [List.countP_eq_length_filter,
    AgentsManager.filter_permissions x.agents q.isPermission_of_answeredBy]

/-! ### One request -/

/-- A process is not replaced by an older one. -/
theorem Alive.of_step (hreach : (AgentsManager.life cfg).Reachable x.agents)
    (hstep : step cfg chCfg x l = some x')
    (hnumbered : ∀ no, q.process = some no → no < x.agents.nextConnection) (h : Alive x' q) :
    Alive x q := by
  obtain ⟨conn, hconn, hprocess⟩ := h
  rcases step_connection hreach hstep q.slotIdx with hsame | hnone | ⟨a, _, _, hnew⟩
  · rw [hsame] at hconn
    exact ⟨conn, hconn, hprocess⟩
  · rw [hnone] at hconn
    cases hconn
  · rw [hnew] at hconn
    cases hconn
    exact absurd (hnumbered _ hprocess) (lt_irrefl _)

/-- A step that leaves a request alone. -/
theorem Tally.keep (h : Tally x e q)
    (hcount : x'.agents.permissions.countP q.answeredBy =
      x.agents.permissions.countP q.answeredBy)
    (hopen : Open x' e q ↔ Open x e q)
    (htoken : Open x e q → (AgentsManager.permissionId q.request, some e) ∈ x.tokens →
      (AgentsManager.permissionId q.request, some e) ∈ x'.tokens)
    (halive : Alive x' q → Alive x q) : Tally x' e q where
  waits ho := by
    obtain ⟨hnone, htok⟩ := h.waits (hopen.mp ho)
    exact ⟨hcount.trans hnone, htoken (hopen.mp ho) htok⟩
  answered hnot := by
    obtain ⟨hmost, hone⟩ := h.answered fun ho => hnot (hopen.mpr ho)
    exact ⟨hcount.le.trans hmost, fun hlives => hcount.trans (hone (halive hlives))⟩

/-- A request whose id is new has no response. -/
theorem count_fresh (htold : Told x) (hright : ∀ sel ∈ x.selections, Selection.Right x sel)
    (hshown : ∀ o ∈ x.agents.permissions, o.isApproval = false)
    (hfresh : ∀ q' ∈ x.requests, ¬ q'.SameId q) :
    x.agents.permissions.countP q.answeredBy = 0 := by
  refine List.countP_eq_zero.mpr fun o ho hanswered => ?_
  have happroval := hshown o ho
  cases o with
  | respond s no rpcId r =>
      cases r with
      | permissionSelected optionId =>
          obtain ⟨hslot, hprocess, hrpc⟩ := of_decide_eq_true hanswered
          have hmem : Output.respond s no rpcId (.permissionSelected optionId) ∈
              x.selections.map Selection.output := by
            rw [← htold]
            exact List.mem_filter.mpr ⟨List.mem_of_mem_filter ho, rfl⟩
          obtain ⟨sel, hsel, houtput⟩ := List.mem_map.mp hmem
          obtain ⟨e', _, q', hq', hslot', hprocess', hrpc'⟩ := hright sel hsel
          cases houtput
          refine hfresh q' (List.mem_of_getElem? hq') ⟨?_, ?_, ?_⟩
          · exact hslot'.trans hslot
          · exact hprocess'.trans hprocess
          · exact hrpc'.trans hrpc
      | permissionApproved requestId optionId => cases happroval
      | _ => cases hanswered
  | _ => cases hanswered

/-! ### Steps -/

theorem getElem?_concat_cases {α : Type} {xs : List α} {a b : α} {i : Nat}
    (h : (xs ++ [a])[i]? = some b) : xs[i]? = some b ∨ (i = xs.length ∧ b = a) := by
  rcases Nat.lt_trichotomy i xs.length with hlt | rfl | hgt
  · rw [List.getElem?_append_left hlt] at h
    exact Or.inl h
  · rw [List.getElem?_concat_length] at h
    exact Or.inr ⟨rfl, (Option.some.inj h).symm⟩
  · rw [List.getElem?_eq_none (by simp; omega)] at h
    cases h

/-- A request is shown. -/
theorem Served.show {r : PermissionRequest} {k : SessionKey} (h : Served x)
    (hreach : (AgentsManager.life cfg).Reachable x.agents) (htold : Told x)
    (hright : ∀ sel ∈ x.selections, Selection.Right x sel)
    (hunused : x.Unused s (AgentsManager.permissionId r))
    (hfresh : ∀ q ∈ x.requests, q.slotIdx = s → q.process = x.agents.latestProcess s →
      q.request.rpcId = r.rpcId → r.rpcId = none)
    (hkept : ∀ t ∈ x.tokens, t ∈ x'.tokens)
    (htoken : (AgentsManager.permissionId r, some x.requests.length) ∈ x'.tokens)
    (hnext : x.agents.nextConnection ≤ x'.agents.nextConnection)
    (halive : ∀ q ∈ x.requests, Alive x' q → Alive x q)
    (hpending : AgentsManager.PendingBut x.agents x'.agents s
      ((x.agents.slots s).pendingPermissions.set (AgentsManager.permissionId r)
        (AgentsManager.pendingPermission r)))
    (hpermissions : x'.agents.permissions = x.agents.permissions ++
      [.event (.routePermission k (AgentsManager.permissionId r)
        (AgentsManager.permissionDescription r) (r.options.getD []))])
    (hrequests : x'.requests = x.requests ++ [⟨⟨s, x.agents.latestProcess s, r⟩, some k⟩]) :
    Served x' := by
  have hlatest : ∀ id, x'.latest id =
      if AgentsManager.permissionId r = id then some x.requests.length else x.latest id := by
    intro id
    unfold latest
    rw [hrequests, latestIn_of_shown _ rfl]
  have hcount : ∀ q : TakenPermission n, x'.agents.permissions.countP q.answeredBy =
      x.agents.permissions.countP q.answeredBy := by
    intro q
    rw [hpermissions, List.countP_append]
    rfl
  refine ⟨fun o ho => ?_, fun e e' q q' hq hq' hrpc hsame => ?_, fun q hq no hno => ?_,
    fun e q hq hrpc => ?_⟩
  · rw [hpermissions] at ho
    rcases List.mem_append.mp ho with hold | hnew
    · exact h.shown o hold
    · rw [List.mem_singleton.mp hnew]
      rfl
  · rw [hrequests] at hq hq'
    obtain ⟨hslot, hprocess, hid⟩ := hsame
    rcases getElem?_concat_cases hq with hold | ⟨rfl, rfl⟩
    · rcases getElem?_concat_cases hq' with hold' | ⟨rfl, rfl⟩
      · exact h.distinct e e' q q' hold hold' hrpc ⟨hslot, hprocess, hid⟩
      · have hnone := hfresh q (List.mem_of_getElem? hold) hslot hprocess hid
        exact absurd (hid.trans hnone) hrpc
    · rcases getElem?_concat_cases hq' with hold' | ⟨rfl, rfl⟩
      · have hnone := hfresh q' (List.mem_of_getElem? hold') hslot.symm hprocess.symm hid.symm
        exact absurd hnone hrpc
      · rfl
  · rw [hrequests] at hq
    rcases List.mem_append.mp hq with hold | hnew
    · exact Nat.lt_of_lt_of_le (h.numbered q hold no hno) hnext
    · rw [List.mem_singleton.mp hnew] at hno
      have hmem : no ∈ x.agents.processes s := List.mem_of_getLast? hno
      have hhosted := AgentsManager.hosted_of_reachable hreach s
      exact Nat.lt_of_lt_of_le (hhosted.processes no hmem) hnext
  · rw [hrequests] at hq
    rcases getElem?_concat_cases hq with hold | ⟨rfl, rfl⟩
    · have htally := h.tally e q hold hrpc
      have hlives := halive q (List.mem_of_getElem? hold)
      by_cases hid : AgentsManager.permissionId q.request = AgentsManager.permissionId r
      · -- the id is in use again, so the earlier request is not open
        have hclosed : ¬ Open x e q := fun ho => hunused.1 _ (htally.waits ho).2 hid
        have hlt := (List.getElem?_eq_some_iff.mp hold).1
        have hclosed' : ¬ Open x' e q := by
          rintro ⟨hlast, _⟩
          rw [hlatest, if_pos hid.symm] at hlast
          have heq := Option.some.inj hlast
          omega
        obtain ⟨hmost, hone⟩ := htally.answered hclosed
        refine ⟨fun ho => absurd ho hclosed', fun _ => ⟨(hcount q).le.trans hmost, ?_⟩⟩
        exact fun hl => (hcount q).trans (hone (hlives hl))
      · refine htally.keep (hcount q) ?_ (fun _ => hkept _) hlives
        unfold Open
        rw [hlatest, if_neg (Ne.symm hid), hpending q.slotIdx]
        split
        · rename_i hs
          rw [KeyedMap.get?_set, if_neg hid, hs]
        · exact Iff.rfl
    · have hopen : Open x' x.requests.length ⟨⟨s, x.agents.latestProcess s, r⟩, some k⟩ := by
        refine ⟨?_, ?_⟩
        · rw [hlatest]
          exact if_pos rfl
        · rw [hpending s, if_pos rfl, KeyedMap.get?_set]
          exact congrArg Option.isSome (if_pos rfl)
      refine ⟨fun _ => ⟨(hcount _).trans ?_, htoken⟩, fun hnot => absurd hopen hnot⟩
      refine count_fresh htold hright h.shown fun q' hq' hsame => ?_
      exact hrpc (hfresh q' hq' hsame.1 hsame.2.1 hsame.2.2)

/-- A step that neither shows nor answers a request. -/
theorem Served.rest (h : Served x) (hlatest : ∀ id, x'.latest id = x.latest id)
    (hkept : ∀ e q, x.requests[e]? = some q → Open x e q →
      (AgentsManager.permissionId q.request, some e) ∈ x.tokens →
        (AgentsManager.permissionId q.request, some e) ∈ x'.tokens)
    (hnext : x.agents.nextConnection ≤ x'.agents.nextConnection)
    (halive : ∀ q ∈ x.requests, Alive x' q → Alive x q)
    (hpending : AgentsManager.SamePending x.agents x'.agents)
    (hpermissions : x'.agents.permissions = x.agents.permissions)
    (hrequests : x'.requests = x.requests) : Served x' where
  shown := by
    rw [hpermissions]
    exact h.shown
  distinct := by
    rw [hrequests]
    exact h.distinct
  numbered := by
    rw [hrequests]
    exact fun q hq no hno => Nat.lt_of_lt_of_le (h.numbered q hq no hno) hnext
  tally e q hq hrpc := by
    rw [hrequests] at hq
    refine (h.tally e q hq hrpc).keep (by rw [hpermissions]) ?_ (hkept e q hq)
      (halive q (List.mem_of_getElem? hq))
    unfold Open
    rw [hlatest, hpending q.slotIdx]

/-- The pending permission that an answer takes is that of an open request. -/
theorem open_of_held {id : String} {pending : PendingPermission}
    (hget : (x.agents.slots s).pendingPermissions.get? id = some pending)
    (hheld : Held x s id pending e q) :
    AgentsManager.permissionId q.request = id ∧ Open x e q := by
  obtain ⟨q', hq', hshown⟩ := shownAs_of_latestIn x.requests hheld.latest
  have hsame := hq'.symm.trans hheld.request
  cases hsame
  unfold TakenPermission.shownAs at hshown
  have hid : AgentsManager.permissionId q.request = id := by
    rw [Bool.and_eq_true] at hshown
    exact eq_of_beq hshown.2
  refine ⟨hid, ?_, ?_⟩
  · rw [hid]
    exact hheld.latest
  · rw [hid, hheld.slot, hget]
    rfl

/-- An answer is sent on. -/
theorem Served.answer {answer : PermissionAnswer} {rest : List PermissionAnswer}
    {pending : PendingPermission} (h : Served x) (hseparated : Separated x)
    (hanswers : x.answers = answer :: rest)
    (hget : (x.agents.slots s).pendingPermissions.get? answer.requestId = some pending)
    (hkept : ∀ t ∈ x.tokens, t ∈ x'.tokens ∨ t = (answer.requestId, answer.request))
    (hnext : x.agents.nextConnection ≤ x'.agents.nextConnection)
    (halive : ∀ q ∈ x.requests, Alive x' q → Alive x q)
    (hpending : AgentsManager.PendingBut x.agents x'.agents s
      ((x.agents.slots s).pendingPermissions.remove answer.requestId))
    (hpermissions : x'.agents.permissions = x.agents.permissions ++
      x.agents.written s pending.rpcId (.permissionSelected answer.optionId))
    (hrequests : x'.requests = x.requests) : Served x' := by
  have hlatest : ∀ id, x'.latest id = x.latest id := by
    intro id
    unfold latest
    rw [hrequests]
  obtain ⟨e₀, q₀, hheld⟩ := hseparated.pending s answer.requestId pending hget
  obtain ⟨hid₀, hopen₀⟩ := open_of_held hget hheld
  have hlast : answer.request = some e₀ := by
    have htoken : (answer.requestId, answer.request) ∈ x.tokens :=
      mem_tokens.mpr (Or.inr (Or.inr ⟨answer, hanswers ▸ List.mem_cons_self, rfl⟩))
    exact (hseparated.tokens _ htoken).symm.trans hheld.latest
  -- the response is to the open request, and to no other one
  have hresponds : ∀ {conn : AgentConnection}, (x.agents.slots s).connection = some conn →
      ∀ e q, x.requests[e]? = some q → q.request.rpcId ≠ none →
        (q.answeredBy (.respond s conn.no pending.rpcId (.permissionSelected answer.optionId)) =
          true ↔ e = e₀) := by
    intro conn hconn e q hq hrpc
    unfold TakenPermission.answeredBy
    rw [decide_eq_true_iff]
    constructor
    · rintro ⟨hslot, hprocess, hid⟩
      refine h.distinct e e₀ q q₀ hq hheld.request hrpc ⟨?_, ?_, ?_⟩
      · rw [hheld.slot, hslot]
      · rw [hheld.process conn hconn, hprocess]
      · rw [hheld.rpcId, hid]
    · rintro rfl
      have hsame := hq.symm.trans hheld.request
      cases hsame
      exact ⟨hheld.slot.symm, (hheld.process conn hconn).symm, hheld.rpcId.symm⟩
  refine ⟨fun o ho => ?_, ?_, ?_, fun e q hq hrpc => ?_⟩
  · rw [hpermissions] at ho
    rcases List.mem_append.mp ho with hold | hnew
    · exact h.shown o hold
    · obtain ⟨_, _, rfl⟩ := Option.map_eq_some_iff.mp (Option.mem_toList.mp hnew)
      rfl
  · rw [hrequests]
    exact h.distinct
  · rw [hrequests]
    exact fun q hq no hno => Nat.lt_of_lt_of_le (h.numbered q hq no hno) hnext
  · rw [hrequests] at hq
    have htally := h.tally e q hq hrpc
    have hlives := halive q (List.mem_of_getElem? hq)
    by_cases he : e = e₀
    · -- the open request has been answered
      subst he
      have hsame := hq.symm.trans hheld.request
      cases hsame
      have hclosed : ¬ Open x' e q₀ := by
        rintro ⟨_, hsome⟩
        rw [hpending q₀.slotIdx, if_pos hheld.slot, hid₀, KeyedMap.get?_remove, if_pos rfl] at hsome
        cases hsome
      have hnone := (htally.waits hopen₀).1
      refine ⟨fun ho => absurd ho hclosed, fun _ => ?_⟩
      rw [hpermissions, List.countP_append, hnone, Nat.zero_add]
      unfold AgentsManager.written
      cases hconn : (x.agents.slots s).connection with
      | none =>
          refine ⟨Nat.zero_le 1, fun hl => ?_⟩
          obtain ⟨conn, hmem, _⟩ := hlives hl
          rw [hheld.slot, hconn] at hmem
          cases hmem
      | some conn =>
          have hone : [Output.respond s conn.no pending.rpcId
              (.permissionSelected answer.optionId)].countP q₀.answeredBy = 1 := by
            rw [List.countP_singleton, if_pos ((hresponds hconn e q₀ hq hrpc).mpr rfl)]
          exact ⟨hone.le, fun _ => hone⟩
    · have hcount : x'.agents.permissions.countP q.answeredBy =
          x.agents.permissions.countP q.answeredBy := by
        rw [hpermissions, List.countP_append]
        unfold AgentsManager.written
        cases hconn : (x.agents.slots s).connection with
        | none => rfl
        | some conn =>
            rw [Option.map_some, Option.toList_some, List.countP_singleton,
              if_neg fun hr => he ((hresponds hconn e q hq hrpc).mp hr)]
            rfl
      have hdifferent : ∀ {id : String}, x.latest id = some e → id ≠ answer.requestId := by
        rintro id hsome rfl
        rw [hheld.latest] at hsome
        exact he (Option.some.inj hsome).symm
      refine htally.keep hcount ?_ (fun ho htoken => ?_) hlives
      · unfold Open
        rw [hlatest, hpending q.slotIdx]
        refine and_congr_right fun hsome => ?_
        split
        · rename_i hs
          rw [KeyedMap.get?_remove, if_neg (hdifferent hsome), hs]
        · exact Iff.rfl
      · rcases hkept _ htoken with hmem | hspent
        · exact hmem
        · exact absurd (congrArg Prod.fst hspent) (hdifferent ho.1)

theorem Served.step (h : Served x) (hreach : (life cfg chCfg).ReachableUnder Serves x)
    (hG : Serves x l) (hstep : PermissionSystem.step cfg chCfg x l = some x') : Served x' := by
  have hsep : (life cfg chCfg).ReachableUnder Separates x := hreach.mono fun _ _ hg => hg.1
  have hseparated := separated_of_reachable hsep
  have hagents := agents_reachable hreach
  have hflow := step_flow hreach hstep
  have hnext := step_nextConnection hagents hstep
  have halive : ∀ q ∈ x.requests, Alive x' q → Alive x q :=
    fun q hq hl => hl.of_step hagents hstep (h.numbered q hq)
  have hsame : x'.requests = x.requests → ∀ id, x'.latest id = x.latest id := by
    intro hrequests id
    unfold latest
    rw [hrequests]
  cases step_turn hreach hstep with
  | @shown _ s r k _ htakes hroute hpending hpermissions hrequests _ =>
      have htoken := shown_token hreach hstep htakes hroute
      cases l with
      | agents l' =>
          obtain ⟨hseparates, hserves⟩ := hG
          have hroutes : (x.agents.permissionRoute s r).isSome = true := by
            rw [hroute]
            rfl
          refine h.show hagents (told_of_reachable hreach) (selections_right hsep)
            (hseparates.1 (s, r) htakes hroutes) (hserves (s, r) htakes).2 (fun t ht => ?_) htoken
            hnext halive hpending hpermissions hrequests
          rcases hflow.kept t ht with hmem | hspent
          · exact hmem
          · exact hspent.elim
      | _ => cases htakes
  | @approved _ s r _ htakes hroute _ _ _ _ =>
      cases l with
      | agents l' =>
          have hroutes := (hG.2 (s, r) htakes).1
          dsimp only at hroutes
          rw [hroute] at hroutes
          cases hroutes
      | _ => cases htakes
  | @selected a answer rest s pending _ hanswers hget hpending hpermissions hrequests _ =>
      refine h.answer hseparated hanswers hget (fun t ht => ?_) hnext halive hpending
        hpermissions hrequests
      rcases hflow.kept t ht with hmem | hspent
      · exact Or.inl hmem
      · unfold Spends at hspent
        rw [hanswers] at hspent
        exact Or.inr (Option.some.inj hspent).symm
  | @ignored a answer rest _ hanswers hnone hpending hpermissions hrequests _ =>
      refine h.rest (hsame hrequests) (fun e q _ ho htoken => ?_) hnext halive hpending
        hpermissions hrequests
      rcases hflow.kept _ htoken with hmem | hspent
      · exact hmem
      · -- an open request has a pending permission for the answer
        unfold Spends at hspent
        rw [hanswers] at hspent
        have hid : answer.requestId = AgentsManager.permissionId q.request :=
          congrArg Prod.fst (Option.some.inj hspent)
        have hsome := ho.2
        rw [← hid, hnone q.slotIdx] at hsome
        cases hsome
  | aside hl _ hpending hpermissions hrequests _ =>
      refine h.rest (hsame hrequests) (fun e q _ _ htoken => ?_) hnext halive hpending
        hpermissions hrequests
      rcases hflow.kept _ htoken with hmem | hspent
      · exact hmem
      · cases l with
        | answer a => cases hl
        | event a => exact absurd hspent.2 hG.2
        | _ => exact hspent.elim

/-! ### Runs -/

theorem served_of_reachable (h : (life cfg chCfg).ReachableUnder Serves x) : Served x := by
  refine h.invariant (I := Served) ?_ ?_
  · rintro x ⟨m, ch, ⟨sender, store, b, hstart⟩, _, rfl⟩
    refine ⟨fun o ho => ?_, fun e e' q q' hq => ?_, fun q hq => ?_, fun e q hq => ?_⟩
    · have hmem : o ∈ m.permissions := ho
      rw [AgentsManager.permissions_of_start hstart] at hmem
      cases hmem
    · cases hq
    · cases hq
    · cases hq
  · intro x l x' hreach hI hG hstep
    exact hI.step hreach hG hstep

/-- **While every request is served, it is answered exactly once, and always in one form.** -/
theorem answeredOnce_of_serves (h : (life cfg chCfg).ReachableUnder Serves x) :
    ∀ e q, x.requests[e]? = some q → q.request.rpcId ≠ none → AnsweredOnce x e q := by
  intro e q hq hrpc
  have hserved := served_of_reachable h
  have htally := hserved.tally e q hq hrpc
  refine ⟨?_, fun hnone hlives => ?_, fun o ho => ?_⟩
  · rw [responses_length]
    by_cases hopen : Open x e q
    · exact (htally.waits hopen).1.le.trans (Nat.zero_le 1)
    · exact (htally.answered hopen).1
  · rw [responses_length]
    have hclosed : ¬ Open x e q := fun hopen => hnone _ (htally.waits hopen).2 rfl
    exact (htally.answered hclosed).2 hlives
  · obtain ⟨hmem, hanswered⟩ := List.mem_filter.mp ho
    have happroval := hserved.shown o
      (List.mem_filter.mpr ⟨hmem, q.isPermission_of_answeredBy o hanswered⟩)
    cases o with
    | respond s no rpcId r =>
        cases r with
        | permissionSelected optionId => rfl
        | permissionApproved requestId optionId => cases happroval
        | _ => cases hanswered
    | _ => cases hanswered

theorem answeredOnce_of_serves_bob : ∃ x : PermissionSystem 1 1,
    (life Sample.cfg Sample.channels).ReachableUnder Serves x ∧
      ∃ q ∈ x.requests[0]?, (x.responses q).length = 1 ∧ AnsweredOnce x 0 q := by
  have hrun : ∃ x ∈ execute Sample.cfg Sample.channels Serves Sample.boot
      (Sample.greeting ++ Sample.ask (Sample.request (.number 1)) ++
        [.channels (.permissionAnswered 0 (some "allow")) none, .answer (Sample.answers "s")]),
      ∃ q ∈ x.requests[0]?, (x.responses q).length = 1 ∧ q.request.rpcId ≠ none := by
    decide
  obtain ⟨x, hx, q, hq, hone, hrpc⟩ := hrun
  have hreach := reachable_of_execute hx
  exact ⟨x, hreach, q, hq, hone, answeredOnce_of_serves hreach 0 q hq hrpc⟩

/-- A request for a session that no channel has opened is shown to nobody, and nobody answers
    it. -/
theorem unanswered_without_routing : ¬ ∀ x : PermissionSystem 1 1,
    (life Sample.cfg Sample.channels).Reachable x →
      ∀ e q, x.requests[e]? = some q → q.request.rpcId ≠ none → AnsweredOnce x e q := by
  intro hall
  have hrun : ∃ x ∈ execute Sample.cfg Sample.channels (fun _ _ => True) Sample.boot
      ([.channels (.start fun _ => Sample.channelAnswers "s") none,
        .agents (Sample.send "hello" (Sample.answers "s")), .event (Sample.channelAnswers "s")] ++
        Sample.ask (Sample.request (.number 1))),
      ∃ q ∈ x.requests[0]?, q.request.rpcId ≠ none ∧ (∀ t ∈ x.tokens, t.2 ≠ some 0) ∧
        Alive x q ∧ (x.responses q).length = 0 := by
    decide
  obtain ⟨x, hx, q, hq, hrpc, htokens, halive, hnone⟩ := hrun
  have hone := (hall x (reachable_of_execute hx) 0 q hq hrpc).one htokens halive
  omega

end PermissionSystem

end Anyclaw
