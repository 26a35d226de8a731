import Anyclaw.Agents.Hosts

/-!
# Permission requests in the agents manager

A permission request is routed to a channel and becomes a pending permission of its slot,
or it is answered at once.  A `RespondPermission` command takes the pending permission
out of the first slot that has one under its id.  `step_permissions` lists what a step may
do to the pending permissions, and what it tells the channels and the agents about them.

The functions are `handle_permission_request` (`crates/anyclaw-agents/src/incoming.rs`) and
the arm for `RespondPermission` of `handle_command` (`commands.rs`).
-/

namespace Anyclaw

variable {n : Nat}

def Output.isPermission : Output n → Bool
  | .event (.routePermission _ _ _ _) => true
  | .respond _ _ _ (.permissionSelected _) => true
  | .respond _ _ _ (.permissionApproved _ _) => true
  | _ => false

theorem Output.isMessage_of_isPermission {o : Output n} (h : o.isPermission = true) :
    o.isMessage = true := by
  cases o with
  | event e => rfl
  | respond s no rpcId r => rfl
  | _ => cases h

def Label.answersPermission : Label n → Bool
  | .command (.respondPermission _ _) _ => true
  | _ => false

namespace AgentsManager

variable {cfg : AgentsManagerConfig n} {m m' : AgentsManager n} {l : Label n} {b : Backlog n}
  {s : Fin n}

def permissions (m : AgentsManager n) : List (Output n) := m.trace.filter Output.isPermission

def takes (m : AgentsManager n) (l : Label n) : Option (Fin n × PermissionRequest) :=
  (m.dequeued l).bind SlotIncoming.asks

/-- The session key under which a request of slot `s` is shown to a channel. -/
def permissionRoute (m : AgentsManager n) (s : Fin n) (r : PermissionRequest) :
    Option SessionKey :=
  if m.channelsSender then (m.slots s).reverseMap.get? (r.sessionId.getD "") else none

/-- The option with which a request without a route is approved. -/
def autoOption (r : PermissionRequest) : String :=
  ((r.options.getD []).head?.map PermissionOption.optionId).getD "once"

def pendingPermission (r : PermissionRequest) : PendingPermission where
  rpcId := r.rpcId
  description := permissionDescription r
  options := r.options.getD []

def written (m : AgentsManager n) (s : Fin n) (rpcId : Option RequestId) (r : AgentResponse) :
    List (Output n) :=
  ((m.slots s).connection.map fun conn => Output.respond s conn.no rpcId r).toList

/-- The pending permissions of the slots are those of `m`, but for slot `s`. -/
def PendingBut (m m' : AgentsManager n) (s : Fin n) (pending : KeyedMap String PendingPermission) :
    Prop :=
  ∀ s', (m'.slots s').pendingPermissions =
    if s' = s then pending else (m.slots s').pendingPermissions

def SamePending (m m' : AgentsManager n) : Prop :=
  ∀ s, (m'.slots s).pendingPermissions = (m.slots s).pendingPermissions

inductive PermissionStep (m : AgentsManager n) : Label n → AgentsManager n → Prop
  | routed {l : Label n} {s : Fin n} {r : PermissionRequest} {k : SessionKey}
      {m' : AgentsManager n} (htakes : m.takes l = some (s, r))
      (hroute : m.permissionRoute s r = some k)
      (hpending : PendingBut m m' s
        ((m.slots s).pendingPermissions.set (permissionId r) (pendingPermission r)))
      (hpermissions : m'.permissions = m.permissions ++
        [.event (.routePermission k (permissionId r) (permissionDescription r)
          (r.options.getD []))]) :
      PermissionStep m l m'
  | unrouted {l : Label n} {s : Fin n} {r : PermissionRequest} {m' : AgentsManager n}
      (htakes : m.takes l = some (s, r)) (hroute : m.permissionRoute s r = none)
      (hpending : SamePending m m')
      (hpermissions : m'.permissions = m.permissions ++
        m.written s r.rpcId (.permissionApproved (permissionId r) (autoOption r))) :
      PermissionStep m l m'
  | answered {requestId optionId : String} {a : Answers} {s : Fin n} {p : PendingPermission}
      {m' : AgentsManager n} (hget : (m.slots s).pendingPermissions.get? requestId = some p)
      (hpending : PendingBut m m' s ((m.slots s).pendingPermissions.remove requestId))
      (hpermissions : m'.permissions = m.permissions ++
        m.written s p.rpcId (.permissionSelected optionId)) :
      PermissionStep m (.command (.respondPermission requestId optionId) a) m'
  | unknown {requestId optionId : String} {a : Answers}
      (hnone : ∀ s, (m.slots s).pendingPermissions.get? requestId = none) :
      PermissionStep m (.command (.respondPermission requestId optionId) a) m
  | aside {l : Label n} {m' : AgentsManager n} (htakes : m.takes l = none)
      (hl : l.answersPermission = false) (hpending : SamePending m m')
      (hpermissions : m'.permissions = m.permissions) : PermissionStep m l m'

/-! ### Outputs -/

@[simp] theorem permissions_emit (m : AgentsManager n) (o : Output n) :
    (m.emit o).permissions = m.permissions ++ if o.isPermission then [o] else [] := by
  unfold permissions
  rw [emit_trace, List.filter_append, List.filter_singleton, Bool.cond_eq_ite]

theorem permissions_emitAll (m : AgentsManager n) {os : List (Output n)}
    (hos : ∀ o ∈ os, o.isPermission = false) : (m.emitAll os).permissions = m.permissions := by
  have hnil : os.filter Output.isPermission = [] :=
    List.filter_eq_nil_iff.mpr fun o ho => Bool.eq_false_iff.mp (hos o ho)
  unfold permissions
  rw [emitAll_trace, List.filter_append, hnil, List.append_nil]

theorem permissions_eq (m : AgentsManager n) :
    m.permissions = m.backlog.messages.filter Output.isPermission := by
  unfold permissions
  rw [backlog_messages, List.filter_filter]
  refine List.filter_congr fun o _ => ?_
  cases ho : o.isPermission with
  | true => rw [Output.isMessage_of_isPermission ho, Bool.and_self]
  | false => rw [Bool.false_and]

theorem permissions_told (m : AgentsManager n) {es : List ChannelEvent}
    (hes : ∀ e ∈ es, (Output.event e : Output n).isPermission = false) :
    (m.told es).filter Output.isPermission = [] := by
  refine List.filter_eq_nil_iff.mpr fun o ho => ?_
  obtain ⟨e, he, rfl⟩ := exists_of_mem_told ho
  exact Bool.eq_false_iff.mp (hes e he)

/-- Only a step that receives a message or a command to respond concerns permissions. -/
theorem Effect.permissions (h : Effect cfg m l b) (hl : l.speaks = false) :
    b.messages.filter Output.isPermission = m.backlog.messages.filter Output.isPermission := by
  have hreceives : ∀ {a : Answers}, ¬ Receives l a := by
    rintro a (rfl | rfl) <;> cases hl
  have hstarted : ∀ k, (m.told [.dispatchStarted k]).filter Output.isPermission = [] :=
    fun k => permissions_told m (List.forall_mem_singleton.mpr rfl)
  have hclosing : ∀ {c : PromptCompletion} {d : Anyclaw.Delivered},
      (m.told (m.closing c d)).filter Output.isPermission = [] := by
    intro c d
    refine permissions_told m (List.forall_mem_append.mpr ⟨?_, List.forall_mem_singleton.mpr rfl⟩)
    split
    · exact fun _ he => nomatch he
    · exact List.forall_mem_singleton.mpr rfl
  cases h with
  | talked htalk =>
      cases htalk with
      | forwarded hreceive _ _ _ _ => exact absurd hreceive hreceives
      | malformed hreceive _ _ => exact absurd hreceive hreceives
      | crashed hreceive _ _ => exact absurd hreceive hreceives
      | aside hspeaks _ =>
          rw [hl] at hspeaks
          cases hspeaks
  | released _ =>
      rw [Backlog.release_messages, Backlog.sayAll_messages, List.filter_append,
        permissions_told m, List.append_nil]
      simp [syntheticChunk, Output.isPermission]
  | refused _ _ _ =>
      rw [Backlog.sayAll_messages, List.filter_append, permissions_told m, List.append_nil]
      simp [syntheticResponse, syntheticChunk, Output.isPermission]
  | @lost _ c d es _ _ _ _ hes =>
      have hannounced : (m.told es).filter Output.isPermission = [] := by
        rw [hes]
        split
        · exact hstarted _
        · rw [told_nil]
          rfl
      simp [reported, hclosing, hannounced]
  | _ => simp [reported, hclosing, hstarted, Output.isPermission]

theorem permissions_quiet (hplain : m.backlog.Plain) (hstep : step cfg m l = some m')
    (hl : l.speaks = false) : m'.permissions = m.permissions := by
  rw [permissions_eq, permissions_eq]
  exact (step_advances hplain hstep).effect.permissions hl

/-- A boot concerns no permission. -/
theorem permissions_of_start {sender : Bool} {store : SessionStore} {b : StartAnswers n}
    (h : start cfg (fresh cfg sender store) b = some m) : m.permissions = [] := by
  obtain ⟨⟨os, hspoken, hos⟩, _⟩ := start_boots cfg _ b h
  rw [permissions_eq, hspoken.backlog, Backlog.sayAll_messages, List.filter_append]
  refine List.append_eq_nil_iff.mpr ⟨rfl, List.filter_eq_nil_iff.mpr fun o ho => ?_⟩
  have hspawn := hos o ho
  cases o with
  | spawned s no => exact Bool.false_ne_true
  | _ => cases hspawn

/-! ### Messages -/

theorem written_eq (m : AgentsManager n) (s : Fin n) (rpcId : Option RequestId)
    (r : AgentResponse) : m.respond s rpcId r = m.emitAll (m.written s rpcId r) := by
  unfold respond written
  cases (m.slots s).connection with
  | none =>
      rw [emitAll]
      simp
  | some conn => rfl

theorem permissions_respond (m : AgentsManager n) (s : Fin n) (rpcId : Option RequestId)
    (r : AgentResponse) : (m.respond s rpcId r).permissions =
      m.permissions ++ (m.written s rpcId r).filter Output.isPermission := by
  rw [written_eq]
  unfold permissions
  rw [emitAll_trace, List.filter_append]

theorem handlePermissionRequest_permissions {rest : List (SlotIncoming n)}
    {r : PermissionRequest} (htakes : m.takes l = some (s, r)) :
    PermissionStep m l (handlePermissionRequest { m with incoming := rest } s r) := by
  unfold handlePermissionRequest
  dsimp only
  split
  · rename_i k hget hsender
    have hroute : m.permissionRoute s r = some k := by
      unfold permissionRoute
      rw [if_pos hsender]
      exact hget
    refine .routed htakes hroute (fun s' => ?_) ?_
    · rw [slots_modifySlot]
      split
      · rfl
      · rfl
    · exact permissions_emit { m with incoming := rest } _
  · rename_i hnone
    have hroute : m.permissionRoute s r = none := by
      unfold permissionRoute
      split
      · rename_i hsender
        exact Option.eq_none_iff_forall_ne_some.mpr fun k hget => hnone k hget hsender
      · rfl
    have hwritten : (m.written s r.rpcId (.permissionApproved (permissionId r)
        (autoOption r))).filter Output.isPermission =
        m.written s r.rpcId (.permissionApproved (permissionId r) (autoOption r)) := by
      unfold written
      cases (m.slots s).connection <;> rfl
    have hpermissions := permissions_respond { m with incoming := rest } s r.rpcId
      (.permissionApproved (permissionId r) (autoOption r))
    refine .unrouted htakes hroute ?_ (hpermissions.trans (congrArg _ hwritten))
    split
    · exact fun _ => rfl
    · exact fun _ => rfl

/-- No permission was asked for, shown or answered. -/
structure Impartial (m m' : AgentsManager n) : Prop where
  pending : SamePending m m'
  permissions : m'.permissions = m.permissions

theorem Impartial.trans {m₁ : AgentsManager n} (h : Impartial m m₁) (h' : Impartial m₁ m') :
    Impartial m m' where
  pending s := (h'.pending s).trans (h.pending s)
  permissions := h'.permissions.trans h.permissions

theorem emitAll_impartial (m : AgentsManager n) {os : List (Output n)}
    (hos : ∀ o ∈ os, o.isPermission = false) : Impartial m (m.emitAll os) :=
  ⟨fun _ => rfl, permissions_emitAll m hos⟩

theorem sendEvents_impartial (m : AgentsManager n) {es : List ChannelEvent}
    (hes : ∀ e ∈ es, (Output.event e : Output n).isPermission = false) :
    Impartial m (m.sendEvents es) := by
  rw [sendEvents_eq]
  refine emitAll_impartial m fun o ho => ?_
  obtain ⟨e, he, rfl⟩ := exists_of_mem_told ho
  exact hes e he

theorem impartial_respond (m : AgentsManager n) (s : Fin n) (rpcId : Option RequestId)
    {r : AgentResponse} (hr : ∀ no, (Output.respond s no rpcId r).isPermission = false) :
    Impartial m (m.respond s rpcId r) := by
  rw [written_eq]
  refine emitAll_impartial m fun o ho => ?_
  obtain ⟨conn, _, rfl⟩ := Option.map_eq_some_iff.mp (Option.mem_toList.mp ho)
  exact hr conn.no

/-- A message of an agent that does not ask for a permission. -/
theorem handleIncoming_impartial {msg : IncomingMessage} (m : AgentsManager n) (s : Fin n)
    (hmsg : (SlotIncoming.mk s (some msg)).asks = none) :
    Impartial m (m.handleIncoming s msg) := by
  have hrefl : Impartial m m := ⟨fun _ => rfl, rfl⟩
  cases msg with
  | requestPermission r => cases hmsg
  | sessionUpdate u =>
      rw [handleIncoming, forwardSessionUpdate]
      split
      · exact hrefl
      · split
        · rename_i k _ _
          have hemit := permissions_emit m (.event (.deliverMessage k (.update u)))
          rw [if_neg (by simp [Output.isPermission]), List.append_nil] at hemit
          dsimp only
          split
          · exact ⟨fun _ => rfl, hemit⟩
          · exact ⟨fun _ => rfl, hemit⟩
        · exact hrefl
  | malformedUpdate sessionId error =>
      rw [handleIncoming, forwardMalformedUpdateError]
      split
      · exact hrefl
      · exact sendEvents_impartial m (List.forall_mem_singleton.mpr rfl)
  | sessionPush rpcId params =>
      rw [handleIncoming]
      cases params with
      | missing => exact impartial_respond m s rpcId fun _ => rfl
      | invalid => exact impartial_respond m s rpcId fun _ => rfl
      | valid sessionId content =>
          rw [handleSessionPush]
          split
          · exact impartial_respond m s rpcId fun _ => rfl
          · rename_i k _
            split
            · have hpush : Impartial m (m.sendEvents
                  (content.map fun part => .deliverMessage k (.pushed part))) := by
                refine sendEvents_impartial m fun e he => ?_
                obtain ⟨part, _, rfl⟩ := List.mem_map.mp he
                rfl
              exact hpush.trans (impartial_respond _ s rpcId fun _ => rfl)
            · exact impartial_respond m s rpcId fun _ => rfl
  | fsRequest rpcId outcome =>
      refine impartial_respond m s rpcId fun _ => ?_
      cases outcome <;> rfl
  | otherMethod rpcId => exact impartial_respond m s rpcId fun _ => rfl

theorem handleCrash_impartial (m : AgentsManager n) (s : Fin n) (a : Answers) :
    Impartial m (handleCrash cfg m s a) := by
  have hprocess := handleCrash_process cfg m s a
  constructor
  · intro s'
    by_cases hs : s' = s
    · rw [hs]
      exact hprocess.pending
    · rw [hprocess.others s' hs]
  · have hnone : (crashOutputs cfg m s a).filter Output.isPermission = [] := by
      refine List.filter_eq_nil_iff.mpr fun o ho => ?_
      rcases mem_crashOutputs ho with ⟨e, he, rfl⟩ | rfl
      · obtain ⟨_, _, _, _, rfl⟩ := mem_crashNotices he
        exact Bool.false_ne_true
      · exact Bool.false_ne_true
    rw [permissions_eq, permissions_eq, (handleCrash_spoken cfg m s a).backlog,
      Backlog.sayAll_messages, List.filter_append, hnone, List.append_nil]

/-! ### Answers -/

theorem respondPermission_permissions (m : AgentsManager n) (requestId optionId : String)
    (a : Answers) : PermissionStep m (.command (.respondPermission requestId optionId) a)
      (m.respondPermission requestId optionId) := by
  unfold respondPermission
  split
  · rename_i hnone
    refine .unknown fun s => ?_
    have hnot := List.find?_eq_none.mp hnone s (List.mem_finRange s)
    exact (KeyedMap.not_contains_iff _ _).mp (Bool.eq_false_iff.mpr hnot)
  · rename_i s hfind
    have hcontains := List.find?_some hfind
    obtain ⟨p, hget⟩ := (KeyedMap.contains_iff _ _).mp hcontains
    -- the slot without the pending permission; the answer is written as any response is
    have hresponded : ∀ m₁ : AgentsManager n,
        PendingBut m m₁ s ((m.slots s).pendingPermissions.remove requestId) →
        (m₁.slots s).connection = (m.slots s).connection → m₁.permissions = m.permissions →
        PermissionStep m (.command (.respondPermission requestId optionId) a)
          (m₁.respond s p.rpcId (.permissionSelected optionId)) := by
      intro m₁ hpending hconn hpermissions
      have hwritten : (m₁.written s p.rpcId (.permissionSelected optionId)).filter
          Output.isPermission = m.written s p.rpcId (.permissionSelected optionId) := by
        unfold written
        rw [hconn]
        cases (m.slots s).connection <;> rfl
      refine .answered hget ?_ ?_
      · rw [written_eq]
        exact hpending
      · rw [permissions_respond, hwritten, hpermissions]
    rw [hget]
    refine hresponded (m.modifySlot s fun slot => { slot with
      pendingPermissions := slot.pendingPermissions.remove requestId }) (fun s' => ?_) ?_ rfl
    · rw [slots_modifySlot]
      split
      · rfl
      · rfl
    · rw [slots_modifySlot, if_pos rfl]

/-! ### Every step -/

/-- **One step of the manager, seen from the permission requests.** -/
theorem step_permissions (hplain : m.backlog.Plain) (hstep : step cfg m l = some m') :
    PermissionStep m l m' := by
  have hquiet := permissions_quiet hplain hstep
  have hheard : ∀ {s' : Fin n} {msg : IncomingMessage} {rest : List (SlotIncoming n)}
      {a : Answers}, Receives l a → m.incoming = ⟨s', some msg⟩ :: rest →
      PermissionStep m l (AgentsManager.handleIncoming { m with incoming := rest } s' msg) := by
    intro s' msg rest a hl hincoming
    have htakes : m.takes l = (SlotIncoming.mk s' (some msg)).asks := by
      unfold takes
      rw [(dequeued_of_receives hl hincoming).1]
      rfl
    have hanswer : l.answersPermission = false := by
      rcases hl with rfl | rfl <;> rfl
    cases hasks : (SlotIncoming.mk s' (some msg)).asks with
    | none =>
        have himpartial := handleIncoming_impartial { m with incoming := rest } s' hasks
        exact .aside (htakes.trans hasks) hanswer himpartial.pending himpartial.permissions
    | some q =>
        cases msg with
        | requestPermission r => exact handlePermissionRequest_permissions htakes
        | _ => cases hasks
  have hsilent : ∀ {s' : Fin n} {rest : List (SlotIncoming n)} {a : Answers}, Receives l a →
      m.incoming = ⟨s', none⟩ :: rest →
      m.takes l = none ∧ l.answersPermission = false := by
    intro s' rest a hl hincoming
    constructor
    · unfold takes
      rw [(dequeued_of_receives hl hincoming).1]
      rfl
    · rcases hl with rfl | rfl <;> rfl
  have hother : l.speaks = false → SamePending m m' → PermissionStep m l m' := by
    intro hl hpending
    refine .aside ?_ ?_ hpending (hquiet hl)
    · cases l with
      | recvIncoming a => cases hl
      | drainIncoming a => cases hl
      | _ => rfl
    · cases l with
      | command c a =>
          cases c with
          | respondPermission requestId optionId => cases hl
          | _ => rfl
      | _ => rfl
  cases step_processes hplain hstep with
  | steady hl _ htracks =>
      refine hother hl fun s' => ?_
      cases htracks with
      | kept hstatus _ _ _ => exact congrArg SlotStatus.pendingPermissions (hstatus s')
      | prompted _ _ _ hstatus _ _ =>
          have hpending := congrArg SlotStatus.pendingPermissions (hstatus s')
          split at hpending
          · exact hpending
          · exact hpending
  | unqueued _ _ _ _ hslots _ _ =>
      refine hother rfl fun s' => ?_
      rw [hslots]
  | permissionAnswered => exact respondPermission_permissions m _ _ _
  | promptAnswered _ _ => exact hother rfl fun _ => rfl
  | promptLost _ _ => exact hother rfl fun _ => rfl
  | promptAbandoned _ _ => exact hother rfl fun _ => rfl
  | queued _ => exact hother rfl fun _ => rfl
  | @ended s' _ =>
      refine hother rfl fun s'' => ?_
      rw [slots_modifySlot]
      split
      · rename_i hs
        rw [hs]
        rfl
      · rfl
  | heard hl hincoming => exact hheard hl hincoming
  | skipped hincoming _ =>
      obtain ⟨htakes, hanswer⟩ := hsilent (Or.inl rfl) hincoming
      exact .aside htakes hanswer (fun _ => rfl) rfl
  | @crashed _ a s' rest hl hincoming _ =>
      obtain ⟨htakes, hanswer⟩ := hsilent hl hincoming
      have himpartial : Impartial _ (handleCrash cfg { m with incoming := rest } s' a) :=
        handleCrash_impartial { m with incoming := rest } s' a
      exact .aside htakes hanswer himpartial.pending himpartial.permissions
  | stopped hl _ => exact hother hl fun _ => rfl

end AgentsManager

end Anyclaw
