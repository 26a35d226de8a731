import Anyclaw.Permissions.Identity

/-!
# Who chooses the option

An option is sent as the selected one for an answer of the channel, or as `"denied"` when none
came.  The agents manager chooses by itself only for a request that it cannot show.

The answers are made in the arm for `RespondPermission` of `handle_command`
(`crates/anyclaw-agents/src/commands.rs`), in the task of `route_permission_event`
(`crates/anyclaw-channels/src/manager.rs`), and in `handle_permission_request` (`incoming.rs`
of the agents).
-/

namespace Anyclaw

variable {n c : Nat}

/-- A request is approved without being shown. -/
def Output.isApproval : Output n → Bool
  | .respond _ _ _ (.permissionApproved _ _) => true
  | _ => false

def Output.selected : Output n → Option String
  | .respond _ _ _ (.permissionSelected optionId) => some optionId
  | _ => none

/-- The option that is sent for what the channel said; nothing is promised for an answer that
    names no option. -/
def Said.Gives (said : Said) (optionId : String) : Prop :=
  match said with
  | .option chosen => optionId = chosen
  | .nothing => optionId = "denied"
  | .unreadable => True

theorem Output.isPermission_of_isApproval (o : Output n) (h : o.isApproval = true) :
    o.isPermission = true := by
  cases o with
  | respond s no rpcId r =>
      cases r with
      | permissionApproved requestId optionId => rfl
      | _ => cases h
  | _ => cases h

namespace PermissionSystem

variable {cfg : AgentsManagerConfig n} {chCfg : ChannelsManagerConfig c}
  {x x' : PermissionSystem n c} {l : SystemLabel n c} {s : Fin n}
  {G : PermissionSystem n c → SystemLabel n c → Prop}

/-- The request had no route, and the output approves it with its first option, or with
    `"once"` if it offered none. -/
def Approves (q : TakenPermission n) (o : Output n) : Prop :=
  q.route = none ∧ ∃ no, q.process = some no ∧
    o = .respond q.slotIdx no q.request.rpcId (.permissionApproved
      (AgentsManager.permissionId q.request) (AgentsManager.autoOption q.request))

/-! ### Approvals -/

theorem Turn.approvals (h : Turn x l x') (hhosted : ∀ s, AgentsManager.Hosted x.agents s)
    (hall : ∀ o ∈ x.agents.trace, o.isApproval = true → ∃ q ∈ x.requests, Approves q o) :
    ∀ o ∈ x'.agents.trace, o.isApproval = true → ∃ q ∈ x'.requests, Approves q o := by
  have hfollowed := fun m : AgentsManager n => AgentsManager.filter_permissions m
    Output.isPermission_of_isApproval
  have hgrown := h.requests
  intro o ho happroval
  have hmem : o ∈ x'.agents.permissions := by
    have hfiltered := List.mem_filter.mpr ⟨ho, happroval⟩
    rw [← hfollowed] at hfiltered
    exact List.mem_of_mem_filter hfiltered
  have hold : o ∈ x.agents.permissions → ∃ q ∈ x'.requests, Approves q o := by
    intro hmem
    obtain ⟨q, hq, happroves⟩ := hall o (List.mem_of_mem_filter hmem) happroval
    exact ⟨q, hgrown.subset hq, happroves⟩
  cases h with
  | shown _ _ _ hpermissions _ _ =>
      rw [hpermissions] at hmem
      rcases List.mem_append.mp hmem with hmem | hnew
      · exact hold hmem
      · rw [List.mem_singleton.mp hnew] at happroval
        cases happroval
  | @approved _ s r _ _ _ _ hpermissions hrequests _ =>
      rw [hpermissions] at hmem
      rcases List.mem_append.mp hmem with hmem | hnew
      · exact hold hmem
      · obtain ⟨conn, hconn, rfl⟩ := Option.map_eq_some_iff.mp (Option.mem_toList.mp hnew)
        refine ⟨⟨⟨s, x.agents.latestProcess s, r⟩, none⟩, ?_, rfl, conn.no,
          (hhosted s).connection conn hconn, rfl⟩
        rw [hrequests]
        exact List.mem_append_right _ (List.mem_singleton_self _)
  | selected _ _ _ hpermissions _ _ =>
      rw [hpermissions] at hmem
      rcases List.mem_append.mp hmem with hmem | hnew
      · exact hold hmem
      · obtain ⟨_, _, rfl⟩ := Option.map_eq_some_iff.mp (Option.mem_toList.mp hnew)
        cases happroval
  | ignored _ _ _ hpermissions _ _ => exact hold (hpermissions ▸ hmem)
  | aside _ _ _ hpermissions _ _ => exact hold (hpermissions ▸ hmem)

theorem approvals_of_reachable (h : (life cfg chCfg).ReachableUnder G x) :
    ∀ o ∈ x.agents.trace, o.isApproval = true → ∃ q ∈ x.requests, Approves q o := by
  refine h.invariant (I := fun x => ∀ o ∈ x.agents.trace, o.isApproval = true →
    ∃ q ∈ x.requests, Approves q o) ?_ ?_
  · rintro x ⟨m, ch, ⟨sender, store, b, hstart⟩, _, rfl⟩ o ho happroval
    have hmem : o ∈ m.permissions := by
      have hfiltered := List.mem_filter.mpr ⟨ho, happroval⟩
      unfold fresh at hfiltered
      rw [← AgentsManager.filter_permissions m Output.isPermission_of_isApproval] at hfiltered
      exact List.mem_of_mem_filter hfiltered
    rw [AgentsManager.permissions_of_start hstart] at hmem
    cases hmem
  · intro x l x' hreach hI _ hstep
    exact (step_turn hreach hstep).approvals
      (AgentsManager.hosted_of_reachable (agents_reachable hreach)) hI

/-! ### What the channel said -/

/-- Every answer carries what the channel said, on its way and when it has been sent on. -/
structure Faithful (x : PermissionSystem n c) : Prop where
  answers : ∀ p ∈ x.answers, p.said.Gives p.optionId
  selections : ∀ sel ∈ x.selections, sel.answer.said.Gives sel.optionId

theorem gives_of_endsWait {l : ChannelsLabel c} {i : Nat} {optionId : String}
    (h : l.endsWait = some (i, optionId)) : (l.said optionId).Gives optionId := by
  cases l with
  | permissionAnswered i' chosen =>
      cases chosen with
      | none => exact trivial
      | some o =>
          cases h
          rfl
  | permissionTimedOut i' =>
      cases h
      rfl
  | permissionClosed i' =>
      cases h
      rfl
  | _ => cases h

theorem gives_of_volunteered {ch : ChannelsManager c} {l : ChannelsLabel c}
    {p : String × String} (h : ch.volunteered l = some p) : (l.said p.2).Gives p.2 := by
  cases l with
  | recvStream s a => rfl
  | _ => cases h

theorem Faithful.channels {l : ChannelsLabel c} {about : Option Nat} {ch : ChannelsManager c}
    (h : Faithful x) (hstep : ChannelsManager.step chCfg x.channels l = some ch) :
    Faithful (x.afterChannels l about ch) := by
  refine ⟨fun p hp => ?_, h.selections⟩
  rcases List.mem_append.mp hp with hold | hnew
  · exact h.answers p hold
  · obtain ⟨a, ha, rfl⟩ := List.mem_map.mp hnew
    cases ChannelsManager.step_waits hstep with
    | idle _ hsent _ =>
        rw [hsent] at ha
        cases ha
    | asked _ _ hsent =>
        rw [hsent] at ha
        cases ha
    | ended hends _ _ hsent =>
        rw [hsent] at ha
        rw [List.mem_singleton.mp ha]
        exact gives_of_endsWait hends
    | volunteered hvolunteer _ hsent =>
        rw [hsent] at ha
        rw [List.mem_singleton.mp ha]
        exact gives_of_volunteered hvolunteer

theorem faithful_of_reachable (h : (life cfg chCfg).ReachableUnder G x) : Faithful x := by
  refine h.invariant (I := Faithful) ?_ ?_
  · rintro x ⟨m, ch, _, _, rfl⟩
    constructor
    · intro p hp
      cases hp
    · intro sel hsel
      cases hsel
  · intro x l x' hreach hI _ hstep
    have hturn := step_turn hreach hstep
    have hselections : ∀ sel ∈ x'.selections,
        sel.answer.said.Gives sel.optionId := by
      intro sel hsel
      cases hturn with
      | @selected a answer rest s pending _ hanswers _ _ _ _ hselections =>
          rw [hselections] at hsel
          rcases List.mem_append.mp hsel with hold | hnew
          · exact hI.selections sel hold
          · obtain ⟨conn, _, rfl⟩ := Option.map_eq_some_iff.mp (Option.mem_toList.mp hnew)
            exact hI.answers answer (hanswers ▸ List.mem_cons_self)
      | shown _ _ _ _ _ hselections => exact hI.selections sel (hselections ▸ hsel)
      | approved _ _ _ _ _ hselections => exact hI.selections sel (hselections ▸ hsel)
      | ignored _ _ _ _ _ hselections => exact hI.selections sel (hselections ▸ hsel)
      | aside _ _ _ _ _ hselections => exact hI.selections sel (hselections ▸ hsel)
    refine ⟨?_, hselections⟩
    cases move_of_step hstep with
    | agents _ _ => exact hI.answers
    | answer hanswers _ => exact fun q hq => hI.answers q (hanswers ▸ List.mem_cons_of_mem _ hq)
    | event _ _ => exact hI.answers
    | channels _ _ hmove => exact (hI.channels hmove).answers

/-! ### The law -/

/-- What is sent to the agents was chosen by a channel, or it is a denial, or the approval of a
    request without a route. -/
structure Explicit (x : PermissionSystem n c) : Prop where
  told : Told x
  selections : ∀ sel ∈ x.selections, sel.answer.said.Gives sel.optionId
  approvals : ∀ o ∈ x.agents.trace, o.isApproval = true → ∃ q ∈ x.requests, Approves q o

/-- The option was named in the channel's answer to the request, which offered it; else it is
    a denial. -/
def ChosenAmongOffered (x : PermissionSystem n c) : Output n → Prop
  | .respond s no rpcId (.permissionSelected optionId) =>
      optionId = "denied" ∨ ∃ sel ∈ x.selections,
        sel.output = .respond s no rpcId (.permissionSelected optionId) ∧
          sel.answer.said = .option optionId ∧
            ∃ e ∈ sel.answer.request, ∃ q ∈ x.requests[e]?,
              optionId ∈ (q.request.options.getD []).map PermissionOption.optionId
  | .respond _ _ _ (.permissionApproved _ _) => False
  | _ => True

/-- An option that no request offered is not chosen among those offered. -/
theorem not_chosenAmongOffered {o : Output n} {optionId : String}
    (hselected : o.selected = some optionId) (hdenied : optionId ≠ "denied")
    (hoffered : ∀ q ∈ x.requests,
      optionId ∉ (q.request.options.getD []).map PermissionOption.optionId) :
    ¬ ChosenAmongOffered x o := by
  intro hchosen
  cases o with
  | respond s no rpcId r =>
      cases r with
      | permissionSelected chosen =>
          cases hselected
          rcases hchosen with hno | ⟨sel, -, -, -, e, -, q, hq, hmem⟩
          · exact hdenied hno
          · exact hoffered q (List.mem_of_getElem? hq) hmem
      | _ => cases hselected
  | _ => cases hselected

theorem not_chosen_of_isApproval {o : Output n} (h : o.isApproval = true) :
    ¬ ChosenAmongOffered x o := by
  intro hchosen
  cases o with
  | respond s no rpcId r =>
      cases r with
      | permissionApproved requestId optionId => exact hchosen
      | _ => cases h
  | _ => cases h

end PermissionSystem

end Anyclaw
