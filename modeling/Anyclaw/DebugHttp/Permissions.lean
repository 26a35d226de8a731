import Anyclaw.DebugHttp.Steps

/-!
# Permission requests over HTTP

A request is shown by `show_permission_prompt` of `ext/channels/debug-http/src/main.rs`,
listed by `handle_permissions_pending` and answered by `handle_permission_respond`.

* `answers_posted`: every answer to a permission request was posted for its request id, by a
  client that the server let in.
* `seen_of_reachable`: a permission request that waits is on the list of a server that serves
  clients, or an answer to it is on its way, unless the client that answered it has gone away
  too early, or it was shown before there was a server.
-/

namespace Anyclaw

namespace DebugHttpChannel

variable {serde : SerdeJson} {x y : DebugHttpChannel}

/-! ### Answers -/

/-- The answer was posted by a client that the server let in. -/
def AnswerPosted (steps : List (Machine.Taken DebugHttpChannel DebugHttpLabel))
    (r : PermissionResponse) : Prop :=
  ∃ post, Posted steps post ∧ post.endpoint = .permissionRespond r.requestId r.optionId

/-- The harness runs as it does with a channel that gives only answers that were posted. -/
theorem harness_of_reachable
    {x : List (Machine.Taken DebugHttpChannel DebugHttpLabel) × DebugHttpChannel}
    (h : (life serde).recorded.Reachable x) :
    (ChannelHarness.life serde).ReachableUnder
      (fun _ l => ∀ g ∈ l.answers, AnswerPosted x.1 g.response) x.2.harness := by
  refine h.invariant (I := fun x => (ChannelHarness.life serde).ReachableUnder
    (fun _ l => ∀ g ∈ l.answers, AnswerPosted x.1 g.response) x.2.harness) ?_ ?_
  · rintro x ⟨-, hfresh⟩
    rw [hfresh]
    exact Machine.ReachableUnder.init rfl
  · intro x l x' hreach hx _ hs
    obtain ⟨hstep, hsteps⟩ := Machine.of_recorded_step hs
    have hmono : ∀ {r}, AnswerPosted x.1 r → AnswerPosted x'.1 r := by
      rintro r ⟨post, hposted, hpost⟩
      refine ⟨post, hposted.mono ?_, hpost⟩
      rw [hsteps]
      exact List.subset_append_left _ _
    have hold : (ChannelHarness.life serde).ReachableUnder
        (fun _ l => ∀ g ∈ l.answers, AnswerPosted x'.1 g.response) x.2.harness :=
      hx.mono fun _ _ hl g hg => hmono (hl g hg)
    have hdrives := step_drives hstep
    generalize x'.2.harness = z at hdrives
    cases hdrives with
    | aside => exact hold
    | @loop _ hl z hstep hanswers _ =>
        refine hold.step ?_ hstep
        rw [hanswers]
        exact nofun
    | sends ht hhandler hstep =>
        refine hold.step (l := .send _) ?_ hstep
        intro g hg
        cases hg
    | @responds no t id optionId z ht hhandler hstep =>
        refine hold.step (l := .respond none ⟨id, optionId⟩) ?_ hstep
        intro g hg
        rw [List.mem_singleton.mp hg]
        obtain ⟨hposted, hfor⟩ := task_posted hreach t (List.mem_of_getElem? ht)
        rw [hhandler] at hfor
        exact hmono ⟨t.request, hposted, hfor⟩

/-- **Only what was posted is answered.**  The harness answers a permission request at most
    once, under its own id, and only with an option that a client which the server let in has
    posted for its request id. -/
theorem answers_posted (serde : SerdeJson)
    {x : List (Machine.Taken DebugHttpChannel DebugHttpLabel) × DebugHttpChannel}
    (h : (life serde).recorded.Reachable x) :
    (x.2.harness.responses.map HarnessResponse.no).Nodup ∧
      ∀ r ∈ x.2.harness.responses, ∀ q ∈ x.2.harness.requests[r.no]?, ∀ p ∈ q.prompt,
        ∃ optionId, r.response = p.answer q.id optionId ∧
          ∃ s ∈ x.1, ∃ post, s.label = .request post ∧
            post.endpoint = .permissionRespond p.requestId optionId ∧
            ∃ server ∈ s.before.servers[post.server]?, ∀ key ∈ server.apiKey,
              post.authorization = some ("Bearer " ++ key) := by
  have hgiven := ChannelHarness.answersGiven_of_reachable (harness_of_reachable h)
  refine ⟨hgiven.once, fun r hr q hq p hp => ?_⟩
  obtain ⟨optionId, ⟨post, ⟨s, hs, hlabel, server, hserver, hlets⟩, hpost⟩, hr⟩ :=
    hgiven.given r hr q hq p hp
  refine ⟨optionId, hr, s, hs, post, hlabel, hpost, server, hserver, fun key hkey => ?_⟩
  rcases (server.lets_iff post).mp hlets key hkey with hhealth | hauthorized
  · rw [hpost] at hhealth
    cases hhealth
  · exact hauthorized

end DebugHttpChannel

/-! ### The list of pending requests -/

/-- An answer under the request id `k` is being handled. -/
def HttpTask.Answers (t : HttpTask) (k : String) : Prop :=
  ∃ optionId, t.handler = .resolve k optionId ∨ t.handler = .respond k optionId

/-- The client that answered under `k` has gone away before its request was handled. -/
def HttpTask.Abandoned (t : HttpTask) (k : String) : Prop :=
  t.handler = .dropped ∧ ∃ optionId, t.request.endpoint = .permissionRespond k optionId

def DebugServer.Lists (s : DebugServer) (k : String) : Prop :=
  ∃ p ∈ s.pendingPermissions, p.requestId = k

section Lists

variable {α : Type} {l : List α} {n : Nat} {f : α → α} {P : α → Prop}

theorem exists_modify (hf : ∀ a, P a → P (f a)) (h : ∃ a ∈ l, P a) :
    ∃ a ∈ l.modify n f, P a := by
  obtain ⟨a, ha, hP⟩ := h
  obtain ⟨i, hi⟩ := List.mem_iff_getElem?.mp ha
  have hget : (l.modify n f)[i]? = some (if n = i then f a else a) := by
    rw [List.getElem?_modify, hi]
    split <;> simp
  refine ⟨_, List.mem_of_getElem? hget, ?_⟩
  split
  · exact hf a hP
  · exact hP

/-- What holds of an element still holds of one, unless it is the one that is modified. -/
theorem exists_modify_or (h : ∃ a ∈ l, P a) :
    (∃ a ∈ l.modify n f, P a) ∨ ∃ a, l[n]? = some a ∧ P a := by
  obtain ⟨a, ha, hP⟩ := h
  obtain ⟨i, hi⟩ := List.mem_iff_getElem?.mp ha
  by_cases hn : n = i
  · exact .inr ⟨a, hn ▸ hi, hP⟩
  · refine .inl ⟨a, List.mem_of_getElem? (i := i) ?_, hP⟩
    rw [List.getElem?_modify, hi]
    simp [hn]

theorem mem_modify_self {a : α} (h : l[n]? = some a) : f a ∈ l.modify n f := by
  refine List.mem_of_getElem? (i := n) ?_
  rw [List.getElem?_modify, h]
  simp

end Lists

namespace DebugHttpChannel

variable {serde : SerdeJson} {x y : DebugHttpChannel} {k : String}

/-- The request id `k` is on a list, or an answer under it is on its way, or was abandoned. -/
inductive Kept (x : DebugHttpChannel) (k : String) : Prop where
  | listed (h : ∃ s ∈ x.servers, s.Lists k)
  | answering (h : ∃ t ∈ x.tasks, t.Answers k)
  | queued (h : ∃ g ∈ x.harness.permissions, g.response.requestId = k)
  | abandoned (h : ∃ t ∈ x.tasks, t.Abandoned k)

/-- What is kept stays so while nothing is taken from the lists. -/
theorem Kept.of_kept (h : x.Kept k)
    (hservers : (∃ s ∈ x.servers, s.Lists k) → ∃ s ∈ y.servers, s.Lists k)
    (htasks : ∀ t ∈ x.tasks, t ∈ y.tasks)
    (hqueue : ∀ g ∈ x.harness.permissions, g.response.requestId = k →
      g ∈ y.harness.permissions) : y.Kept k := by
  cases h with
  | listed h => exact .listed (hservers h)
  | answering h =>
      obtain ⟨t, ht, hk⟩ := h
      exact .answering ⟨t, htasks t ht, hk⟩
  | queued h =>
      obtain ⟨g, hg, hk⟩ := h
      exact .queued ⟨g, hqueue g hg hk, hk⟩
  | abandoned h =>
      obtain ⟨t, ht, hk⟩ := h
      exact .abandoned ⟨t, htasks t ht, hk⟩

/-- Each permission request that waits is kept, while the harness runs; and there always is a
    server. -/
structure Shows (x : DebugHttpChannel) : Prop where
  started : x.servers ≠ []
  kept : x.harness.running = true → ∀ k, (x.harness.pendingPermissions.get? k).isSome → x.Kept k

/-! #### The loop -/

theorem lists_modifyServer {n : Nat} {f : DebugServer → DebugServer}
    (hf : ∀ s : DebugServer, s.Lists k → (f s).Lists k) (h : ∃ s ∈ x.servers, s.Lists k) :
    ∃ s ∈ (x.modifyServer n f).servers, s.Lists k :=
  exists_modify hf h

/-- The request that the loop reads, when it is a permission request. -/
theorem call_of_permission {req : JsonRpcRequest} {p : ChannelRequestPermission}
    (hp : p ∈ req.permission) : req.call = some (.showPermissionPrompt p) := by
  unfold JsonRpcRequest.permission at hp
  split at hp
  · rename_i hmethod
    have hread : readChannelRequestPermission req.paramsJson = some p := hp
    simp [JsonRpcRequest.call, hmethod, hread]
  · cases hp

/-- What waits after a line and did not wait before is the permission request on the line. -/
theorem waits_nextLine {z w : ChannelHarness} {line : List UInt8} {a : DispatchAnswers}
    (h : z.step serde (.nextLine line a) = some w)
    (hk : (w.pendingPermissions.get? k).isSome) :
    (z.pendingPermissions.get? k).isSome ∨ ∃ req ∈ readRequest serde line, ∃ p,
      req.call = some (.showPermissionPrompt p) ∧ p.requestId = k := by
  obtain ⟨-, h⟩ := Option.ite_none_right_eq_some.mp h
  split at h
  · rename_i req hread
    cases Option.some.inj h
    rcases ChannelHarness.dispatch_cases z req a with
      ⟨result, hdispatch, -⟩ | ⟨p, hp, hdispatch⟩
    · have hpending : (z.handleRequest req a).pendingPermissions = z.pendingPermissions := by
        unfold ChannelHarness.handleRequest
        rw [hdispatch]
        rcases result with failure | _ | r
        · rfl
        · rfl
        · unfold ChannelHarness.writeResponse ChannelHarness.write
          dsimp only
          split <;> rfl
      exact .inl (hpending ▸ hk)
    · have hpending : (z.handleRequest req a).pendingPermissions =
          (z.showPermission req.id p).pendingPermissions := by
        unfold ChannelHarness.handleRequest
        rw [hdispatch]
        cases a.called <;> rfl
      rw [hpending] at hk
      cases hid : req.id with
      | none =>
          rw [hid] at hk
          exact .inl hk
      | some id =>
          rw [hid] at hk
          have hset : ((z.pendingPermissions.set p.requestId ⟨id, z.requests.length⟩).get?
              k).isSome := hk
          rw [KeyedMap.get?_set] at hset
          split at hset
          · rename_i hname
            exact .inr ⟨req, hread, p, call_of_permission hp, hname.symm⟩
          · exact .inl hset
  · cases Option.some.inj h
    exact .inl hk

/-- The loop takes an answer from the queue, which names another request than those that still
    wait; or it does something else. -/
theorem waits_ofLoop {z w : ChannelHarness} {l : HarnessLabel} (hl : l.ofLoop = true)
    (h : z.step serde l = some w) (hk : (w.pendingPermissions.get? k).isSome) :
    (z.pendingPermissions.get? k).isSome ∧
      ∀ g ∈ z.permissions, g.response.requestId = k → g ∈ w.permissions := by
  cases ChannelHarness.step_handles h with
  | aside _ hsame =>
      rw [hsame.pending] at hk
      exact ⟨hk, fun g hg _ => hsame.permissions ▸ hg⟩
  | given => cases hl
  | received => cases hl
  | shown => cases hl
  | @dropped g rest written hqueue hnone =>
      refine ⟨hk, fun g' hg' hname => ?_⟩
      rw [hqueue] at hg'
      rcases List.mem_cons.mp hg' with rfl | hg'
      · rw [hname] at hnone
        change (z.pendingPermissions.get? k).isSome at hk
        rw [hnone] at hk
        cases hk
      · exact hg'
  | @flushed g rest written e hqueue he =>
      have hremoved : ((z.pendingPermissions.remove g.response.requestId).get? k).isSome := by
        cases written <;> exact hk
      rw [KeyedMap.get?_remove] at hremoved
      split at hremoved
      · cases hremoved
      · rename_i hne
        refine ⟨hremoved, fun g' hg' hname => ?_⟩
        rw [hqueue] at hg'
        rcases List.mem_cons.mp hg' with rfl | hg'
        · exact absurd hname.symm hne
        · cases written <;> exact hg'

theorem permissions_nextLine {z w : ChannelHarness} {line : List UInt8} {a : DispatchAnswers}
    (h : z.step serde (.nextLine line a) = some w) : w.permissions = z.permissions := by
  cases ChannelHarness.step_handles h with
  | aside _ hsame => exact hsame.permissions
  | received _ _ hpermissions _ _ => exact hpermissions
  | @shown _ _ _ id p hsame =>
      rw [hsame.permissions]
      cases id <;> rfl

/-- A callback keeps the lists, and a permission request joins the last one. -/
theorem lists_called (hx : x.servers ≠ []) (bound : Bool) (call : ChannelCall) :
    (x.called bound call).servers ≠ [] ∧
      ((∃ s ∈ x.servers, s.Lists k) → ∃ s ∈ (x.called bound call).servers, s.Lists k) ∧
      ∀ p, call = .showPermissionPrompt p →
        ∃ s ∈ (x.called bound call).servers, s.Lists p.requestId := by
  cases call with
  | onInitialize params =>
      cases bound with
      | false => exact ⟨hx, id, nofun⟩
      | true =>
          refine ⟨by simp [called], ?_, nofun⟩
          rintro ⟨s, hs, hlists⟩
          exact ⟨s, List.mem_append_left _ hs, hlists⟩
  | showPermissionPrompt p =>
      have hlast : x.servers.length - 1 < x.servers.length := by
        have hpos := List.length_pos_iff.mpr hx
        omega
      refine ⟨by simpa [called, modifyState, modifyServer] using hx, lists_modifyServer ?_, ?_⟩
      · rintro s ⟨p', hp', hk⟩
        exact ⟨p', List.mem_append_left _ hp', hk⟩
      · rintro p' ⟨⟩
        exact ⟨_, mem_modify_self (List.getElem?_eq_getElem hlast), p,
          List.mem_append_right _ List.mem_cons_self, rfl⟩
  | deliverMessage message => exact ⟨hx, id, nofun⟩
  | onSessionCreated message => exact ⟨hx, id, nofun⟩
  | handleUnknown method params => exact ⟨hx, id, nofun⟩

theorem Shows.nextLine (h : x.Shows) {line : List UInt8} {bound written : Bool}
    (hs : x.readLine serde line bound written = some y) : y.Shows := by
  obtain ⟨a, harness, hstep, hy⟩ := readLine_cases hs
  have hrunning : x.harness.running = true := (ChannelHarness.step_passes hstep).1
  have hpermissions := permissions_nextLine hstep
  have hwaits := fun k hk => waits_nextLine (k := k) hstep hk
  rcases hy with ⟨rfl, hnone⟩ | ⟨req, hread, call, hcall, rfl⟩
  · refine ⟨h.started, fun _ k hk => ?_⟩
    rcases hwaits k hk with hold | ⟨req, hread, p, hcall, -⟩
    · exact (h.kept hrunning k hold).of_kept id (fun _ ht => ht) fun g hg _ => hpermissions ▸ hg
    · rw [hnone req hread] at hcall
      cases hcall
  · let z : DebugHttpChannel := { x with harness := harness }
    obtain ⟨hstarted, -, -⟩ := lists_called (k := "") (x := z) h.started bound call
    refine ⟨hstarted, fun _ k hk => ?_⟩
    rw [harness_called] at hk
    obtain ⟨-, hkept, hprompt⟩ := lists_called (k := k) (x := z) h.started bound call
    rcases hwaits k hk with hold | ⟨req', hread', p, hcall', hname⟩
    · refine (h.kept hrunning k hold).of_kept hkept (fun t ht => ?_) fun g hg _ => ?_
      · rw [tasks_called]
        exact ht
      · rw [harness_called]
        exact hpermissions ▸ hg
    · obtain rfl : req' = req := Option.mem_unique hread' hread
      rw [hcall] at hcall'
      rw [← hname]
      exact .listed (hprompt p (Option.some.inj hcall'))

/-! #### The handlers -/

/-- The handler of a task goes on, and what its task stood for is kept otherwise. -/
theorem Kept.of_worked (h : x.Kept k) {no : Nat} {t : HttpTask} (handler : Handler)
    (ht : x.tasks[no]? = some t)
    (htasks : y.tasks = x.tasks.modify no fun t => { t with handler := handler })
    (hservers : (∃ s ∈ x.servers, s.Lists k) → y.Kept k)
    (hqueue : ∀ g ∈ x.harness.permissions, g ∈ y.harness.permissions)
    (hanswers : ∀ o, t.handler = .resolve k o ∨ t.handler = .respond k o → y.Kept k)
    (habandoned : t.Abandoned k → y.Kept k) : y.Kept k := by
  cases h with
  | listed h => exact hservers h
  | answering h =>
      rcases exists_modify_or (n := no) (f := fun t => { t with handler := handler }) h with
        hother | ⟨t', ht', o, ho⟩
      · exact .answering (htasks ▸ hother)
      · rw [ht] at ht'
        cases ht'
        exact hanswers o ho
  | queued h =>
      obtain ⟨g, hg, hk⟩ := h
      exact .queued ⟨g, hqueue g hg, hk⟩
  | abandoned h =>
      rcases exists_modify_or (n := no) (f := fun t => { t with handler := handler }) h with
        hother | ⟨t', ht', hdropped⟩
      · exact .abandoned (htasks ▸ hother)
      · rw [ht] at ht'
        cases ht'
        exact habandoned hdropped

/-- What is sent to a harness that runs then leaves the requests that wait. -/
theorem waits_sendToHarness {l : HarnessLabel}
    (hl : (∃ message, l = .send message) ∨ ∃ r, l = .respond none r)
    (h : x.sendToHarness serde l = some y) (hrunning : y.harness.running = true) :
    x.harness.running = true ∧
      y.harness.pendingPermissions = x.harness.pendingPermissions ∧
      y.harness.permissions = x.harness.permissions ++ l.answers := by
  rcases sendToHarness_cases h with ⟨harness, hstep, rfl⟩ | ⟨hended, rfl⟩
  · refine ⟨(ChannelHarness.step_passes hstep).1, ?_⟩
    rcases hl with ⟨message, rfl⟩ | ⟨r, rfl⟩
    · cases ChannelHarness.step_handles hstep with
      | aside _ hsame => exact ⟨hsame.pending, by simp [hsame.permissions, HarnessLabel.answers]⟩
    · cases ChannelHarness.step_handles hstep with
      | aside hanswers _ => cases hanswers
      | given => exact ⟨rfl, rfl⟩
  · rw [hended] at hrunning
    cases hrunning

theorem servers_sendToHarness {l : HarnessLabel} (h : x.sendToHarness serde l = some y) :
    y.servers = x.servers := by
  rcases sendToHarness_cases h with ⟨harness, -, rfl⟩ | ⟨-, rfl⟩
  · rfl
  · rfl

/-- A handler sends something to the harness and answers. -/
theorem Shows.sent (h : x.Shows) {no : Nat} {t : HttpTask} {l : HarnessLabel} {body : Json}
    {z : DebugHttpChannel} (ht : x.tasks[no]? = some t)
    (hl : (∃ message, l = .send message) ∨ ∃ r, l = .respond none r)
    (hz : x.sendToHarness serde l = some z)
    (hanswers : ∀ k o, t.handler = .resolve k o ∨ t.handler = .respond k o →
      ∃ g ∈ l.answers, g.response.requestId = k)
    (hdropped : t.handler ≠ .dropped) : (z.setHandler no (.answered (.ok body))).Shows := by
  have hservers := servers_sendToHarness hz
  refine ⟨by simpa [setHandler, hservers] using h.started, fun hrunning k hk => ?_⟩
  obtain ⟨hran, hpending, hpermissions⟩ := waits_sendToHarness hl hz hrunning
  have hwaits : (x.harness.pendingPermissions.get? k).isSome := hpending ▸ hk
  refine (h.kept hran k hwaits).of_worked (.answered (.ok body)) ht ?_ ?_ ?_ ?_ ?_
  · rw [setHandler, tasks_sendToHarness hz]
  · intro hlists
    exact .listed (hservers ▸ hlists)
  · intro g hg
    change g ∈ z.harness.permissions
    rw [hpermissions]
    exact List.mem_append_left _ hg
  · intro o ho
    obtain ⟨g, hg, hk⟩ := hanswers k o ho
    refine .queued ⟨g, ?_, hk⟩
    change g ∈ z.harness.permissions
    rw [hpermissions]
    exact List.mem_append_right _ hg
  · exact fun habandoned => absurd habandoned.1 hdropped

/-- A handler goes on without the harness. -/
theorem Shows.worked (h : x.Shows) {no n : Nat} {t : HttpTask} {handler : Handler}
    {f : DebugServer → DebugServer} (ht : x.tasks[no]? = some t)
    (hlists : ∀ s k, s.Lists k → (f s).Lists k ∨ HttpTask.Answers ⟨t.request, handler⟩ k)
    (hanswers : ∀ k o, t.handler = .resolve k o ∨ t.handler = .respond k o →
      HttpTask.Answers ⟨t.request, handler⟩ k ∨ HttpTask.Abandoned ⟨t.request, handler⟩ k)
    (habandoned : ∀ k, t.Abandoned k → HttpTask.Abandoned ⟨t.request, handler⟩ k) :
    ((x.modifyServer n f).setHandler no handler).Shows := by
  have hself : (⟨t.request, handler⟩ : HttpTask) ∈
      ((x.modifyServer n f).setHandler no handler).tasks := mem_modify_self ht
  refine ⟨by simpa [setHandler, modifyServer] using h.started, fun hrunning k hk => ?_⟩
  refine (h.kept hrunning k hk).of_worked _ ht rfl ?_ (fun g hg => hg) ?_ ?_
  · intro hlisted
    by_cases hself' : HttpTask.Answers ⟨t.request, handler⟩ k
    · exact .answering ⟨_, hself, hself'⟩
    · exact .listed (lists_modifyServer (fun s hs => (hlists s k hs).resolve_right hself') hlisted)
  · intro o ho
    rcases hanswers k o ho with hnow | hnow
    · exact .answering ⟨_, hself, hnow⟩
    · exact .abandoned ⟨_, hself, hnow⟩
  · exact fun hold => .abandoned ⟨_, hself, habandoned k hold⟩

theorem modifyServer_id (n : Nat) : x.modifyServer n id = x := by
  unfold modifyServer
  rw [List.modify_id]

theorem Shows.proceed (h : x.Shows) {no : Nat} {t : HttpTask} (ht : x.tasks[no]? = some t)
    (hs : x.proceed serde no t = some y) : y.Shows := by
  unfold DebugHttpChannel.proceed at hs
  split at hs <;> rename_i hhandler
  · obtain ⟨z, hz, rfl⟩ := Option.map_eq_some_iff.mp hs
    exact h.sent ht (.inl ⟨_, rfl⟩) hz (by simp [hhandler]) (by simp [hhandler])
  · rename_i id optionId
    cases Option.some.inj hs
    refine h.worked ht (fun s k hlists => ?_) (by simp [hhandler])
      (by simp [HttpTask.Abandoned, hhandler])
    by_cases hid : k = id
    · exact .inr ⟨optionId, .inl (by rw [hid])⟩
    · obtain ⟨p, hp, hname⟩ := hlists
      exact .inl ⟨p, List.mem_filter.mpr ⟨hp, by simpa [hname] using hid⟩, hname⟩
  · rename_i id optionId
    cases Option.some.inj hs
    refine h.worked ht (fun s k hlists => .inl hlists) (fun k o ho => .inl ?_)
      (by simp [HttpTask.Abandoned, hhandler])
    obtain ⟨rfl, rfl⟩ : id = k ∧ optionId = o := by simpa [hhandler] using ho
    exact ⟨optionId, .inr rfl⟩
  · rename_i id optionId
    obtain ⟨z, hz, rfl⟩ := Option.map_eq_some_iff.mp hs
    refine h.sent ht (.inr ⟨_, rfl⟩) hz (fun k o ho => ?_) (by simp [hhandler])
    obtain ⟨rfl, rfl⟩ : id = k ∧ optionId = o := by simpa [hhandler] using ho
    exact ⟨_, List.mem_cons_self, rfl⟩
  · obtain ⟨s, -, rfl⟩ := Option.map_eq_some_iff.mp hs
    rw [← modifyServer_id (x := x) 0]
    exact h.worked ht (fun s k hlists => .inl hlists) (by simp [hhandler])
      (by simp [HttpTask.Abandoned, hhandler])
  · cases hs
  · cases hs

theorem Shows.step (hfor : ∀ t ∈ x.tasks, t.handler.For t.request.endpoint) (h : x.Shows)
    {l : DebugHttpLabel} (hs : DebugHttpChannel.step serde x l = some y) : y.Shows := by
  cases l with
  | harness l =>
      obtain ⟨hcond, hs⟩ := Option.ite_none_right_eq_some.mp hs
      obtain ⟨harness, hstep, rfl⟩ := Option.map_eq_some_iff.mp hs
      have hl : l.ofLoop = true := (Bool.and_eq_true_iff.mp hcond).2
      refine ⟨h.started, fun _ k hk => ?_⟩
      obtain ⟨hwaits, hqueue⟩ := waits_ofLoop hl hstep hk
      exact (h.kept (ChannelHarness.step_passes hstep).1 k hwaits).of_kept id
        (fun _ ht => ht) hqueue
  | nextLine line bound written =>
      obtain ⟨-, hs⟩ := Option.ite_none_right_eq_some.mp hs
      exact h.nextLine hs
  | register =>
      obtain ⟨id, -, rfl⟩ := Option.map_eq_some_iff.mp hs
      refine ⟨by simpa [modifyState, modifyServer] using h.started, fun hrunning k hk => ?_⟩
      exact (h.kept hrunning k hk).of_kept (lists_modifyServer fun _ hs => hs)
        (fun _ ht => ht) fun g hg _ => hg
  | request r =>
      obtain ⟨-, hs⟩ := Option.ite_none_left_eq_some.mp hs
      obtain ⟨s, -, rfl⟩ := Option.map_eq_some_iff.mp hs
      split
      · exact ⟨h.started, fun hrunning k hk => (h.kept hrunning k hk).of_kept id
          (fun _ ht => List.mem_append_left _ ht) fun g hg _ => hg⟩
      · exact ⟨h.started, fun hrunning k hk => (h.kept hrunning k hk).of_kept id
          (fun _ ht => ht) fun g hg _ => hg⟩
  | proceed no =>
      obtain ⟨t, ht, hs⟩ := Option.bind_eq_some_iff.mp hs
      exact h.proceed ht hs
  | disconnect no =>
      obtain ⟨t, ht, hs⟩ := Option.bind_eq_some_iff.mp hs
      split at hs
      · cases hs
      · cases Option.some.inj hs
        have hendpoint := hfor t (List.mem_of_getElem? ht)
        rw [← modifyServer_id (x := x) 0]
        refine h.worked ht (fun s k hlists => .inl hlists) (fun k o ho => .inr ⟨rfl, o, ?_⟩)
          fun k habandoned => ⟨rfl, habandoned.2⟩
        rcases ho with ho | ho <;> rw [ho] at hendpoint <;> exact hendpoint

/-! #### Before there is a server -/

/-- The request id `k` is on the list of `main`'s state, which no client sees. -/
def ListsUnserved (x : DebugHttpChannel) (k : String) : Prop := ∃ s ∈ x.servers[0]?, s.Lists k

def ReadsPermission (serde : SerdeJson) (k : String) (l : DebugHttpLabel) : Prop :=
  ∃ line bound written, l = .nextLine line bound written ∧ ∃ req ∈ readRequest serde line,
    ∃ p, req.call = some (.showPermissionPrompt p) ∧ p.requestId = k

theorem listsUnserved_modifyServer {n : Nat} {f : DebugServer → DebugServer}
    (hf : ∀ s : DebugServer, (f s).Lists k → s.Lists k)
    (h : (x.modifyServer n f).ListsUnserved k) : x.ListsUnserved k := by
  obtain ⟨s, hs, hlists⟩ := h
  change (x.servers.modify n f)[0]? = some s at hs
  rw [List.getElem?_modify] at hs
  obtain ⟨s₀, hs₀, rfl⟩ := Option.map_eq_some_iff.mp hs
  refine ⟨s₀, hs₀, ?_⟩
  split at hlists
  · exact hf s₀ hlists
  · exact hlists

theorem listsUnserved_called (hx : x.servers ≠ []) {bound : Bool} {call : ChannelCall}
    (h : (x.called bound call).ListsUnserved k) :
    x.ListsUnserved k ∨ x.servers.length = 1 ∧
      ∃ p, call = .showPermissionPrompt p ∧ p.requestId = k := by
  have hpos := List.length_pos_iff.mpr hx
  cases call with
  | onInitialize params =>
      obtain ⟨s, hs, hlists⟩ := h
      refine .inl ⟨s, ?_, hlists⟩
      cases bound with
      | false => exact hs
      | true =>
          change (x.servers ++ _)[0]? = some s at hs
          rw [List.getElem?_append_left hpos] at hs
          exact hs
  | showPermissionPrompt p =>
      obtain ⟨s, hs, hlists⟩ := h
      change (x.servers.modify (x.servers.length - 1) _)[0]? = some s at hs
      rw [List.getElem?_modify] at hs
      obtain ⟨s₀, hs₀, rfl⟩ := Option.map_eq_some_iff.mp hs
      split at hlists
      · rename_i hlast
        obtain ⟨p', hp', hname⟩ := hlists
        rcases List.mem_append.mp hp' with hold | hnew
        · exact .inl ⟨s₀, hs₀, p', hold, hname⟩
        · refine .inr ⟨by omega, p, rfl, ?_⟩
          rw [← List.mem_singleton.mp hnew]
          exact hname
      · exact .inl ⟨s₀, hs₀, hlists⟩
  | deliverMessage message => exact .inl h
  | onSessionCreated message => exact .inl h
  | handleUnknown method params => exact .inl h

theorem listsUnserved_sendToHarness {l : HarnessLabel} (h : x.sendToHarness serde l = some y)
    (hk : y.ListsUnserved k) : x.ListsUnserved k := by
  unfold ListsUnserved at hk ⊢
  rw [← servers_sendToHarness h]
  exact hk

theorem listsUnserved_proceed {no : Nat} {t : HttpTask} (h : x.proceed serde no t = some y)
    (hk : y.ListsUnserved k) : x.ListsUnserved k := by
  unfold DebugHttpChannel.proceed at h
  split at h
  · obtain ⟨z, hz, rfl⟩ := Option.map_eq_some_iff.mp h
    exact listsUnserved_sendToHarness hz hk
  · cases Option.some.inj h
    refine listsUnserved_modifyServer (fun s hs => ?_) hk
    obtain ⟨p, hp, hname⟩ := hs
    exact ⟨p, (List.mem_filter.mp hp).1, hname⟩
  · cases Option.some.inj h
    refine listsUnserved_modifyServer (fun s hs => ?_) hk
    exact hs
  · obtain ⟨z, hz, rfl⟩ := Option.map_eq_some_iff.mp h
    exact listsUnserved_sendToHarness hz hk
  · obtain ⟨s, -, rfl⟩ := Option.map_eq_some_iff.mp h
    exact hk
  · cases h
  · cases h

/-- What joins the list of `main`'s state is shown before a server is started. -/
theorem listsUnserved_step (hx : x.servers ≠ []) {l : DebugHttpLabel}
    (h : DebugHttpChannel.step serde x l = some y) (hk : y.ListsUnserved k) :
    x.ListsUnserved k ∨ x.servers.length = 1 ∧ ReadsPermission serde k l := by
  cases l with
  | harness l =>
      obtain ⟨-, h⟩ := Option.ite_none_right_eq_some.mp h
      obtain ⟨harness, -, rfl⟩ := Option.map_eq_some_iff.mp h
      exact .inl hk
  | nextLine line bound written =>
      obtain ⟨-, h⟩ := Option.ite_none_right_eq_some.mp h
      obtain ⟨a, harness, -, ⟨rfl, -⟩ | ⟨req, hread, call, hcall, rfl⟩⟩ := readLine_cases h
      · exact .inl hk
      · rcases listsUnserved_called (x := { x with harness := harness }) hx hk with
          hold | ⟨hone, p, rfl, hname⟩
        · exact .inl hold
        · exact .inr ⟨hone, line, bound, written, rfl, req, hread, p, hcall, hname⟩
  | register =>
      obtain ⟨id, -, rfl⟩ := Option.map_eq_some_iff.mp h
      refine .inl (listsUnserved_modifyServer (fun s hs => ?_) hk)
      exact hs
  | request r =>
      obtain ⟨-, h⟩ := Option.ite_none_left_eq_some.mp h
      obtain ⟨s, -, rfl⟩ := Option.map_eq_some_iff.mp h
      split at hk
      · exact .inl hk
      · exact .inl hk
  | proceed no =>
      obtain ⟨t, -, h⟩ := Option.bind_eq_some_iff.mp h
      exact .inl (listsUnserved_proceed h hk)
  | disconnect no =>
      obtain ⟨t, -, h⟩ := Option.bind_eq_some_iff.mp h
      split at h
      · cases h
      · cases Option.some.inj h
        exact .inl hk

/-- The request id `k` was shown before the first server was started. -/
def ShownEarly (serde : SerdeJson)
    (steps : List (Machine.Taken DebugHttpChannel DebugHttpLabel)) (k : String) : Prop :=
  ∃ s ∈ steps, s.before.servers.length = 1 ∧ ReadsPermission serde k s.label

theorem shows_of_reachable
    {x : List (Machine.Taken DebugHttpChannel DebugHttpLabel) × DebugHttpChannel}
    (h : (life serde).recorded.Reachable x) : x.2.Shows := by
  refine h.invariant (I := fun x => x.2.Shows) ?_ ?_
  · rintro x ⟨-, hfresh⟩
    rw [hfresh]
    exact ⟨List.cons_ne_nil _ _, fun _ k hk => by cases hk⟩
  · intro x l x' hreach hx _ hs
    exact hx.step (fun t ht => (task_posted hreach t ht).2) (Machine.of_recorded_step hs).1

theorem shownEarly_of_reachable
    {x : List (Machine.Taken DebugHttpChannel DebugHttpLabel) × DebugHttpChannel}
    (h : (life serde).recorded.Reachable x) (hk : x.2.ListsUnserved k) :
    ShownEarly serde x.1 k := by
  revert hk
  refine h.invariant (I := fun x => x.2.ListsUnserved k → ShownEarly serde x.1 k) ?_ ?_
  · rintro x ⟨-, hfresh⟩ hk
    rw [hfresh] at hk
    obtain ⟨s, hs, p, hp, -⟩ := hk
    cases hs
    cases hp
  · intro x l x' hreach hx _ hs hk
    obtain ⟨hstep, hsteps⟩ := Machine.of_recorded_step hs
    rw [hsteps]
    rcases listsUnserved_step (shows_of_reachable hreach).started hstep hk with
      hold | ⟨hone, hreads⟩
    · obtain ⟨s, hs, hearly⟩ := hx hold
      exact ⟨s, List.mem_append_left _ hs, hearly⟩
    · exact ⟨_, List.mem_append_right _ List.mem_cons_self, hone, hreads⟩

/-- The request id `k` is on the list of a server that serves clients, or an answer under it is
    on its way, or was abandoned. -/
inductive Seen (x : DebugHttpChannel) (k : String) : Prop where
  | listed (n : Nat) (hserves : n ≠ 0) (h : ∃ s ∈ x.servers[n]?, s.Lists k)
  | answering (h : ∃ t ∈ x.tasks, t.Answers k)
  | queued (h : ∃ g ∈ x.harness.permissions, g.response.requestId = k)
  | abandoned (h : ∃ t ∈ x.tasks, t.Abandoned k)

/-- **No permission request is out of sight.**  While the harness runs, each request that waits
    for an answer is on the list of a server that serves clients, or an answer under its request
    id is being handled or queued; or the client that answered it has gone away before that; or
    it was shown before the first server was started. -/
theorem seen_of_reachable (serde : SerdeJson)
    {x : List (Machine.Taken DebugHttpChannel DebugHttpLabel) × DebugHttpChannel}
    (h : (life serde).recorded.Reachable x) (hrunning : x.2.harness.running = true) (k : String)
    (hk : (x.2.harness.pendingPermissions.get? k).isSome) :
    x.2.Seen k ∨ ShownEarly serde x.1 k := by
  cases (shows_of_reachable h).kept hrunning k hk with
  | listed hlisted =>
      obtain ⟨s, hs, hlists⟩ := hlisted
      obtain ⟨n, hn⟩ := List.mem_iff_getElem?.mp hs
      by_cases hzero : n = 0
      · subst hzero
        exact .inr (shownEarly_of_reachable h ⟨s, hn, hlists⟩)
      · exact .inl (.listed n hzero ⟨s, hn, hlists⟩)
  | answering h => exact .inl (.answering h)
  | queued h => exact .inl (.queued h)
  | abandoned h => exact .inl (.abandoned h)

end DebugHttpChannel

/-! ### A request that is answered over HTTP -/

namespace Sample

open DebugHttpChannel

/-- The server is started with the key `k`. -/
def keyedInitialize : JsonRpcRequest :=
  .new "initialize" (some (.number 1))
    (some (.ofDoc (.object [("protocolVersion", .number (.posInt 1)), ("channelId", .string "d"),
      ("options", .object [("api_key", .string "k")])])))

/-- A text format for the requests, which are written as their numbers. -/
def keyedSerde : SerdeJson :=
  serde [(keyedInitialize.toJson, "1"), ((permissionRequest 2).toJson, "2")]

/-- The permission request `p` is shown, and a client with the key allows it. -/
def allowOverHttp : List DebugHttpLabel :=
  [.nextLine (bytes "1") true true, .nextLine (bytes "2") true true, .register,
    .request ⟨1, some "Bearer k", .permissionRespond "p" "allow"⟩, .proceed 0, .proceed 0]

theorem debugHttp_init : (life keyedSerde).recorded.init ([], fresh) := ⟨rfl, rfl⟩

end Sample

namespace DebugHttpChannel

open Sample

/-- The answer of the client is written. -/
theorem answers_posted_allowed :
    ∃ x : List (Machine.Taken DebugHttpChannel DebugHttpLabel) × DebugHttpChannel,
      x.2.harness.responses.length = 2 ∧ (x.2.harness.responses.map HarnessResponse.no).Nodup ∧
        ∀ r ∈ x.2.harness.responses, ∀ q ∈ x.2.harness.requests[r.no]?, ∀ p ∈ q.prompt,
          ∃ optionId, r.response = p.answer q.id optionId ∧
            ∃ s ∈ x.1, ∃ post, s.label = .request post ∧
              post.endpoint = .permissionRespond p.requestId optionId ∧
              ∃ server ∈ s.before.servers[post.server]?, ∀ key ∈ server.apiKey,
                post.authorization = some ("Bearer " ++ key) := by
  have hrun : ∃ x ∈ (life keyedSerde).recorded.run (fun _ _ => True) ([], fresh)
      (allowOverHttp ++ [.proceed 0, .harness (.recvPermission true)]),
      x.2.harness.responses.length = 2 := by
    decide +kernel
  obtain ⟨x, hx, hlength⟩ := hrun
  exact ⟨x, hlength, answers_posted keyedSerde (Machine.reachable_of_run _ debugHttp_init hx)⟩

/-- The answer is on its way. -/
theorem seen_of_reachable_allowed :
    ∃ x : List (Machine.Taken DebugHttpChannel DebugHttpLabel) × DebugHttpChannel,
      (x.2.servers.map fun s => s.pendingPermissions.length) = [0, 0] ∧
        (x.2.Seen "p" ∨ ShownEarly keyedSerde x.1 "p") := by
  have hrun : ∃ x ∈ (life keyedSerde).recorded.run (fun _ _ => True) ([], fresh) allowOverHttp,
      x.2.harness.running = true ∧ (x.2.harness.pendingPermissions.get? "p").isSome ∧
        (x.2.servers.map fun s => s.pendingPermissions.length) = [0, 0] := by
    decide +kernel
  obtain ⟨x, hx, hrunning, hwaits, hlists⟩ := hrun
  exact ⟨x, hlists, seen_of_reachable keyedSerde
    (Machine.reachable_of_run _ debugHttp_init hx) hrunning "p" hwaits⟩

end DebugHttpChannel

end Anyclaw
