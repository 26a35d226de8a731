import Anyclaw.Sdk.HarnessDrain

/-!
# Answers of a channel

A channel may answer a permission request late, twice or not at all, answer under a request id
that nobody has asked under, and answer while another request with the same id is shown.
Whatever it does, the harness answers a request at most once, and a permission request only
with an option that the channel has given for its request id.

The loop is `ChannelHarness::run` of `crates/anyclaw-sdk-channel/src/harness.rs`, the answers
go through `flush_permission` there.

* `Handles`: what a step does to requests and answers.
* `answered_as_given`: a request is answered at most once, and every response to a permission
  request carries an answer that the channel has given under its request id.
-/

namespace Anyclaw

namespace ChannelHarness

variable {serde : SerdeJson} {x y : ChannelHarness}

/-! ### What a step does to requests and answers -/

structure SameAnswers (x y : ChannelHarness) : Prop where
  requests : y.requests = x.requests
  permissions : y.permissions = x.permissions
  pending : y.pendingPermissions = x.pendingPermissions
  responses : y.responses = x.responses

/-- What a step does to requests and answers.  The responses that are added are those that
    could be written. -/
inductive Handles (x : ChannelHarness) : HarnessLabel → ChannelHarness → Prop where
  | aside {l : HarnessLabel} {y : ChannelHarness} (hl : l.answers = []) (h : SameAnswers x y) :
      Handles x l y
  | given {no : Option Nat} {r : PermissionResponse} : Handles x (.respond no r) (x.respond no r)
  /-- A request that is no permission request is received, and perhaps answered at once. -/
  | received {line : List UInt8} {a : DispatchAnswers} {y : ChannelHarness}
      {id : Option RequestId} (answer : Option JsonRpcResponse)
      (hrequests : y.requests = x.requests ++ [⟨id, none, none⟩])
      (hpermissions : y.permissions = x.permissions)
      (hpending : y.pendingPermissions = x.pendingPermissions)
      (hresponses : y.responses = x.responses ++
        (answer.map fun r => HarnessResponse.mk x.requests.length r).toList) :
      Handles x (.nextLine line a) y
  /-- A permission request is shown. -/
  | shown {line : List UInt8} {a : DispatchAnswers} {y : ChannelHarness} (id : Option RequestId)
      (p : ChannelRequestPermission) (h : SameAnswers (x.showPermission id p) y) :
      Handles x (.nextLine line a) y
  /-- An answer names no request that waits. -/
  | dropped {g : GivenResponse} {rest : List GivenResponse} {written : Bool}
      (hqueue : x.permissions = g :: rest)
      (hnone : x.pendingPermissions.get? g.response.requestId = none) :
      Handles x (.recvPermission written) { x with permissions := rest }
  /-- An answer is written, or lost with the writer. -/
  | flushed {g : GivenResponse} {rest : List GivenResponse} {written : Bool}
      {e : WaitingPermission} (hqueue : x.permissions = g :: rest)
      (he : x.pendingPermissions.get? g.response.requestId = some e) :
      Handles x (.recvPermission written)
        ({ x with
            permissions := rest
            pendingPermissions := x.pendingPermissions.remove g.response.requestId }.writeResponse
          (permissionResponse e g.response) written)

theorem sameAnswers_writeOutbound (message : JsonValue) (written : Bool) :
    SameAnswers x (x.writeOutbound message written) := by
  unfold writeOutbound write
  split
  · exact ⟨rfl, rfl, rfl, by simp [responses]⟩
  · exact ⟨rfl, rfl, rfl, rfl⟩

theorem responses_writeResponse (r : HarnessResponse) (written : Bool) :
    (x.writeResponse r written).responses = x.responses ++ if written then [r] else [] := by
  unfold writeResponse write
  cases written with
  | false => simp [responses]
  | true => simp [responses]

theorem handles_handleRequest (line : List UInt8) (req : JsonRpcRequest) (a : DispatchAnswers) :
    Handles x (.nextLine line a) (x.handleRequest req a) := by
  unfold handleRequest
  rcases dispatch_cases x req a with ⟨result, hdispatch, -⟩ | ⟨p, -, hdispatch⟩
  · rw [hdispatch]
    rcases result with failure | _ | r
    · exact .received none rfl rfl rfl (by simp [receive, responses])
    · exact .received none rfl rfl rfl (by simp [receive, responses])
    · have hresponses : ((x.receive req.id none).writeResponse ⟨x.requests.length, r⟩
          a.written).responses = x.responses ++
            (if a.written then [⟨x.requests.length, r⟩] else []) :=
        responses_writeResponse _ _
      cases hwritten : a.written with
      | false =>
          rw [hwritten] at hresponses
          exact .received none rfl rfl rfl hresponses
      | true =>
          rw [hwritten] at hresponses
          exact .received (some r) rfl rfl rfl hresponses
  · rw [hdispatch]
    cases a.called with
    | true => exact .shown req.id p ⟨rfl, rfl, rfl, rfl⟩
    | false => exact .shown req.id p ⟨rfl, rfl, rfl, rfl⟩

theorem step_handles {l : HarnessLabel} (h : step serde x l = some y) : Handles x l y := by
  cases l with
  | send message =>
      obtain ⟨-, heq⟩ := Option.ite_none_right_eq_some.mp h
      cases Option.some.inj heq
      exact .aside rfl ⟨rfl, rfl, rfl, rfl⟩
  | respond no r =>
      obtain ⟨-, h⟩ := Option.ite_none_right_eq_some.mp h
      obtain ⟨-, heq⟩ := Option.ite_none_right_eq_some.mp h
      cases Option.some.inj heq
      exact .given
  | nextLine line a =>
      obtain ⟨-, h⟩ := Option.ite_none_right_eq_some.mp h
      split at h
      · cases Option.some.inj h
        exact handles_handleRequest line _ a
      · cases Option.some.inj h
        exact .aside rfl ⟨rfl, rfl, rfl, rfl⟩
  | endOfInput =>
      obtain ⟨-, heq⟩ := Option.ite_none_right_eq_some.mp h
      cases Option.some.inj heq
      exact .aside rfl ⟨rfl, rfl, rfl, rfl⟩
  | recvOutbound written =>
      rw [step] at h
      split at h
      · obtain ⟨-, heq⟩ := Option.ite_none_right_eq_some.mp h
        cases Option.some.inj heq
        obtain ⟨hrequests, hpermissions, hpending, hresponses⟩ :=
          sameAnswers_writeOutbound (x := { x with outbound := _ }) _ written
        exact .aside rfl ⟨hrequests, hpermissions, hpending, hresponses⟩
      · cases h
  | recvPermission written =>
      rw [step] at h
      split at h
      · rename_i g rest hqueue
        obtain ⟨-, heq⟩ := Option.ite_none_right_eq_some.mp h
        cases Option.some.inj heq
        unfold flushPermission
        split
        · rename_i e he
          exact .flushed hqueue he
        · rename_i hnone
          exact .dropped hqueue hnone
      · cases h
  | finish =>
      obtain ⟨-, heq⟩ := Option.ite_none_right_eq_some.mp h
      cases Option.some.inj heq
      exact .aside rfl ⟨rfl, rfl, rfl, rfl⟩

/-! ### The invariant -/

/-- Every request is answered at most once, and a permission request with an answer that was
    given for its request id; `P` holds of the answers that the channel gives. -/
structure AnswersGiven (P : PermissionResponse → Prop) (x : ChannelHarness) : Prop where
  queued : ∀ g ∈ x.permissions, P g.response
  waits : ∀ k, ∀ e ∈ x.pendingPermissions.get? k, ¬x.Answered e.no ∧
    ∃ q ∈ x.requests[e.no]?, q.id = some e.id ∧ ∃ p ∈ q.prompt, p.requestId = k
  once : (x.responses.map HarnessResponse.no).Nodup
  known : ∀ r ∈ x.responses, r.no < x.requests.length
  given : ∀ r ∈ x.responses, ∀ q ∈ x.requests[r.no]?, ∀ p ∈ q.prompt,
    ∃ optionId, P ⟨p.requestId, optionId⟩ ∧ r.response = p.answer q.id optionId

namespace AnswersGiven

variable {P : PermissionResponse → Prop}

theorem fresh : AnswersGiven P fresh :=
  ⟨nofun, nofun, List.nodup_nil, nofun, nofun⟩

theorem mono {P' : PermissionResponse → Prop} (h : x.AnswersGiven P) (hP : ∀ r, P r → P' r) :
    x.AnswersGiven P' := by
  refine ⟨fun g hg => hP _ (h.queued g hg), h.waits, h.once, h.known, fun r hr q hq p hp => ?_⟩
  obtain ⟨optionId, hoption, hresponse⟩ := h.given r hr q hq p hp
  exact ⟨optionId, hP _ hoption, hresponse⟩

theorem not_answered_length (h : x.AnswersGiven P) : ¬x.Answered x.requests.length := by
  intro hn
  obtain ⟨r, hr, hno⟩ := List.mem_map.mp hn
  have hlt := h.known r hr
  omega

theorem of_same (h : x.AnswersGiven P) (hxy : SameAnswers x y) : y.AnswersGiven P := by
  have hanswered : ∀ n, y.Answered n ↔ x.Answered n := by
    intro n
    rw [Answered, Answered, hxy.responses]
  constructor
  · rw [hxy.permissions]
    exact h.queued
  · simp only [hxy.pending, hxy.requests, hanswered]
    exact h.waits
  · rw [hxy.responses]
    exact h.once
  · rw [hxy.responses, hxy.requests]
    exact h.known
  · rw [hxy.responses, hxy.requests]
    exact h.given

/-- The channel gives an answer. -/
theorem respond (h : x.AnswersGiven P) (no : Option Nat) {r : PermissionResponse} (hr : P r) :
    (x.respond no r).AnswersGiven P := by
  have hlength : (x.respond no r).requests.length = x.requests.length := by
    unfold ChannelHarness.respond
    cases no <;> simp
  constructor
  · intro g hg
    rcases List.mem_append.mp hg with hg | hg
    · exact h.queued g hg
    · rw [List.mem_singleton.mp hg]
      exact hr
  · intro k e he
    obtain ⟨hna, q, hq, hrest⟩ := h.waits k e he
    exact ⟨hna, giving no r e.no q, mem_respond_of_mem hq, hrest⟩
  · exact h.once
  · intro w hw
    rw [hlength]
    exact h.known w hw
  · intro w hw q' hq' p hp
    obtain ⟨q, hq, rfl⟩ := mem_respond hq'
    exact h.given w hw q hq p hp

/-- A request joins the others.  What waits then, waited before or is this request. -/
theorem receive (h : x.AnswersGiven P) (id : Option RequestId)
    (prompt : Option ChannelRequestPermission)
    (hrequests : y.requests = (x.receive id prompt).requests)
    (hpermissions : y.permissions = x.permissions) (hresponses : y.responses = x.responses)
    (hpending : ∀ k, ∀ e ∈ y.pendingPermissions.get? k, e ∈ x.pendingPermissions.get? k ∨
      (e.no = x.requests.length ∧ id = some e.id ∧ ∃ p ∈ prompt, p.requestId = k)) :
    y.AnswersGiven P := by
  have hanswered : ∀ n, y.Answered n ↔ x.Answered n := by
    intro n
    rw [Answered, Answered, hresponses]
  constructor
  · rw [hpermissions]
    exact h.queued
  · intro k e he
    rw [hanswered, hrequests]
    rcases hpending k e he with hold | ⟨hno, hid, hprompt⟩
    · obtain ⟨hna, q, hq, hrest⟩ := h.waits k e hold
      exact ⟨hna, q, mem_receive_of_mem hq, hrest⟩
    · refine ⟨hno ▸ h.not_answered_length, ⟨id, prompt, none⟩, ?_, hid, hprompt⟩
      rw [hno, ChannelHarness.receive, List.getElem?_concat_length]
      rfl
  · rw [hresponses]
    exact h.once
  · rw [hresponses, hrequests]
    intro r hr
    have hlt := h.known r hr
    simp only [ChannelHarness.receive, List.length_append, List.length_singleton]
    omega
  · rw [hresponses, hrequests]
    intro r hr q hq
    rcases mem_receive hq with hq | ⟨hno, -⟩
    · exact h.given r hr q hq
    · exact absurd hno (Nat.ne_of_lt (h.known r hr))

/-- A response is written to a request that was not answered. -/
theorem answer (h : x.AnswersGiven P) {w : HarnessResponse} (hna : ¬x.Answered w.no)
    (hlt : w.no < x.requests.length) (hrequests : y.requests = x.requests)
    (hqueued : ∀ g ∈ y.permissions, g ∈ x.permissions)
    (hresponses : y.responses = x.responses ++ [w])
    (hpending : ∀ k, ∀ e ∈ y.pendingPermissions.get? k,
      e ∈ x.pendingPermissions.get? k ∧ e.no ≠ w.no)
    (hgiven : ∀ q ∈ x.requests[w.no]?, ∀ p ∈ q.prompt,
      ∃ optionId, P ⟨p.requestId, optionId⟩ ∧ w.response = p.answer q.id optionId) :
    y.AnswersGiven P := by
  have hanswered : ∀ n, y.Answered n ↔ x.Answered n ∨ n = w.no := by
    intro n
    rw [Answered, Answered, hresponses]
    simp
  constructor
  · exact fun g hg => h.queued g (hqueued g hg)
  · intro k e he
    obtain ⟨hold, hne⟩ := hpending k e he
    obtain ⟨hnot, hrest⟩ := h.waits k e hold
    rw [hanswered, not_or, hrequests]
    exact ⟨⟨hnot, hne⟩, hrest⟩
  · rw [hresponses, List.map_append, List.map_singleton]
    exact List.nodup_append.mpr ⟨h.once, List.nodup_singleton _, by
      rintro a ha b hb rfl
      exact hna (List.mem_singleton.mp hb ▸ ha)⟩
  · rw [hresponses, hrequests]
    intro r hr
    rcases List.mem_append.mp hr with hr | hr
    · exact h.known r hr
    · rwa [List.mem_singleton.mp hr]
  · rw [hresponses, hrequests]
    intro r hr
    rcases List.mem_append.mp hr with hr | hr
    · exact h.given r hr
    · rw [List.mem_singleton.mp hr]
      exact hgiven

/-- An answer is taken from the queue, and names a request that waits. -/
theorem flush (h : x.AnswersGiven P) {g : GivenResponse} {rest : List GivenResponse}
    {e : WaitingPermission} (hqueue : x.permissions = g :: rest)
    (he : x.pendingPermissions.get? g.response.requestId = some e) (written : Bool) :
    AnswersGiven P ({ x with
      permissions := rest
      pendingPermissions := x.pendingPermissions.remove g.response.requestId }.writeResponse
        (permissionResponse e g.response) written) := by
  obtain ⟨hna, q, hq, hid, p, hp, hname⟩ := h.waits _ e he
  have hrest : ∀ g' ∈ rest, g' ∈ x.permissions := by
    intro g' hg'
    rw [hqueue]
    exact List.mem_cons_of_mem g hg'
  -- no other request id waits for the same request
  have hpending : ∀ k, ∀ e' ∈ (x.pendingPermissions.remove g.response.requestId).get? k,
      e' ∈ x.pendingPermissions.get? k ∧ e'.no ≠ e.no := by
    intro k e' he'
    rw [KeyedMap.get?_remove] at he'
    split at he'
    · cases he'
    · rename_i hk
      refine ⟨he', fun hsame => ?_⟩
      obtain ⟨-, q', hq', -, p', hp', hname'⟩ := h.waits k e' he'
      rw [hsame] at hq'
      obtain rfl : q' = q := Option.mem_unique hq' hq
      obtain rfl : p' = p := Option.mem_unique hp' hp
      exact hk (hname'.symm.trans hname)
  cases written with
  | false =>
      exact ⟨fun g' hg' => h.queued g' (hrest g' hg'),
        fun k e' he' => h.waits k e' (hpending k e' he').1, h.once, h.known, h.given⟩
  | true =>
      refine h.answer (w := permissionResponse e g.response) hna
        (List.getElem?_eq_some_iff.mp hq).1 rfl hrest (responses_writeResponse _ true) hpending ?_
      intro q' hq' p' hp'
      obtain rfl : q' = q := Option.mem_unique hq' hq
      obtain rfl : p' = p := Option.mem_unique hp' hp
      refine ⟨g.response.optionId, ?_, ?_⟩
      · rw [hname]
        exact h.queued g (by rw [hqueue]; exact List.mem_cons_self)
      · rw [ChannelRequestPermission.answer, hid, hname]
        rfl

theorem step (h : x.AnswersGiven P) {l : HarnessLabel} (hl : ∀ g ∈ l.answers, P g.response)
    (hs : ChannelHarness.step serde x l = some y) : y.AnswersGiven P := by
  cases step_handles hs with
  | aside _ hsame => exact h.of_same hsame
  | @given no r => exact h.respond no (hl ⟨r, no⟩ List.mem_cons_self)
  | @received line a y id answer hrequests hpermissions hpending hresponses =>
      have hreceived : AnswersGiven P (x.receive id none) :=
        h.receive id none rfl rfl rfl fun k e he => Or.inl he
      cases answer with
      | none =>
          refine hreceived.of_same ⟨hrequests, hpermissions, hpending, ?_⟩
          rw [hresponses]
          exact List.append_nil _
      | some r =>
          refine hreceived.answer (w := ⟨x.requests.length, r⟩) h.not_answered_length ?_ hrequests
            (fun g hg => hpermissions ▸ hg) hresponses ?_ ?_
          · simp [ChannelHarness.receive]
          · intro k e he
            rw [hpending] at he
            obtain ⟨-, q, hq, -⟩ := h.waits k e he
            exact ⟨he, Nat.ne_of_lt (List.getElem?_eq_some_iff.mp hq).1⟩
          · intro q hq p hp
            rcases mem_receive hq with hq | ⟨-, rfl⟩
            · exact absurd (List.getElem?_eq_some_iff.mp hq).1 (Nat.lt_irrefl _)
            · cases hp
  | @shown line a y id p hsame =>
      refine AnswersGiven.of_same ?_ hsame
      cases id with
      | none => exact h.receive none (some p) rfl rfl rfl fun k e he => Or.inl he
      | some id =>
          refine h.receive (some id) (some p) rfl rfl rfl fun k e he => ?_
          have hset : (x.pendingPermissions.set p.requestId ⟨id, x.requests.length⟩).get? k =
              some e := he
          rw [KeyedMap.get?_set] at hset
          split at hset
          · rename_i hk
            cases hset
            exact Or.inr ⟨rfl, rfl, p, rfl, hk.symm⟩
          · exact Or.inl hset
  | @dropped g rest written hqueue _ =>
      refine ⟨fun g' hg' => h.queued g' ?_, h.waits, h.once, h.known, h.given⟩
      rw [hqueue]
      exact List.mem_cons_of_mem g hg'
  | @flushed g rest written e hqueue he => exact h.flush hqueue he written

end AnswersGiven

/-- **Answers are given.** -/
theorem answersGiven_of_reachable {P : PermissionResponse → Prop}
    (h : (life serde).ReachableUnder (fun _ l => ∀ g ∈ l.answers, P g.response) x) :
    x.AnswersGiven P := by
  refine h.invariant (I := AnswersGiven P) ?_ ?_
  · rintro x rfl
    exact AnswersGiven.fresh
  · intro x l y _ hx hl hs
    exact hx.step hl hs

/-- The channel has given the answer. -/
def GaveAnswer (steps : List (Machine.Taken ChannelHarness HarnessLabel))
    (r : PermissionResponse) : Prop :=
  ∃ t ∈ steps, ∃ g ∈ t.label.answers, g.response = r

/-- **The user decides, whatever the channel does.**  In every run a request is answered at most
    once, and a permission request with its own id and with an option that the channel has
    given under its request id. -/
theorem answered_as_given (serde : SerdeJson)
    {x : List (Machine.Taken ChannelHarness HarnessLabel) × ChannelHarness}
    (h : (life serde).recorded.Reachable x) :
    (x.2.responses.map HarnessResponse.no).Nodup ∧
      ∀ r ∈ x.2.responses, ∀ q ∈ x.2.requests[r.no]?, ∀ p ∈ q.prompt,
        ∃ optionId, GaveAnswer x.1 ⟨p.requestId, optionId⟩ ∧
          r.response = p.answer q.id optionId := by
  suffices hgiven : x.2.AnswersGiven (GaveAnswer x.1) from ⟨hgiven.once, hgiven.given⟩
  refine h.invariant (I := fun x => x.2.AnswersGiven (GaveAnswer x.1)) ?_ ?_
  · rintro x ⟨-, hfresh⟩
    rw [hfresh]
    exact AnswersGiven.fresh
  · intro x l x' _ hx _ hs
    obtain ⟨hstep, hsteps⟩ := Machine.of_recorded_step hs
    rw [hsteps]
    refine AnswersGiven.step (hx.mono ?_) ?_ hstep
    · rintro r ⟨t, ht, hr⟩
      exact ⟨t, List.mem_append_left _ ht, hr⟩
    · intro g hg
      exact ⟨⟨x.2, l, x'.2⟩, List.mem_append_right _ List.mem_cons_self, g, hg, rfl⟩

open Sample in
/-- A permission request that is answered twice, first under another request id. -/
theorem answered_as_given_twice :
    ∃ x : List (Machine.Taken ChannelHarness HarnessLabel) × ChannelHarness,
      x.2.responses.length = 2 ∧ (x.2.responses.map HarnessResponse.no).Nodup ∧
        ∀ r ∈ x.2.responses, ∀ q ∈ x.2.requests[r.no]?, ∀ p ∈ q.prompt,
          ∃ optionId, GaveAnswer x.1 ⟨p.requestId, optionId⟩ ∧
            r.response = p.answer q.id optionId := by
  have hrun : ∃ x ∈ (life harnessSerde).recorded.run (fun _ _ => True) ([], fresh)
      [requestLine "1" true, requestLine "3" true, .respond none ⟨"q", "allow"⟩,
        .recvPermission true, .respond none ⟨"p", "reject"⟩, .respond none ⟨"p", "allow"⟩,
        .recvPermission true, .recvPermission true], x.2.responses.length = 2 := by
    decide +kernel
  obtain ⟨x, hx, hlength⟩ := hrun
  have hinit : (life harnessSerde).recorded.init ([], fresh) := ⟨rfl, rfl⟩
  exact ⟨x, hlength, answered_as_given harnessSerde (Machine.reachable_of_run _ hinit hx)⟩

end ChannelHarness

end Anyclaw
