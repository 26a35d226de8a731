import Anyclaw.Sdk.Harness

/-!
# The protocol of the channel harness

The harness is to go on after a callback that fails, to write one response for a request at
most, with its id, and to answer a permission request with the first answer that is given for
it.  It does so in runs in which no callback fails, no permission request carries a request
id that another one waits with, and each answer reaches the request that it is given for.

The harness is that of `crates/anyclaw-sdk-channel/src/harness.rs`, where an error of
`dispatch` leaves `run`, and the requests that wait are kept by their request ids in one map.
-/

namespace Anyclaw

def JsonRpcRequest.permission (req : JsonRpcRequest) : Option ChannelRequestPermission :=
  if req.method = "channel/requestPermission" then readChannelRequestPermission req.paramsJson
  else none

/-- A callback of the channel is called whose error ends the harness; those of `initialize`
    are not meant. -/
def JsonRpcRequest.callsChannel (req : JsonRpcRequest) : Bool :=
  (req.method = "channel/deliverMessage" && (readDeliverMessage req.paramsJson).isSome) ||
    (req.method = "channel/sessionCreated" && (readSessionCreated req.paramsJson).isSome) ||
    req.permission.isSome

def ChannelRequestPermission.answer (p : ChannelRequestPermission) (id : Option RequestId)
    (optionId : String) : JsonRpcResponse :=
  .success id (.ofDoc (PermissionResponse.mk p.requestId optionId).toJson)

namespace ChannelHarness

variable (serde : SerdeJson) (x : ChannelHarness)

def Failed : Prop := ∃ failure, x.phase = .failed failure

/-- What a harness is to do. -/
structure KeepsProtocol : Prop where
  /-- Nothing but a failed `initialize` and a broken output ends it before its input. -/
  serves : ∀ failure, x.phase = .failed failure →
    failure = .onInitialize ∨ failure = .onReady ∨ failure = .write
  once : (x.responses.map HarnessResponse.no).Nodup
  ids : ∀ r ∈ x.responses, ∃ q ∈ x.requests[r.no]?, q.id.isSome ∧ r.response.id = q.id
  /-- A permission request is answered with the first answer that was given for it. -/
  right : ∀ r ∈ x.responses, ∀ q ∈ x.requests[r.no]?, ∀ p ∈ q.prompt,
    ∃ optionId ∈ q.given, r.response = p.answer q.id optionId
  /-- Each is, as soon as the answer is taken. -/
  all : ¬ x.Failed → ∀ n, ∀ q ∈ x.requests[n]?, q.id.isSome → ∀ p ∈ q.prompt,
    ∀ optionId ∈ q.given, ⟨n, p.answer q.id optionId⟩ ∈ x.responses ∨
      (x.phase ≠ .finished ∧ ⟨⟨p.requestId, optionId⟩, some n⟩ ∈ x.permissions)

/-- No callback fails, no request id is used twice at a time, and an answer reaches the request
    that it is given for. -/
def InTurn : HarnessLabel → Prop
  | .nextLine line a => ∀ req ∈ readRequest serde line,
      (req.callsChannel = true → a.called = true) ∧
      (req.id.isSome → ∀ p ∈ req.permission,
        x.pendingPermissions.get? p.requestId = none)
  | .recvPermission _ => ∀ g ∈ x.permissions.head?,
      ∀ e ∈ x.pendingPermissions.get? g.response.requestId, g.no = some e.no
  | _ => True

instance (l : HarnessLabel) : Decidable (InTurn serde x l) := by
  unfold InTurn
  split <;> infer_instance

/-! ### The invariant -/

def Answered (n : Nat) : Prop := n ∈ x.responses.map HarnessResponse.no

def firstQueued (n : Nat) : Option String :=
  (x.permissions.find? fun g => g.no = some n).map fun g => g.response.optionId

/-- A permission request that is unanswered waits under its request id, and what was given
    first for it is queued first. -/
structure Sound : Prop where
  once : (x.responses.map HarnessResponse.no).Nodup
  ids : ∀ r ∈ x.responses, ∃ q ∈ x.requests[r.no]?, q.id.isSome ∧ r.response.id = q.id
  right : ∀ r ∈ x.responses, ∀ q ∈ x.requests[r.no]?, ∀ p ∈ q.prompt,
    ∃ optionId ∈ q.given, r.response = p.answer q.id optionId
  pending : ∀ k, ∀ e ∈ x.pendingPermissions.get? k, ¬ x.Answered e.no ∧
    ∃ q ∈ x.requests[e.no]?, q.id = some e.id ∧ ∃ p ∈ q.prompt, p.requestId = k
  named : ∀ g ∈ x.permissions, x.GivenFor g.response g.no
  waits : ¬ x.Failed → ∀ n, ¬ x.Answered n → ∀ q ∈ x.requests[n]?, ∀ id ∈ q.id, ∀ p ∈ q.prompt,
    x.pendingPermissions.get? p.requestId = some ⟨id, n⟩
  queued : ¬ x.Failed → ∀ n, ¬ x.Answered n → ∀ q ∈ x.requests[n]?, q.id.isSome →
    q.given = x.firstQueued n

variable {serde x} {y : ChannelHarness}

/-! ### One more response -/

section Concat

variable {w : HarnessResponse} (hy : y.output = x.output ++ [.response w])
include hy

theorem responses_concat : y.responses = x.responses ++ [w] := by
  unfold responses
  rw [hy, List.filterMap_append]
  rfl

theorem answered_concat (n : Nat) : y.Answered n ↔ x.Answered n ∨ n = w.no := by
  unfold Answered
  rw [responses_concat hy, List.map_append, List.mem_append, List.map_singleton,
    List.mem_singleton]

theorem once_concat (h : (x.responses.map HarnessResponse.no).Nodup) (hw : ¬ x.Answered w.no) :
    (y.responses.map HarnessResponse.no).Nodup := by
  rw [responses_concat hy, List.map_append, List.nodup_append]
  refine ⟨h, by simp, ?_⟩
  intro a ha b hb
  rw [List.map_singleton, List.mem_singleton] at hb
  rintro rfl
  rw [hb] at ha
  exact hw ha

end Concat

theorem Sound.lt_of_answered (h : x.Sound) {n : Nat} (hn : x.Answered n) :
    n < x.requests.length := by
  obtain ⟨r, hr, rfl⟩ := List.mem_map.mp hn
  obtain ⟨q, hq, _⟩ := h.ids r hr
  exact (List.getElem?_eq_some_iff.mp hq).1

/-- What the invariant speaks about stays as it is. -/
theorem Sound.of_same (h : x.Sound) (houtput : y.responses = x.responses)
    (hrequests : y.requests = x.requests) (hpermissions : y.permissions = x.permissions)
    (hpending : y.pendingPermissions = x.pendingPermissions)
    (hfailed : x.Failed → y.Failed) : y.Sound := by
  have hanswered : ∀ n, y.Answered n ↔ x.Answered n := by
    intro n
    unfold Answered
    rw [houtput]
  constructor
  · rw [houtput]
    exact h.once
  · rw [houtput, hrequests]
    exact h.ids
  · rw [houtput, hrequests]
    exact h.right
  · rw [hrequests, hpending]
    intro k e he
    rw [hanswered]
    exact h.pending k e he
  · unfold GivenFor
    rw [hpermissions, hrequests]
    exact h.named
  · intro hok n hn
    rw [hrequests, hpending]
    exact h.waits (fun hx => hok (hfailed hx)) n (fun hx => hn ((hanswered n).mpr hx))
  · intro hok n hn
    unfold firstQueued
    rw [hrequests, hpermissions]
    exact h.queued (fun hx => hok (hfailed hx)) n fun hx => hn ((hanswered n).mpr hx)

/-! ### Requests -/

theorem mem_receive {id : Option RequestId} {prompt : Option ChannelRequestPermission} {n : Nat}
    {q : ReceivedRequest} (h : q ∈ (x.receive id prompt).requests[n]?) :
    q ∈ x.requests[n]? ∨ (n = x.requests.length ∧ q = ⟨id, prompt, none⟩) := by
  have hget : (x.requests ++ [⟨id, prompt, none⟩])[n]? = some q := h
  rcases Nat.lt_or_ge n x.requests.length with hlt | hge
  · rw [List.getElem?_append_left hlt] at hget
    exact Or.inl hget
  · rw [List.getElem?_append_right hge] at hget
    obtain ⟨hzero, heq⟩ := List.getElem?_eq_some_iff.mp hget
    rw [List.length_singleton] at hzero
    refine Or.inr ⟨by omega, ?_⟩
    rw [← heq, List.getElem_singleton]

theorem mem_receive_of_mem {id : Option RequestId} {prompt : Option ChannelRequestPermission}
    {n : Nat} {q : ReceivedRequest} (h : q ∈ x.requests[n]?) :
    q ∈ (x.receive id prompt).requests[n]? := by
  have hlt : n < x.requests.length := (List.getElem?_eq_some_iff.mp h).1
  change (x.requests ++ [_])[n]? = some q
  rw [List.getElem?_append_left hlt]
  exact h

theorem Sound.not_answered_length (h : x.Sound) : ¬ x.Answered x.requests.length :=
  fun hn => Nat.lt_irrefl _ (h.lt_of_answered hn)

theorem Sound.firstQueued_length (h : x.Sound) : x.firstQueued x.requests.length = none := by
  unfold firstQueued
  rw [Option.map_eq_none_iff, List.find?_eq_none]
  intro g hg hno
  rw [decide_eq_true_iff] at hno
  obtain ⟨q, hq, _⟩ := h.named g hg x.requests.length hno
  rw [Option.mem_def, List.getElem?_eq_none_iff.mpr (Nat.le_refl _)] at hq
  cases hq

/-- A request joins the others, and waits if it is a permission request with an id. -/
theorem Sound.receive (h : x.Sound) {id : Option RequestId}
    {prompt : Option ChannelRequestPermission}
    {pending : KeyedMap String WaitingPermission}
    (hnew : ∀ k, ∀ e ∈ pending.get? k, e ∈ x.pendingPermissions.get? k ∨
      (e.no = x.requests.length ∧ id = some e.id ∧ ∃ p ∈ prompt, p.requestId = k))
    (hold : ∀ k, ∀ e ∈ x.pendingPermissions.get? k, pending.get? k = some e)
    (hwaits : ∀ i ∈ id, ∀ p ∈ prompt, pending.get? p.requestId = some ⟨i, x.requests.length⟩) :
    Sound { x.receive id prompt with pendingPermissions := pending } := by
  constructor
  · exact h.once
  · intro r hr
    obtain ⟨q, hq, hid⟩ := h.ids r hr
    exact ⟨q, mem_receive_of_mem hq, hid⟩
  · intro r hr q hq
    rcases mem_receive hq with hq | ⟨hn, _⟩
    · exact h.right r hr q hq
    · have hlt := h.lt_of_answered (List.mem_map_of_mem hr)
      omega
  · intro k e he
    rcases hnew k e he with he | ⟨hno, hid, hprompt⟩
    · obtain ⟨hna, q, hq, hrest⟩ := h.pending k e he
      exact ⟨hna, q, mem_receive_of_mem hq, hrest⟩
    · refine ⟨?_, ⟨id, prompt, none⟩, ?_, hid, hprompt⟩
      · rw [hno]
        exact h.not_answered_length
      · change (x.requests ++ [_])[e.no]? = some _
        rw [hno, List.getElem?_concat_length]
  · intro g hg n hn
    obtain ⟨q, hq, hrest⟩ := h.named g hg n hn
    exact ⟨q, mem_receive_of_mem hq, hrest⟩
  · intro hok n hn q hq i hi p hp
    rcases mem_receive hq with hq | ⟨rfl, rfl⟩
    · exact hold _ _ (h.waits hok n hn q hq i hi p hp)
    · exact hwaits i hi p hp
  · intro hok n hn q hq hid
    rcases mem_receive hq with hq | ⟨rfl, rfl⟩
    · exact h.queued hok n hn q hq hid
    · exact h.firstQueued_length.symm

theorem Sound.received (h : x.Sound) (id : Option RequestId) : (x.receive id none).Sound :=
  h.receive (fun _ _ he => Or.inl he) (fun _ _ he => he) fun _ _ _ hp => nomatch hp

theorem Sound.shown (h : x.Sound) {id : Option RequestId} {p : ChannelRequestPermission}
    (hfree : id.isSome → x.pendingPermissions.get? p.requestId = none) :
    (x.showPermission id p).Sound := by
  cases id with
  | none => exact h.receive (fun _ _ he => Or.inl he) (fun _ _ he => he) fun _ hi => nomatch hi
  | some id =>
      apply h.receive
      · intro k e he
        rw [KeyedMap.get?_set] at he
        split at he
        · rename_i hk
          cases he
          exact Or.inr ⟨rfl, rfl, p, rfl, hk.symm⟩
        · exact Or.inl he
      · intro k e he
        rw [KeyedMap.get?_set, if_neg, he]
        rintro rfl
        rw [hfree rfl] at he
        cases he
      · intro i hi q hq
        cases hi
        cases hq
        rw [KeyedMap.get?_set, if_pos rfl]

/-! ### Answers -/

/-- What a request becomes when the channel sends an answer for the request `no`. -/
def giving (no : Option Nat) (r : PermissionResponse) (n : Nat) (q : ReceivedRequest) :
    ReceivedRequest :=
  { q with given := if no = some n then q.given.or (some r.optionId) else q.given }

theorem requests_respond (no : Option Nat) (r : PermissionResponse) (n : Nat) :
    (x.respond no r).requests[n]? = (x.requests[n]?).map (giving no r n) := by
  have hsame : ∀ q : ReceivedRequest, no ≠ some n → giving no r n q = q := by
    intro q hne
    unfold giving
    rw [if_neg hne]
  unfold respond
  cases no with
  | none =>
      dsimp only
      rw [Option.map_congr fun q _ => hsame q (by simp), Option.map_id']
  | some m =>
      dsimp only
      rw [List.getElem?_modify]
      by_cases hm : m = n
      · subst hm
        change Option.map _ _ = _
        congr 1
        funext q
        simp [giving]
      · rw [Option.map_congr fun q _ => hsame q (by simpa using hm)]
        simp [hm]

theorem mem_respond {no : Option Nat} {r : PermissionResponse} {n : Nat} {q' : ReceivedRequest}
    (h : q' ∈ (x.respond no r).requests[n]?) : ∃ q ∈ x.requests[n]?, q' = giving no r n q := by
  rw [requests_respond] at h
  obtain ⟨q, hq, rfl⟩ := Option.map_eq_some_iff.mp h
  exact ⟨q, hq, rfl⟩

theorem mem_respond_of_mem {no : Option Nat} {r : PermissionResponse} {n : Nat}
    {q : ReceivedRequest} (h : q ∈ x.requests[n]?) :
    giving no r n q ∈ (x.respond no r).requests[n]? := by
  rw [requests_respond, h]
  rfl

/-- The channel sends an answer. -/
theorem Sound.responded (h : x.Sound) {no : Option Nat} {r : PermissionResponse}
    (hgiven : x.GivenFor r no) : (x.respond no r).Sound := by
  constructor
  · exact h.once
  · intro w hw
    obtain ⟨q, hq, hid⟩ := h.ids w hw
    exact ⟨giving no r w.no q, mem_respond_of_mem hq, hid⟩
  · intro w hw q' hq' p hp
    obtain ⟨q, hq, rfl⟩ := mem_respond hq'
    obtain ⟨optionId, hoption, hw⟩ := h.right w hw q hq p hp
    refine ⟨optionId, ?_, hw⟩
    have hgiven : q.given = some optionId := hoption
    change (if no = some w.no then q.given.or (some r.optionId) else q.given) = some optionId
    rw [hgiven]
    split <;> rfl
  · intro k e he
    obtain ⟨hna, q, hq, hrest⟩ := h.pending k e he
    exact ⟨hna, giving no r e.no q, mem_respond_of_mem hq, hrest⟩
  · intro g hg n hn
    have hold : ∃ q ∈ x.requests[n]?, ∃ p ∈ q.prompt, p.requestId = g.response.requestId := by
      rcases List.mem_append.mp hg with hg | hg
      · exact h.named g hg n hn
      · rw [List.mem_singleton] at hg
        subst hg
        exact hgiven n hn
    obtain ⟨q, hq, hrest⟩ := hold
    exact ⟨giving no r n q, mem_respond_of_mem hq, hrest⟩
  · intro hok n hn q' hq' i hi p hp
    obtain ⟨q, hq, rfl⟩ := mem_respond hq'
    exact h.waits hok n hn q hq i hi p hp
  · intro hok n hn q' hq' hid
    obtain ⟨q, hq, rfl⟩ := mem_respond hq'
    have hqueued := h.queued hok n hn q hq hid
    have hfirst : (x.respond no r).firstQueued n =
        if no = some n then (x.firstQueued n).or (some r.optionId) else x.firstQueued n := by
      unfold firstQueued
      change ((x.permissions ++ [GivenResponse.mk r no]).find? _).map _ = _
      rw [List.find?_append]
      by_cases hno : no = some n
      · cases x.permissions.find? fun g => g.no = some n <;> simp [hno]
      · simp [hno]
    rw [hfirst, ← hqueued]
    rfl

/-- A request that is no permission request is answered at once. -/
theorem Sound.answered (h : x.Sound) {n : Nat} {r : JsonRpcResponse} {q : ReceivedRequest}
    (hn : ¬ x.Answered n) (hq : q ∈ x.requests[n]?) (hprompt : q.prompt = none)
    (hid : q.id.isSome ∧ r.id = q.id) :
    Sound { x with output := x.output ++ [.response ⟨n, r⟩] } := by
  constructor
  · exact once_concat rfl h.once hn
  · rw [responses_concat rfl]
    intro w hw
    rcases List.mem_append.mp hw with hw | hw
    · exact h.ids w hw
    · rw [List.mem_singleton] at hw
      subst hw
      exact ⟨q, hq, hid⟩
  · rw [responses_concat rfl]
    intro w hw q' hq' p hp
    rcases List.mem_append.mp hw with hw | hw
    · exact h.right w hw q' hq' p hp
    · rw [List.mem_singleton] at hw
      subst hw
      have heq : q' = q := Option.mem_unique hq' hq
      rw [heq, hprompt] at hp
      cases hp
  · intro k e he
    obtain ⟨hna, q', hq', hid', p, hp, hk⟩ := h.pending k e he
    refine ⟨?_, q', hq', hid', p, hp, hk⟩
    rw [answered_concat rfl]
    rintro (ha | hno)
    · exact hna ha
    · change e.no = n at hno
      rw [hno] at hq'
      have heq : q' = q := Option.mem_unique hq' hq
      rw [heq, hprompt] at hp
      cases hp
  · exact h.named
  · intro hok m hm
    exact h.waits hok m fun ha => hm ((answered_concat rfl m).mpr (Or.inl ha))
  · intro hok m hm
    exact h.queued hok m fun ha => hm ((answered_concat rfl m).mpr (Or.inl ha))

theorem firstQueued_cons {g : GivenResponse} {rest : List GivenResponse}
    (hqueue : x.permissions = g :: rest) (n : Nat) :
    x.firstQueued n =
      if g.no = some n then some g.response.optionId
      else firstQueued { x with permissions := rest } n := by
  unfold firstQueued
  rw [hqueue, List.find?_cons]
  by_cases hno : g.no = some n <;> simp [hno]

/-- An answer is taken from the queue, and names no request that waits. -/
theorem Sound.dropped (h : x.Sound) {g : GivenResponse} {rest : List GivenResponse}
    (hqueue : x.permissions = g :: rest) (hok : ¬ x.Failed)
    (hnone : x.pendingPermissions.get? g.response.requestId = none) :
    Sound { x with permissions := rest } := by
  have hmem : g ∈ x.permissions := by
    rw [hqueue]
    exact List.mem_cons_self
  constructor
  · exact h.once
  · exact h.ids
  · exact h.right
  · exact h.pending
  · intro g' hg'
    exact h.named g' (by rw [hqueue]; exact List.mem_cons_of_mem _ hg')
  · exact h.waits
  · intro _ n hn q hq hid
    rw [h.queued hok n hn q hq hid, firstQueued_cons hqueue, if_neg]
    -- the request would wait
    intro hno
    obtain ⟨q', hq', p, hp, hname⟩ := h.named g hmem n hno
    obtain ⟨id, hid'⟩ := Option.isSome_iff_exists.mp hid
    have hwaits := h.waits hok n hn q hq id hid' p (Option.mem_unique hq hq' ▸ hp)
    rw [hname, hnone] at hwaits
    cases hwaits

/-- The answer to a request that waits is taken from the queue, and cannot be written. -/
theorem Sound.lost (h : x.Sound) {g : GivenResponse} {rest : List GivenResponse}
    (hqueue : x.permissions = g :: rest) :
    Sound { x with
      phase := .failed .write
      permissions := rest
      pendingPermissions := x.pendingPermissions.remove g.response.requestId } := by
  constructor
  · exact h.once
  · exact h.ids
  · exact h.right
  · intro k e he
    rw [KeyedMap.get?_remove] at he
    split at he
    · cases he
    · exact h.pending k e he
  · intro g' hg'
    exact h.named g' (by rw [hqueue]; exact List.mem_cons_of_mem _ hg')
  · intro hok
    exact absurd ⟨.write, rfl⟩ hok
  · intro hok
    exact absurd ⟨.write, rfl⟩ hok

/-- The answer to a request that waits is taken from the queue and written. -/
theorem Sound.flushed (h : x.Sound) {g : GivenResponse} {rest : List GivenResponse}
    {e : WaitingPermission} (hqueue : x.permissions = g :: rest) (hok : ¬ x.Failed)
    (he : x.pendingPermissions.get? g.response.requestId = some e) (hno : g.no = some e.no)
    (houtput : y.output = x.output ++ [.response (permissionResponse e g.response)])
    (hrequests : y.requests = x.requests) (hpermissions : y.permissions = rest)
    (hpending : y.pendingPermissions =
      x.pendingPermissions.remove g.response.requestId) : y.Sound := by
  obtain ⟨hna, q, hq, hid, p, hp, hname⟩ := h.pending _ e he
  have hgiven : q.given = some g.response.optionId := by
    rw [h.queued hok e.no hna q hq (by rw [hid]; rfl), firstQueued_cons hqueue, if_pos hno]
  have hanswered : ∀ n, ¬ y.Answered n → ¬ x.Answered n ∧ n ≠ e.no := by
    intro n hn
    rw [answered_concat houtput] at hn
    exact not_or.mp hn
  constructor
  · exact once_concat houtput h.once hna
  · rw [responses_concat houtput, hrequests]
    intro w hw
    rcases List.mem_append.mp hw with hw | hw
    · exact h.ids w hw
    · rw [List.mem_singleton] at hw
      subst hw
      refine ⟨q, hq, ?_, hid.symm⟩
      rw [hid]
      rfl
  · rw [responses_concat houtput, hrequests]
    intro w hw q' hq' p' hp'
    rcases List.mem_append.mp hw with hw | hw
    · exact h.right w hw q' hq' p' hp'
    · rw [List.mem_singleton] at hw
      subst hw
      obtain rfl : q' = q := Option.mem_unique hq' hq
      obtain rfl : p' = p := Option.mem_unique hp' hp
      refine ⟨g.response.optionId, hgiven, ?_⟩
      unfold ChannelRequestPermission.answer
      rw [hid, hname]
      rfl
  · rw [hrequests, hpending]
    intro k e' he'
    rw [KeyedMap.get?_remove] at he'
    split at he'
    · cases he'
    · rename_i hk
      obtain ⟨hna', q', hq', hid', p', hp', hk'⟩ := h.pending k e' he'
      refine ⟨?_, q', hq', hid', p', hp', hk'⟩
      intro ha
      rcases (answered_concat houtput _).mp ha with ha | hsame
      · exact hna' ha
      · change e'.no = e.no at hsame
        rw [hsame] at hq'
        obtain rfl : q' = q := Option.mem_unique hq' hq
        obtain rfl : p' = p := Option.mem_unique hp' hp
        exact hk (hk'.symm.trans hname)
  · unfold GivenFor
    rw [hpermissions, hrequests]
    intro g' hg'
    exact h.named g' (by rw [hqueue]; exact List.mem_cons_of_mem _ hg')
  · rw [hrequests, hpending]
    intro _ n hn q' hq' i hi p' hp'
    obtain ⟨hn, hne⟩ := hanswered n hn
    have hwaits := h.waits hok n hn q' hq' i hi p' hp'
    rw [KeyedMap.get?_remove, if_neg, hwaits]
    intro hk
    rw [hk, he] at hwaits
    cases hwaits
    exact hne rfl
  · rw [hrequests]
    intro _ n hn q' hq' hid'
    obtain ⟨hn, hne⟩ := hanswered n hn
    rw [h.queued hok n hn q' hq' hid', firstQueued_cons hqueue, if_neg]
    · unfold firstQueued
      rw [hpermissions]
    · rw [hno]
      intro heq
      exact hne (Option.some.inj heq).symm

/-! ### Dispatched requests -/

/-- What a request that is no permission request may lead to. -/
structure Result (req : JsonRpcRequest) (a : DispatchAnswers)
    (result : Except HarnessFailure (Option JsonRpcResponse)) : Prop where
  response : ∀ r, result = .ok (some r) → req.id.isSome ∧ r.id = req.id
  failure : ∀ failure, result = .error failure →
    failure = .onInitialize ∨ failure = .onReady ∨
      (req.callsChannel = true ∧ a.called = false)

theorem result_initialize (req : JsonRpcRequest) (a : DispatchAnswers) :
    Result req a (dispatchInitialize req a) := by
  unfold dispatchInitialize
  constructor
  · intro r hr
    split at hr
    · cases hr
    · split at hr
      · cases hr
      · injection hr with hr
        obtain ⟨id, hid, rfl⟩ := Option.map_eq_some_iff.mp hr
        rw [hid]
        exact ⟨rfl, rfl⟩
  · intro failure hfailure
    split at hfailure
    · cases hfailure
      exact Or.inl rfl
    · split at hfailure
      · cases hfailure
        exact Or.inr (Or.inl rfl)
      · cases hfailure

theorem result_unknown (req : JsonRpcRequest) (a : DispatchAnswers) :
    Result req a (.ok (dispatchUnknown req a)) := by
  constructor
  · intro r hr
    injection hr with hr
    obtain ⟨id, hid, rfl⟩ := Option.map_eq_some_iff.mp hr
    rw [hid]
    cases a.unknown <;> exact ⟨rfl, rfl⟩
  · intro failure hfailure
    cases hfailure

theorem result_none (req : JsonRpcRequest) (a : DispatchAnswers) : Result req a (.ok none) := by
  constructor
  · intro r hr
    cases hr
  · intro failure hfailure
    cases hfailure

theorem result_called {req : JsonRpcRequest} {a : DispatchAnswers} (hcalls : req.callsChannel = true)
    (failure : HarnessFailure) :
    Result req a (if a.called then .ok none else .error failure) := by
  cases hcalled : a.called with
  | true => exact result_none req a
  | false =>
      constructor
      · intro r hr
        cases hr
      · intro _ _
        exact Or.inr (Or.inr ⟨hcalls, hcalled⟩)

theorem dispatch_cases (x : ChannelHarness) (req : JsonRpcRequest) (a : DispatchAnswers) :
    (∃ result, x.dispatch req a = (x.receive req.id none, result) ∧ Result req a result) ∨
      ∃ p ∈ req.permission, x.dispatch req a =
        (x.showPermission req.id p,
          if a.called then .ok none else .error .showPermissionPrompt) := by
  unfold dispatch
  dsimp only
  split
  · exact Or.inl ⟨_, rfl, result_initialize req a⟩
  · split
    · rename_i hmethod
      cases hread : readDeliverMessage req.paramsJson with
      | none => exact Or.inl ⟨_, rfl, result_none req a⟩
      | some deliver =>
          refine Or.inl ⟨_, rfl, result_called ?_ _⟩
          simp [JsonRpcRequest.callsChannel, hmethod, hread]
    · split
      · rename_i hmethod
        cases hread : readSessionCreated req.paramsJson with
        | none => exact Or.inl ⟨_, rfl, result_none req a⟩
        | some msg =>
            refine Or.inl ⟨_, rfl, result_called ?_ _⟩
            simp [JsonRpcRequest.callsChannel, hmethod, hread]
      · split
        · rename_i hmethod
          cases hread : readChannelRequestPermission req.paramsJson with
          | none => exact Or.inl ⟨_, rfl, result_none req a⟩
          | some p =>
              refine Or.inr ⟨p, ?_, rfl⟩
              rw [JsonRpcRequest.permission, if_pos hmethod, hread]
              rfl
        · exact Or.inl ⟨_, rfl, result_unknown req a⟩

/-- Only `initialize` and the writer end the harness with an error, and it finishes when no
    permission request waits. -/
structure EndsWell (x : ChannelHarness) : Prop where
  serves : ∀ failure, x.phase = .failed failure →
    failure = .onInitialize ∨ failure = .onReady ∨ failure = .write
  complete : x.phase = .finished → ∀ k, x.pendingPermissions.get? k = none

theorem not_failed_of_running (h : x.running = true) : ¬ x.Failed := by
  rintro ⟨failure, hfailure⟩
  simp [running, hfailure] at h

theorem endsWell_of_running (h : x.running = true) : x.EndsWell := by
  constructor
  · intro failure hfailure
    exact absurd ⟨failure, hfailure⟩ (not_failed_of_running h)
  · intro hfinished
    simp [running, hfinished] at h

theorem endsWell_failed {failure : HarnessFailure}
    (h : failure = .onInitialize ∨ failure = .onReady ∨ failure = .write) :
    EndsWell { x with phase := .failed failure } := by
  constructor
  · intro failure' hfailure
    cases hfailure
    exact h
  · intro hfinished
    cases hfinished

theorem endsWell_write (h : x.running = true) (o : HarnessOutput) (written : Bool) :
    (x.write o written).EndsWell := by
  unfold write
  split
  · exact endsWell_of_running h
  · exact endsWell_failed (Or.inr (Or.inr rfl))

theorem handleRequest_sound {req : JsonRpcRequest} {a : DispatchAnswers} (h : x.Sound)
    (hphase : x.phase = .serving) (hcalled : req.callsChannel = true → a.called = true)
    (hfree : req.id.isSome → ∀ p ∈ req.permission,
      x.pendingPermissions.get? p.requestId = none) :
    (x.handleRequest req a).Sound ∧ (x.handleRequest req a).EndsWell := by
  have hrunning : x.running = true := by
    simp [running, hphase]
  unfold handleRequest
  rcases dispatch_cases x req a with ⟨result, hdispatch, hresult⟩ | ⟨p, hp, hdispatch⟩
  · rw [hdispatch]
    rcases result with failure | _ | r
    · refine ⟨(h.received req.id).of_same rfl rfl rfl rfl fun _ => ⟨failure, rfl⟩,
        endsWell_failed ?_⟩
      rcases hresult.failure failure rfl with hinit | hready | ⟨hcalls, hfailed⟩
      · exact Or.inl hinit
      · exact Or.inr (Or.inl hready)
      · rw [hcalled hcalls] at hfailed
        cases hfailed
    · exact ⟨h.received req.id, endsWell_of_running hrunning⟩
    · have hid := hresult.response r rfl
      have hreceived := h.received req.id
      dsimp only
      refine ⟨?_, endsWell_write (by exact hrunning) _ _⟩
      unfold writeResponse write
      split
      · refine hreceived.answered (q := ⟨req.id, none, none⟩) h.not_answered_length ?_ rfl hid
        change (x.requests ++ [_])[x.requests.length]? = some _
        rw [List.getElem?_concat_length]
      · exact hreceived.of_same rfl rfl rfl rfl fun _ => ⟨.write, rfl⟩
  · have hcalls : req.callsChannel = true := by
      rw [JsonRpcRequest.callsChannel, Option.isSome_iff_exists.mpr ⟨p, hp⟩, Bool.or_true]
    rw [hdispatch, if_pos (hcalled hcalls)]
    dsimp only
    have hshown : (x.showPermission req.id p).Sound := h.shown fun hid => hfree hid p hp
    refine ⟨hshown, endsWell_of_running ?_⟩
    unfold showPermission
    split <;> exact hrunning

/-! ### Steps -/

theorem running_of_listens (h : x.listens = true) : x.running = true := by
  unfold listens at h
  rw [Bool.and_eq_true] at h
  exact h.1

/-- An answer is taken from the queue. -/
theorem flushPermission_sound {g : GivenResponse} {rest : List GivenResponse} (h : x.Sound)
    (hqueue : x.permissions = g :: rest) (hrunning : x.running = true)
    (hreaches : ∀ e ∈ x.pendingPermissions.get? g.response.requestId, g.no = some e.no)
    (written : Bool) :
    (flushPermission { x with permissions := rest } g.response written).Sound := by
  have hok := not_failed_of_running hrunning
  unfold flushPermission
  dsimp only
  split
  · rename_i e he
    unfold writeResponse write
    split
    · exact h.flushed hqueue hok he (hreaches e he) rfl rfl rfl rfl
    · exact h.lost hqueue
  · rename_i hnone
    exact h.dropped hqueue hok hnone

theorem get?_of_drained (h : x.drained = true) (k : String) :
    x.pendingPermissions.get? k = none := by
  unfold drained at h
  rw [Bool.and_eq_true, List.isEmpty_iff] at h
  unfold KeyedMap.get? AList.lookup
  rw [h.2]
  rfl

theorem phase_of_drained (h : x.drained = true) : x.phase = .draining := by
  unfold drained at h
  rw [Bool.and_eq_true, decide_eq_true_iff] at h
  exact h.1

theorem step_sound {l : HarnessLabel} (h : x.Sound) (hin : InTurn serde x l)
    (hstep : step serde x l = some y) : y.Sound ∧ y.EndsWell := by
  unfold step at hstep
  cases l with
  | send message =>
      dsimp only at hstep
      split at hstep
      · rename_i hcond
        cases hstep
        rw [Bool.and_eq_true] at hcond
        exact ⟨h.of_same rfl rfl rfl rfl id, endsWell_of_running hcond.1⟩
      · cases hstep
  | respond no r =>
      dsimp only at hstep
      split at hstep
      · rename_i hcond
        rw [Bool.and_eq_true] at hcond
        split at hstep
        · rename_i hgiven
          cases hstep
          exact ⟨h.responded hgiven, endsWell_of_running hcond.1⟩
        · cases hstep
      · cases hstep
  | nextLine line a =>
      dsimp only at hstep
      split at hstep
      · rename_i hphase
        split at hstep
        · rename_i req hread
          cases hstep
          obtain ⟨hcalled, hfree⟩ := hin req hread
          exact handleRequest_sound h hphase hcalled hfree
        · cases hstep
          refine ⟨h, endsWell_of_running ?_⟩
          simp [running, hphase]
      · cases hstep
  | endOfInput =>
      dsimp only at hstep
      split at hstep
      · rename_i hphase
        cases hstep
        refine ⟨h.of_same rfl rfl rfl rfl ?_, endsWell_of_running rfl⟩
        rintro ⟨failure, hfailure⟩
        rw [hphase] at hfailure
        cases hfailure
      · cases hstep
  | recvOutbound written =>
      dsimp only at hstep
      split at hstep
      · split at hstep
        · rename_i hlistens
          cases hstep
          refine ⟨?_, endsWell_write (by exact running_of_listens hlistens) _ _⟩
          unfold writeOutbound write
          split
          · refine h.of_same ?_ rfl rfl rfl id
            unfold responses
            rw [List.filterMap_append]
            exact List.append_nil _
          · exact h.of_same rfl rfl rfl rfl fun _ => ⟨.write, rfl⟩
        · cases hstep
      · cases hstep
  | recvPermission written =>
      dsimp only at hstep
      split at hstep
      · rename_i g rest hqueue
        split at hstep
        · rename_i hlistens
          cases hstep
          have hrunning := running_of_listens hlistens
          have hreaches := hin g (by rw [hqueue]; rfl)
          refine ⟨flushPermission_sound h hqueue hrunning hreaches written, ?_⟩
          unfold flushPermission
          split
          · exact endsWell_write (by exact hrunning) _ _
          · exact endsWell_of_running hrunning
        · cases hstep
      · cases hstep
  | finish =>
      dsimp only at hstep
      split at hstep
      · rename_i hdrained
        cases hstep
        have hempty := get?_of_drained hdrained
        refine ⟨h.of_same rfl rfl rfl rfl ?_, ?_, fun _ => hempty⟩
        · rintro ⟨failure, hfailure⟩
          rw [phase_of_drained hdrained] at hfailure
          cases hfailure
        · intro failure hfailure
          cases hfailure
      · cases hstep

theorem sound_fresh : fresh.Sound := by
  constructor
  · exact List.nodup_nil
  · intro r hr
    cases hr
  · intro r hr
    cases hr
  · intro k e he
    cases he
  · intro g hg
    cases hg
  · intro _ n _ q hq
    cases hq
  · intro _ n _ q hq
    cases hq

/-- **The harness keeps its protocol** in runs in which the callbacks do not fail, no permission
    request carries a request id that another one waits with, and answers reach the requests
    that they are given for. -/
theorem keepsProtocol_of_inTurn (h : (life serde).ReachableUnder (InTurn serde) x) :
    x.KeepsProtocol := by
  have hboth : x.Sound ∧ x.EndsWell := by
    refine h.invariant (I := fun x => x.Sound ∧ x.EndsWell) ?_ ?_
    · rintro y rfl
      exact ⟨sound_fresh, endsWell_of_running rfl⟩
    · intro y l y' _ hy hin hstep
      exact step_sound hy.1 hin hstep
  obtain ⟨hsound, hends⟩ := hboth
  refine ⟨hends.serves, hsound.once, hsound.ids, hsound.right, ?_⟩
  intro hok n q hq hid p hp optionId hgiven
  by_cases hn : x.Answered n
  · -- what was written for it is the answer
    obtain ⟨r, hr, rfl⟩ := List.mem_map.mp hn
    obtain ⟨optionId', hgiven', hresponse⟩ := hsound.right r hr q hq p hp
    obtain rfl : optionId' = optionId := Option.mem_unique hgiven' hgiven
    rw [← hresponse]
    exact Or.inl hr
  · obtain ⟨id, hid'⟩ := Option.isSome_iff_exists.mp hid
    have hwaits := hsound.waits hok n hn q hq id hid' p hp
    refine Or.inr ⟨?_, ?_⟩
    · intro hfinished
      rw [hends.complete hfinished] at hwaits
      cases hwaits
    · have hfirst := hsound.queued hok n hn q hq hid
      rw [show q.given = some optionId from hgiven] at hfirst
      obtain ⟨g, hg, hoption⟩ := Option.map_eq_some_iff.mp hfirst.symm
      have hmem := List.mem_of_find?_eq_some hg
      have hno : g.no = some n := by
        simpa using List.find?_some hg
      obtain ⟨q', hq', p', hp', hname⟩ := hsound.named g hmem n hno
      obtain rfl : q' = q := Option.mem_unique hq' hq
      obtain rfl : p' = p := Option.mem_unique hp' hp
      rw [hname, ← hoption, ← hno]
      exact hmem

end ChannelHarness

namespace Sample

def harnessAnswers : DispatchAnswers := ⟨true, true, .null, true, .error "unknown", true⟩

def initializeRequest : JsonRpcRequest := .new "initialize" (some (.number 1)) none

def deliverRequest : JsonRpcRequest :=
  .new "channel/deliverMessage" none
    (some (.ofDoc (.object [("sessionId", .string "s"), ("content", .null)])))

def permissionRequest (id : Int64) : JsonRpcRequest :=
  .new "channel/requestPermission" (some (.number id))
    (some (.ofDoc (.object [("requestId", .string "p"), ("sessionId", .string "s"),
      ("description", .string "write"), ("options", .array [])])))

/-- A text format for the requests, which are written as their numbers. -/
def harnessSerde : SerdeJson :=
  serde [(initializeRequest.toJson, "1"), (deliverRequest.toJson, "2"),
    ((permissionRequest 2).toJson, "3"), ((permissionRequest 3).toJson, "4")]

def requestLine (text : String) (called : Bool) : HarnessLabel :=
  .nextLine (bytes text) { harnessAnswers with called := called }

def allowed (no : Nat) : HarnessLabel := .respond (some no) ⟨"p", "allow"⟩

end Sample

namespace ChannelHarness

open Sample in
/-- The channel is initialized and asked for a permission, which the user grants. -/
theorem keepsProtocol_of_inTurn_allowed : ∃ x : ChannelHarness,
    x.phase = .finished ∧ x.responses.length = 2 ∧ x.KeepsProtocol := by
  have hrun : ∃ x ∈ (life harnessSerde).run (InTurn harnessSerde) fresh
      [requestLine "1" true, requestLine "3" true, allowed 1, .recvPermission true, .endOfInput,
        .finish], x.phase = .finished ∧ x.responses.length = 2 := by
    decide +kernel
  obtain ⟨x, hx, hphase, hlength⟩ := hrun
  exact ⟨x, hphase, hlength,
    keepsProtocol_of_inTurn (Machine.reachable_of_run _ rfl hx)⟩

open Sample in
/-- A message cannot be delivered, and the harness ends. -/
theorem ends_when_delivery_fails : ∃ x : ChannelHarness,
    (life harnessSerde).Reachable x ∧ ¬ x.KeepsProtocol := by
  have hrun : ∃ x ∈ (life harnessSerde).run (fun _ _ => True) fresh
      [requestLine "1" true, requestLine "2" false],
      x.phase = .failed .deliverMessage := by
    decide +kernel
  obtain ⟨x, hx, hphase⟩ := hrun
  refine ⟨x, Machine.reachable_of_run _ rfl hx, ?_⟩
  intro h
  have hserves := h.serves _ hphase
  revert hserves
  decide

end ChannelHarness

end Anyclaw
