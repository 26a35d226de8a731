import Anyclaw.Library.Inevitable
import Anyclaw.Sdk.HarnessProtocol

/-!
# The drain phase of the channel harness

When standard input has ended, the harness goes on as long as permission requests wait for an
answer.  It means to stop when the channel has dropped its senders, but `run` holds a sender of
each channel itself until it returns: `recv` never answers that nobody can send any more.  So
it returns if every request that waits is answered before the senders are dropped, and waits
for ever otherwise.

The phase is the loop at the end of `ChannelHarness::run`
(`crates/anyclaw-sdk-channel/src/harness.rs`).
-/

namespace Anyclaw

/-! ### The channel drops its senders -/

/-- The harness, whether the channel still holds senders, and the answers that the channel has
    sent.  The last are recorded; the code does not keep them. -/
structure Drain where
  harness : ChannelHarness
  channelHolds : Bool
  sent : List GivenResponse

inductive DrainLabel where
  | harness (l : HarnessLabel)
  | dropSenders
  /-- The `else` branch of the loop, for which both `recv` have returned `None`. -/
  | elseBreak

/-- What a step sends to the harness needs a sender of the channel. -/
def HarnessLabel.needsSender : HarnessLabel → Bool
  | .send _ => true
  | .respond _ _ => true
  | _ => false

def HarnessLabel.answers : HarnessLabel → List GivenResponse
  | .respond no r => [⟨r, no⟩]
  | _ => []

namespace Drain

variable (serde : SerdeJson) (d : Drain)

/-- The senders of a channel: the one in `run`, which lives as long as `run` does, and those
    that the channel was given. -/
def senders : Nat := (if d.harness.running then 1 else 0) + (if d.channelHolds then 1 else 0)

/-- Both `recv` return `None`: nothing is queued, and there is no sender. -/
def closed : Bool :=
  d.harness.outbound.isEmpty && d.harness.permissions.isEmpty && d.senders = 0

def step : DrainLabel → Option Drain
  | .harness l =>
      if l.needsSender && !d.channelHolds then none
      else (d.harness.step serde l).map fun x =>
        { d with harness := x, sent := d.sent ++ l.answers }
  | .dropSenders => if d.channelHolds then some { d with channelHolds := false } else none
  | .elseBreak =>
      if d.harness.phase = .draining && d.harness.listens && d.closed then
        some { d with harness := { d.harness with phase := .finished } }
      else none

end Drain

def drains (serde : SerdeJson) (x : ChannelHarness) : Machine Drain DrainLabel where
  init d := d = ⟨x, true, x.permissions⟩
  step := Drain.step serde

namespace Drain

variable {serde : SerdeJson} {x : ChannelHarness} {d d' : Drain}

def Returned (d : Drain) : Prop := d.harness.running = false

/-- Nothing happens any more. -/
def Quiet (serde : SerdeJson) (d : Drain) : Prop := ∀ l, d.step serde l = none

def firstSent (d : Drain) (k : String) : Option GivenResponse :=
  d.sent.find? fun g => g.response.requestId = k

/-- Each request that waited when the input ended has the answer that was sent for it first. -/
def Forwarded (x : ChannelHarness) (d : Drain) : Prop :=
  ∀ k, ∀ e ∈ x.pendingPermissions.get? k, ∀ g ∈ d.firstSent k,
    ChannelHarness.permissionResponse e g.response ∈ d.harness.responses

/-- What is promised of the drain phase: `run` returns on every way, and unless the output is
    broken, all that was sent has been forwarded when nothing happens any more. -/
structure KeepsPromise (serde : SerdeJson) (x : ChannelHarness) (d : Drain) : Prop where
  returns : (drains serde x).Inevitable Returned d
  forwards : ∀ d', (drains serde x).RunUnder (fun _ _ => True) d d' → d'.Quiet serde →
    d'.harness.phase ≠ .failed .write → Forwarded x d'

/-- Every request that waits has its answer in the queue. -/
def Covered (d : Drain) : Prop :=
  d.harness.phase = .draining → ∀ k, (d.harness.pendingPermissions.get? k).isSome →
    ∃ g ∈ d.harness.permissions, g.response.requestId = k

/-! ### What a step does -/

theorem not_closed (h : d.harness.running = true) : d.closed = false := by
  simp [closed, senders, h]

/-- The `else` branch is never taken. -/
theorem not_elseBreak (d : Drain) : d.step serde .elseBreak = none := by
  rw [step, if_neg]
  intro h
  rw [Bool.and_eq_true, Bool.and_eq_true, decide_eq_true_eq] at h
  obtain ⟨⟨hphase, _⟩, hclosed⟩ := h
  rw [not_closed (by simp [ChannelHarness.running, hphase])] at hclosed
  cases hclosed

inductive Moved (d : Drain) : Drain → Prop where
  /-- The channel sends something, or drops its senders. -/
  | channel (d' : Drain) (more : List GivenResponse) (hholds : d.channelHolds = true)
      (hphase : d'.harness.phase = d.harness.phase)
      (hpending : d'.harness.pendingPermissions = d.harness.pendingPermissions)
      (hqueue : d'.harness.permissions = d.harness.permissions ++ more)
      (hsent : d'.sent = d.sent ++ more)
      (houtput : d'.harness.output = d.harness.output) : Moved d d'
  | outbound (message : JsonValue) (rest : List JsonValue) (written : Bool)
      (hqueue : d.harness.outbound = message :: rest) (hlistens : d.harness.listens = true) :
      Moved d { d with
        harness := { d.harness with outbound := rest }.writeOutbound message written }
  | permission (g : GivenResponse) (rest : List GivenResponse) (written : Bool)
      (hqueue : d.harness.permissions = g :: rest) (hlistens : d.harness.listens = true) :
      Moved d { d with
        harness := { d.harness with permissions := rest }.flushPermission g.response written }
  | finished (hdrained : d.harness.drained = true) :
      Moved d { d with harness := { d.harness with phase := .finished } }

theorem moved_of_step {l : DrainLabel} (hphase : d.harness.phase ≠ .serving)
    (h : d.step serde l = some d') : d.Moved d' := by
  cases l with
  | harness l =>
      rw [step] at h
      obtain ⟨hsender, h⟩ := Option.ite_none_left_eq_some.mp h
      obtain ⟨y, hy, rfl⟩ := Option.map_eq_some_iff.mp h
      have hsame : ({ d with harness := y, sent := d.sent ++ [] } : Drain)
          = { d with harness := y } := by rw [List.append_nil]
      cases l with
      | send message =>
          obtain ⟨_, hy⟩ := Option.ite_none_right_eq_some.mp hy
          cases hy
          have hholds : d.channelHolds = true := by simpa [HarnessLabel.needsSender] using hsender
          exact .channel _ [] hholds rfl rfl (List.append_nil _).symm rfl rfl
      | respond no r =>
          obtain ⟨_, hy⟩ := Option.ite_none_right_eq_some.mp hy
          obtain ⟨_, hy⟩ := Option.ite_none_right_eq_some.mp hy
          cases hy
          have hholds : d.channelHolds = true := by simpa [HarnessLabel.needsSender] using hsender
          exact .channel _ [⟨r, no⟩] hholds rfl rfl rfl rfl rfl
      | nextLine line a =>
          rw [ChannelHarness.step, if_neg hphase] at hy
          cases hy
      | endOfInput =>
          rw [ChannelHarness.step, if_neg hphase] at hy
          cases hy
      | recvOutbound written =>
          simp only [ChannelHarness.step] at hy
          split at hy
          · rename_i message rest hqueue
            obtain ⟨hlistens, hy⟩ := Option.ite_none_right_eq_some.mp hy
            cases hy
            simp only [HarnessLabel.answers, hsame]
            exact .outbound message rest written hqueue hlistens
          · cases hy
      | recvPermission written =>
          simp only [ChannelHarness.step] at hy
          split at hy
          · rename_i g rest hqueue
            obtain ⟨hlistens, hy⟩ := Option.ite_none_right_eq_some.mp hy
            cases hy
            simp only [HarnessLabel.answers, hsame]
            exact .permission g rest written hqueue hlistens
          · cases hy
      | finish =>
          obtain ⟨hdrained, hy⟩ := Option.ite_none_right_eq_some.mp hy
          cases hy
          simp only [HarnessLabel.answers, hsame]
          exact .finished hdrained
  | dropSenders =>
      obtain ⟨hholds, h⟩ := Option.ite_none_right_eq_some.mp h
      cases h
      exact .channel _ [] hholds rfl rfl (List.append_nil _).symm (List.append_nil _).symm rfl
  | elseBreak =>
      rw [not_elseBreak] at h
      cases h

/-! ### The answers that were taken -/

/-- The answers that were taken have been forwarded, each to the request that waited for it. -/
structure Tracks (x : ChannelHarness) (d : Drain) : Prop where
  phase : d.harness.phase = .draining ∨ d.harness.phase = .finished ∨
    d.harness.phase = .failed .write
  complete : d.harness.phase = .finished → ∀ k, d.harness.pendingPermissions.get? k = none
  taken : ∃ taken, d.sent = taken ++ d.harness.permissions ∧
    ∀ k, ∀ e ∈ x.pendingPermissions.get? k,
      (d.harness.pendingPermissions.get? k = some e ∧ ∀ g ∈ taken, g.response.requestId ≠ k) ∨
      (d.harness.pendingPermissions.get? k = none ∧
        ∃ g, taken.find? (fun g => g.response.requestId = k) = some g ∧
          (d.harness.phase = .failed .write ∨
            ChannelHarness.permissionResponse e g.response ∈ d.harness.responses))

theorem running_of_draining (h : d.harness.phase = .draining) : d.harness.running = true := by
  simp [ChannelHarness.running, h]

/-- After a write, the harness goes on or has failed, and what waits is the same. -/
theorem write_fields (y : ChannelHarness) (o : HarnessOutput) (written : Bool) :
    (y.write o written).pendingPermissions = y.pendingPermissions ∧
      (y.write o written).permissions = y.permissions ∧
      (y.write o written).outbound = y.outbound ∧
      ((y.write o written).phase = y.phase ∧ (y.write o written).output = y.output ++ [o] ∨
        (y.write o written).phase = .failed .write ∧ (y.write o written).output = y.output) := by
  rw [ChannelHarness.write]
  split
  · exact ⟨rfl, rfl, rfl, .inl ⟨rfl, rfl⟩⟩
  · exact ⟨rfl, rfl, rfl, .inr ⟨rfl, rfl⟩⟩

theorem flushPermission_of_none {y : ChannelHarness} {r : PermissionResponse} (written : Bool)
    (h : y.pendingPermissions.get? r.requestId = none) : y.flushPermission r written = y := by
  rw [ChannelHarness.flushPermission, h]

theorem flushPermission_fields {y : ChannelHarness} {r : PermissionResponse}
    {e : WaitingPermission} (written : Bool)
    (h : y.pendingPermissions.get? r.requestId = some e) :
    (y.flushPermission r written).pendingPermissions = y.pendingPermissions.remove r.requestId ∧
      (y.flushPermission r written).permissions = y.permissions ∧
      (y.flushPermission r written).outbound = y.outbound ∧
      ((y.flushPermission r written).phase = y.phase ∧
          (y.flushPermission r written).output
            = y.output ++ [.response (ChannelHarness.permissionResponse e r)] ∨
        (y.flushPermission r written).phase = .failed .write ∧
          (y.flushPermission r written).output = y.output) := by
  rw [ChannelHarness.flushPermission, h]
  exact write_fields _ _ _

theorem mem_responses_mono {y z : ChannelHarness} {more : List HarnessOutput}
    (h : z.output = y.output ++ more) {r : HarnessResponse} (hr : r ∈ y.responses) :
    r ∈ z.responses := by
  rw [ChannelHarness.responses, h, List.filterMap_append]
  exact List.mem_append_left _ hr

namespace Tracks

/-- What is written does not lose what was. -/
theorem written_mono {y z : ChannelHarness} (hphase : y.phase = .failed .write → z.phase = .failed .write)
    {more : List HarnessOutput} (houtput : z.output = y.output ++ more) {r : HarnessResponse}
    (h : y.phase = .failed .write ∨ r ∈ y.responses) :
    z.phase = .failed .write ∨ r ∈ z.responses := by
  rcases h with hfailed | hr
  · exact .inl (hphase hfailed)
  · exact .inr (mem_responses_mono houtput hr)

theorem draining_of_listens (h : Tracks x d) (hlistens : d.harness.listens = true) :
    d.harness.phase = .draining := by
  have hrunning := ChannelHarness.running_of_listens hlistens
  rcases h.phase with hphase | hphase | hphase
  · exact hphase
  · simp [ChannelHarness.running, hphase] at hrunning
  · simp [ChannelHarness.running, hphase] at hrunning

/-- A step that takes no answer. -/
theorem of_kept (h : Tracks x d) {more : List GivenResponse} {out : List HarnessOutput}
    (hphase : d'.harness.phase = .draining ∨ d'.harness.phase = .finished ∨
      d'.harness.phase = .failed .write)
    (hcomplete : d'.harness.phase = .finished → ∀ k, d'.harness.pendingPermissions.get? k = none)
    (hpending : d'.harness.pendingPermissions = d.harness.pendingPermissions)
    (hqueue : d'.harness.permissions = d.harness.permissions ++ more)
    (hsent : d'.sent = d.sent ++ more)
    (hfailed : d.harness.phase = .failed .write → d'.harness.phase = .failed .write)
    (houtput : d'.harness.output = d.harness.output ++ out) : Tracks x d' := by
  obtain ⟨taken, hsent₀, htaken⟩ := h.taken
  refine ⟨hphase, hcomplete, taken, ?_, ?_⟩
  · rw [hsent, hsent₀, hqueue, List.append_assoc]
  · intro k e he
    rw [hpending]
    rcases htaken k e he with hwaits | ⟨hnone, g, hg, hwritten⟩
    · exact .inl hwaits
    · exact .inr ⟨hnone, g, hg, written_mono hfailed houtput hwritten⟩

/-- An answer is taken. -/
theorem of_permission (h : Tracks x d) {g : GivenResponse} {rest : List GivenResponse}
    (hqueue : d.harness.permissions = g :: rest) (hlistens : d.harness.listens = true)
    (written : Bool) :
    Tracks x { d with
      harness := { d.harness with permissions := rest }.flushPermission g.response written } := by
  have hdraining := h.draining_of_listens hlistens
  obtain ⟨taken, hsent₀, htaken⟩ := h.taken
  have hsent : d.sent = (taken ++ [g]) ++ rest := by
    rw [hsent₀, hqueue, List.append_assoc]
    rfl
  -- what was found among the answers that were taken is found again
  have hfind : ∀ {k : String} {g' : GivenResponse},
      taken.find? (fun g => g.response.requestId = k) = some g' →
      (taken ++ [g]).find? (fun g => g.response.requestId = k) = some g' := by
    intro k g' hg'
    rw [List.find?_append, hg']
    rfl
  have hothers : ∀ {k : String}, g.response.requestId ≠ k →
      (∀ g' ∈ taken, g'.response.requestId ≠ k) →
      ∀ g' ∈ taken ++ [g], g'.response.requestId ≠ k := by
    intro k hne hall g' hg'
    rcases List.mem_append.mp hg' with hg' | hg'
    · exact hall g' hg'
    · rw [List.mem_singleton.mp hg']
      exact hne
  cases hwaiting : d.harness.pendingPermissions.get? g.response.requestId with
  | none =>
      have hsame := flushPermission_of_none (y := { d.harness with permissions := rest })
        (r := g.response) written hwaiting
      rw [hsame]
      refine ⟨h.phase, h.complete, taken ++ [g], hsent, ?_⟩
      intro k e he
      rcases htaken k e he with ⟨hwaits, hall⟩ | ⟨hgone, g', hg', hwritten⟩
      · refine .inl ⟨hwaits, hothers ?_ hall⟩
        rintro rfl
        rw [hwaiting] at hwaits
        cases hwaits
      · exact .inr ⟨hgone, g', hfind hg', hwritten⟩
  | some waiting =>
      obtain ⟨hpending, hpermissions, _, hwrite⟩ := flushPermission_fields
        (y := { d.harness with permissions := rest }) written hwaiting
      generalize ChannelHarness.flushPermission { d.harness with permissions := rest }
        g.response written = z at hpending hpermissions hwrite ⊢
      refine ⟨?_, ?_, taken ++ [g], ?_, ?_⟩
      · rcases hwrite with ⟨hphase, _⟩ | ⟨hphase, _⟩
        · exact .inl (hphase.trans hdraining)
        · exact .inr (.inr hphase)
      · intro hfinished
        rcases hwrite with ⟨hphase, _⟩ | ⟨hphase, _⟩
        · cases (hphase.trans hdraining).symm.trans hfinished
        · cases hphase.symm.trans hfinished
      · rw [hpermissions]
        exact hsent
      · intro k e he
        have hget : z.pendingPermissions.get? k = if k = g.response.requestId then none
            else d.harness.pendingPermissions.get? k := by
          rw [hpending, KeyedMap.get?_remove]
        rw [hget]
        rcases htaken k e he with ⟨hwaits, hall⟩ | ⟨hgone, g', hg', hwritten⟩
        · by_cases hk : k = g.response.requestId
          · -- this is the answer that the request waits for
            rw [hk, hwaiting] at hwaits
            cases hwaits
            refine .inr ⟨if_pos hk, g, ?_, ?_⟩
            · have hnone : taken.find? (fun g => g.response.requestId = k) = none := by
                rw [List.find?_eq_none]
                intro g' hg'
                simpa using hall g' hg'
              rw [List.find?_append, hnone]
              simp [hk]
            · rcases hwrite with ⟨_, houtput⟩ | ⟨hphase, _⟩
              · right
                rw [ChannelHarness.responses, houtput, List.filterMap_append]
                exact List.mem_append_right _ List.mem_cons_self
              · exact .inl hphase
          · rw [if_neg hk]
            exact .inl ⟨hwaits, hothers (Ne.symm hk) hall⟩
        · refine .inr ⟨?_, g', hfind hg', ?_⟩
          · rw [hgone, ite_self]
          · rcases hwrite with ⟨hphase, houtput⟩ | ⟨hphase, _⟩
            · exact written_mono (fun hfailed => hphase.trans hfailed) houtput hwritten
            · exact .inl hphase

theorem step (h : Tracks x d) (hmoved : d.Moved d') : Tracks x d' := by
  cases hmoved with
  | channel d' more hholds hphase hpending hqueue hsent houtput =>
      refine h.of_kept ?_ ?_ hpending hqueue hsent (fun hfailed => hphase.trans hfailed)
        (houtput.trans (List.append_nil _).symm)
      · rw [hphase]
        exact h.phase
      · intro hfinished
        rw [hpending]
        exact h.complete (hphase.symm.trans hfinished)
  | outbound message rest written hqueue hlistens =>
      have hdraining := h.draining_of_listens hlistens
      obtain ⟨hpending, hpermissions, _, hwrite⟩ := write_fields
        { d.harness with outbound := rest }
        (.notification (.new "channel/sendMessage" none (some message))) written
      rw [ChannelHarness.writeOutbound]
      generalize ChannelHarness.write { d.harness with outbound := rest }
        (.notification (.new "channel/sendMessage" none (some message))) written = z
        at hpending hpermissions hwrite ⊢
      have hqueue' : z.permissions = d.harness.permissions ++ [] :=
        hpermissions.trans (List.append_nil _).symm
      rcases hwrite with ⟨hphase, houtput⟩ | ⟨hphase, houtput⟩
      · refine h.of_kept (.inl (hphase.trans hdraining)) ?_ hpending hqueue'
          (List.append_nil _).symm (fun hfailed => hphase.trans hfailed) houtput
        intro hfinished
        cases (hphase.trans hdraining).symm.trans hfinished
      · refine h.of_kept (.inr (.inr hphase)) ?_ hpending hqueue' (List.append_nil _).symm
          (fun _ => hphase) (houtput.trans (List.append_nil _).symm)
        intro hfinished
        cases hphase.symm.trans hfinished
  | permission g rest written hqueue hlistens => exact h.of_permission hqueue hlistens written
  | finished hdrained =>
      have hempty := ChannelHarness.get?_of_drained hdrained
      refine h.of_kept (.inr (.inl rfl)) (fun _ => hempty) rfl (List.append_nil _).symm
        (List.append_nil _).symm ?_ (List.append_nil _).symm
      intro hfailed
      rw [ChannelHarness.phase_of_drained hdrained] at hfailed
      cases hfailed

theorem not_serving (h : Tracks x d) : d.harness.phase ≠ .serving := by
  intro hserving
  rcases h.phase with hphase | hphase | hphase
  · cases hphase.symm.trans hserving
  · cases hphase.symm.trans hserving
  · cases hphase.symm.trans hserving

end Tracks

theorem tracks (hx : x.phase = .draining) (h : (drains serde x).Reachable d) : Tracks x d := by
  refine h.invariant (I := Tracks x) ?_ ?_
  · rintro d rfl
    refine ⟨.inl hx, ?_, [], rfl, ?_⟩
    · intro hfinished
      cases hx.symm.trans hfinished
    · intro k e he
      exact .inl ⟨he, fun g hg => (nomatch hg)⟩
  · intro d l d' _ hd _ hstep
    exact hd.step (moved_of_step hd.not_serving hstep)

/-! ### What the harness can do -/

theorem listens_of_waiting {k : String} (hphase : d.harness.phase = .draining)
    (hk : (d.harness.pendingPermissions.get? k).isSome) : d.harness.listens = true := by
  have hnot : d.harness.drained = false := by
    rw [Bool.eq_false_iff]
    intro hdrained
    rw [ChannelHarness.get?_of_drained hdrained] at hk
    cases hk
  rw [ChannelHarness.listens, running_of_draining hphase, hnot]
  rfl

theorem step_finish (h : d.harness.drained = true) : d.step serde (.harness .finish)
    = some { d with
        harness := { d.harness with phase := .finished }
        sent := d.sent ++ [] } := by
  rw [step, ChannelHarness.step, if_pos h]
  rfl

theorem step_recvPermission {g : GivenResponse} {rest : List GivenResponse}
    (hqueue : d.harness.permissions = g :: rest) (hlistens : d.harness.listens = true)
    (written : Bool) : d.step serde (.harness (.recvPermission written))
      = some { d with
          harness := { d.harness with permissions := rest }.flushPermission g.response written
          sent := d.sent ++ [] } := by
  simp only [step, ChannelHarness.step, hqueue, if_pos hlistens]
  rfl

theorem step_recvOutbound {message : JsonValue} {rest : List JsonValue}
    (hqueue : d.harness.outbound = message :: rest) (hlistens : d.harness.listens = true)
    (written : Bool) : d.step serde (.harness (.recvOutbound written))
      = some { d with
          harness := { d.harness with outbound := rest }.writeOutbound message written
          sent := d.sent ++ [] } := by
  simp only [step, ChannelHarness.step, hqueue, if_pos hlistens]
  rfl

/-- Either nothing waits, and the loop ends, or some request does. -/
theorem drained_or_waits (hphase : d.harness.phase = .draining) :
    d.harness.drained = true ∨ ∃ k, (d.harness.pendingPermissions.get? k).isSome := by
  by_cases hdrained : d.harness.drained = true
  · exact .inl hdrained
  · right
    have hne : d.harness.pendingPermissions.entries ≠ [] := by
      intro hnil
      simp [ChannelHarness.drained, hphase, hnil] at hdrained
    obtain ⟨e, rest, hcons⟩ := List.exists_cons_of_ne_nil hne
    refine ⟨e.1, ?_⟩
    refine AList.lookup_isSome.mpr (List.mem_keys_of_mem ?_)
    rw [hcons]
    exact List.mem_cons_self

/-! ### The promise -/

/-- When nothing happens any more, everything that was sent has been taken. -/
theorem forwarded_of_quiet (htracks : Tracks x d) (hquiet : d.Quiet serde)
    (hwritten : d.harness.phase ≠ .failed .write) : Forwarded x d := by
  obtain ⟨taken, hsent, htaken⟩ := htracks.taken
  intro k e he g hg
  rcases htaken k e he with ⟨hwaits, hall⟩ | ⟨_, g', hg', hdone⟩
  · exfalso
    have hsome : (d.harness.pendingPermissions.get? k).isSome := by rw [hwaits]; rfl
    rcases htracks.phase with hphase | hphase | hphase
    · cases hqueue : d.harness.permissions with
      | nil =>
          rw [firstSent, hsent, hqueue, List.append_nil, Option.mem_def] at hg
          have hid : g.response.requestId = k := by simpa using List.find?_some hg
          exact hall g (List.mem_of_find?_eq_some hg) hid
      | cons g' rest =>
          have hstep := @step_recvPermission serde d g' rest hqueue
            (listens_of_waiting hphase hsome) true
          rw [hquiet] at hstep
          cases hstep
    · rw [htracks.complete hphase] at hsome
      cases hsome
    · exact hwritten hphase
  · have hfirst : d.firstSent k = some g' := by
      rw [firstSent, hsent, List.find?_append, hg']
      rfl
    cases hfirst.symm.trans hg
    exact hdone.resolve_left hwritten

/-- The senders are dropped, and every request that waits has its answer in the queue. -/
structure Answerable (d : Drain) : Prop where
  dropped : d.channelHolds = false
  phase : d.harness.phase = .draining
  covered : ∀ k, (d.harness.pendingPermissions.get? k).isSome →
    ∃ g ∈ d.harness.permissions, g.response.requestId = k

/-- The senders are dropped, and some request that waits has no answer in the queue. -/
structure Unanswered (k : String) (d : Drain) : Prop where
  dropped : d.channelHolds = false
  phase : d.harness.phase = .draining
  waits : (d.harness.pendingPermissions.get? k).isSome
  missing : ∀ g ∈ d.harness.permissions, g.response.requestId ≠ k

def queued (d : Drain) : Nat := d.harness.outbound.length + d.harness.permissions.length

theorem Answerable.goes (h : Answerable d) : ∃ l d', d.step serde l = some d' := by
  rcases drained_or_waits h.phase with hdrained | ⟨k, hk⟩
  · exact ⟨_, _, step_finish hdrained⟩
  · obtain ⟨g, hg, _⟩ := h.covered k hk
    obtain ⟨g', rest, hqueue⟩ := List.exists_cons_of_ne_nil (List.ne_nil_of_mem hg)
    exact ⟨_, _, step_recvPermission hqueue (listens_of_waiting h.phase hk) true⟩

theorem returned_of_failed {failure : HarnessFailure}
    (h : d.harness.phase = .failed failure) : Returned d := by
  simp [Returned, ChannelHarness.running, h]

/-- A request that still waits does not wait for the answer that was taken. -/
theorem mem_rest {g : GivenResponse} {rest : List GivenResponse} {k : String}
    (hqueue : d.harness.permissions = g :: rest) (hk : g.response.requestId ≠ k)
    (h : ∃ g ∈ d.harness.permissions, g.response.requestId = k) :
    ∃ g ∈ rest, g.response.requestId = k := by
  obtain ⟨g', hg', hid⟩ := h
  rw [hqueue] at hg'
  rcases List.mem_cons.mp hg' with rfl | hg'
  · exact absurd hid hk
  · exact ⟨g', hg', hid⟩

theorem Answerable.step (h : Answerable d) (hmoved : d.Moved d') :
    Returned d' ∨ Answerable d' ∧ d'.queued < d.queued := by
  cases hmoved with
  | channel d' more hholds =>
      rw [h.dropped] at hholds
      cases hholds
  | outbound message rest written hqueue hlistens =>
      obtain ⟨hpending, hpermissions, houtbound, hwrite⟩ := write_fields
        { d.harness with outbound := rest }
        (.notification (.new "channel/sendMessage" none (some message))) written
      rw [ChannelHarness.writeOutbound]
      generalize ChannelHarness.write { d.harness with outbound := rest }
        (.notification (.new "channel/sendMessage" none (some message))) written = z
        at hpending hpermissions houtbound hwrite ⊢
      rcases hwrite with ⟨hphase, _⟩ | ⟨hphase, _⟩
      · refine .inr ⟨⟨h.dropped, hphase.trans h.phase, ?_⟩, ?_⟩
        · rw [hpending, hpermissions]
          exact h.covered
        · simp [queued, houtbound, hpermissions, hqueue]
      · exact .inl (returned_of_failed hphase)
  | permission g rest written hqueue hlistens =>
      cases hwaiting : d.harness.pendingPermissions.get? g.response.requestId with
      | none =>
          have hsame := flushPermission_of_none (y := { d.harness with permissions := rest })
            (r := g.response) written hwaiting
          rw [hsame]
          refine .inr ⟨⟨h.dropped, h.phase, ?_⟩, ?_⟩
          · intro k hk
            refine mem_rest hqueue ?_ (h.covered k hk)
            rintro rfl
            have hsome : (d.harness.pendingPermissions.get? g.response.requestId).isSome := hk
            rw [hwaiting] at hsome
            cases hsome
          · simp [queued, hqueue]
      | some waiting =>
          obtain ⟨hpending, hpermissions, houtbound, hwrite⟩ := flushPermission_fields
            (y := { d.harness with permissions := rest }) written hwaiting
          generalize ChannelHarness.flushPermission { d.harness with permissions := rest }
            g.response written = z at hpending hpermissions houtbound hwrite ⊢
          rcases hwrite with ⟨hphase, _⟩ | ⟨hphase, _⟩
          · refine .inr ⟨⟨h.dropped, hphase.trans h.phase, ?_⟩, ?_⟩
            · intro k hk
              have hget : z.pendingPermissions.get? k = if k = g.response.requestId then none
                  else d.harness.pendingPermissions.get? k := by
                rw [hpending, KeyedMap.get?_remove]
              rw [hget] at hk
              rw [hpermissions]
              by_cases hid : k = g.response.requestId
              · rw [if_pos hid] at hk
                cases hk
              · rw [if_neg hid] at hk
                exact mem_rest hqueue (Ne.symm hid) (h.covered k hk)
            · simp [queued, houtbound, hpermissions, hqueue]
          · exact .inl (returned_of_failed hphase)
  | finished hdrained => exact .inl rfl

/-- With nothing in the way of a request that is not answered, the harness waits. -/
theorem Unanswered.stays {k : String} (h : Unanswered k d) :
    (∀ l, d.step serde l = none) ∨ ∃ l d', d.step serde l = some d' ∧ Unanswered k d' := by
  have hlistens := listens_of_waiting h.phase h.waits
  cases houtbound : d.harness.outbound with
  | cons message rest =>
      right
      exact ⟨_, _, step_recvOutbound houtbound hlistens true, h.dropped, h.phase, h.waits,
        h.missing⟩
  | nil =>
      cases hqueue : d.harness.permissions with
      | cons g rest =>
          right
          have hne : g.response.requestId ≠ k := h.missing g (by rw [hqueue]; exact List.mem_cons_self)
          have hmissing : ∀ g' ∈ rest, g'.response.requestId ≠ k := by
            intro g' hg'
            exact h.missing g' (by rw [hqueue]; exact List.mem_cons_of_mem g hg')
          refine ⟨_, _, step_recvPermission hqueue hlistens true, ?_⟩
          cases hwaiting : d.harness.pendingPermissions.get? g.response.requestId with
          | none =>
              have hsame := flushPermission_of_none (y := { d.harness with permissions := rest })
                (r := g.response) true hwaiting
              rw [hsame]
              exact ⟨h.dropped, h.phase, h.waits, hmissing⟩
          | some waiting =>
              have hflush : ChannelHarness.flushPermission
                  { d.harness with permissions := rest } g.response true
                    = { d.harness with
                        permissions := rest
                        pendingPermissions :=
                          d.harness.pendingPermissions.remove g.response.requestId
                        output := d.harness.output ++
                          [.response (ChannelHarness.permissionResponse waiting g.response)] } := by
                simp [ChannelHarness.flushPermission, hwaiting, ChannelHarness.writeResponse,
                  ChannelHarness.write]
              rw [hflush]
              refine ⟨h.dropped, h.phase, ?_, hmissing⟩
              have hget := KeyedMap.get?_remove d.harness.pendingPermissions
                g.response.requestId k
              rw [if_neg (Ne.symm hne)] at hget
              have hsome := h.waits
              rw [← hget] at hsome
              exact hsome
      | nil =>
          left
          intro l
          have hdrained : d.harness.drained = false := by
            rw [ChannelHarness.listens, running_of_draining h.phase] at hlistens
            simpa using hlistens
          cases l with
          | harness l =>
              cases l with
              | send | respond => simp [step, HarnessLabel.needsSender, h.dropped]
              | nextLine | endOfInput =>
                  simp [step, HarnessLabel.needsSender, ChannelHarness.step, h.phase]
              | recvOutbound =>
                  simp [step, HarnessLabel.needsSender, ChannelHarness.step, houtbound]
              | recvPermission =>
                  simp [step, HarnessLabel.needsSender, ChannelHarness.step, hqueue]
              | finish => simp [step, HarnessLabel.needsSender, ChannelHarness.step, hdrained]
          | dropSenders => simp [step, h.dropped]
          | elseBreak => exact not_elseBreak d

theorem Unanswered.not_inevitable {k : String} (h : Unanswered k d) :
    ¬(drains serde x).Inevitable Returned d := by
  refine Machine.not_inevitable_of_trap (I := Unanswered k) ?_ (fun _ hd' => hd'.stays) h
  intro d' hd' hreturned
  rw [Returned, running_of_draining hd'.phase] at hreturned
  cases hreturned

/-- **The harness ends** when its input ends and the channel drops its senders, with every
    answer forwarded, exactly when each request that waits at that moment has its answer in
    the queue. -/
theorem keepsPromise_iff (hx : x.phase = .draining) (h : (drains serde x).Reachable d)
    (hdropped : d.channelHolds = false) : d.KeepsPromise serde x ↔ d.Covered := by
  have htracks := tracks hx h
  constructor
  · intro hpromise hphase k hk
    by_contra hmissing
    have hunanswered : Unanswered k d := by
      refine ⟨hdropped, hphase, hk, ?_⟩
      intro g hg hid
      exact hmissing ⟨g, hg, hid⟩
    exact hunanswered.not_inevitable hpromise.returns
  · intro hcovered
    refine ⟨?_, ?_⟩
    · rcases htracks.phase with hphase | hphase | hphase
      · refine Machine.inevitable_of_measure (I := Answerable) queued ?_ ?_
          ⟨hdropped, hphase, hcovered hphase⟩
        · intro d' hd'
          exact .inr hd'.goes
        · intro d' l d'' hd' _ hstep
          refine hd'.step (moved_of_step ?_ hstep)
          rw [hd'.phase]
          intro heq
          cases heq
      · exact .here (by simp [Returned, ChannelHarness.running, hphase])
      · exact .here (returned_of_failed hphase)
    · intro d' hrun hquiet hwritten
      obtain ⟨d₀, h₀, hrun₀⟩ := h
      exact forwarded_of_quiet (tracks hx ⟨d₀, h₀, hrun₀.trans hrun⟩) hquiet hwritten

theorem mem_keys_of_waiting {k : String} (h : (d.harness.pendingPermissions.get? k).isSome) :
    k ∈ d.harness.pendingPermissions.keys :=
  AList.lookup_isSome.mp h

open Sample in
/-- The user answers before the channel drops its senders. -/
theorem keepsPromise_iff_answered : ∃ (x : ChannelHarness) (d : Drain),
    d.harness.phase = .draining ∧ d.harness.permissions.length = 1 ∧
      d.KeepsPromise harnessSerde x := by
  have hrun : ∃ x ∈ (ChannelHarness.life harnessSerde).run (fun _ _ => True) .fresh
      [requestLine "1" true, requestLine "3" true, .endOfInput], x.phase = .draining ∧
      ∃ d ∈ (drains harnessSerde x).run (fun _ _ => True) ⟨x, true, x.permissions⟩
        [.harness (allowed 1), .dropSenders],
        d.channelHolds = false ∧ d.harness.phase = .draining ∧
          d.harness.permissions.length = 1 ∧ d.harness.pendingPermissions.keys = ["p"] ∧
          ∃ g ∈ d.harness.permissions, g.response.requestId = "p" := by
    decide +kernel
  obtain ⟨x, _, hx, d, hd, hdropped, hphase, hlength, hkeys, hanswered⟩ := hrun
  refine ⟨x, d, hphase, hlength, ?_⟩
  refine (keepsPromise_iff hx (Machine.reachable_of_run _ rfl hd) hdropped).mpr ?_
  intro _ k hk
  have hmem := mem_keys_of_waiting hk
  rw [hkeys, List.mem_singleton] at hmem
  rw [hmem]
  exact hanswered

open Sample in
/-- The channel drops its senders without an answer, and the harness waits for ever. -/
theorem waits_for_ever : ¬∀ serde x d, (ChannelHarness.life serde).Reachable x →
    x.phase = .draining → (drains serde x).Reachable d → d.channelHolds = false →
      d.KeepsPromise serde x := by
  intro hall
  have hrun : ∃ x ∈ (ChannelHarness.life harnessSerde).run (fun _ _ => True) .fresh
      [requestLine "1" true, requestLine "3" true, .endOfInput], x.phase = .draining ∧
      ∃ d ∈ (drains harnessSerde x).run (fun _ _ => True) ⟨x, true, x.permissions⟩ [.dropSenders],
        d.channelHolds = false ∧ d.harness.phase = .draining ∧
          (d.harness.pendingPermissions.get? "p").isSome ∧ d.harness.permissions = [] := by
    decide +kernel
  obtain ⟨x, hreach, hx, d, hd, hdropped, hphase, hwaits, hnone⟩ := hrun
  have hpromise := hall harnessSerde x d (Machine.reachable_of_run _ rfl hreach) hx
    (Machine.reachable_of_run _ rfl hd) hdropped
  have hunanswered : Unanswered "p" d := by
    refine ⟨hdropped, hphase, hwaits, ?_⟩
    rw [hnone]
    intro g hg
    cases hg
  exact hunanswered.not_inevitable hpromise.returns

end Drain

end Anyclaw
