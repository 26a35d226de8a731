import Anyclaw.DebugHttp.Channel

/-!
# Steps of the debug channel

The handlers are those of `ext/channels/debug-http/src/main.rs`, the loop is that of
`crates/anyclaw-sdk-channel/src/harness.rs`.

* `lets_iff`: who is let in by a server.
* `step_drives`, `step_works`: what a step does to the harness, and to the handlers.
* `task_posted`: every handler is at work on a request that a server let in.
-/

namespace Anyclaw

/-! ### Who is let in -/

theorem isPrefixOf_bearer {h key : String} :
    (bearer.isPrefixOf h.toList && h.toList.drop 7 = key.toList) = true ↔
      h = "Bearer " ++ key := by
  have hlength : bearer.length = 7 := rfl
  rw [Bool.and_eq_true, List.isPrefixOf_iff_prefix, decide_eq_true_iff, ← String.toList_inj,
    String.toList_append]
  change bearer <+: h.toList ∧ _ ↔ h.toList = bearer ++ key.toList
  constructor
  · rintro ⟨⟨rest, hrest⟩, hkey⟩
    rw [← hrest, ← hlength, List.drop_left] at hkey
    rw [← hrest, hkey]
  · intro heq
    rw [heq, ← hlength, List.drop_left]
    exact ⟨List.prefix_append _ _, rfl⟩

/-- A server with a key lets in who names it, and whoever asks for its health. -/
theorem DebugServer.lets_iff (s : DebugServer) (r : HttpRequest) :
    s.lets r = true ↔ ∀ key ∈ s.apiKey, r.endpoint.isHealth = true ∨
      r.authorization = some ("Bearer " ++ key) := by
  unfold DebugServer.lets
  cases s.apiKey with
  | none => simp
  | some key =>
      rw [Bool.or_eq_true]
      cases r.authorization with
      | none => simp
      | some h =>
          dsimp only
          rw [isPrefixOf_bearer]
          simp

namespace DebugHttpChannel

variable {serde : SerdeJson} {x y : DebugHttpChannel}

/-! ### Steps -/

@[simp] theorem harness_called (bound : Bool) (call : ChannelCall) :
    (x.called bound call).harness = x.harness := by
  cases call <;> rfl

@[simp] theorem tasks_called (bound : Bool) (call : ChannelCall) :
    (x.called bound call).tasks = x.tasks := by
  cases call <;> rfl

/-- What the loop does with a line. -/
theorem readLine_cases {line : List UInt8} {bound written : Bool}
    (h : x.readLine serde line bound written = some y) :
    ∃ a harness, x.harness.step serde (.nextLine line a) = some harness ∧
      (y = { x with harness := harness } ∧
          (∀ req ∈ readRequest serde line, req.call = none) ∨
        ∃ req ∈ readRequest serde line, ∃ call ∈ req.call,
          y = { x with harness := harness }.called bound call) := by
  unfold readLine at h
  cases hread : readRequest serde line with
  | none =>
      rw [hread] at h
      obtain ⟨harness, hstep, rfl⟩ := Option.map_eq_some_iff.mp h
      exact ⟨_, harness, hstep, .inl ⟨rfl, nofun⟩⟩
  | some req =>
      rw [hread] at h
      obtain ⟨harness, hstep, rfl⟩ := Option.map_eq_some_iff.mp h
      refine ⟨_, harness, hstep, ?_⟩
      cases hcall : req.call with
      | none =>
          refine .inl ⟨rfl, fun req' hreq' => ?_⟩
          cases hreq'
          exact hcall
      | some call => exact .inr ⟨req, rfl, call, hcall, rfl⟩

/-- Something is sent to the harness, or the harness has ended. -/
theorem sendToHarness_cases {l : HarnessLabel} (h : x.sendToHarness serde l = some y) :
    (∃ harness, x.harness.step serde l = some harness ∧ y = { x with harness := harness }) ∨
      (x.harness.running = false ∧ y = x) := by
  unfold sendToHarness at h
  split at h
  · obtain ⟨harness, hstep, rfl⟩ := Option.map_eq_some_iff.mp h
    exact .inl ⟨harness, hstep, rfl⟩
  · rename_i hended
    cases Option.some.inj h
    exact .inr ⟨by simpa using hended, rfl⟩

inductive Drives (serde : SerdeJson) (x : DebugHttpChannel) :
    DebugHttpLabel → ChannelHarness → Prop where
  | aside {l : DebugHttpLabel} : Drives serde x l x.harness
  | loop {l : DebugHttpLabel} {hl : HarnessLabel} {z : ChannelHarness}
      (hstep : x.harness.step serde hl = some z) (hanswers : hl.answers = [])
      (hsent : hl.sent = none) : Drives serde x l z
  | sends {no : Nat} {t : HttpTask} {text : String} {body : Json} {z : ChannelHarness}
      (ht : x.tasks[no]? = some t) (hhandler : t.handler = .send text body)
      (hstep : x.harness.step serde
        (.send (ChannelHarness.document (debugHttpSent text, none))) = some z) :
      Drives serde x (.proceed no) z
  | responds {no : Nat} {t : HttpTask} {id optionId : String} {z : ChannelHarness}
      (ht : x.tasks[no]? = some t) (hhandler : t.handler = .respond id optionId)
      (hstep : x.harness.step serde (.respond none ⟨id, optionId⟩) = some z) :
      Drives serde x (.proceed no) z

theorem proceed_drives {no : Nat} {t : HttpTask} (ht : x.tasks[no]? = some t)
    (h : x.proceed serde no t = some y) : Drives serde x (.proceed no) y.harness := by
  unfold proceed at h
  split at h
  · rename_i text body hhandler
    obtain ⟨z, hz, rfl⟩ := Option.map_eq_some_iff.mp h
    rcases sendToHarness_cases hz with ⟨harness, hstep, rfl⟩ | ⟨-, rfl⟩
    · exact .sends ht hhandler hstep
    · exact .aside
  · cases Option.some.inj h
    exact .aside
  · cases Option.some.inj h
    exact .aside
  · rename_i id optionId hhandler
    obtain ⟨z, hz, rfl⟩ := Option.map_eq_some_iff.mp h
    rcases sendToHarness_cases hz with ⟨harness, hstep, rfl⟩ | ⟨-, rfl⟩
    · exact .responds ht hhandler hstep
    · exact .aside
  · obtain ⟨s, -, rfl⟩ := Option.map_eq_some_iff.mp h
    exact .aside
  · cases h
  · cases h

theorem step_drives {l : DebugHttpLabel} (h : step serde x l = some y) :
    Drives serde x l y.harness := by
  cases l with
  | harness hl =>
      obtain ⟨hcond, h⟩ := Option.ite_none_right_eq_some.mp h
      obtain ⟨harness, hstep, rfl⟩ := Option.map_eq_some_iff.mp h
      rw [Bool.and_eq_true] at hcond
      cases hl <;> simp only [HarnessLabel.ofLoop, Bool.false_eq_true, and_false] at hcond <;>
        exact .loop hstep rfl rfl
  | nextLine line bound written =>
      obtain ⟨-, h⟩ := Option.ite_none_right_eq_some.mp h
      obtain ⟨a, harness, hstep, ⟨rfl, -⟩ | ⟨req, -, call, -, rfl⟩⟩ := readLine_cases h
      · exact .loop hstep rfl rfl
      · rw [harness_called]
        exact .loop hstep rfl rfl
  | register =>
      obtain ⟨id, -, rfl⟩ := Option.map_eq_some_iff.mp h
      exact .aside
  | request r =>
      obtain ⟨-, h⟩ := Option.ite_none_left_eq_some.mp h
      obtain ⟨s, -, rfl⟩ := Option.map_eq_some_iff.mp h
      split <;> exact .aside
  | proceed no =>
      obtain ⟨t, ht, h⟩ := Option.bind_eq_some_iff.mp h
      exact proceed_drives ht h
  | disconnect no =>
      obtain ⟨t, -, h⟩ := Option.bind_eq_some_iff.mp h
      split at h
      · cases h
      · cases Option.some.inj h
        exact .aside

/-! ### Handlers -/

end DebugHttpChannel

inductive Handler.Next : Handler → Handler → Prop where
  | retain {id optionId : String} : Next (.retain id optionId) (.resolve id optionId)
  | resolve {id optionId : String} : Next (.resolve id optionId) (.respond id optionId)
  | sent {text : String} {body : Json} : Next (.send text body) (.answered (.ok body))
  | responded {id optionId : String} {body : Json} :
      Next (.respond id optionId) (.answered (.ok body))
  | listed {body : Json} : Next .listPending (.answered (.ok body))

def Endpoint.text : Endpoint → Option String
  | .message text => some text
  | .cancel => some "__cancel__"
  | _ => none

def Handler.For (e : Endpoint) : Handler → Prop
  | .send text _ => e.text = some text
  | .retain id optionId => e = .permissionRespond id optionId
  | .resolve id optionId => e = .permissionRespond id optionId
  | .respond id optionId => e = .permissionRespond id optionId
  | .listPending => e = .permissionsPending
  | .answered _ => True
  | .dropped => True

theorem Endpoint.handler_for (e : Endpoint) : e.handler.For e := by
  cases e <;> simp [Endpoint.handler, Handler.For, Endpoint.text]

theorem Handler.Next.keeps {e : Endpoint} {handler handler' : Handler}
    (hnext : Next handler handler') (h : handler.For e) : handler'.For e := by
  cases hnext with
  | retain => exact h
  | resolve => exact h
  | sent => exact trivial
  | responded => exact trivial
  | listed => exact trivial

namespace DebugHttpChannel

variable {serde : SerdeJson} {x y : DebugHttpChannel}

inductive Works (x : DebugHttpChannel) : DebugHttpLabel → List HttpTask → Prop where
  | same {l : DebugHttpLabel} : Works x l x.tasks
  | admitted {r : HttpRequest} {s : DebugServer} (hserver : x.servers[r.server]? = some s)
      (hlets : s.lets r = true) :
      Works x (.request r) (x.tasks ++ [⟨r, r.endpoint.handler⟩])
  | worked {no : Nat} {t : HttpTask} {handler : Handler} (ht : x.tasks[no]? = some t)
      (hnext : t.handler.Next handler) :
      Works x (.proceed no) (x.tasks.modify no fun t => { t with handler := handler })
  | dropped {no : Nat} {t : HttpTask} (ht : x.tasks[no]? = some t)
      (hopen : ∀ answer, t.handler ≠ .answered answer) :
      Works x (.disconnect no) (x.tasks.modify no fun t => { t with handler := .dropped })

theorem tasks_sendToHarness {l : HarnessLabel} (h : x.sendToHarness serde l = some y) :
    y.tasks = x.tasks := by
  rcases sendToHarness_cases h with ⟨harness, -, rfl⟩ | ⟨-, rfl⟩
  · rfl
  · rfl

theorem proceed_works {no : Nat} {t : HttpTask} (ht : x.tasks[no]? = some t)
    (h : x.proceed serde no t = some y) : Works x (.proceed no) y.tasks := by
  unfold proceed at h
  split at h <;> rename_i hhandler
  · obtain ⟨z, hz, rfl⟩ := Option.map_eq_some_iff.mp h
    rw [setHandler, tasks_sendToHarness hz]
    exact .worked ht (hhandler ▸ .sent)
  · cases Option.some.inj h
    exact .worked ht (hhandler ▸ .retain)
  · cases Option.some.inj h
    exact .worked ht (hhandler ▸ .resolve)
  · obtain ⟨z, hz, rfl⟩ := Option.map_eq_some_iff.mp h
    rw [setHandler, tasks_sendToHarness hz]
    exact .worked ht (hhandler ▸ .responded)
  · obtain ⟨s, -, rfl⟩ := Option.map_eq_some_iff.mp h
    exact .worked ht (hhandler ▸ .listed)
  · cases h
  · cases h

theorem step_works {l : DebugHttpLabel} (h : step serde x l = some y) :
    Works x l y.tasks := by
  cases l with
  | harness hl =>
      obtain ⟨-, h⟩ := Option.ite_none_right_eq_some.mp h
      obtain ⟨harness, -, rfl⟩ := Option.map_eq_some_iff.mp h
      exact .same
  | nextLine line bound written =>
      obtain ⟨-, h⟩ := Option.ite_none_right_eq_some.mp h
      obtain ⟨a, harness, -, ⟨rfl, -⟩ | ⟨req, -, call, -, rfl⟩⟩ := readLine_cases h
      · exact .same
      · rw [tasks_called]
        exact .same
  | register =>
      obtain ⟨id, -, rfl⟩ := Option.map_eq_some_iff.mp h
      exact .same
  | request r =>
      obtain ⟨-, h⟩ := Option.ite_none_left_eq_some.mp h
      obtain ⟨s, hserver, rfl⟩ := Option.map_eq_some_iff.mp h
      split
      · rename_i hlets
        exact .admitted hserver hlets
      · exact .same
  | proceed no =>
      obtain ⟨t, ht, h⟩ := Option.bind_eq_some_iff.mp h
      exact proceed_works ht h
  | disconnect no =>
      obtain ⟨t, ht, h⟩ := Option.bind_eq_some_iff.mp h
      split at h
      · cases h
      · rename_i hopen
        cases Option.some.inj h
        exact .dropped ht hopen

/-! ### What is posted -/

/-- The request was made, and its server let it in. -/
def Posted (steps : List (Machine.Taken DebugHttpChannel DebugHttpLabel)) (r : HttpRequest) :
    Prop :=
  ∃ s ∈ steps, s.label = .request r ∧ ∃ server ∈ s.before.servers[r.server]?, server.lets r = true

theorem Posted.mono {steps steps' : List (Machine.Taken DebugHttpChannel DebugHttpLabel)}
    {r : HttpRequest} (h : Posted steps r) (hsub : steps ⊆ steps') : Posted steps' r := by
  obtain ⟨s, hs, hrest⟩ := h
  exact ⟨s, hsub hs, hrest⟩

/-- **Handlers work on what was let in.** -/
theorem task_posted {x : List (Machine.Taken DebugHttpChannel DebugHttpLabel) × DebugHttpChannel}
    (h : (life serde).recorded.Reachable x) :
    ∀ t ∈ x.2.tasks, Posted x.1 t.request ∧ t.handler.For t.request.endpoint := by
  refine h.invariant (I := fun x => ∀ t ∈ x.2.tasks,
    Posted x.1 t.request ∧ t.handler.For t.request.endpoint) ?_ ?_
  · rintro x ⟨-, hfresh⟩ t ht
    rw [hfresh] at ht
    cases ht
  · intro x l x' _ hx _ hs t ht
    obtain ⟨hstep, hsteps⟩ := Machine.of_recorded_step hs
    have hsub : x.1 ⊆ x'.1 := by
      rw [hsteps]
      exact List.subset_append_left _ _
    have hworks := step_works hstep
    generalize x'.2.tasks = tasks at hworks ht
    have hmodified : ∀ {no : Nat} {t₀ : HttpTask} {handler : Handler},
        x.2.tasks[no]? = some t₀ → handler.For t₀.request.endpoint →
        t ∈ x.2.tasks.modify no (fun t => { t with handler := handler }) →
          Posted x'.1 t.request ∧ t.handler.For t.request.endpoint := by
      intro no t₀ handler ht₀ hhandler ht
      obtain ⟨n, hn⟩ := List.mem_iff_getElem?.mp ht
      rw [List.getElem?_modify] at hn
      obtain ⟨t₁, ht₁, rfl⟩ := Option.map_eq_some_iff.mp hn
      obtain ⟨hposted, hfor⟩ := hx t₁ (List.mem_of_getElem? ht₁)
      split
      · rename_i hno
        rw [← hno, ht₀] at ht₁
        cases ht₁
        exact ⟨hposted.mono hsub, hhandler⟩
      · exact ⟨hposted.mono hsub, hfor⟩
    cases hworks with
    | same =>
        obtain ⟨hposted, hfor⟩ := hx t ht
        exact ⟨hposted.mono hsub, hfor⟩
    | @admitted r s hserver hlets =>
        rcases List.mem_append.mp ht with ht | ht
        · obtain ⟨hposted, hfor⟩ := hx t ht
          exact ⟨hposted.mono hsub, hfor⟩
        · rw [List.mem_singleton.mp ht]
          refine ⟨⟨⟨x.2, .request r, x'.2⟩, ?_, rfl, s, hserver, hlets⟩,
            Endpoint.handler_for r.endpoint⟩
          rw [hsteps]
          exact List.mem_append_right _ List.mem_cons_self
    | worked ht₀ hnext =>
        exact hmodified ht₀ (hnext.keeps (hx _ (List.mem_of_getElem? ht₀)).2) ht
    | dropped ht₀ _ => exact hmodified ht₀ (show Handler.For _ .dropped from trivial) ht

end DebugHttpChannel

end Anyclaw
