import Anyclaw.DebugHttp.Steps

/-!
# Messages over HTTP

A message is posted to `handle_message` of `ext/channels/debug-http/src/main.rs`, and goes to
the harness through the sender that `on_ready` has stored.

* `sent_of_reachable`: the harness is sent each message that was posted, in the order in which
  the handlers send them, and nothing else.
-/

namespace Anyclaw

namespace DebugHttpChannel

variable {serde : SerdeJson} {x y : DebugHttpChannel}

/-! ### Messages that are sent -/

def messageOf (text : String) : JsonValue := ChannelHarness.document (debugHttpSent text, none)

def textOf (tasks : List HttpTask) (no : Nat) : Option String :=
  tasks[no]?.bind fun t => t.request.endpoint.text

def messagesOf (tasks : List HttpTask) (nos : List Nat) : List JsonValue :=
  nos.filterMap fun no => (textOf tasks no).map messageOf

/-- The task whose handler sends its message by a step, while the harness runs. -/
def senderOf (x : DebugHttpChannel) : DebugHttpLabel → Option Nat
  | .proceed no =>
      x.tasks[no]?.bind fun t =>
        match t.handler with
        | .send _ _ => if x.harness.running then some no else none
        | _ => none
  | _ => none

/-- The tasks whose handlers have sent their messages, in the order in which they did. -/
def sendersOf (steps : List (Machine.Taken DebugHttpChannel DebugHttpLabel)) : List Nat :=
  steps.filterMap fun s => s.before.senderOf s.label

theorem senderOf_proceed {no : Nat} {t : HttpTask} {text : String} {body : Json}
    (ht : x.tasks[no]? = some t) (hhandler : t.handler = .send text body) :
    x.senderOf (.proceed no) = if x.harness.running then some no else none := by
  simp [senderOf, ht, hhandler]

theorem senderOf_aside {l : DebugHttpLabel}
    (hl : ∀ no t text body, l = .proceed no → x.tasks[no]? = some t →
      t.handler ≠ .send text body) : x.senderOf l = none := by
  cases l with
  | proceed no =>
      unfold senderOf
      dsimp only
      cases ht : x.tasks[no]? with
      | none => rfl
      | some t =>
          rw [Option.bind_some]
          split
          · rename_i text body hhandler
            exact absurd hhandler (hl no t text body rfl ht)
          · rfl
  | _ => rfl

/-- The harness was sent the messages of the tasks `nos`, in this order. -/
structure Sent (x : DebugHttpChannel) (nos : List Nat) : Prop where
  once : nos.Nodup
  answered : ∀ no ∈ nos, ∃ t ∈ x.tasks[no]?, ∃ answer, t.handler = .answered answer
  all : x.harness.running = true → ∀ no, ∀ t ∈ x.tasks[no]?, t.request.endpoint.text.isSome →
    (∃ answer, t.handler = .answered answer) → no ∈ nos
  accounts : ∃ first lost, ChannelHarness.Accounts (messagesOf x.tasks nos) x.harness first lost

theorem sent_fresh : Sent fresh [] := by
  refine ⟨List.nodup_nil, nofun, fun _ no t ht => ?_, [], [], rfl, rfl, nofun⟩
  cases ht

def NotSent (serde : SerdeJson) (z w : ChannelHarness) : Prop :=
  w = z ∨ ∃ l, z.step serde l = some w ∧ l.sent = none

theorem accounts_notSent {sent : List JsonValue} {z w : ChannelHarness} (h : NotSent serde z w)
    (hz : ∃ first lost, ChannelHarness.Accounts sent z first lost) :
    ∃ first lost, ChannelHarness.Accounts sent w first lost := by
  obtain ⟨first, lost, hz⟩ := hz
  rcases h with rfl | ⟨l, hstep, hsent⟩
  · exact ⟨first, lost, hz⟩
  · have hw := hz.step hstep
    rw [hsent, Option.toList_none, List.append_nil] at hw
    exact hw

theorem running_notSent {z w : ChannelHarness} (h : NotSent serde z w)
    (hrunning : w.running = true) : z.running = true := by
  rcases h with rfl | ⟨l, hstep, -⟩
  · exact hrunning
  · exact (ChannelHarness.step_passes hstep).1

theorem messagesOf_congr {tasks tasks' : List HttpTask} {nos : List Nat}
    (h : ∀ no ∈ nos, textOf tasks' no = textOf tasks no) :
    messagesOf tasks' nos = messagesOf tasks nos :=
  List.filterMap_congr fun no hno => by rw [h no hno]

/-- A step that sends no message, and by which no handler of a message answers while the
    harness runs. -/
theorem Sent.kept {nos : List Nat} (h : x.Sent nos) (hharness : NotSent serde x.harness y.harness)
    (htasks : ∀ (no : Nat) (t : HttpTask) (answer : HttpAnswer), x.tasks[no]? = some t →
      t.handler = .answered answer → y.tasks[no]? = some t)
    (hnew : y.harness.running = true → ∀ (no : Nat) (t : HttpTask) (answer : HttpAnswer),
      y.tasks[no]? = some t → t.request.endpoint.text.isSome → t.handler = .answered answer →
        x.tasks[no]? = some t) : y.Sent nos := by
  have hsame : messagesOf y.tasks nos = messagesOf x.tasks nos := by
    refine messagesOf_congr fun no hno => ?_
    obtain ⟨t, ht, answer, hanswered⟩ := h.answered no hno
    have hy := htasks no t answer ht hanswered
    rw [Option.mem_def] at ht
    rw [textOf, textOf, ht, hy]
  refine ⟨h.once, ?_, ?_, ?_⟩
  · intro no hno
    obtain ⟨t, ht, answer, hanswered⟩ := h.answered no hno
    exact ⟨t, htasks no t answer ht hanswered, answer, hanswered⟩
  · rintro hrunning no t ht htext ⟨answer, hanswered⟩
    exact h.all (running_notSent hharness hrunning) no t
      (hnew hrunning no t answer ht htext hanswered) htext ⟨answer, hanswered⟩
  · rw [hsame]
    exact accounts_notSent hharness h.accounts

/-- A handler has sent its message, and answers. -/
theorem Sent.more {nos : List Nat} (h : x.Sent nos) {no : Nat} {t : HttpTask} {text : String}
    {body : Json} {z : ChannelHarness} (ht : x.tasks[no]? = some t)
    (hhandler : t.handler = .send text body) (htext : t.request.endpoint.text = some text)
    (hstep : x.harness.step serde (.send (messageOf text)) = some z) :
    Sent ({ x with harness := z }.setHandler no (.answered (.ok body))) (nos ++ [no]) := by
  let y := { x with harness := z }.setHandler no (.answered (.ok body))
  have hget : ∀ n, y.tasks[n]? = (x.tasks[n]?).map fun t =>
      if no = n then { t with handler := .answered (.ok body) } else t := by
    intro n
    change (x.tasks.modify no _)[n]? = _
    rw [List.getElem?_modify]
    congr 1
  have hfresh : no ∉ nos := by
    intro hno
    obtain ⟨t', ht', answer, hanswered⟩ := h.answered no hno
    obtain rfl : t' = t := Option.mem_unique ht' ht
    rw [hhandler] at hanswered
    cases hanswered
  have htexts : ∀ n, textOf y.tasks n = textOf x.tasks n := by
    intro n
    rw [textOf, textOf, hget]
    cases x.tasks[n]? with
    | none => rfl
    | some t =>
        change (if no = n then _ else t).request.endpoint.text = _
        split <;> rfl
  have hmessages : messagesOf y.tasks (nos ++ [no]) =
      messagesOf x.tasks nos ++ [messageOf text] := by
    rw [messagesOf_congr fun n _ => htexts n, messagesOf, List.filterMap_append]
    have hlast : textOf x.tasks no = some text := by
      rw [textOf, ht]
      exact htext
    simp [messagesOf, hlast]
  refine ⟨?_, ?_, ?_, ?_⟩
  · exact List.nodup_append.mpr ⟨h.once, List.nodup_singleton _, by
      rintro a ha b hb rfl
      exact hfresh (List.mem_singleton.mp hb ▸ ha)⟩
  · intro n hn
    change ∃ t ∈ y.tasks[n]?, _
    rw [hget]
    by_cases hno : no = n
    · subst hno
      exact ⟨{ t with handler := .answered (.ok body) }, by simp [ht], _, rfl⟩
    · have hold : n ∈ nos := by
        rcases List.mem_append.mp hn with hn | hn
        · exact hn
        · exact absurd (List.mem_singleton.mp hn).symm hno
      obtain ⟨t', ht', hanswered⟩ := h.answered n hold
      rw [Option.mem_def] at ht'
      exact ⟨t', by simp [ht', hno], hanswered⟩
  · intro _ n t' ht' htext' hanswered
    by_cases hno : no = n
    · rw [hno]
      exact List.mem_append_right _ List.mem_cons_self
    · change t' ∈ y.tasks[n]? at ht'
      rw [hget] at ht'
      have hold : x.tasks[n]? = some t' := by simpa [hno] using ht'
      exact List.mem_append_left _
        (h.all (ChannelHarness.step_passes hstep).1 n t' hold htext' hanswered)
  · obtain ⟨first, lost, haccounts⟩ := h.accounts
    rw [hmessages]
    exact haccounts.step hstep

theorem getElem?_concat_cases {α : Type} {l : List α} {a b : α} {n : Nat}
    (h : (l ++ [a])[n]? = some b) : l[n]? = some b ∨ b = a := by
  rw [List.getElem?_append] at h
  split at h
  · exact .inl h
  · obtain ⟨hlt, heq⟩ := List.getElem?_eq_some_iff.mp h
    exact .inr (by simpa using heq.symm)

/-- A step other than that of a handler which sends a message leaves the handlers of messages
    that have answered, and lets no other one answer. -/
theorem answered_aside (hfor : ∀ t ∈ x.tasks, t.handler.For t.request.endpoint)
    {l : DebugHttpLabel} {tasks : List HttpTask}
    (hl : ∀ no t text body, l = .proceed no → x.tasks[no]? = some t →
      t.handler ≠ .send text body)
    (hworks : Works x l tasks) {no : Nat} {t : HttpTask} {answer : HttpAnswer}
    (hanswered : t.handler = .answered answer) :
    (x.tasks[no]? = some t → tasks[no]? = some t) ∧
      (tasks[no]? = some t → t.request.endpoint.text.isSome → x.tasks[no]? = some t) := by
  cases hworks with
  | same => exact ⟨id, fun ht _ => ht⟩
  | @admitted r s hserver hlets =>
      refine ⟨fun ht => ?_, fun ht htext => ?_⟩
      · rw [List.getElem?_append_left (List.getElem?_eq_some_iff.mp ht).1, ht]
      · rcases getElem?_concat_cases ht with ht | rfl
        · exact ht
        · -- a request for a message starts with sending it
          cases hendpoint : r.endpoint <;>
            simp [hendpoint, Endpoint.text, Endpoint.handler] at htext hanswered
  | @worked no₀ t₀ handler ht₀ hnext =>
      have hfor₀ := hfor t₀ (List.mem_of_getElem? ht₀)
      rw [List.getElem?_modify]
      by_cases hno : no₀ = no
      · subst hno
        refine ⟨fun ht => ?_, fun ht htext => ?_⟩
        · rw [ht₀] at ht
          cases ht
          rw [hanswered] at hnext
          cases hnext
        · rw [ht₀] at ht
          obtain rfl : { t₀ with handler := handler } = t := by simpa using ht
          change handler = _ at hanswered
          cases hhandler : t₀.handler <;> rw [hhandler] at hfor₀ hnext <;> cases hnext
          · exact absurd hhandler (hl _ _ _ _ rfl ht₀)
          · cases hanswered
          · cases hanswered
          · rw [hfor₀] at htext
            cases htext
          · rw [hfor₀] at htext
            cases htext
      · exact ⟨fun ht => by simp [hno, ht], fun ht _ => by simpa [hno] using ht⟩
  | @dropped no₀ t₀ ht₀ hopen =>
      rw [List.getElem?_modify]
      by_cases hno : no₀ = no
      · subst hno
        refine ⟨fun ht => ?_, fun ht _ => ?_⟩
        · rw [ht₀] at ht
          cases ht
          exact absurd hanswered (hopen answer)
        · rw [ht₀] at ht
          obtain rfl : { t₀ with handler := .dropped } = t := by simpa using ht
          cases hanswered
      · exact ⟨fun ht => by simp [hno, ht], fun ht _ => by simpa [hno] using ht⟩

theorem Sent.step {nos : List Nat} (h : x.Sent nos)
    (hfor : ∀ t ∈ x.tasks, t.handler.For t.request.endpoint) {l : DebugHttpLabel}
    (hs : DebugHttpChannel.step serde x l = some y) :
    y.Sent (nos ++ (x.senderOf l).toList) := by
  by_cases hl : ∃ no t text body, l = .proceed no ∧ x.tasks[no]? = some t ∧
      t.handler = .send text body
  · obtain ⟨no, t, text, body, rfl, ht, hhandler⟩ := hl
    obtain ⟨t', ht', hs⟩ := Option.bind_eq_some_iff.mp hs
    rw [ht] at ht'
    cases ht'
    rw [proceed, hhandler] at hs
    obtain ⟨z, hz, rfl⟩ := Option.map_eq_some_iff.mp hs
    have htext := hfor t (List.mem_of_getElem? ht)
    rw [hhandler] at htext
    rcases sendToHarness_cases hz with ⟨harness, hstep, rfl⟩ | ⟨hended, rfl⟩
    · have hrunning := (ChannelHarness.step_passes hstep).1
      rw [senderOf_proceed ht hhandler, if_pos hrunning]
      exact h.more ht hhandler htext hstep
    · -- the harness has ended, and the message is lost
      have hsame : NotSent serde z.harness (z.setHandler no (.answered (.ok body))).harness :=
        .inl rfl
      rw [senderOf_proceed ht hhandler, hended, if_neg Bool.false_ne_true, Option.toList_none,
        List.append_nil]
      refine h.kept hsame (fun n t' answer ht' hanswered => ?_) fun hrunning => ?_
      · change (z.tasks.modify no _)[n]? = _
        rw [List.getElem?_modify, ht']
        by_cases hno : no = n
        · subst hno
          rw [ht] at ht'
          cases ht'
          rw [hhandler] at hanswered
          cases hanswered
        · simp [hno]
      · change z.harness.running = true at hrunning
        rw [hended] at hrunning
        cases hrunning
  · have haside : ∀ no t text body, l = .proceed no → x.tasks[no]? = some t →
        t.handler ≠ .send text body :=
      fun no t text body hno ht hhandler => hl ⟨no, t, text, body, hno, ht, hhandler⟩
    have hharness : NotSent serde x.harness y.harness := by
      have hdrives := step_drives hs
      generalize y.harness = z at hdrives
      cases hdrives with
      | aside => exact .inl rfl
      | loop hstep _ hsent => exact .inr ⟨_, hstep, hsent⟩
      | sends ht hhandler _ => exact absurd hhandler (haside _ _ _ _ rfl ht)
      | responds _ _ hstep => exact .inr ⟨_, hstep, rfl⟩
    have hworks := step_works hs
    rw [senderOf_aside haside, Option.toList_none, List.append_nil]
    exact h.kept hharness
      (fun no t answer ht hanswered => (answered_aside hfor haside hworks hanswered).1 ht)
      fun _ no t answer ht htext hanswered =>
        (answered_aside hfor haside hworks hanswered).2 ht htext

/-- **Each message is sent once, in order.**  The harness is sent the message of each request
    that a server let in, when its handler sends it, and nothing else: it has written the first
    of them, and the last ones wait in its queue. -/
theorem sent_of_reachable (serde : SerdeJson)
    {x : List (Machine.Taken DebugHttpChannel DebugHttpLabel) × DebugHttpChannel}
    (h : (life serde).recorded.Reachable x) :
    x.2.Sent (sendersOf x.1) ∧ ∀ no ∈ sendersOf x.1, ∃ t ∈ x.2.tasks[no]?, Posted x.1 t.request := by
  have hsent : x.2.Sent (sendersOf x.1) := by
    refine h.invariant (I := fun x => x.2.Sent (sendersOf x.1)) ?_ ?_
    · rintro x ⟨hnil, hfresh⟩
      rw [hnil, hfresh]
      exact sent_fresh
    · rintro x l x' hreach hx _ hs
      obtain ⟨hstep, hsteps⟩ := Machine.of_recorded_step hs
      rw [hsteps, sendersOf, List.filterMap_append]
      have hmore := hx.step (fun t ht => (task_posted hreach t ht).2) hstep
      cases hsender : x.2.senderOf l with
      | none =>
          rw [hsender] at hmore
          simpa [sendersOf, hsender] using hmore
      | some no =>
          rw [hsender] at hmore
          simpa [sendersOf, hsender] using hmore
  refine ⟨hsent, fun no hno => ?_⟩
  obtain ⟨t, ht, -⟩ := hsent.answered no hno
  exact ⟨t, ht, (task_posted h t (List.mem_of_getElem? ht)).1⟩

open Sample in
/-- Two messages are posted, and the second one is sent first. -/
theorem sent_of_reachable_two :
    ∃ x : List (Machine.Taken DebugHttpChannel DebugHttpLabel) × DebugHttpChannel,
      x.2.harness.outbound = [messageOf "b", messageOf "a"] ∧
        x.2.Sent (sendersOf x.1) ∧
          ∀ no ∈ sendersOf x.1, ∃ t ∈ x.2.tasks[no]?, Posted x.1 t.request := by
  have hrun : ∃ x ∈ (life harnessSerde).recorded.run (fun _ _ => True) ([], fresh)
      [.nextLine (bytes "1") true true, .request ⟨1, none, .message "a"⟩,
        .request ⟨1, none, .message "b"⟩, .proceed 1, .proceed 0],
      x.2.harness.outbound = [messageOf "b", messageOf "a"] := by
    decide +kernel
  obtain ⟨x, hx, houtbound⟩ := hrun
  have hinit : (life harnessSerde).recorded.init ([], fresh) := ⟨rfl, rfl⟩
  exact ⟨x, houtbound, sent_of_reachable harnessSerde (Machine.reachable_of_run _ hinit hx)⟩

end DebugHttpChannel

end Anyclaw
