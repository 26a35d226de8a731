import Anyclaw.Library.Brackets
import Anyclaw.Agents.Tickets

/-!
# Dispatches and their ends

A channel shows that the agent is typing from `DispatchStarted` to `SessionComplete`.  The
completion of a prompt sends the second for the first that announced the prompt; so the
events of a key are bracketed as long as every announced prompt is handed over and nothing
else announces.  The platform commands do announce.

`DispatchStarted` is sent by `flush_and_dispatch` and `send_synthetic_chunk`
(`crates/anyclaw-agents/src/commands.rs`) and by `handle_prompt_completion` (`incoming.rs`),
`SessionComplete` by the last one and by `send_synthetic_response`.
-/

namespace Anyclaw

open Brackets (Mark Bracketed)

variable {n : Nat}

def ChannelEvent.bracket (k : SessionKey) : ChannelEvent → Option Mark
  | .dispatchStarted k' => if k' = k then some .opens else none
  | .sessionComplete k' _ => if k' = k then some .closes else none
  | _ => none

section Marks

variable (k k' : SessionKey)

@[simp] theorem bracket_dispatchStarted :
    (ChannelEvent.dispatchStarted k').bracket k = if k' = k then some .opens else none := rfl

@[simp] theorem bracket_sessionComplete (r : StopReason) :
    (ChannelEvent.sessionComplete k' r).bracket k = if k' = k then some .closes else none := rfl

@[simp] theorem bracket_deliverMessage (d : Anyclaw.Delivered) :
    (ChannelEvent.deliverMessage k' d).bracket k = none := rfl

end Marks

def Output.bracket (k : SessionKey) : Output n → Option Mark
  | .event e => e.bracket k
  | _ => none

/-- The typing state of `k`, as the channel sees it. -/
def brackets (k : SessionKey) (trace : List (Output n)) : List Mark :=
  trace.filterMap (Output.bracket k)

theorem brackets_append (k : SessionKey) (trace trace' : List (Output n)) :
    brackets k (trace ++ trace') = brackets k trace ++ brackets k trace' :=
  List.filterMap_append

namespace AgentsManager

variable {cfg : AgentsManagerConfig n} {m m' : AgentsManager n} {l : Label n} {b : Backlog n}
  {k : SessionKey}

theorem brackets_told (m : AgentsManager n) (k : SessionKey) (es : List ChannelEvent) :
    brackets k (m.told es) = if m.channelsSender then es.filterMap (ChannelEvent.bracket k)
      else [] := by
  unfold brackets told
  split
  · rw [List.filterMap_map]
    rfl
  · rfl

theorem brackets_messages (m : AgentsManager n) (k : SessionKey) :
    brackets k m.backlog.messages = brackets k m.trace := by
  refine filterMap_messages m fun o ho => ?_
  cases o with
  | event e => cases ho
  | _ => rfl

theorem brackets_aside {os : List (Output n)} (hos : ∀ o ∈ os, o.isAside = true) :
    brackets k os = [] := by
  refine List.filterMap_eq_nil_iff.mpr fun o ho => ?_
  have haside := hos o ho
  cases o with
  | event e =>
      cases e with
      | dispatchStarted _ => cases haside
      | sessionComplete _ _ => cases haside
      | _ => rfl
  | _ => rfl

/-- Talk opens and closes nothing. -/
theorem Talk.brackets (h : Talk cfg m l b) (k : SessionKey) :
    Anyclaw.brackets k b.messages = Anyclaw.brackets k m.backlog.messages := by
  have hsaid : ∀ os : List (Output n), Anyclaw.brackets k os = [] →
      Anyclaw.brackets k (m.backlog.messages ++ os) = Anyclaw.brackets k m.backlog.messages := by
    intro os hos
    rw [brackets_append, hos, List.append_nil]
  cases h with
  | forwarded => exact hsaid _ rfl
  | malformed =>
      refine hsaid _ ?_
      rw [brackets_told]
      split <;> rfl
  | crashed =>
      refine hsaid _ (List.filterMap_eq_nil_iff.mpr fun o ho => ?_)
      rcases mem_crashOutputs ho with ⟨e, he, rfl⟩ | rfl
      · obtain ⟨_, _, _, _, rfl⟩ := mem_crashNotices he
        rfl
      · rfl
  | aside _ hos => exact hsaid _ (brackets_aside hos)

/-! ### The condition -/

/-- With a channels manager connected, no platform command releases a key; `/cancel` is
    refused only for a key with nothing in flight; a plain message for an idle key reaches
    the agent; and what waits behind a completion reaches the agent if it is announced. -/
def KeepsBrackets (cfg : AgentsManagerConfig n) (m : AgentsManager n) (l : Label n) : Prop :=
  m.channelsSender = true →
    match l with
    | .command (.enqueueMessage name k content _) a =>
        ¬ CanRelease cfg m name k content a ∧
          (platformCommandOf content = some .cancel → (findSlotByName cfg name).isSome →
            ¬ m.backlog.InFlight k) ∧
          (IsPlain content → k ∉ m.queue.active → CanDispatch cfg m name k a)
    | .finishCompletion a =>
        ∀ c ∈ m.completing, m.queue.queued c.sessionKey ≠ [] → Announces cfg m c →
          CanRedispatch cfg m c a
    | _ => True

instance (cfg : AgentsManagerConfig n) (m : AgentsManager n) (l : Label n) :
    Decidable (KeepsBrackets cfg m l) := by
  unfold KeepsBrackets
  induction l using Label.casesOn with
  | command c _ => induction c using AgentsCommand.casesOn <;> dsimp only <;> infer_instance
  | _ =>
      dsimp only
      infer_instance

/-! ### Runs -/

/-- The typing state of `k` is open exactly while a prompt of `k` is in flight. -/
structure Typing (b : Backlog n) (k : SessionKey) : Prop where
  one : (b.flights k).length ≤ 1
  active : b.flights k ≠ [] → k ∈ b.active
  bit : Brackets.run false (brackets k b.messages) = some (!(b.flights k).isEmpty)

section Typing

variable {b' : Backlog n}

/-- Nothing about `k` has changed. -/
theorem Typing.same (h : Typing b k) (hflights : (b'.flights k).Perm (b.flights k))
    (hactive : k ∈ b.active → k ∈ b'.active)
    (hsaid : brackets k b'.messages = brackets k b.messages) : Typing b' k where
  one := by
    rw [hflights.length_eq]
    exact h.one
  active := fun hne => hactive (h.active fun hnil => hne (by
    rw [hnil] at hflights
    exact hflights.eq_nil))
  bit := by
    rw [hsaid, h.bit, Bool.eq_iff_iff.mpr (by
      simp only [Bool.not_eq_true', List.isEmpty_eq_false_iff]
      exact not_congr ⟨fun hnil => (hnil ▸ hflights).eq_nil,
        fun hnil => (hnil ▸ hflights).symm.eq_nil⟩ : (!(b.flights k).isEmpty) = true ↔
          (!(b'.flights k).isEmpty) = true)]

/-- Marks of `k'` that end its flight, or begin one. -/
theorem Typing.moved (h : Typing b k) {k' : SessionKey} {os : List (Output n)} {ms : List Mark}
    (hsaid : b'.messages = b.messages ++ os)
    (hmarks : brackets k os = if k' = k then ms else [])
    (hother : k' ≠ k → (b'.flights k).Perm (b.flights k) ∧ (k ∈ b.active → k ∈ b'.active))
    (hmoved : k' = k → Brackets.run (!(b.flights k).isEmpty) ms = some false ∧
        b'.flights k = [] ∨
      Brackets.run (!(b.flights k).isEmpty) ms = some true ∧ (∃ no, b'.flights k = [no]) ∧
        k ∈ b'.active) : Typing b' k := by
  by_cases hk : k' = k
  · have hbit : Brackets.run false (brackets k b'.messages) =
        Brackets.run (!(b.flights k).isEmpty) ms := by
      rw [hsaid, brackets_append, Brackets.run_append, h.bit, Option.bind_some, hmarks,
        if_pos hk]
    rcases hmoved hk with ⟨hrun, hnil⟩ | ⟨hrun, ⟨no, hone⟩, hactive⟩
    · refine ⟨?_, fun hne => absurd hnil hne, ?_⟩
      · rw [hnil]
        exact Nat.zero_le 1
      · rw [hbit, hrun, hnil]
        rfl
    · refine ⟨?_, fun _ => hactive, ?_⟩
      · rw [hone]
        exact le_rfl
      · rw [hbit, hrun, hone]
        rfl
  · obtain ⟨hflights, hactive⟩ := hother hk
    refine h.same hflights hactive ?_
    rw [hsaid, brackets_append, hmarks, if_neg hk, List.append_nil]

end Typing

theorem bracket_closing (m : AgentsManager n) (c : PromptCompletion) (d : Anyclaw.Delivered)
    (k : SessionKey) : (m.closing c d).filterMap (ChannelEvent.bracket k) =
      if c.sessionKey = k then [.closes] else [] := by
  unfold closing
  rw [List.filterMap_append]
  have hresult : (if c.sessionKey ∈ m.streamingCompleted then []
      else [ChannelEvent.deliverMessage c.sessionKey d]).filterMap (ChannelEvent.bracket k) =
        [] := by
    split <;> rfl
  rw [hresult, List.nil_append]
  unfold ChannelEvent.bracket
  by_cases hk : c.sessionKey = k <;> simp [hk]

theorem Effect.typing (h : Effect cfg m l b) (hticketed : m.backlog.Ticketed)
    (hguard : KeepsBrackets cfg m l) (hsender : m.channelsSender = true)
    (k : SessionKey) (htyping : Typing m.backlog k) : Typing b k := by
  have hguard := hguard hsender
  have hkept : Typing m.backlog k → b.tickets.Perm m.backlog.tickets →
      (k ∈ m.queue.active → k ∈ b.active) →
      brackets k b.messages = brackets k m.backlog.messages → Typing b k :=
    fun htyping htickets hactive hsaid =>
      htyping.same (Backlog.flights_perm htickets k) hactive hsaid
  have hclosing : ∀ {c : PromptCompletion} (d : Anyclaw.Delivered),
      brackets k (m.told (m.closing c d)) = if c.sessionKey = k then [.closes] else [] := by
    intro c d
    rw [brackets_told, if_pos hsender, bracket_closing]
  have hrest : ∀ {c : PromptCompletion}, m.completing = some c → c.sessionKey ≠ k →
      ((m.backlog.complete none m.completions).flights k).Perm (m.backlog.flights k) := by
    intro c hc hk
    have hperm := Backlog.flights_complete (b := m.backlog) hc k
    rw [if_neg hk] at hperm
    exact hperm.symm
  have hclosed : ∀ {c : PromptCompletion}, m.completing = some c → c.sessionKey = k →
      Brackets.run (!(m.backlog.flights k).isEmpty) [.closes] = some false ∧
        (m.backlog.complete none m.completions).flights k = [] := by
    rintro c hc rfl
    obtain ⟨hone, hnil⟩ := Backlog.flights_completed (b := m.backlog) hc htyping.one
    refine ⟨?_, hnil⟩
    rw [hone]
    rfl
  cases h with
  | quiet _ => exact htyping
  | talked htalk =>
      have hsaid := htalk.brackets k
      obtain ⟨os, ks, rfl, _⟩ := htalk.talks
      exact hkept htyping (.refl _) id hsaid
  | unqueued _ hawaited =>
      refine hkept htyping ?_ id rfl
      rw [Backlog.tickets_unawaited m.backlog hawaited]
  | released hcan => exact absurd hcan hguard.1
  | ended hp hends =>
      exact hkept htyping (hticketed.tickets_endPrompt hp hends.completes.ticket) id rfl
  | abandoned hp hawaited =>
      exact hkept htyping (hticketed.tickets_abandon hp hawaited rfl) id rfl
  | taken hidle hc =>
      refine hkept htyping ?_ id rfl
      rw [Backlog.tickets_take (b := m.backlog) hidle hc]
  | queued _ _ =>
      refine hkept htyping (.refl _) id ?_
      rw [Backlog.say_messages, brackets_append]
      exact List.append_nil _
  | rejected hplain hidle hcannot => exact absurd (hguard.2.2 hplain hidle) hcannot
  | @refused _ k' _ _ _ s hcommand hfind _ =>
      have hmarks : brackets k (m.told (syntheticResponse k' "No active operation to cancel."
          .cancelled)) = if k' = k then [.opens, .closes] else [] := by
        rw [brackets_told, if_pos hsender]
        by_cases hk : k' = k <;>
          simp [syntheticResponse, syntheticChunk, List.filterMap_cons, hk]
      refine htyping.moved rfl hmarks (fun _ => ⟨.refl _, id⟩) fun hk => Or.inl ?_
      subst hk
      have hnone : m.backlog.flights k' = [] := by
        by_contra hne
        refine hguard.2.1 hcommand ?_ (Backlog.inFlight_iff.mpr hne)
        rw [hfind]
        rfl
      refine ⟨?_, hnone⟩
      rw [hnone]
      rfl
  | @dispatched _ k' _ _ _ p parts _ hidle _ hp =>
      have hmarks : brackets k (m.told [.dispatchStarted k'] ++ ([.prompt p parts
          ((m.queue.queued k').flatMap RichPayload.origin ++ [m.nextMessage])] ++
            [.reply m.nextMessage k' true (.ok ())])) = if k' = k then [.opens] else [] := by
        rw [brackets_append, brackets_told, if_pos hsender]
        by_cases hk : k' = k <;> simp [hk, brackets, Output.bracket]
      have hflights := Backlog.flights_addPrompt m.backlog hp.awaited k
      rw [hp.key] at hflights
      refine htyping.moved ?_ hmarks (fun hk => ?_) fun hk => Or.inr ?_
      · simp only [Backlog.say_messages, Backlog.addPrompt_messages, Backlog.claim_messages,
          Backlog.clear_messages, Backlog.sayAll_messages, List.append_assoc]
      · rw [if_neg hk] at hflights
        exact ⟨hflights, Finset.mem_insert_of_mem⟩
      · subst hk
        have hnone : m.backlog.flights k' = [] := by
          by_contra hne
          exact hidle (htyping.active hne)
        rw [if_pos rfl, hnone] at hflights
        refine ⟨?_, ⟨p.no, List.perm_singleton.mp hflights⟩, Finset.mem_insert_self _ _⟩
        rw [hnone]
        rfl
  | @finished _ c d hc _ hempty =>
      refine htyping.moved rfl (hclosing d) (fun hk => ⟨?_, fun hactive => ?_⟩) fun hk => Or.inl ?_
      · exact hrest hc hk
      · rw [Backlog.release_active]
        split
        · exact Finset.mem_erase.mpr ⟨Ne.symm hk, hactive⟩
        · exact hactive
      · exact hclosed hc hk
  | @redispatched _ c d p parts hc _ hwaiting _ hp =>
      have hmarks : brackets k (m.told (m.closing c d) ++ (m.told [.dispatchStarted c.sessionKey] ++
          [.prompt p parts ((m.queue.queued c.sessionKey).flatMap RichPayload.origin)])) =
            if c.sessionKey = k then [.closes, .opens] else [] := by
        rw [brackets_append, hclosing, brackets_append, brackets_told, if_pos hsender]
        by_cases hk : c.sessionKey = k <;> simp [hk, brackets, Output.bracket]
      have hflights := Backlog.flights_addPrompt (m.backlog.complete none m.completions)
        hp.awaited k
      rw [hp.key] at hflights
      refine htyping.moved ?_ hmarks (fun hk => ?_) fun hk => Or.inr ?_
      · simp only [Backlog.say_messages, Backlog.addPrompt_messages, Backlog.clear_messages,
          Backlog.sayAll_messages, reported, Backlog.withStreaming_messages,
          Backlog.complete_messages, List.append_assoc]
      · rw [if_neg hk] at hflights
        exact ⟨hflights.trans (hrest hc hk), id⟩
      · subst hk
        obtain ⟨hone, hnil⟩ := Backlog.flights_completed (b := m.backlog) hc htyping.one
        have hnone : (m.backlog.complete none m.completions).flights c.sessionKey = [] := hnil
        rw [if_pos rfl, hnone] at hflights
        refine ⟨?_, ⟨p.no, List.perm_singleton.mp hflights⟩, htyping.active ?_⟩
        · rw [hone]
          rfl
        · rw [hone]
          exact List.cons_ne_nil _ _
  | @lost _ c d es hc _ hwaiting hcannot hes =>
      have hnone : es = [] := by
        rw [hes, if_neg fun hannounces => hcannot (hguard c hc hwaiting hannounces)]
      subst hnone
      rw [told_nil, Backlog.sayAll_nil]
      exact htyping.moved rfl (hclosing d) (fun hk => ⟨hrest hc hk, id⟩)
        fun hk => Or.inl (hclosed hc hk)

/-- The events of `k` are bracketed, and what is open will be closed. -/
structure DispatchesClosed (m : AgentsManager n) (k : SessionKey) : Prop where
  bracketed : Bracketed (brackets k m.trace)
  closing : (brackets k m.trace).count .closes < (brackets k m.trace).count .opens →
    m.backlog.InFlight k

theorem DispatchesClosed.of_run {s : Bool} (h : Brackets.run false (brackets k m.trace) = some s)
    (hopen : s = true → m.backlog.InFlight k) : DispatchesClosed m k := by
  refine ⟨Brackets.bracketed_of_run h, fun hlt => hopen ?_⟩
  have hcount := Brackets.count_of_run _ false h
  cases s with
  | true => rfl
  | false =>
      exact absurd hlt (Nat.not_lt.mpr (Nat.add_right_cancel hcount).ge)

/-- Without a channels manager nothing is sent. -/
theorem Effect.silent (h : Effect cfg m l b) (hsender : m.channelsSender = false)
    (k : SessionKey) : brackets k b.messages = brackets k m.backlog.messages := by
  have htold : ∀ es, m.told es = [] := by
    intro es
    unfold told
    rw [hsender]
    rfl
  have hsaid : ∀ {msgs : List (Output n)} {o : Output n}, Output.bracket k o = none →
      brackets k (msgs ++ [o]) = brackets k msgs := by
    intro msgs o ho
    have hone : brackets k [o] = [] := by
      rw [brackets, List.filterMap_cons_none ho]
      rfl
    rw [brackets_append, hone, List.append_nil]
  cases h with
  | talked htalk => exact htalk.brackets k
  | released => rw [htold, Backlog.sayAll_nil]; rfl
  | refused => rw [htold, Backlog.sayAll_nil]
  | dispatched =>
      rw [htold, Backlog.sayAll_nil]
      exact (hsaid rfl).trans (hsaid rfl)
  | rejected =>
      rw [htold, Backlog.sayAll_nil]
      exact hsaid rfl
  | queued => exact hsaid rfl
  | finished =>
      unfold reported
      rw [htold, Backlog.sayAll_nil]
      rfl
  | redispatched =>
      unfold reported
      rw [htold, htold, Backlog.sayAll_nil, Backlog.sayAll_nil]
      exact hsaid rfl
  | lost =>
      unfold reported
      rw [htold, htold, Backlog.sayAll_nil, Backlog.sayAll_nil]
      rfl
  | _ => rfl

/-- **Every dispatch that is announced is closed**, in every run in which no platform command
    announces one and every announced prompt reaches the agent. -/
theorem closed_of_keepsBrackets (h : (life cfg).ReachableUnder (KeepsBrackets cfg) m)
    (k : SessionKey) : DispatchesClosed m k := by
  have hinv : (m.channelsSender = true → Typing m.backlog k) ∧
      (m.channelsSender = false → brackets k m.trace = []) := by
    refine h.invariant (I := fun m => (m.channelsSender = true → Typing m.backlog k) ∧
      (m.channelsSender = false → brackets k m.trace = [])) ?_ ?_
    · intro m hinit
      obtain ⟨os, hos, hbacklog⟩ := life_init hinit
      have hnone : brackets k os = [] := by
        refine List.filterMap_eq_nil_iff.mpr fun o ho => ?_
        have hspawn := hos o ho
        cases o with
        | event e => cases hspawn
        | _ => rfl
      refine ⟨fun _ => ?_, fun _ => ?_⟩
      · rw [hbacklog]
        refine ⟨Nat.zero_le 1, fun hne => absurd rfl hne, ?_⟩
        dsimp only
        rw [hnone]
        rfl
      · rw [← brackets_messages, hbacklog]
        exact hnone
    · rintro m l m' hreach ⟨htyping, hsilent⟩ hguard hstep
      have horderly := orderly_of_reachable hreach.reachable
      have heffect := (step_advances horderly.plain hstep).effect
      have hsame : m'.channelsSender = m.channelsSender := heffect.sender
      refine ⟨fun hsender => ?_, fun hsender => ?_⟩
      · rw [hsame] at hsender
        exact heffect.typing horderly.ticketed hguard hsender k (htyping hsender)
      · rw [hsame] at hsender
        rw [← brackets_messages, heffect.silent hsender, brackets_messages]
        exact hsilent hsender
  cases hsender : m.channelsSender with
  | true =>
      have htyping := hinv.1 hsender
      have hbit := htyping.bit
      rw [brackets_messages] at hbit
      refine .of_run hbit fun hopen => Backlog.inFlight_iff.mpr fun hnil => ?_
      rw [hnil] at hopen
      cases hopen
  | false =>
      have hnone := hinv.2 hsender
      refine DispatchesClosed.of_run (s := false) ?_ (fun hfalse => nomatch hfalse)
      rw [hnone]
      rfl

/-- A prompt is answered while a second message waits, which is then dispatched. -/
theorem closed_of_keepsBrackets_two :
    ∃ m : AgentsManager 1, brackets Sample.bob m.trace = [.opens, .closes, .opens] ∧
      DispatchesClosed m Sample.bob := by
  have hrun : ∃ m ∈ AgentsManager.execute Sample.cfg (KeepsBrackets Sample.cfg) true ∅ Sample.boot
      [Sample.send "hello" (Sample.answers "s"), Sample.send "there" (Sample.answers "s"),
        .promptAnswered 0 (.result (some .endTurn)), .recvCompletion,
        .finishCompletion (Sample.answers "s")],
        brackets Sample.bob m.trace = [.opens, .closes, .opens] := by
    decide
  obtain ⟨m, hm, hmarks⟩ := hrun
  exact ⟨m, hmarks, closed_of_keepsBrackets (reachable_of_execute Sample.cfg hm) Sample.bob⟩

/-- `/new` announces a dispatch that nothing closes; the next message announces another. -/
theorem unclosed_after_new : ¬ ∀ m, (life Sample.cfg).Reachable m →
    ∀ k, DispatchesClosed m k := by
  intro hall
  have hrun : ∃ m ∈ Sample.execute [Sample.send "/new" (Sample.answers "s"),
      Sample.send "hello" (Sample.answers "s")],
        brackets Sample.bob m.trace = [.opens, .opens] := by
    decide
  obtain ⟨m, hm, hmarks⟩ := hrun
  have hclosed := (hall m (reachable_of_execute Sample.cfg hm) Sample.bob).bracketed
  rw [hmarks] at hclosed
  exact List.not_mem_nil (hclosed.separated [] [] [] rfl)

end AgentsManager

end Anyclaw
