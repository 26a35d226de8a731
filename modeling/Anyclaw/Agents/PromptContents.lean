import Anyclaw.Agents.History
import Anyclaw.Agents.ToolContext

/-!
# What a prompt says

`plainMessages` are the plain messages that the commands of a run brought.  Whatever waits is
such messages, and every prompt of the run is made of them: the tool context of its slot at
most, the reply context of one message at most, and then exactly the contents of the messages
that it carries, in the order in which they were sent and all for the key of the prompt.

Payloads are merged by `flush_pending` (`crates/anyclaw-agents/src/session_queue.rs`) and
`handle_prompt_completion` (`incoming.rs`), and `prompt_session` (`commands.rs`) puts the two
contexts before them.
-/

namespace Anyclaw

variable {n : Nat}

structure PlainMessage where
  no : MessageNo
  key : SessionKey
  content : List ContentPart
  metadata : Option MessageMetadata
deriving DecidableEq

@[simps] def PlainMessage.payload (s : PlainMessage) : RichPayload :=
  ⟨s.content, s.metadata, [s.no]⟩

theorem origin_payloads (ss : List PlainMessage) :
    (ss.map PlainMessage.payload).flatMap RichPayload.origin = ss.map PlainMessage.no := by
  induction ss with
  | nil => rfl
  | cons s ss ih => simp [ih]

theorem content_payloads (ss : List PlainMessage) :
    (ss.map PlainMessage.payload).flatMap RichPayload.content =
      ss.flatMap PlainMessage.content := by
  induction ss with
  | nil => rfl
  | cons s ss ih => simp [ih]

def Output.carrier : Output n → Option (OutstandingPrompt n × List ContentPart × List MessageNo)
  | .prompt p parts origin => some (p, parts, origin)
  | _ => none

theorem Output.carrier_talk {o : Output n} (h : o.isTalk = true) : o.carrier = none := by
  cases o <;> first | rfl | cases h

namespace AgentsManager

def plainMessage (m : AgentsManager n) : Label n → Option PlainMessage
  | .command (.enqueueMessage _ k content metadata) _ =>
      if IsPlain content then some ⟨m.nextMessage, k, content, metadata⟩ else none
  | _ => none

def plainMessages (steps : List (Machine.Taken (AgentsManager n) (Label n))) (k : SessionKey) :
    List PlainMessage :=
  (steps.filterMap fun t => plainMessage t.before t.label).filter fun s => s.key = k

/-- The payloads that a step would hand over, and their key. -/
def handing (m : AgentsManager n) : Label n → Option (SessionKey × List RichPayload)
  | .command (.enqueueMessage _ k content metadata) _ =>
      if IsPlain content then
        some (k, m.queue.queued k ++ [⟨content, metadata, [m.nextMessage]⟩])
      else none
  | .finishCompletion _ => m.completing.map fun c => (c.sessionKey, m.queue.queued c.sessionKey)
  | _ => none

variable {cfg : AgentsManagerConfig n} {m m' : AgentsManager n} {l : Label n} {b : Backlog n}

/-! ### Merged payloads -/

/-- Merging keeps the metadata of one of the payloads. -/
theorem foldl_metadata {f : Option MessageMetadata → Option MessageMetadata →
      Option MessageMetadata} (hf : ∀ a b, f a b = a ∨ f a b = b) :
    ∀ (ps : List RichPayload) (acc : RichPayload),
      ∃ p ∈ acc :: ps, (ps.foldl (fun acc p =>
        { content := acc.content ++ p.content
          metadata := f acc.metadata p.metadata
          origin := acc.origin ++ p.origin }) acc).metadata = p.metadata
  | [], acc => ⟨acc, List.mem_cons_self, rfl⟩
  | p :: ps, acc => by
      obtain ⟨p', hp', hsame⟩ := foldl_metadata hf ps
        ⟨acc.content ++ p.content, f acc.metadata p.metadata, acc.origin ++ p.origin⟩
      rcases List.mem_cons.mp hp' with rfl | hp'
      · rcases hf acc.metadata p.metadata with hacc | hp
        · exact ⟨acc, List.mem_cons_self, hsame.trans hacc⟩
        · exact ⟨p, by simp, hsame.trans hp⟩
      · exact ⟨p', by simp [hp'], hsame⟩

/-- The merged payload replies to what one of its messages replies to. -/
theorem exists_metadata_mergeRemaining (first : RichPayload) (ps : List RichPayload) :
    ∃ p ∈ first :: ps, (SessionQueue.mergeRemaining first ps).metadata = p.metadata :=
  foldl_metadata (f := fun a b => if b.isSome then b else a)
    (fun _ _ => (ite_eq_or_eq _ _ _).symm) ps first

theorem exists_metadata_mergePending {ps : List RichPayload} (hps : ps ≠ []) :
    ∃ p ∈ ps, (SessionQueue.mergePending ps).metadata = p.metadata := by
  cases ps with
  | nil => exact absurd rfl hps
  | cons first rest =>
      obtain ⟨p, hp, hsame⟩ := foldl_metadata
        (f := fun a b => if a.isNone && b.isSome then b else a)
        (fun _ _ => (ite_eq_or_eq _ _ _).symm) rest
        ⟨[] ++ first.content, if first.metadata.isSome then first.metadata else none,
          [] ++ first.origin⟩
      rcases List.mem_cons.mp hp with rfl | hp
      · refine ⟨first, List.mem_cons_self, hsame.trans ?_⟩
        cases first.metadata <;> rfl
      · exact ⟨p, List.mem_cons_of_mem _ hp, hsame⟩

/-- The parts that messages bring: what one of them replies to, and their contents. -/
def PartsOf (ps : List RichPayload) (parts : List ContentPart) : Prop :=
  ∃ p ∈ ps, parts = (p.metadata.bind buildReplyContext).toList.map ContentPart.text ++
    ps.flatMap RichPayload.content

theorem partsOf_merged {payload : RichPayload} {ps : List RichPayload}
    (hcontent : payload.content = ps.flatMap RichPayload.content)
    (hmetadata : ∃ p ∈ ps, payload.metadata = p.metadata) : PartsOf ps (messageParts payload) := by
  obtain ⟨p, hp, hmetadata⟩ := hmetadata
  refine ⟨p, hp, ?_⟩
  rw [messageParts, hmetadata, hcontent]

theorem partsOf_ownParts {k : SessionKey} {ps : List RichPayload}
    (hl : m.handing l = some (k, ps)) (hps : ps ≠ []) : PartsOf ps (m.ownParts l) := by
  unfold handing at hl
  split at hl
  · obtain ⟨-, hpair⟩ := Option.ite_none_right_eq_some.mp hl
    cases hpair
    exact partsOf_merged (SessionQueue.content_mergePending _) (exists_metadata_mergePending hps)
  · obtain ⟨c, hc, hpair⟩ := Option.map_eq_some_iff.mp hl
    cases hpair
    unfold ownParts
    simp only [hc, Option.map_some]
    split
    · rename_i first rest hqueued
      simp only [Option.some.injEq] at hqueued
      rw [hqueued]
      exact partsOf_merged (SessionQueue.content_mergeRemaining first rest)
        (exists_metadata_mergeRemaining first rest)
    · rename_i hnot
      cases hqueued : m.queue.queued c.sessionKey with
      | nil => exact absurd hqueued hps
      | cons first rest => exact absurd (congrArg some hqueued) (hnot first rest)
  · cases hl

/-! ### One step -/

theorem carriers_told (m : AgentsManager n) (es : List ChannelEvent) :
    (m.told es).filterMap Output.carrier = [] :=
  filterMap_talk (fun _ => Output.carrier_talk) (isTalk_told m es)

/-- A step hands messages over in one prompt at most: all that it would hand over. -/
theorem Effect.carrier (h : Effect cfg m l b) :
    b.messages.filterMap Output.carrier = m.backlog.messages.filterMap Output.carrier ∨
      ∃ p parts ps, m.handing l = some (p.sessionKey, ps) ∧ ps ≠ [] ∧
        b.messages.filterMap Output.carrier = m.backlog.messages.filterMap Output.carrier ++
          [(p, parts, ps.flatMap RichPayload.origin)] := by
  cases h with
  | quiet _ => exact Or.inl rfl
  | talked htalk =>
      obtain ⟨os, ks, rfl, hos⟩ := htalk.talks
      refine Or.inl ?_
      simp [List.filterMap_append, filterMap_talk (fun _ => Output.carrier_talk) hos]
  | unqueued _ _ => exact Or.inl rfl
  | released _ => exact Or.inl (by simp [carriers_told, List.filterMap_append])
  | refused _ _ _ => exact Or.inl (by simp [carriers_told, List.filterMap_append])
  | queued _ _ => exact Or.inl (by simp [List.filterMap_append, Output.carrier])
  | @dispatched _ k content metadata _ p parts hplain _ _ hp =>
      refine Or.inr ⟨p, parts, m.queue.queued k ++ [⟨content, metadata, [m.nextMessage]⟩],
        ?_, by simp, ?_⟩
      · rw [hp.key]
        exact if_pos hplain
      · simp [carriers_told, List.filterMap_append, List.filterMap_cons, Output.carrier]
  | rejected _ _ _ =>
      exact Or.inl (by simp [carriers_told, List.filterMap_append, Output.carrier])
  | ended _ _ => exact Or.inl rfl
  | abandoned _ _ => exact Or.inl rfl
  | taken _ _ => exact Or.inl rfl
  | finished _ _ _ =>
      exact Or.inl (by simp [reported, carriers_told, List.filterMap_append])
  | @redispatched a c d p parts hc _ hwaiting _ hp =>
      refine Or.inr ⟨p, parts, m.queue.queued c.sessionKey, ?_, hwaiting, ?_⟩
      · simp [handing, hc, hp.key]
      · simp [reported, carriers_told, List.filterMap_append, Output.carrier]
  | lost _ _ _ _ _ => exact Or.inl (by simp [reported, carriers_told, List.filterMap_append])

def carried (m : AgentsManager n) :
    List (OutstandingPrompt n × List ContentPart × List MessageNo) :=
  m.trace.filterMap Output.carrier

theorem carried_backlog (m : AgentsManager n) :
    m.backlog.messages.filterMap Output.carrier = m.carried :=
  filterMap_messages m fun o ho => by cases o <;> first | rfl | cases ho

/-- The parts of a prompt: the tool context that its slot has by then, or none, before what
    its messages bring. -/
def Built (m' : AgentsManager n) (p : OutstandingPrompt n) (ps : List RichPayload)
    (parts : List ContentPart) : Prop :=
  ∃ (context : Option String) (own : List ContentPart),
    (∀ c ∈ context, (m'.slots p.slotIdx).toolContext = some c) ∧ PartsOf ps own ∧
      parts = context.toList.map ContentPart.text ++ own

/-- **What a step hands over is built from what it takes.** -/
theorem step_carries (hplain : m.backlog.Plain) (hstep : AgentsManager.step cfg m l = some m') :
    m'.carried = m.carried ∨
      ∃ p parts ps, m.handing l = some (p.sessionKey, ps) ∧ Built m' p ps parts ∧
        m'.carried = m.carried ++ [(p, parts, ps.flatMap RichPayload.origin)] := by
  have hadvances := step_advances hplain hstep
  have heffect := hadvances.effect.carrier
  rw [carried_backlog, carried_backlog] at heffect
  rcases heffect with hsame | ⟨p, parts, ps, hhanding, hps, hnew⟩
  · exact Or.inl hsame
  refine Or.inr ⟨p, parts, ps, hhanding, ?_, hnew⟩
  obtain ⟨new, htrace⟩ := hadvances.trace
  have hgiven : ∀ os, m'.given = m.given ++ os → new.filterMap Output.given = os := by
    intro os hos
    unfold given at hos
    rw [← htrace, List.filterMap_append] at hos
    exact List.append_cancel_left hos
  have hcarrier : new.filterMap Output.carrier = [(p, parts, ps.flatMap RichPayload.origin)] := by
    unfold carried at hnew
    rw [← htrace, List.filterMap_append] at hnew
    exact List.append_cancel_left hnew
  have hmem : (⟨p.slotIdx, p.connection, p.acpSessionId, parts⟩ : GivenPrompt n) ∈
      new.filterMap Output.given := by
    have hin : (p, parts, ps.flatMap RichPayload.origin) ∈ new.filterMap Output.carrier := by
      rw [hcarrier]
      exact List.mem_singleton_self _
    obtain ⟨o, ho, heq⟩ := List.mem_filterMap.mp hin
    refine List.mem_filterMap.mpr ⟨o, ho, ?_⟩
    cases o with
    | prompt p' parts' origin' =>
        cases heq
        rfl
    | _ => cases heq
  have hsilent : m'.given ≠ m.given := by
    intro hsame
    rw [hgiven [] (by rw [hsame, List.append_nil])] at hmem
    cases hmem
  cases step_contexts hplain hstep with
  | kept _ _ hkept => exact absurd hkept.given hsilent
  | @wrote _ _ s id a _ _ hwrote =>
      rw [hgiven _ hwrote.given, List.mem_map] at hmem
      obtain ⟨conn, -, heq⟩ := hmem
      obtain ⟨hslot, -, -, hparts⟩ := GivenPrompt.mk.inj heq
      refine ⟨_, m.ownParts l, fun c hc => ?_, partsOf_ownParts hhanding hps, hparts.symm⟩
      rw [← hslot]
      split at hc
      · cases hc
      · exact hc
  | unmarked _ _ _ _ _ _ => cases hhanding
  | expired _ _ _ hsame => exact absurd hsame hsilent
  | crashed _ hcleared _ _ => exact absurd hcleared.given hsilent

/-! ### All runs -/

/-- What waits are messages that were sent for its key, in their order. -/
def WaitsSent (x : History n) : Prop :=
  ∀ k, ∃ ss : List PlainMessage, ss.Sublist (plainMessages x.1 k) ∧
    x.2.queue.queued k = ss.map PlainMessage.payload

/-- What the prompt `p` was told, in terms of the messages that were sent. -/
def TellsSent (x : History n) (p : OutstandingPrompt n) (parts : List ContentPart)
    (origin : List MessageNo) : Prop :=
  ∃ (ss : List PlainMessage) (context : Option String),
    ss.Sublist (plainMessages x.1 p.sessionKey) ∧ origin = ss.map PlainMessage.no ∧
    (∀ c ∈ context, ∃ t ∈ x.1, (t.after.slots p.slotIdx).toolContext = some c) ∧
    ∃ s ∈ ss, parts = context.toList.map ContentPart.text ++
      (s.metadata.bind buildReplyContext).toList.map ContentPart.text ++
        ss.flatMap PlainMessage.content

theorem plainMessages_append (steps steps' : List (Machine.Taken (AgentsManager n) (Label n)))
    (k : SessionKey) :
    plainMessages (steps ++ steps') k = plainMessages steps k ++ plainMessages steps' k := by
  simp [plainMessages]

theorem TellsSent.mono {x x' : History n} {p : OutstandingPrompt n} {parts : List ContentPart}
    {origin : List MessageNo} (h : TellsSent x p parts origin) (hsteps : x.1 <+: x'.1) :
    TellsSent x' p parts origin := by
  obtain ⟨ss, context, hss, horigin, hcontext, hparts⟩ := h
  obtain ⟨new, hnew⟩ := hsteps
  refine ⟨ss, context, ?_, horigin, fun c hc => ?_, hparts⟩
  · rw [← hnew, plainMessages_append]
    exact hss.trans (List.sublist_append_left _ _)
  · obtain ⟨t, ht, htool⟩ := hcontext c hc
    exact ⟨t, hnew ▸ List.mem_append_left _ ht, htool⟩

/-- What a step does to what waits for a key: it may take everything, drop the oldest, or add
    the message of the label. -/
theorem Effect.waits (h : Effect cfg m l b) (k : SessionKey) :
    (b.queued k).Sublist (m.queue.queued k) ∨
      ∃ s, m.plainMessage l = some s ∧ s.key = k ∧
        b.queued k = m.queue.queued k ++ [s.payload] := by
  have hclear : ∀ (b' : Backlog n) k', b'.queued = m.queue.queued →
      ((b'.clear k').queued k).Sublist (m.queue.queued k) := by
    intro b' k' hqueued
    simp only [Backlog.clear_queued, hqueued]
    split
    · exact List.nil_sublist _
    · exact List.Sublist.refl _
  have hrelease : ∀ (b' : Backlog n) k', b'.queued = m.queue.queued →
      ((b'.release k').queued k).Sublist (m.queue.queued k) := by
    intro b' k' hqueued
    simp only [Backlog.release_queued, hqueued]
    split
    · rename_i hk
      subst hk
      exact List.tail_sublist _
    · exact List.Sublist.refl _
  cases h with
  | quiet _ => exact Or.inl (List.Sublist.refl _)
  | talked htalk =>
      obtain ⟨os, ks, rfl, -⟩ := htalk.talks
      exact Or.inl (List.Sublist.refl _)
  | unqueued _ _ => exact Or.inl (List.Sublist.refl _)
  | released _ => exact Or.inl (hrelease _ _ rfl)
  | refused _ _ _ => exact Or.inl (List.Sublist.refl _)
  | @queued _ k' content metadata _ hplain _ =>
      by_cases hk : k = k'
      · subst hk
        refine Or.inr ⟨⟨m.nextMessage, k, content, metadata⟩, if_pos hplain, rfl, ?_⟩
        simp [PlainMessage.payload]
      · exact Or.inl (by simp [hk])
  | dispatched _ _ _ _ => exact Or.inl (hclear _ _ rfl)
  | rejected _ _ _ => exact Or.inl (hclear _ _ rfl)
  | ended _ _ => exact Or.inl (List.Sublist.refl _)
  | abandoned _ _ => exact Or.inl (List.Sublist.refl _)
  | taken _ _ => exact Or.inl (List.Sublist.refl _)
  | finished _ _ _ => exact Or.inl (hrelease _ _ rfl)
  | redispatched _ _ _ _ _ => exact Or.inl (hclear _ _ rfl)
  | lost _ _ _ _ _ => exact Or.inl (hclear _ _ rfl)

/-- What a step would hand over are messages that were sent, its own included. -/
theorem WaitsSent.handing {x : History n} (h : WaitsSent x) (m' : AgentsManager n)
    {k : SessionKey} {ps : List RichPayload} (hl : x.2.handing l = some (k, ps)) :
    ∃ ss : List PlainMessage, ss.Sublist (plainMessages (x.1 ++ [⟨x.2, l, m'⟩]) k) ∧
      ps = ss.map PlainMessage.payload := by
  unfold AgentsManager.handing at hl
  split at hl
  · rename_i name _ content metadata a
    obtain ⟨hcontent, hpair⟩ := Option.ite_none_right_eq_some.mp hl
    cases hpair
    obtain ⟨ss, hss, hqueued⟩ := h k
    refine ⟨ss ++ [⟨x.2.nextMessage, k, content, metadata⟩], ?_, ?_⟩
    · rw [plainMessages_append]
      refine hss.append ?_
      simp [plainMessages, plainMessage, hcontent]
    · simp [hqueued, PlainMessage.payload]
  · obtain ⟨c, -, hpair⟩ := Option.map_eq_some_iff.mp hl
    cases hpair
    obtain ⟨ss, hss, hqueued⟩ := h c.sessionKey
    refine ⟨ss, ?_, hqueued⟩
    rw [plainMessages_append]
    exact hss.trans (List.sublist_append_left _ _)
  · cases hl

/-- What waits, and every prompt that was handed over, consists of messages that were sent. -/
structure PromptsTell (x : History n) : Prop where
  waiting : WaitsSent x
  told : ∀ p parts origin, (p, parts, origin) ∈ x.2.carried → TellsSent x p parts origin

theorem PromptsTell.step {x : History n} (h : PromptsTell x) (hplain : x.2.backlog.Plain)
    (hstep : AgentsManager.step cfg x.2 l = some m') :
    PromptsTell (x.1 ++ [⟨x.2, l, m'⟩], m') := by
  refine ⟨fun k => ?_, fun p parts origin hp => ?_⟩
  · obtain ⟨ss, hss, hqueued⟩ := h.waiting k
    rcases (step_advances hplain hstep).effect.waits k with hsub | ⟨s, hs, hkey, hnew⟩
    · rw [backlog_queued, hqueued] at hsub
      obtain ⟨ss', hss', heq⟩ := List.sublist_map_iff.mp hsub
      refine ⟨ss', hss'.trans (hss.trans ?_), heq⟩
      rw [plainMessages_append]
      exact List.sublist_append_left _ _
    · refine ⟨ss ++ [s], ?_, ?_⟩
      · rw [plainMessages_append]
        exact hss.append (by simp [plainMessages, hs, hkey])
      · rw [backlog_queued, hqueued] at hnew
        simpa using hnew
  · rcases step_carries hplain hstep with hsame | ⟨p', parts', ps, hhanding, hbuilt, hnew⟩
    · rw [hsame] at hp
      exact (h.told p parts origin hp).mono (List.prefix_append _ _)
    rw [hnew] at hp
    rcases List.mem_append.mp hp with hold | hlast
    · exact (h.told p parts origin hold).mono (List.prefix_append _ _)
    cases List.mem_singleton.mp hlast
    obtain ⟨ss, hss, rfl⟩ := h.waiting.handing m' hhanding
    obtain ⟨context, own, hcontext, ⟨_, hfirst, rfl⟩, rfl⟩ := hbuilt
    obtain ⟨s, hs, rfl⟩ := List.mem_map.mp hfirst
    refine ⟨ss, context, hss, origin_payloads ss, fun c hc => ?_, s, hs, ?_⟩
    · exact ⟨⟨x.2, l, m'⟩, List.mem_append_right _ (List.mem_singleton_self _), hcontext c hc⟩
    · rw [content_payloads, ← List.append_assoc]
      rfl

theorem promptsTell_of_reachable {x : History n} (h : (life cfg).recorded.Reachable x) :
    PromptsTell x := by
  refine h.invariant ?_ ?_
  · rintro x ⟨hsteps, hinit⟩
    obtain ⟨os, hos, hbacklog⟩ := life_init hinit
    refine ⟨fun k => ⟨[], List.nil_sublist _, ?_⟩, fun p parts origin hp => ?_⟩
    · rw [← backlog_queued, hbacklog]
      rfl
    · rw [← carried_backlog, hbacklog, filterMap_talk (fun _ => Output.carrier_talk)
        fun o ho => isTalk_of_isSpawn (hos o ho)] at hp
      cases hp
  · intro x l x' hreach hI _ hs
    obtain ⟨hstep, hsteps⟩ := Machine.of_recorded_step hs
    have horderly := orderly_of_reachable (hreach.of_recorded fun _ _ _ => trivial)
    rw [show x' = (x.1 ++ [⟨x.2, l, x'.2⟩], x'.2) from Prod.ext hsteps rfl]
    exact hI.step horderly.plain hstep

/-- **Every prompt says what its messages say.**  In every run a prompt is the tool context of
    its slot or nothing, the reply context of one of its messages or nothing, and then exactly
    the contents of the messages that it carries: plain messages that were sent for the key of
    the prompt, in the order in which they were sent. -/
theorem tellsSent_of_reachable {x : History n} (h : (life cfg).recorded.Reachable x)
    {p : OutstandingPrompt n} {parts : List ContentPart} {origin : List MessageNo}
    (hp : Output.prompt p parts origin ∈ x.2.trace) : TellsSent x p parts origin :=
  (promptsTell_of_reachable h).told p parts origin (List.mem_filterMap.mpr ⟨_, hp, rfl⟩)

/-- Two messages that waited behind a prompt are handed over in the next one. -/
theorem tellsSent_of_reachable_two :
    ∃ (x : History 1) (p : OutstandingPrompt 1),
      Output.prompt p [.text "there", .text "again"] [1, 2] ∈ x.2.trace ∧
        TellsSent x p [.text "there", .text "again"] [1, 2] := by
  have hrun : ∃ x ∈ executeRecorded Sample.cfg (fun _ _ => True) true ∅ Sample.boot
      [Sample.send "hello" (Sample.answers "s"), Sample.send "there" (Sample.answers "s"),
        Sample.send "again" (Sample.answers "s"), .promptAnswered 0 (.result (some .endTurn)),
        .recvCompletion, .finishCompletion (Sample.answers "s")],
        ∃ e ∈ x.2.carried, e.2 = ([.text "there", .text "again"], [1, 2]) := by
    decide +kernel
  obtain ⟨x, hx, ⟨p, e⟩, he, rfl⟩ := hrun
  obtain ⟨o, ho, heq⟩ := List.mem_filterMap.mp he
  have hprompt : Output.prompt p [.text "there", .text "again"] [1, 2] ∈ x.2.trace := by
    cases o with
    | prompt p' parts origin =>
        cases heq
        exact ho
    | _ => cases heq
  exact ⟨x, p, hprompt, tellsSent_of_reachable (reachable_of_executeRecorded hx) hprompt⟩

end AgentsManager

end Anyclaw
