import Anyclaw.Agents.Dispatch

/-!
# The backlog

`Backlog` is the part of the manager's state that concerns the queueing of messages:
what waits, which keys are active, the prompts and their completions, the keys whose
result was forwarded, and the outputs that are followed.  `Effect` lists what one step
may do to it, and `step_advances` proves that nothing else happens; the statements about
messages, prompts and events are case analyses over it.

Its fields are those of `SessionQueue` (`crates/anyclaw-agents/src/session_queue.rs`) and of
`AgentsManager` (`manager.rs`): the spawned prompts, `completion_rx` and
`streaming_completed`.
-/

namespace Anyclaw

structure Backlog (n : Nat) where
  queued : SessionKey → List RichPayload
  active : Finset SessionKey
  prompts : List (OutstandingPrompt n)
  completions : List PromptCompletion
  completing : Option PromptCompletion
  nextPrompt : Nat
  streaming : Finset SessionKey
  /-- Whether a channels manager is connected. -/
  sender : Bool
  /-- The outputs that are followed. -/
  messages : List (Output n)

def Output.isTalk {n : Nat} : Output n → Bool
  | .event _ => true
  | .respond _ _ _ _ => true
  | .spawned _ _ => true
  | _ => false

def Label.finishes {n : Nat} : Label n → Bool
  | .finishCompletion _ => true
  | _ => false

/-- The label may answer an agent, or show a channel what an agent asks. -/
def Label.speaks {n : Nat} : Label n → Bool
  | .command (.respondPermission _ _) _ => true
  | .recvIncoming _ => true
  | .drainIncoming _ => true
  | _ => false

theorem Label.finishes_of_speaks {n : Nat} {l : Label n} (h : l.speaks = true) :
    l.finishes = false := by
  cases l with
  | finishCompletion a => cases h
  | _ => rfl

/-- The label neither takes a message nor finishes a completion. -/
def Label.routine {n : Nat} : Label n → Bool
  | .command (.enqueueMessage _ _ _ _) _ => false
  | .finishCompletion _ => false
  | _ => true

theorem Label.finishes_of_routine {n : Nat} {l : Label n} (h : l.routine = true) :
    l.finishes = false := by
  cases l with
  | finishCompletion a => cases h
  | _ => rfl

namespace Backlog

variable {n : Nat} (b : Backlog n)

def Plain : Prop := ∀ k, ∀ p ∈ b.queued k, IsPlain p.content

/-! ### Updates -/

@[simps] def wait (k : SessionKey) (p : RichPayload) : Backlog n :=
  { b with queued := fun k' => if k' = k then b.queued k ++ [p] else b.queued k' }

@[simps] def clear (k : SessionKey) : Backlog n :=
  { b with queued := fun k' => if k' = k then [] else b.queued k' }

@[simps] def claim (k : SessionKey) : Backlog n := { b with active := insert k b.active }

/-- The oldest payload is popped; without one the key is released. -/
@[simps] def release (k : SessionKey) : Backlog n :=
  { b with
    queued := fun k' => if k' = k then (b.queued k).tail else b.queued k'
    active := if b.queued k = [] then b.active.erase k else b.active }

@[simps] def addPrompt (p : OutstandingPrompt n) : Backlog n :=
  { b with prompts := b.prompts ++ [p], nextPrompt := b.nextPrompt + 1 }

@[simps] def say (o : Output n) : Backlog n := { b with messages := b.messages ++ [o] }

@[simps] def sayAll (os : List (Output n)) : Backlog n := { b with messages := b.messages ++ os }

theorem sayAll_nil : b.sayAll [] = b := by
  rw [sayAll, List.append_nil]

@[simps] def withStreaming (ks : Finset SessionKey) : Backlog n := { b with streaming := ks }

@[simps] def endPrompt (p : OutstandingPrompt n) (c : PromptCompletion) : Backlog n :=
  { b with
    prompts := b.prompts.filter fun p' => p'.no != p.no
    completions := if p.awaited then b.completions ++ [c] else b.completions }

@[simps] def abandon (p : OutstandingPrompt n) (c : PromptCompletion) : Backlog n :=
  { b with
    prompts := b.prompts.map fun p' => if p'.no = p.no then { p' with awaited := false } else p'
    completions := b.completions ++ [c] }

@[simps] def complete (c : Option PromptCompletion) (rest : List PromptCompletion) :
    Backlog n :=
  { b with completions := rest, completing := c }

end Backlog

namespace AgentsManager

variable {n : Nat} (cfg : AgentsManagerConfig n) (m : AgentsManager n)

@[simps] def backlog : Backlog n where
  queued := m.queue.queued
  active := m.queue.active
  prompts := m.prompts
  completions := m.completions
  completing := m.completing
  nextPrompt := m.nextPrompt
  streaming := m.streamingCompleted
  sender := m.channelsSender
  messages := m.trace.filter Output.isMessage

/-! ### Handlers -/

section Handlers

variable {m m' : AgentsManager n}

theorem Spoken.backlog {os : List (Output n)} (h : Spoken os m m') :
    m'.backlog = m.backlog.sayAll os := by
  simp only [AgentsManager.backlog, Backlog.sayAll, h.queue, h.prompts, h.completions,
    h.completing, h.nextPrompt, h.streaming, h.sender, h.trace.messages]

theorem Quiet.backlog (h : Quiet m m') : m'.backlog = m.backlog := by
  rw [h.toSpoken.backlog, Backlog.sayAll, List.append_nil]

theorem Spoken.extends {os : List (Output n)} (h : Spoken os m m') : m.trace <+: m'.trace :=
  h.trace.extends

theorem Handed.backlog {k : SessionKey} {p : OutstandingPrompt n} {origin : List MessageNo}
    (h : Handed m m' k p origin) :
    ∃ parts, m'.backlog = (m.backlog.addPrompt p).say (.prompt p parts origin) := by
  obtain ⟨parts, htrace⟩ := h.trace
  refine ⟨parts, ?_⟩
  simp only [AgentsManager.backlog, Backlog.addPrompt, Backlog.say, h.queue, h.prompts,
    h.completions, h.completing, h.nextPrompt, h.streaming, h.sender, htrace.messages]

theorem Handed.extends {k : SessionKey} {p : OutstandingPrompt n} {origin : List MessageNo}
    (h : Handed m m' k p origin) : m.trace <+: m'.trace := by
  obtain ⟨parts, htrace⟩ := h.trace
  exact htrace.extends

theorem Told.spoken {es : List ChannelEvent} (h : Told es m m') : Spoken (m.told es) m m' := by
  obtain ⟨m₁, hquiet, rfl⟩ := h
  have hsent := hquiet.toSpoken.sendEvents es
  rwa [hquiet.told, List.nil_append] at hsent

theorem backlog_releaseKey (m : AgentsManager n) (k : SessionKey) :
    (m.releaseKey k).backlog = m.backlog.release k := by
  have hqueued : (m.releaseKey k).queue.queued = (m.backlog.release k).queued := by
    funext k'
    exact SessionQueue.queued_markIdle m.queue k k'
  have hactive : (m.releaseKey k).queue.active = (m.backlog.release k).active :=
    SessionQueue.active_markIdle m.queue k
  unfold AgentsManager.backlog
  rw [hqueued, hactive]
  rfl

theorem Released.backlog {k : SessionKey} {es : List ChannelEvent} (h : Released es m m' k) :
    m'.backlog = (m.backlog.sayAll (m.told es)).release k := by
  obtain ⟨m₁, hquiet, rfl⟩ := h
  rw [backlog_releaseKey, (Told.spoken ⟨m₁, hquiet, rfl⟩).backlog]

theorem backlog_emit_reply (m : AgentsManager n) (no : MessageNo) (k : SessionKey)
    (result : Except AgentsError Unit) :
    (m.emit (.reply no k true result)).backlog = m.backlog.say (.reply no k true result) := by
  simp [AgentsManager.backlog, Backlog.say, Output.isMessage]

end Handlers

/-! ### What a step depends on -/

/-- The content is a platform command that succeeds and releases `k`. -/
def CanRelease (name : String) (k : SessionKey) (content : List ContentPart) (a : Answers) :
    Prop :=
  ∃ s ∈ findSlotByName cfg name,
    (platformCommandOf content = some .new ∧ (m.slots s).CanStart a) ∨
      (platformCommandOf content = some .cancel ∧ (m.slots s).CanCancel k a)

/-- A plain message for `k` that is enqueued while the key is idle reaches the agent. -/
def CanDispatch (name : String) (k : SessionKey) (a : Answers) : Prop :=
  ∃ s ∈ findSlotByName cfg name, (m.slots s).CanPrompt k a

/-- What waits behind the prompt that `c` completes reaches the agent. -/
def CanRedispatch (c : PromptCompletion) (a : Answers) : Prop :=
  c.sessionExpired = false ∧
    ∃ s ∈ m.slotOfKey c.sessionKey,
      (cfg.agents s).name ≠ "" ∧ (m.slots s).connection.isSome ∧ a.promptSent

instance (name : String) (k : SessionKey) (content : List ContentPart) (a : Answers) :
    Decidable (CanRelease cfg m name k content a) :=
  inferInstanceAs (Decidable (∃ s ∈ findSlotByName cfg name, _))

instance (name : String) (k : SessionKey) (a : Answers) :
    Decidable (CanDispatch cfg m name k a) :=
  inferInstanceAs (Decidable (∃ s ∈ findSlotByName cfg name, _))

instance (c : PromptCompletion) (a : Answers) : Decidable (CanRedispatch cfg m c a) :=
  inferInstanceAs (Decidable (_ ∧ ∃ s ∈ m.slotOfKey c.sessionKey, _))

def ShowsError (c : PromptCompletion) : Prop :=
  m.channelsSender ∧ c.errorMessage.isSome ∧ c.sessionKey ∉ m.streamingCompleted

instance (c : PromptCompletion) : Decidable (m.ShowsError c) :=
  inferInstanceAs (Decidable (_ ∧ _))

structure Completes (c : PromptCompletion) (p : OutstandingPrompt n) : Prop where
  key : c.sessionKey = p.sessionKey
  no : c.prompt = p.no

/-- The end of the request of prompt `p`, and the completion that reports it. -/
inductive Ends : Label n → OutstandingPrompt n → PromptCompletion → Prop
  | answered {p : OutstandingPrompt n} {answer : PromptAnswer}
      (hconn : (m.slots p.slotIdx).connection = some ⟨p.connection⟩) :
      Ends (.promptAnswered p.no answer) p (answerCompletion p answer)
  | lost {p : OutstandingPrompt n}
      (hconn : (m.slots p.slotIdx).connection ≠ some ⟨p.connection⟩) :
      Ends (.promptLost p.no) p (errorCompletion p "Agent connection lost" false)

structure NewPrompt (k : SessionKey) (p : OutstandingPrompt n) : Prop where
  key : p.sessionKey = k
  no : p.no = m.nextPrompt
  awaited : p.awaited = true

/-! ### The effect of a step -/

def Receives (l : Label n) (a : Answers) : Prop := l = .recvIncoming a ∨ l = .drainIncoming a

/-- What a step with a label may say without touching the queue or the prompts. -/
inductive Talk : Label n → Backlog n → Prop
  | forwarded {l : Label n} {a : Answers} {s : Fin n} {u : SessionUpdate}
      {rest : List (SlotIncoming n)} {k : SessionKey} (hl : Receives l a)
      (hincoming : m.incoming = ⟨s, some (.sessionUpdate u)⟩ :: rest)
      (hawait : u.sessionId ∉ (m.slots s).awaitingFirstPrompt)
      (hroute : (m.slots s).reverseMap.get? u.sessionId = some k)
      (hsender : m.channelsSender = true) :
      Talk l ((m.backlog.say (.event (.deliverMessage k (.update u)))).withStreaming
        (if u.update.isResult then insert k m.streamingCompleted else m.streamingCompleted))
  | malformed {l : Label n} {a : Answers} {s : Fin n} {sessionId : Option AcpSessionId}
      {error : String} {rest : List (SlotIncoming n)} {k : SessionKey} (hl : Receives l a)
      (hincoming : m.incoming = ⟨s, some (.malformedUpdate sessionId error)⟩ :: rest)
      (hroute : sessionId.bind (m.slots s).reverseMap.get? = some k) :
      Talk l (m.backlog.sayAll (m.told
        [.deliverMessage k (.errorResult ("Agent sent malformed update: " ++ error))]))
  | crashed {l : Label n} {a : Answers} {s : Fin n} {rest : List (SlotIncoming n)}
      (hl : Receives l a) (hincoming : m.incoming = ⟨s, none⟩ :: rest)
      (henabled : l = .recvIncoming a → (m.slots s).lifecycle.disabled = false) :
      Talk l (m.backlog.sayAll (crashOutputs cfg m s a))
  | aside {l : Label n} {os : List (Output n)} (hl : l.speaks = true)
      (hos : ∀ o ∈ os, o.isAside = true) : Talk l (m.backlog.sayAll os)

/-- The events for a completion: its result, if none was forwarded, and its end. -/
def closing (c : PromptCompletion) (d : Delivered) : List ChannelEvent :=
  (if c.sessionKey ∈ m.streamingCompleted then [] else [.deliverMessage c.sessionKey d]) ++
    [.sessionComplete c.sessionKey c.stopReason]

def Closes (c : PromptCompletion) (d : Delivered) : Prop :=
  match c.errorMessage with
  | some message => d = .errorResult message
  | none => ∃ id, d = .syntheticResult id c.stopReason

def reported (c : PromptCompletion) (d : Delivered) : Backlog n :=
  ((m.backlog.complete none m.completions).withStreaming
    (m.streamingCompleted.erase c.sessionKey)).sayAll (m.told (m.closing c d))

/-- The channel is told that what waits behind the prompt of `c` is dispatched. -/
def Announces (c : PromptCompletion) : Prop :=
  c.sessionExpired = false ∧ ∃ s ∈ m.slotOfKey c.sessionKey, (cfg.agents s).name ≠ ""

instance (c : PromptCompletion) : Decidable (Announces cfg m c) :=
  inferInstanceAs (Decidable (_ ∧ ∃ s ∈ m.slotOfKey c.sessionKey, _))

/-- What a step with a label may do to the backlog of `m`. -/
inductive Effect : Label n → Backlog n → Prop
  | quiet {l : Label n} (hl : l.finishes = false) : Effect l m.backlog
  | talked {l : Label n} {b : Backlog n} (htalk : Talk cfg m l b) : Effect l b
  /-- `SendPrompt`: a prompt past the queue. -/
  | unqueued {message : String} {a : Answers} {p : OutstandingPrompt n}
      (hno : p.no = m.nextPrompt) (hawaited : p.awaited = false) :
      Effect (.command (.sendPrompt message) a) (m.backlog.addPrompt p)
  /-- `/new` or `/cancel`. -/
  | released {name : String} {k : SessionKey} {content : List ContentPart}
      {metadata : Option MessageMetadata} {a : Answers} {text : String}
      (hcan : CanRelease cfg m name k content a) :
      Effect (.command (.enqueueMessage name k content metadata) a)
        ((m.backlog.sayAll (m.told (syntheticChunk k text))).release k)
  /-- `/cancel` without a session that can be cancelled. -/
  | refused {name : String} {k : SessionKey} {content : List ContentPart}
      {metadata : Option MessageMetadata} {a : Answers} {s : Fin n}
      (hcommand : platformCommandOf content = some .cancel)
      (hfind : findSlotByName cfg name = some s) (hcannot : ¬ (m.slots s).CanCancel k a) :
      Effect (.command (.enqueueMessage name k content metadata) a)
        (m.backlog.sayAll
          (m.told (syntheticResponse k "No active operation to cancel." .cancelled)))
  | queued {name : String} {k : SessionKey} {content : List ContentPart}
      {metadata : Option MessageMetadata} {a : Answers} (hplain : IsPlain content)
      (hactive : k ∈ m.queue.active) :
      Effect (.command (.enqueueMessage name k content metadata) a)
        ((m.backlog.wait k ⟨content, metadata, [m.nextMessage]⟩).say
          (.reply m.nextMessage k true (.ok ())))
  | dispatched {name : String} {k : SessionKey} {content : List ContentPart}
      {metadata : Option MessageMetadata} {a : Answers} {p : OutstandingPrompt n}
      {parts : List ContentPart} (hplain : IsPlain content) (hidle : k ∉ m.queue.active)
      (hcan : CanDispatch cfg m name k a) (hp : NewPrompt m k p) :
      Effect (.command (.enqueueMessage name k content metadata) a)
        ((((((m.backlog.sayAll (m.told [.dispatchStarted k])).clear k).claim k).addPrompt p).say
          (.prompt p parts
            ((m.queue.queued k).flatMap RichPayload.origin ++ [m.nextMessage]))).say
          (.reply m.nextMessage k true (.ok ())))
  | rejected {name : String} {k : SessionKey} {content : List ContentPart}
      {metadata : Option MessageMetadata} {a : Answers} {e : AgentsError}
      (hplain : IsPlain content) (hidle : k ∉ m.queue.active)
      (hcannot : ¬ CanDispatch cfg m name k a) :
      Effect (.command (.enqueueMessage name k content metadata) a)
        ((((m.backlog.sayAll (m.told [.dispatchStarted k])).clear k).claim k).say
          (.reply m.nextMessage k true (.error e)))
  | ended {l : Label n} {p : OutstandingPrompt n} {c : PromptCompletion} (hp : p ∈ m.prompts)
      (hends : Ends m l p c) :
      Effect l (m.backlog.endPrompt p c)
  | abandoned {p : OutstandingPrompt n} (hp : p ∈ m.prompts) (hawaited : p.awaited = true) :
      Effect (.promptIdle p.no) (m.backlog.abandon p (errorCompletion p (idleMessage cfg) true))
  | taken {c : PromptCompletion} {rest : List PromptCompletion}
      (hidle : m.completing = none) (hc : m.completions = c :: rest) :
      Effect .recvCompletion (m.backlog.complete (some c) rest)
  | finished {a : Answers} {c : PromptCompletion} {d : Delivered}
      (hc : m.completing = some c) (hd : Closes c d)
      (hempty : m.queue.queued c.sessionKey = []) :
      Effect (.finishCompletion a) ((m.reported c d).release c.sessionKey)
  | redispatched {a : Answers} {c : PromptCompletion} {d : Delivered} {p : OutstandingPrompt n}
      {parts : List ContentPart} (hc : m.completing = some c) (hd : Closes c d)
      (hwaiting : m.queue.queued c.sessionKey ≠ []) (hcan : CanRedispatch cfg m c a)
      (hp : NewPrompt m c.sessionKey p) :
      Effect (.finishCompletion a)
        (((((m.reported c d).sayAll (m.told [.dispatchStarted c.sessionKey])).clear
          c.sessionKey).addPrompt p).say
          (.prompt p parts ((m.queue.queued c.sessionKey).flatMap RichPayload.origin)))
  | lost {a : Answers} {c : PromptCompletion} {d : Delivered} {es : List ChannelEvent}
      (hc : m.completing = some c) (hd : Closes c d)
      (hwaiting : m.queue.queued c.sessionKey ≠ []) (hcannot : ¬ CanRedispatch cfg m c a)
      (hes : es = if Announces cfg m c then [.dispatchStarted c.sessionKey] else []) :
      Effect (.finishCompletion a)
        (((m.reported c d).sayAll (m.told es)).clear c.sessionKey)

variable {cfg m} {m' : AgentsManager n}

theorem Ends.completes {l : Label n} {p : OutstandingPrompt n} {c : PromptCompletion}
    (h : Ends m l p c) : Completes c p := by
  cases h with
  | @answered _ answer _ => cases answer <;> exact ⟨rfl, rfl⟩
  | lost _ => exact ⟨rfl, rfl⟩

/-! ### Talk -/

section Talk

variable {l : Label n} {b : Backlog n}

theorem isTalk_of_isAside {o : Output n} (h : o.isAside = true) : o.isTalk = true := by
  cases o <;> first | rfl | cases h

theorem isTalk_of_isSpawn {o : Output n} (h : o.isSpawn = true) : o.isTalk = true := by
  cases o <;> first | rfl | cases h

theorem isTalk_told (m : AgentsManager n) (es : List ChannelEvent) :
    ∀ o ∈ m.told es, o.isTalk = true := by
  intro o ho
  obtain ⟨e, _, rfl⟩ := exists_of_mem_told ho
  rfl

/-- A crash notice goes to a live session without an active prompt. -/
theorem mem_crashNotices {slot : AgentSlot} {name : String} {e : ChannelEvent}
    (h : e ∈ crashNotices slot name) :
    ∃ k id, slot.sessionMap.get? k = some id ∧ slot.activePrompts.contains id = false ∧
      e = .deliverMessage k (.errorResult ("Agent crashed — restarting (" ++ name ++ ")")) := by
  obtain ⟨⟨k, id⟩, hmem, rfl⟩ := List.mem_map.mp h
  obtain ⟨hentry, hidle⟩ := List.mem_filter.mp hmem
  refine ⟨k, id, AList.mem_lookup_iff.mpr hentry, ?_, rfl⟩
  simpa using hidle

theorem mem_crashOutputs {s : Fin n} {a : Answers} {o : Output n}
    (h : o ∈ crashOutputs cfg m s a) :
    (∃ e ∈ crashNotices (m.slots s) (cfg.agents s).name, o = .event e) ∨
      o = .spawned s m.nextConnection := by
  unfold crashOutputs at h
  split at h
  · rcases List.mem_append.mp h with hnotice | hspawn
    · exact Or.inl (exists_of_mem_told hnotice)
    · unfold spawns at hspawn
      split at hspawn
      · exact Or.inr (List.mem_singleton.mp hspawn)
      · cases hspawn
  · cases h

theorem isTalk_crashOutputs (cfg : AgentsManagerConfig n) (m : AgentsManager n) (s : Fin n)
    (a : Answers) : ∀ o ∈ crashOutputs cfg m s a, o.isTalk = true := by
  intro o ho
  rcases mem_crashOutputs ho with ⟨e, _, rfl⟩ | rfl
  · rfl
  · rfl

/-- Talk changes nothing but what was said and forwarded. -/
theorem Talk.talks (h : Talk cfg m l b) :
    ∃ os ks, b = (m.backlog.sayAll os).withStreaming ks ∧ ∀ o ∈ os, o.isTalk = true := by
  cases h with
  | forwarded => exact ⟨_, _, rfl, List.forall_mem_singleton.mpr rfl⟩
  | malformed => exact ⟨_, _, rfl, isTalk_told m _⟩
  | crashed => exact ⟨_, _, rfl, isTalk_crashOutputs cfg m _ _⟩
  | aside _ hos => exact ⟨_, _, rfl, fun o ho => isTalk_of_isAside (hos o ho)⟩

/-- A reading of the outputs that does not count talk. -/
theorem filterMap_talk {β : Type} {f : Output n → Option β} {os : List (Output n)}
    (hf : ∀ o, o.isTalk = true → f o = none) (hos : ∀ o ∈ os, o.isTalk = true) :
    os.filterMap f = [] := by
  rw [List.filterMap_eq_nil_iff]
  intro o ho
  exact hf o (hos o ho)

end Talk

/-! ### Plain messages -/

theorem canDispatch_iff {name : String} {s : Fin n} {k : SessionKey} {a : Answers}
    (hfind : findSlotByName cfg name = some s) :
    CanDispatch cfg m name k a ↔ (m.slots s).CanPrompt k a := by
  unfold CanDispatch
  rw [hfind]
  simp

/-- A prompt that was handed over, or nothing. -/
theorem promptSession_backlog (cfg : AgentsManagerConfig n) (m : AgentsManager n)
    (name : String) (k : SessionKey) {payload : RichPayload} (a : Answers)
    (hplain : IsPlain payload.content) :
    (∃ p parts m', promptSession cfg m name k payload a = (.ok (), m') ∧
        CanDispatch cfg m name k a ∧ NewPrompt m k p ∧ m.trace <+: m'.trace ∧
        m.nextMessage ≤ m'.nextMessage ∧
        m'.backlog = (m.backlog.addPrompt p).say (.prompt p parts payload.origin)) ∨
      (∃ e m', promptSession cfg m name k payload a = (.error e, m') ∧
        ¬ CanDispatch cfg m name k a ∧ Quiet m m') := by
  cases hfind : findSlotByName cfg name with
  | none =>
      refine Or.inr ⟨.agentNotFound name, m, ?_, ?_, Quiet.refl m⟩
      · unfold promptSession
        rw [hfind]
      · rintro ⟨s, hs, _⟩
        rw [hfind] at hs
        cases hs
  | some s =>
      have houtcome := promptSession_outcome cfg (m := m) (k := k) (a := a) hfind hplain
      generalize promptSession cfg m name k payload a = r at houtcome
      obtain ⟨result, m'⟩ := r
      have hok := houtcome.ok_iff.trans (canDispatch_iff hfind).symm
      cases houtcome with
      | sent _ _ _ _ _ _ _ _ hhanded =>
          obtain ⟨parts, hbacklog⟩ := hhanded.backlog
          exact Or.inl ⟨_, parts, m', rfl, hok.mp rfl,
            ⟨hhanded.key, hhanded.no, hhanded.awaited⟩, hhanded.extends, hhanded.nextMessage,
            hbacklog⟩
      | unsent _ _ _ _ hquiet => exact Or.inr ⟨_, m', rfl, fun h => (nomatch hok.mpr h), hquiet⟩
      | unhealed _ _ hquiet => exact Or.inr ⟨_, m', rfl, fun h => (nomatch hok.mpr h), hquiet⟩

structure Advances (cfg : AgentsManagerConfig n) (m : AgentsManager n) (l : Label n)
    (m' : AgentsManager n) : Prop where
  effect : Effect cfg m l m'.backlog
  numbers : m.nextMessage ≤ m'.nextMessage
  numbered : ∀ name k content metadata a,
    l = .command (.enqueueMessage name k content metadata) a → m.nextMessage < m'.nextMessage
  trace : m.trace <+: m'.trace

theorem Quiet.advances (h : Quiet m m') {l : Label n} (hl : l.routine = true) :
    Advances cfg m l m' where
  effect := by
    rw [h.backlog]
    exact .quiet (Label.finishes_of_routine hl)
  numbers := h.nextMessage
  numbered := by
    rintro name k content metadata a rfl
    cases hl
  trace := h.extends

theorem shutdown_advances (m : AgentsManager n) {l : Label n} (hl : l.routine = true) :
    Advances cfg m l m.shutdown where
  effect := .quiet (Label.finishes_of_routine hl)
  numbers := Nat.le_refl _
  numbered := by
    rintro name k content metadata a rfl
    cases hl
  trace := List.prefix_refl _

theorem Released.advances {k : SessionKey} {es : List ChannelEvent} (h : Released es m m' k) :
    m.nextMessage ≤ m'.nextMessage ∧ m.trace <+: m'.trace := by
  obtain ⟨m₁, hquiet, rfl⟩ := h
  have hspoken : Spoken (m.told es) m (m₁.sendEvents es) := Told.spoken ⟨m₁, hquiet, rfl⟩
  exact ⟨hspoken.nextMessage, hspoken.extends⟩

/-! ### `EnqueueMessage` -/

section Enqueue

variable {name : String} {k : SessionKey} {content : List ContentPart}
  {metadata : Option MessageMetadata} {a : Answers}

theorem takeNumber_quiet (m : AgentsManager n) : Quiet m m.takeNumber :=
  ⟨⟨rfl, rfl, rfl, rfl, rfl, Nat.le_succ _, rfl, rfl, rfl, SpokenTrace.refl _⟩, fun _ => rfl, rfl⟩

/-- Whatever the command does, it has taken a number and it ends with a reply. -/
theorem reply_advances {m₁ : AgentsManager n} {o : Output n}
    (heffect : Effect cfg m (.command (.enqueueMessage name k content metadata) a)
      (m₁.emit o).backlog)
    (hnumber : m.takeNumber.nextMessage ≤ m₁.nextMessage) (htrace : m.trace <+: m₁.trace) :
    Advances cfg m (.command (.enqueueMessage name k content metadata) a) (m₁.emit o) where
  effect := heffect
  numbers := Nat.le_of_succ_le hnumber
  numbered := fun _ _ _ _ _ _ => hnumber
  trace := htrace.trans (List.prefix_append _ _)

theorem quiet_reply_advances {m₁ : AgentsManager n} (h : Quiet m.takeNumber m₁)
    (no : MessageNo) (result : Except AgentsError Unit) :
    Advances cfg m (.command (.enqueueMessage name k content metadata) a)
      (m₁.emit (.reply no k false result)) := by
  refine reply_advances ?_ h.nextMessage h.extends
  have hquiet := ((takeNumber_quiet m).trans h).emit (o := .reply no k false result) rfl
  rw [hquiet.backlog]
  exact .quiet rfl

theorem released_reply_advances {m₁ : AgentsManager n} {text : String}
    (h : Released (syntheticChunk k text) m.takeNumber m₁ k)
    (hcan : CanRelease cfg m name k content a)
    (no : MessageNo) (result : Except AgentsError Unit) :
    Advances cfg m (.command (.enqueueMessage name k content metadata) a)
      (m₁.emit (.reply no k false result)) := by
  refine reply_advances ?_ h.advances.1 h.advances.2
  have hsame := ((Quiet.refl m₁).emit (o := .reply no k false result) rfl).backlog
  rw [hsame, h.backlog, (takeNumber_quiet m).backlog]
  exact .released hcan

theorem platformCommand_advances {command : PlatformCommand} {s : Fin n}
    (hcommand : platformCommandOf content = some command)
    (hfind : findSlotByName cfg name = some s) (no : MessageNo) :
    let r := handlePlatformCommand cfg m.takeNumber command s name k a
    Advances cfg m (.command (.enqueueMessage name k content metadata) a)
      (r.2.emit (.reply no k false r.1)) := by
  have houtcome := handlePlatformCommand_outcome cfg (m := m.takeNumber) (k := k) (a := a)
    hfind command
  generalize handlePlatformCommand cfg m.takeNumber command s name k a = r at houtcome
  cases houtcome with
  | renewed hstart _ _ _ _ hreleased =>
      exact released_reply_advances hreleased ⟨s, hfind, Or.inl ⟨hcommand, hstart⟩⟩ no _
  | unmapped _ _ _ hquiet => exact quiet_reply_advances hquiet no _
  | cancelled hcancel _ hreleased =>
      exact released_reply_advances hreleased ⟨s, hfind, Or.inr ⟨hcommand, hcancel⟩⟩ no _
  | notCancelled hcancel _ htold =>
      have hspoken := htold.spoken
      refine reply_advances ?_ hspoken.nextMessage hspoken.extends
      have hreplied := (((takeNumber_quiet m).trans_spoken hspoken).trans_quiet
        ((Quiet.refl _).emit (o := .reply no k false (.ok ())) rfl)).backlog
      rw [hreplied]
      exact .refused hcommand hfind hcancel

/-- On an active key a message waits. -/
theorem backlog_push (hactive : k ∈ m.queue.active) (p : RichPayload) :
    (m.takeNumber.withQueue (m.queue.push k p).2).backlog = m.backlog.wait k p := by
  rw [SessionQueue.push, if_pos ((SessionQueue.isActive_iff m.queue k).mpr hactive)]
  have hqueued : (m.queue.pushBack k p).queued = (m.backlog.wait k p).queued := by
    funext k'
    exact SessionQueue.queued_pushBack m.queue k k' p
  simp only [AgentsManager.backlog, withQueue, hqueued]
  rfl

theorem withQueue_withQueue (m : AgentsManager n) (q q' : SessionQueue) :
    (m.withQueue q).withQueue q' = m.withQueue q' := rfl

theorem queued_pushOnly (q : SessionQueue) (p : RichPayload) :
    (q.pushOnly k p).2.queued k = q.queued k ++ [p] := by
  rw [SessionQueue.pushOnly, SessionQueue.queued_pushBack, if_pos rfl]

theorem pushOnly_ne_nil (q : SessionQueue) (p : RichPayload) :
    (q.pushOnly k p).2.queued k ≠ [] := by
  rw [queued_pushOnly]
  exact List.append_ne_nil_of_right_ne_nil _ (List.cons_ne_nil p [])

/-- On an idle key a message and all that waits before it are taken. -/
theorem backlog_flush (hidle : k ∉ m.queue.active) (p : RichPayload) :
    (m.takeNumber.withQueue ((m.queue.pushOnly k p).2.flushPending k).2).backlog =
      (m.backlog.clear k).claim k := by
  have hidle' : k ∉ (m.queue.pushOnly k p).2.active := hidle
  have hqueued : ((m.queue.pushOnly k p).2.flushPending k).2.queued =
      ((m.backlog.clear k).claim k).queued := by
    funext k'
    rw [SessionQueue.queued_flushPending _ _ _ hidle', SessionQueue.pushOnly]
    simp only [SessionQueue.queued_pushBack, Backlog.claim_queued, Backlog.clear_queued]
    split <;> rfl
  have hactive : ((m.queue.pushOnly k p).2.flushPending k).2.active =
      insert k m.queue.active :=
    SessionQueue.active_flushPending _ _ hidle' (pushOnly_ne_nil m.queue p)
  simp only [AgentsManager.backlog, withQueue, hqueued, hactive]
  rfl

theorem flushAndDispatch_idle (cfg : AgentsManagerConfig n) (m : AgentsManager n)
    (name : String) (a : Answers) (hidle : k ∉ m.queue.active)
    (hne : m.queue.queued k ≠ []) :
    flushAndDispatch cfg m name k a =
      promptSession cfg
        ((m.withQueue (m.queue.flushPending k).2).sendEvents [.dispatchStarted k]) name k
        (SessionQueue.mergePending (m.queue.queued k)) a := by
  have hfst := SessionQueue.fst_flushPending m.queue k hidle hne
  unfold flushAndDispatch
  rcases hflush : m.queue.flushPending k with ⟨payload, q⟩
  rw [hflush] at hfst
  cases hfst
  rfl

theorem isPlain_mergePending {ps : List RichPayload} (h : ∀ p ∈ ps, IsPlain p.content) :
    IsPlain (SessionQueue.mergePending ps).content := by
  rw [SessionQueue.content_mergePending]
  exact isPlain_flatMap h

/-- On an idle key a message is dispatched, together with what waits before it. -/
theorem idleMessage_advances (hplain : m.backlog.Plain) (hcontent : IsPlain content)
    (hidle : k ∉ m.queue.active) :
    let payload : RichPayload :=
      { content := content, metadata := metadata, origin := [m.nextMessage] }
    let r := flushAndDispatch cfg (m.takeNumber.withQueue (m.queue.pushOnly k payload).2) name k a
    Advances cfg m (.command (.enqueueMessage name k content metadata) a)
      (r.2.emit (.reply m.nextMessage k true r.1)) := by
  intro payload
  have hmerged : IsPlain
      (SessionQueue.mergePending (m.queue.queued k ++ [payload])).content := by
    refine isPlain_mergePending fun p hp => ?_
    rcases List.mem_append.mp hp with hp | hp
    · exact hplain k p hp
    · rw [List.mem_singleton.mp hp]
      exact hcontent
  have horigin : (SessionQueue.mergePending (m.queue.queued k ++ [payload])).origin =
      (m.queue.queued k).flatMap RichPayload.origin ++ [m.nextMessage] := by
    rw [SessionQueue.origin_mergePending, List.flatMap_append, List.flatMap_singleton]
  have hdispatch := flushAndDispatch_idle cfg
    (m.takeNumber.withQueue (m.queue.pushOnly k payload).2) name a hidle
    (pushOnly_ne_nil m.queue payload)
  rw [withQueue_queue, queued_pushOnly, withQueue_withQueue] at hdispatch
  rw [hdispatch]
  have hspoken := (Spoken.refl (m.takeNumber.withQueue
    ((m.queue.pushOnly k payload).2.flushPending k).2)).sendEvents [.dispatchStarted k]
  rw [List.nil_append] at hspoken
  have hbacklog := hspoken.backlog
  rw [backlog_flush hidle payload] at hbacklog
  have hcan : ∀ {m₁ : AgentsManager n}, m₁.slots = m.slots →
      (CanDispatch cfg m₁ name k a ↔ CanDispatch cfg m name k a) := by
    intro m₁ hslots
    unfold CanDispatch
    rw [hslots]
  rcases promptSession_backlog cfg _ name k a hmerged with
    ⟨p, parts, m', heq, hcan', hp, htrace, hnumber, hsent⟩ | ⟨e, m', heq, hcannot, hfailed⟩
  · rw [heq]
    refine reply_advances ?_ (hspoken.nextMessage.trans hnumber) (hspoken.extends.trans htrace)
    rw [backlog_emit_reply, hsent, hbacklog, horigin]
    exact .dispatched hcontent hidle ((hcan rfl).mp hcan') ⟨hp.key, hp.no, hp.awaited⟩
  · rw [heq]
    refine reply_advances ?_ (hspoken.trans_quiet hfailed).nextMessage
      (hspoken.trans_quiet hfailed).extends
    rw [backlog_emit_reply, hfailed.backlog, hbacklog]
    exact .rejected hcontent hidle fun h => hcannot ((hcan rfl).mpr h)

/-- The command of a message: it is executed, or queued, or dispatched. -/
theorem enqueueMessage_advances (hplain : m.backlog.Plain) :
    Advances cfg m (.command (.enqueueMessage name k content metadata) a)
      (enqueueMessage cfg m name k content metadata a) := by
  unfold enqueueMessage
  dsimp only
  cases hcommand : platformCommandOf content with
  | some command =>
      cases hfind : findSlotByName cfg name with
      | none => exact quiet_reply_advances (Quiet.refl _) _ _
      | some s => exact platformCommand_advances hcommand hfind _
  | none =>
      dsimp only
      by_cases hactive : k ∈ m.queue.active
      · rw [takeNumber_queue, if_pos ((SessionQueue.isActive_iff m.queue k).mpr hactive)]
        refine reply_advances ?_ (Nat.le_refl _) (List.prefix_refl _)
        rw [backlog_emit_reply, backlog_push hactive]
        exact .queued hcommand hactive
      · rw [takeNumber_queue,
          if_neg fun h => hactive ((SessionQueue.isActive_iff m.queue k).mp h)]
        exact idleMessage_advances hplain hcommand hactive

end Enqueue

/-! ### Completions -/

section Completion

variable {k : SessionKey} {c : PromptCompletion} {a : Answers}

theorem cancelSessionByKey_slots (m : AgentsManager n) (k : SessionKey) (a : Answers) :
    (m.cancelSessionByKey k a).2.slots = m.slots := by
  unfold cancelSessionByKey sendCancel
  split
  · rfl
  · split
    · rfl
    · split
      · rfl
      · split <;> rfl

theorem reportCompletion_slots (m : AgentsManager n) (c : PromptCompletion) (a : Answers) :
    (m.reportCompletion c a).slots =
      if c.sessionExpired then fun s => (m.slots s).expireSession c.sessionKey else m.slots := by
  unfold reportCompletion
  dsimp only [sendEvents, emitAll_slots]
  have hcancel : (if c.idleTimedOut = true then
      (cancelSessionByKey
        { m with streamingCompleted := m.streamingCompleted.erase c.sessionKey }
        c.sessionKey a).2
      else { m with streamingCompleted := m.streamingCompleted.erase c.sessionKey }).slots =
        m.slots := by
    split
    · exact cancelSessionByKey_slots _ _ _
    · rfl
  split
  · exact congrArg (fun slots s => (slots s).expireSession c.sessionKey) hcancel
  · exact hcancel

/-- Before the events of a completion only its flag is cleared. -/
theorem reportCompletion_eq (m : AgentsManager n) (c : PromptCompletion) (a : Answers) :
    ∃ m₁ d, Quiet { m with streamingCompleted := m.streamingCompleted.erase c.sessionKey } m₁ ∧
      Closes c d ∧ m.reportCompletion c a = m₁.sendEvents (m.closing c d) := by
  have hexpire : ∀ m₁ : AgentsManager n, Quiet m₁ (m₁.expireSession c.sessionKey) := by
    intro m₁
    refine ⟨⟨rfl, rfl, rfl, rfl, rfl, le_rfl, rfl, rfl, rfl, SpokenTrace.refl _⟩, fun s => ?_, rfl⟩
    unfold expireSession AgentSlot.expireSession
    dsimp only
    split <;> rfl
  have hcancel := cancelSessionByKey_quiet
    { m with streamingCompleted := m.streamingCompleted.erase c.sessionKey } c.sessionKey a
  have hcloses : ∀ m₁ : AgentsManager n, Closes c (m₁.completionResult c) := by
    intro m₁
    unfold Closes completionResult
    cases c.errorMessage with
    | some message => rfl
    | none => exact ⟨_, rfl⟩
  have hevents : ∀ m₁ : AgentsManager n,
      m₁.completionEvents c (c.sessionKey ∈ m.streamingCompleted) =
        m.closing c (m₁.completionResult c) := by
    intro m₁
    simp [completionEvents, closing]
  suffices hbefore : ∃ m₁,
      Quiet { m with streamingCompleted := m.streamingCompleted.erase c.sessionKey } m₁ ∧
        m.reportCompletion c a =
          m₁.sendEvents (m₁.completionEvents c (c.sessionKey ∈ m.streamingCompleted)) by
    obtain ⟨m₁, hquiet, heq⟩ := hbefore
    rw [hevents] at heq
    exact ⟨m₁, _, hquiet, hcloses m₁, heq⟩
  refine ⟨_, ?_, rfl⟩
  split <;> split
  · exact hcancel.trans (hexpire _)
  · exact (Quiet.refl _).trans (hexpire _)
  · exact hcancel
  · exact Quiet.refl _

/-- A completion is reported: its flag is cleared, and its events are sent. -/
theorem reportCompletion_spoken (m : AgentsManager n) (c : PromptCompletion) (a : Answers) :
    ∃ d, Closes c d ∧ Spoken (m.told (m.closing c d))
      { m with streamingCompleted := m.streamingCompleted.erase c.sessionKey }
      (m.reportCompletion c a) := by
  obtain ⟨m₁, d, hquiet, hd, heq⟩ := reportCompletion_eq m c a
  refine ⟨d, hd, ?_⟩
  have hspoken := hquiet.toSpoken.sendEvents (m.closing c d)
  rw [hquiet.told, List.nil_append] at hspoken
  rw [heq]
  exact hspoken

def ErrorShown (k : SessionKey) (m m' : AgentsManager n) : Prop :=
  ∃ os message, m'.trace = m.trace ++ os ∧
    Output.event (.deliverMessage k (.errorResult message)) ∈ os

theorem ErrorShown.extend {m₁ : AgentsManager n} (h : ErrorShown k m m₁)
    (hextends : m₁.trace <+: m'.trace) : ErrorShown k m m' := by
  obtain ⟨os, message, hos, hmem⟩ := h
  obtain ⟨os', hos'⟩ := hextends
  exact ⟨os ++ os', message, by rw [← hos', hos, List.append_assoc],
    List.mem_append_left _ hmem⟩

theorem reportCompletion_error (h : ShowsError m c) :
    ErrorShown c.sessionKey m (m.reportCompletion c a) := by
  obtain ⟨hsender, herror, hnot⟩ := h
  obtain ⟨message, hmessage⟩ := Option.isSome_iff_exists.mp herror
  obtain ⟨m₁, d, hquiet, hd, heq⟩ := reportCompletion_eq m c a
  obtain ⟨os, hos, _⟩ := hquiet.trace
  have herror : d = .errorResult message := by
    unfold Closes at hd
    rw [hmessage] at hd
    exact hd
  have hevents : Output.event (.deliverMessage c.sessionKey (.errorResult message)) ∈
      (m.closing c d).map (Output.event (n := n)) := by
    refine List.mem_map.mpr ⟨_, List.mem_append_left _ ?_, rfl⟩
    rw [if_neg hnot, herror]
    exact List.mem_singleton_self _
  refine ⟨os ++ _, message, ?_, List.mem_append_right _ hevents⟩
  rw [heq, sendEvents, if_pos (hquiet.sender.trans hsender), emitAll_trace, hos,
    List.append_assoc]

/-- Nothing waits: the key is released. -/
theorem dispatchQueued_empty (m : AgentsManager n) (h : m.queue.queued k = []) :
    dispatchQueued cfg m k a = m.releaseKey k := by
  have hfst := SessionQueue.fst_markIdle m.queue k
  unfold dispatchQueued releaseKey
  rcases hmark : m.queue.markIdle k with ⟨payload, q⟩
  rw [hmark, h] at hfst
  cases hfst
  rfl

def nextAgentName (cfg : AgentsManagerConfig n) (m : AgentsManager n) (k : SessionKey) :
    String :=
  ((m.slotOfKey k).map fun s => (cfg.agents s).name).getD ""

/-- Everything that waits is taken as one payload. -/
theorem dispatchQueued_waiting (cfg : AgentsManagerConfig n) (m : AgentsManager n)
    (a : Answers) (h : m.queue.queued k ≠ []) :
    ∃ q payload, payload.content = (m.queue.queued k).flatMap RichPayload.content ∧
      payload.origin = (m.queue.queued k).flatMap RichPayload.origin ∧
      (m.withQueue q).backlog = m.backlog.clear k ∧
      dispatchQueued cfg m k a =
        if (nextAgentName cfg m k).isEmpty then m.withQueue q
        else (promptSession cfg ((m.withQueue q).sendEvents [.dispatchStarted k])
          (nextAgentName cfg m k) k payload a).2 := by
  obtain ⟨first, rest, hqueued⟩ := List.exists_cons_of_ne_nil h
  have hfst := SessionQueue.fst_markIdle m.queue k
  have hsnd := SessionQueue.queued_markIdle m.queue k
  have hactive := SessionQueue.active_markIdle m.queue k
  unfold dispatchQueued
  rcases hmark : m.queue.markIdle k with ⟨next, q⟩
  rw [hmark] at hfst hsnd hactive
  rw [hqueued] at hfst hactive
  cases hfst
  have hrest : (q.drainQueued k).1 = rest := by
    rw [SessionQueue.fst_drainQueued, hsnd k, if_pos rfl, hqueued]
    rfl
  refine ⟨(q.drainQueued k).2, SessionQueue.mergeRemaining first (q.drainQueued k).1, ?_, ?_,
    ?_, rfl⟩
  · rw [SessionQueue.content_mergeRemaining, hrest, hqueued]
  · rw [SessionQueue.origin_mergeRemaining, hrest, hqueued]
  · have hcleared : (q.drainQueued k).2.queued = (m.backlog.clear k).queued := by
      funext k'
      rw [SessionQueue.queued_drainQueued, hsnd k']
      simp only [Backlog.clear_queued, backlog_queued]
      split <;> rfl
    have hsame : (q.drainQueued k).2.active = m.queue.active := by
      rw [SessionQueue.active_drainQueued]
      simpa using hactive
    simp only [AgentsManager.backlog, withQueue, hcleared, hsame]
    rfl

theorem slotOfKey_contains {s : Fin n} (h : m.slotOfKey k = some s) :
    (m.slots s).sessionMap.contains k = true := by
  have hs := List.find?_some h
  simpa using hs

/-- The expired key is live nowhere. -/
theorem slotOfKey_expired (hexpired : c.sessionExpired = true) :
    (m.reportCompletion c a).slotOfKey c.sessionKey = none := by
  unfold slotOfKey
  rw [List.find?_eq_none]
  intro s _
  rw [reportCompletion_slots, if_pos hexpired]
  have htables := congrArg SessionTables.sessionMap
    (AgentSlot.tables_expireSession (m.slots s) c.sessionKey)
  simp only [AgentSlot.tables_sessionMap] at htables
  rw [htables, SessionTables.expire]
  cases hlive : (m.slots s).sessionMap.get? c.sessionKey <;> simp [KeyedMap.contains, hlive]

theorem slotOfKey_reported (hlive : c.sessionExpired = false) :
    (m.reportCompletion c a).slotOfKey = m.slotOfKey := by
  unfold slotOfKey
  rw [reportCompletion_slots, hlive]
  rfl

/-- What waits reaches the agent exactly on the answers of `CanRedispatch`. -/
theorem canRedispatch_iff :
    CanRedispatch cfg m c a ↔
      ¬ (nextAgentName cfg (m.reportCompletion c a) c.sessionKey).isEmpty ∧
        CanDispatch cfg (m.reportCompletion c a)
          (nextAgentName cfg (m.reportCompletion c a) c.sessionKey) c.sessionKey a := by
  unfold CanRedispatch CanDispatch nextAgentName
  cases hexpired : c.sessionExpired with
  | true => simp [slotOfKey_expired hexpired]
  | false =>
      rw [slotOfKey_reported hexpired]
      cases hslot : m.slotOfKey c.sessionKey with
      | none => simp
      | some s =>
          have hlive := slotOfKey_contains hslot
          have hslots : (m.reportCompletion c a).slots = m.slots := by
            rw [reportCompletion_slots, hexpired]
            rfl
          simp only [Option.map_some, Option.getD_some, findSlotByName_name, hslots,
            Option.mem_def, Option.some.injEq, exists_eq_left', AgentSlot.CanPrompt, hlive,
            true_or, and_true, true_and, String.isEmpty_iff, ne_eq]

/-- What `dispatch_queued` may do: release the key, dispatch what waits, or lose it. -/
inductive DrainEffect (cfg : AgentsManagerConfig n) (m : AgentsManager n) (k : SessionKey)
    (a : Answers) : Backlog n → Prop
  | released (hempty : m.queue.queued k = []) : DrainEffect cfg m k a (m.backlog.release k)
  | dispatched {p : OutstandingPrompt n} {parts : List ContentPart}
      (hwaiting : m.queue.queued k ≠ []) (hname : ¬ (nextAgentName cfg m k).isEmpty)
      (hcan : CanDispatch cfg m (nextAgentName cfg m k) k a) (hp : NewPrompt m k p) :
      DrainEffect cfg m k a
        ((((m.backlog.sayAll (m.told [.dispatchStarted k])).clear k).addPrompt p).say
          (.prompt p parts ((m.queue.queued k).flatMap RichPayload.origin)))
  | lost {es : List ChannelEvent} (hwaiting : m.queue.queued k ≠ [])
      (hcannot : ¬ (¬ (nextAgentName cfg m k).isEmpty ∧
        CanDispatch cfg m (nextAgentName cfg m k) k a))
      (hes : es = if (nextAgentName cfg m k).isEmpty then [] else [.dispatchStarted k]) :
      DrainEffect cfg m k a ((m.backlog.sayAll (m.told es)).clear k)

theorem dispatchQueued_effect (cfg : AgentsManagerConfig n) (m : AgentsManager n)
    (k : SessionKey) (a : Answers) (hplain : m.backlog.Plain) :
    DrainEffect cfg m k a (dispatchQueued cfg m k a).backlog ∧
      m.nextMessage ≤ (dispatchQueued cfg m k a).nextMessage ∧
      m.trace <+: (dispatchQueued cfg m k a).trace := by
  by_cases hempty : m.queue.queued k = []
  · rw [dispatchQueued_empty m hempty, backlog_releaseKey]
    exact ⟨.released hempty, Nat.le_refl _, List.prefix_refl _⟩
  · obtain ⟨q, payload, hcontent, horigin, hcleared, heq⟩ :=
      dispatchQueued_waiting cfg m a hempty
    rw [heq]
    have hpayload : IsPlain payload.content := by
      rw [hcontent]
      exact isPlain_flatMap (hplain k)
    by_cases hname : (nextAgentName cfg m k).isEmpty = true
    · rw [if_pos hname, hcleared]
      have hlost : DrainEffect cfg m k a ((m.backlog.sayAll (m.told [])).clear k) :=
        .lost hempty (fun h => h.1 hname) (if_pos hname).symm
      rw [told_nil, Backlog.sayAll_nil] at hlost
      exact ⟨hlost, Nat.le_refl _, List.prefix_refl _⟩
    · rw [if_neg hname]
      have hspoken := (Spoken.refl (m.withQueue q)).sendEvents [.dispatchStarted k]
      rw [List.nil_append] at hspoken
      have hsent := hspoken.backlog
      rw [hcleared] at hsent
      rcases promptSession_backlog cfg ((m.withQueue q).sendEvents [.dispatchStarted k])
          (nextAgentName cfg m k) k a hpayload with
        ⟨p, parts, m', heq', hcan, hp, htrace, hnumbers, hprompted⟩ |
        ⟨e, m', heq', hcannot, hfailed⟩
      · rw [heq', hprompted, hsent, horigin]
        exact ⟨.dispatched hempty hname hcan ⟨hp.key, hp.no, hp.awaited⟩,
          hspoken.nextMessage.trans hnumbers, hspoken.extends.trans htrace⟩
      · rw [heq', hfailed.backlog, hsent]
        exact ⟨.lost hempty (fun h => hcannot h.2) (if_neg hname).symm,
          (hspoken.trans_quiet hfailed).nextMessage, (hspoken.trans_quiet hfailed).extends⟩

/-- What waits behind a prompt is announced if its key is live in a slot with a name. -/
theorem announces_iff :
    Announces cfg m c ↔
      ¬ (nextAgentName cfg (m.reportCompletion c a) c.sessionKey).isEmpty := by
  unfold Announces nextAgentName
  cases hexpired : c.sessionExpired with
  | true => simp [slotOfKey_expired hexpired]
  | false =>
      rw [slotOfKey_reported hexpired]
      cases hslot : m.slotOfKey c.sessionKey with
      | none => simp
      | some s => simp [String.isEmpty_iff]

/-- A completion releases the key, or dispatches or loses what waits for it. -/
theorem finishPromptCompletion_advances (hplain : m.backlog.Plain)
    (hc : m.completing = some c) :
    Advances cfg m (.finishCompletion a)
      (finishPromptCompletion cfg { m with completing := none } c a) := by
  obtain ⟨d, hd, hreport⟩ := reportCompletion_spoken { m with completing := none } c a
  have hbacklog : (reportCompletion { m with completing := none } c a).backlog =
      m.reported c d := hreport.backlog
  have hcan : CanRedispatch cfg m c a ↔ _ :=
    canRedispatch_iff (m := { m with completing := none })
  have hannounces : Announces cfg m c ↔ _ :=
    announces_iff (m := { m with completing := none }) (a := a)
  have hplain' : (reportCompletion { m with completing := none } c a).backlog.Plain := by
    rw [hbacklog]
    exact hplain
  have htold : ∀ es, (reportCompletion { m with completing := none } c a).told es =
      m.told es := by
    intro es
    unfold told
    rw [hreport.sender]
  obtain ⟨heffect, hnumbers, htrace⟩ := dispatchQueued_effect cfg
    (reportCompletion { m with completing := none } c a) c.sessionKey a hplain'
  rw [← finishPromptCompletion] at heffect hnumbers htrace
  refine
    { effect := ?_
      numbers := hreport.nextMessage.trans hnumbers
      numbered := fun _ _ _ _ _ h => nomatch h
      trace := hreport.extends.trans htrace }
  generalize (finishPromptCompletion cfg { m with completing := none } c a).backlog = b
    at heffect
  cases heffect with
  | released hempty =>
      rw [hreport.queue] at hempty
      rw [hbacklog]
      exact .finished hc hd hempty
  | dispatched hwaiting hname hdispatch hp =>
      rw [hreport.queue] at hwaiting
      rw [hbacklog, htold, hreport.queue]
      exact .redispatched hc hd hwaiting (hcan.mpr ⟨hname, hdispatch⟩)
        ⟨hp.key, hp.no.trans hreport.nextPrompt, hp.awaited⟩
  | lost hwaiting hcannot hes =>
      rw [hreport.queue] at hwaiting
      rw [hbacklog, htold]
      refine .lost hc hd hwaiting (fun h => hcannot (hcan.mp h)) ?_
      rw [hes]
      by_cases hname : (nextAgentName cfg
          (reportCompletion { m with completing := none } c a) c.sessionKey).isEmpty = true
      · rw [if_pos hname, if_neg fun h => (hannounces.mp h) hname]
      · rw [if_neg hname, if_pos (hannounces.mpr hname)]

/-- The error result of a completion is delivered before what waits is touched. -/
theorem finishPromptCompletion_error (hplain : m.backlog.Plain) (hshows : ShowsError m c) :
    ErrorShown c.sessionKey m
      (finishPromptCompletion cfg { m with completing := none } c a) := by
  have herror : ErrorShown c.sessionKey m (reportCompletion { m with completing := none } c a) :=
    reportCompletion_error (m := { m with completing := none }) hshows
  obtain ⟨d, _, hreport⟩ := reportCompletion_spoken { m with completing := none } c a
  have hplain' : (reportCompletion { m with completing := none } c a).backlog.Plain := by
    rw [hreport.backlog]
    exact hplain
  exact herror.extend (dispatchQueued_effect cfg _ c.sessionKey a hplain').2.2

end Completion

/-! ### Every step -/

theorem sendPromptToSlot_advances (s : Fin n) (message : String) (a : Answers) :
    Advances cfg m (.command (.sendPrompt message) a) (m.sendPromptToSlot s message a) := by
  have hquiet : Advances cfg m (.command (.sendPrompt message) a) m :=
    (Quiet.refl m).advances rfl
  unfold sendPromptToSlot
  split
  · split
    · rename_i conn k id _ _ _
      refine ⟨?_, Nat.le_refl _, fun _ _ _ _ _ h => (nomatch h), List.prefix_append _ _⟩
      have heffect : Effect cfg m (.command (.sendPrompt message) a) (m.backlog.addPrompt
          { no := m.nextPrompt, slotIdx := s, connection := conn.no, sessionKey := k
            acpSessionId := id, awaited := false }) := .unqueued rfl rfl
      convert heffect using 1
      simp [AgentsManager.backlog, Backlog.addPrompt, Output.isMessage]
    · exact hquiet
  · exact hquiet

theorem handleCommand_advances (hplain : m.backlog.Plain) (c : AgentsCommand) (a : Answers) :
    Advances cfg m (.command c a) (handleCommand cfg m a c) := by
  cases c with
  | sendPrompt message =>
      rw [handleCommand]
      split
      · exact sendPromptToSlot_advances _ message a
      · exact (Quiet.refl m).advances rfl
  | enqueueMessage name k content metadata => exact enqueueMessage_advances hplain
  | cancelOperation =>
      exact (cancelOperation_quiet m a).advances rfl
  | respondPermission requestId optionId =>
      obtain ⟨os, hspoken, hos⟩ := respondPermission_saysAside m requestId optionId
      refine ⟨.talked ?_, hspoken.nextMessage, fun _ _ _ _ _ h => (nomatch h), hspoken.extends⟩
      rw [handleCommand, hspoken.backlog]
      exact .aside rfl hos
  | shutdown => exact shutdown_advances m rfl
  | createSession name k =>
      exact (createOrHeal_quiet cfg m name k a).advances rfl
  | forkSession name k =>
      exact (forkSession_quiet cfg m name k a).advances rfl
  | listSessions name =>
      exact (listSessions_quiet cfg m name a).advances rfl
  | cancelSession name k =>
      exact (cancelSession_quiet cfg m name k a).advances rfl

theorem dequeue_quiet (m : AgentsManager n) (rest : List (SlotIncoming n)) :
    Quiet m { m with incoming := rest } :=
  ⟨⟨rfl, rfl, rfl, rfl, rfl, le_rfl, rfl, rfl, rfl, SpokenTrace.refl _⟩, fun _ => rfl, rfl⟩

/-- A message of a slot, or the end of its output. -/
theorem handleSlotIncoming_talk (cfg : AgentsManagerConfig n) {l : Label n} {a : Answers}
    {msg : SlotIncoming n} {rest : List (SlotIncoming n)} (hl : Receives l a)
    (hincoming : m.incoming = msg :: rest)
    (henabled : l = .recvIncoming a → msg.msg = none →
      (m.slots msg.slotIdx).lifecycle.disabled = false) :
    Talk cfg m l (handleSlotIncoming cfg { m with incoming := rest } msg a).backlog ∧
      m.nextMessage ≤ (handleSlotIncoming cfg { m with incoming := rest } msg a).nextMessage ∧
      m.trace <+: (handleSlotIncoming cfg { m with incoming := rest } msg a).trace := by
  have hdequeue := dequeue_quiet m rest
  obtain ⟨s, _ | msg⟩ := msg
  · have hcrash := handleCrash_spoken cfg { m with incoming := rest } s a
    refine ⟨?_, hcrash.nextMessage, hcrash.extends⟩
    unfold handleSlotIncoming
    rw [hcrash.backlog]
    exact .crashed hl hincoming fun h => henabled h rfl
  · have hheard := handleIncoming_heard { m with incoming := rest } s msg
    unfold handleSlotIncoming
    dsimp only
    generalize handleIncoming { m with incoming := rest } s msg = m' at hheard
    cases hheard with
    | forwarded hawait hroute hsender =>
        refine ⟨?_, Nat.le_refl _, List.prefix_append _ _⟩
        have htalk : Talk cfg m l _ := .forwarded hl hincoming hawait hroute hsender
        convert htalk using 1
        simp [AgentsManager.backlog, Backlog.say, Backlog.withStreaming, Output.isMessage]
    | @malformed sessionId error k hroute =>
        have hsent := hdequeue.trans_spoken ((Spoken.refl { m with incoming := rest }).sendEvents
          [.deliverMessage k (.errorResult ("Agent sent malformed update: " ++ error))])
        refine ⟨?_, hsent.nextMessage, hsent.extends⟩
        rw [hsent.backlog]
        exact .malformed hl hincoming hroute
    | aside haside =>
        obtain ⟨os, hspoken, hos⟩ := haside
        refine ⟨?_, hspoken.nextMessage, hspoken.extends⟩
        rw [(hdequeue.trans_spoken hspoken).backlog]
        exact .aside (by rcases hl with rfl | rfl <;> rfl) hos

theorem ended_advances {l : Label n} {p : OutstandingPrompt n} {c : PromptCompletion}
    (hp : p ∈ m.prompts) (hends : Ends m l p c) : Advances cfg m l (m.endPrompt p c) where
  effect := .ended hp hends
  numbers := Nat.le_refl _
  numbered := by
    rintro name k content metadata a rfl
    cases hends
  trace := List.prefix_refl _

/-- **One step of the manager, seen from the backlog.** -/
theorem step_advances {l : Label n} (hplain : m.backlog.Plain) (h : step cfg m l = some m') :
    Advances cfg m l m' := by
  have hnumbered : ∀ {l' : Label n}, (∀ name k content metadata a,
      l' ≠ .command (.enqueueMessage name k content metadata) a) →
      ∀ name k content metadata a,
        l' = .command (.enqueueMessage name k content metadata) a →
          m.nextMessage < m.nextMessage :=
    fun hl name k content metadata a h => absurd h (hl name k content metadata a)
  cases turn_of_step cfg m h with
  | incoming _ => exact ((Quiet.refl m).receive _).advances rfl
  | eof _ =>
      exact (((Quiet.refl m).receive _).modifySlot rfl).advances rfl
  | promptAnswered hp _ hconn => exact ended_advances hp (.answered hconn)
  | promptLost hp hconn => exact ended_advances hp (.lost hconn)
  | promptIdle hp _ hawaited =>
      exact ⟨.abandoned hp hawaited, Nat.le_refl _,
        hnumbered fun _ _ _ _ _ h => (nomatch h), List.prefix_refl _⟩
  | command _ => exact handleCommand_advances hplain _ _
  | recvIncoming _ hincoming henabled =>
      obtain ⟨htalk, hnumbers, htrace⟩ :=
        handleSlotIncoming_talk cfg (Or.inl rfl) hincoming fun _ => henabled
      exact ⟨.talked htalk, hnumbers, fun _ _ _ _ _ h => (nomatch h), htrace⟩
  | recvDisabled _ _ _ _ => exact (dequeue_quiet m _).advances rfl
  | recvCompletion hidle hcompletions =>
      exact ⟨.taken ((idle_iff m).mp hidle).2 hcompletions, Nat.le_refl _,
        hnumbered fun _ _ _ _ _ h => (nomatch h), List.prefix_refl _⟩
  | drainIncoming _ hincoming =>
      obtain ⟨htalk, hnumbers, htrace⟩ :=
        handleSlotIncoming_talk cfg (Or.inr rfl) hincoming fun h => nomatch h
      exact ⟨.talked htalk, hnumbers, fun _ _ _ _ _ h => (nomatch h), htrace⟩
  | finishCompletion hc _ => exact finishPromptCompletion_advances hplain hc
  | cancelled _ => exact shutdown_advances m rfl

end AgentsManager

end Anyclaw
