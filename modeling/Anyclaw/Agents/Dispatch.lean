import Anyclaw.Agents.SessionOutcomes

/-!
# Outcomes of prompts and platform commands

For each function: on which answers it succeeds, what it then has done to the queue
and the prompts (`Handed`, `Released`), and what it has done to the sessions.

The functions are `send_prompt_to_slot`, `prompt_session`, `flush_and_dispatch` and
`handle_platform_command` of `crates/anyclaw-agents/src/commands.rs`.
-/

namespace Anyclaw

def AgentSlot.CanCancel (slot : AgentSlot) (k : SessionKey) (a : Answers) : Prop :=
  slot.sessionMap.contains k ∧ slot.connection.isSome ∧ a.cancelSent

instance (slot : AgentSlot) (k : SessionKey) (a : Answers) : Decidable (slot.CanCancel k a) :=
  inferInstanceAs (Decidable (_ ∧ _))

namespace AgentsManager

variable {n : Nat} (cfg : AgentsManagerConfig n) (m : AgentsManager n)

/-! ### Slots by name -/

theorem findSlotByName_eq_some {name : String} {s : Fin n}
    (h : findSlotByName cfg name = some s) : (cfg.agents s).name = name := by
  have hs := List.find?_some h
  simpa using hs

/-- Names are distinct: a name finds the slot that has it. -/
theorem findSlotByName_name (s : Fin n) :
    findSlotByName cfg (cfg.agents s).name = some s := by
  cases h : findSlotByName cfg (cfg.agents s).name with
  | none =>
      have hs := List.find?_eq_none.mp h s (List.mem_finRange s)
      simp at hs
  | some s' =>
      have hname := findSlotByName_eq_some cfg h
      rw [cfg.names_distinct hname]

/-! ### Prompts -/

/-- The prompt `p` for the key `k` was handed to an agent; it carries the messages
    `origin`. -/
structure Handed (m m' : AgentsManager n) (k : SessionKey) (p : OutstandingPrompt n)
    (origin : List MessageNo) : Prop where
  key : p.sessionKey = k
  no : p.no = m.nextPrompt
  awaited : p.awaited = true
  queue : m'.queue = m.queue
  prompts : m'.prompts = m.prompts ++ [p]
  completions : m'.completions = m.completions
  completing : m'.completing = m.completing
  nextPrompt : m'.nextPrompt = m.nextPrompt + 1
  nextMessage : m.nextMessage ≤ m'.nextMessage
  sender : m'.channelsSender = m.channelsSender
  streaming : m'.streamingCompleted = m.streamingCompleted
  running : m'.running = m.running
  trace : ∃ parts, SpokenTrace [.prompt p parts origin] m.trace m'.trace
  status : ∀ s, (m'.slots s).status =
    if s = p.slotIdx then
      { (m.slots s).status with
        activePrompts := (m.slots s).activePrompts.set p.acpSessionId p.no }
    else (m.slots s).status
  nextConnection : m'.nextConnection = m.nextConnection

theorem Quiet.trans_handed {m m₁ m' : AgentsManager n} {k : SessionKey}
    {p : OutstandingPrompt n} {origin : List MessageNo} (h : Quiet m m₁)
    (h' : Handed m₁ m' k p origin) : Handed m m' k p origin := by
  obtain ⟨parts, htrace⟩ := h'.trace
  have hactive : ∀ s, (m₁.slots s).activePrompts = (m.slots s).activePrompts := fun s =>
    congrArg SlotStatus.activePrompts (h.status s)
  exact
    { key := h'.key
      no := h'.no.trans h.nextPrompt
      awaited := h'.awaited
      queue := h'.queue.trans h.queue
      prompts := by rw [h'.prompts, h.prompts]
      completions := h'.completions.trans h.completions
      completing := h'.completing.trans h.completing
      nextPrompt := by rw [h'.nextPrompt, h.nextPrompt]
      nextMessage := h.nextMessage.trans h'.nextMessage
      sender := h'.sender.trans h.sender
      streaming := h'.streaming.trans h.streaming
      running := h'.running.trans h.running
      trace := ⟨parts, h.trace.trans htrace⟩
      status := fun s => by rw [h'.status s, h.status s, hactive s]
      nextConnection := h'.nextConnection.trans h.nextConnection }

/-- A prompt for the session `id` was built: the session awaits no first prompt. -/
structure Prompted (m m' : AgentsManager n) (s : Fin n) (id : AcpSessionId) : Prop
    extends TablesKept m m' where
  reader : ∀ s', (m'.slots s').readerAlive = (m.slots s').readerAlive
  awaiting : ∀ s', (m'.slots s').awaitingFirstPrompt =
    if s' = s then (m.slots s).awaitingFirstPrompt.erase id
    else (m.slots s').awaitingFirstPrompt
  incoming : m'.incoming = m.incoming

theorem Prompted.trans_kept {m m₁ m' : AgentsManager n} {s : Fin n} {id : AcpSessionId}
    (h : Prompted m m₁ s id) (h' : SessionsKept m₁ m') : Prompted m m' s id where
  toTablesKept := h.toTablesKept.trans h'.toTablesKept
  reader := fun s' => (h'.reader s').trans (h.reader s')
  awaiting := fun s' => (h'.awaiting s').trans (h.awaiting s')
  incoming := h'.incoming.trans h.incoming

inductive WriteOutcome (s : Fin n) (k : SessionKey) (id : AcpSessionId) (payload : RichPayload)
    (a : Answers) : Except AgentsError Unit × AgentsManager n → Prop
  | sent {conn : AgentConnection} {p : OutstandingPrompt n} {m' : AgentsManager n}
      (hconn : (m.slots s).connection = some conn) (hsent : a.promptSent = true)
      (hslot : p.slotIdx = s) (hno : p.connection = conn.no) (hid : p.acpSessionId = id)
      (hprompted : Prompted m m' s id) (hhanded : Handed m m' k p payload.origin) :
      WriteOutcome s k id payload a (.ok (), m')
  | unsent {m' : AgentsManager n}
      (hfails : ¬ ((m.slots s).connection.isSome ∧ a.promptSent))
      (hprompted : Prompted m m' s id) (hquiet : Quiet m m') :
      WriteOutcome s k id payload a (.error .connectionClosed, m')

theorem preparePrompt_prompted (s : Fin n) (id : AcpSessionId) :
    Prompted m (m.modifySlot s fun slot => preparePrompt slot id) s id := by
  refine
    { tables := fun s' => ?_
      connection := fun s' => ?_
      rows := fun _ => rfl
      naming := ⟨[], by simp, rfl⟩
      reader := fun s' => ?_
      awaiting := fun s' => ?_
      incoming := rfl }
  all_goals
    rw [slots_modifySlot]
    split
    · rename_i hs
      subst hs
      rfl
    · rfl

theorem trackPrompt_kept (s : Fin n) (conn : AgentConnection) (k : SessionKey)
    (id : AcpSessionId) (parts : List ContentPart) (origin : List MessageNo) (a : Answers) :
    SessionsKept m (m.trackPrompt s conn k id parts origin a) := by
  have hstore : SessionsKept m
      (m.writeStore a fun store => store.updateLastActive k.text a.now) := by
    refine ⟨⟨fun _ => rfl, fun _ => rfl, fun key => ?_, [], by simp, rfl⟩, fun _ => rfl,
      fun _ => rfl, rfl⟩
    rw [writeStore_sessionStore]
    split
    · exact SessionStore.openRow_updateLastActive m.sessionStore k.text key a.now
    · rfl
  have hactive := hstore.modifySlot
    (f := fun slot => { slot with activePrompts := slot.activePrompts.set id m.nextPrompt })
    (s := s) rfl rfl rfl rfl
  refine SessionsKept.emit (hactive.trans ?_) rfl
  exact ⟨⟨fun _ => rfl, fun _ => rfl, fun _ => rfl, [], by simp, rfl⟩, fun _ => rfl,
    fun _ => rfl, rfl⟩

theorem trackPrompt_handed (s : Fin n) (conn : AgentConnection) (k : SessionKey)
    (id : AcpSessionId) (parts : List ContentPart) (origin : List MessageNo) (a : Answers) :
    Handed m (m.trackPrompt s conn k id parts origin a) k
      { no := m.nextPrompt, slotIdx := s, connection := conn.no, sessionKey := k
        acpSessionId := id, awaited := true } origin where
  key := rfl
  no := rfl
  awaited := rfl
  queue := rfl
  prompts := rfl
  completions := rfl
  completing := rfl
  nextPrompt := rfl
  nextMessage := le_rfl
  sender := rfl
  streaming := rfl
  running := rfl
  trace := ⟨parts, _, rfl, rfl⟩
  status := fun s' => by
    simp only [trackPrompt, emit_slots, modifySlot_slots, writeStore_slots, Function.update_apply]
    split
    · rename_i hs
      rw [hs]
      rfl
    · rfl
  nextConnection := rfl

theorem writePrompt_outcome (s : Fin n) (k : SessionKey) (id : AcpSessionId)
    (payload : RichPayload) (a : Answers) :
    WriteOutcome m s k id payload a (m.writePrompt s k id payload a) := by
  have hprompted := preparePrompt_prompted m s id
  have hquiet : Quiet m (m.modifySlot s fun slot => preparePrompt slot id) :=
    (Quiet.refl m).modifySlot rfl
  unfold writePrompt
  dsimp only
  have hsame := hprompted.connection s
  cases hconn : ((m.modifySlot s fun slot => preparePrompt slot id).slots s).connection with
  | none =>
      refine .unsent ?_ hprompted hquiet
      rw [← hsame, hconn]
      rintro ⟨h, _⟩
      cases h
  | some conn =>
      by_cases hsent : a.promptSent = true
      · simp only [hsent, if_true]
        exact .sent (hsame.symm.trans hconn) hsent rfl rfl rfl
          (hprompted.trans_kept (trackPrompt_kept _ s conn k id _ _ a))
          (hquiet.trans_handed (trackPrompt_handed _ s conn k id _ _ a))
      · simp only [hsent]
        exact .unsent (fun h => hsent h.2) hprompted hquiet

/-! ### `prompt_session` for a plain message -/

inductive Ensured (s : Fin n) (name : String) (k : SessionKey) (a : Answers) :
    AgentsManager n → Prop
  | mapped (hlive : (m.slots s).sessionMap.contains k = true) : Ensured s name k a m
  | healed {m₁ : AgentsManager n} (hlive : (m.slots s).sessionMap.get? k = none)
      (hheal : HealOutcome m s name k a (.ok (), m₁)) : Ensured s name k a m₁

/-- What `prompt_session` may have done with a plain message. -/
inductive PromptOutcome (s : Fin n) (name : String) (k : SessionKey) (payload : RichPayload)
    (a : Answers) : Except AgentsError Unit × AgentsManager n → Prop
  | sent {m₁ m' : AgentsManager n} {id : AcpSessionId} {conn : AgentConnection}
      {p : OutstandingPrompt n} (hensured : Ensured m s name k a m₁)
      (hlive : (m₁.slots s).sessionMap.get? k = some id)
      (hconn : (m₁.slots s).connection = some conn) (hsent : a.promptSent = true)
      (hslot : p.slotIdx = s) (hno : p.connection = conn.no) (hid : p.acpSessionId = id)
      (hprompted : Prompted m₁ m' s id) (hhanded : Handed m m' k p payload.origin) :
      PromptOutcome s name k payload a (.ok (), m')
  | unsent {m₁ m' : AgentsManager n} {id : AcpSessionId} (hensured : Ensured m s name k a m₁)
      (hlive : (m₁.slots s).sessionMap.get? k = some id)
      (hfails : ¬ ((m₁.slots s).connection.isSome ∧ a.promptSent))
      (hprompted : Prompted m₁ m' s id) (hquiet : Quiet m m') :
      PromptOutcome s name k payload a (.error .connectionClosed, m')
  | unhealed {e : AgentsError} {m' : AgentsManager n}
      (hlive : (m.slots s).sessionMap.get? k = none)
      (hheal : HealOutcome m s name k a (.error e, m')) (hquiet : Quiet m m') :
      PromptOutcome s name k payload a (.error e, m')

section Prompt

variable {m} {s : Fin n} {name : String} {k : SessionKey} {a : Answers}

/-- Healing leaves the key live and the connection as it was. -/
theorem HealOutcome.live {m₁ : AgentsManager n} (h : HealOutcome m s name k a (.ok (), m₁)) :
    (∃ id, (m₁.slots s).sessionMap.get? k = some id) ∧
      (m₁.slots s).connection = (m.slots s).connection := by
  have hmap : ∀ t row news, SessionChange a m m₁ s t row news →
      (m₁.slots s).sessionMap = t.sessionMap := by
    intro t row news hchange
    have htables := hchange.tables s
    rw [if_pos rfl] at htables
    exact congrArg SessionTables.sessionMap htables
  cases h with
  | recovered hstale hrecovers hconn hid hchange =>
      refine ⟨Option.isSome_iff_exists.mp ?_, hchange.connection s⟩
      rw [hmap _ _ _ hchange, SessionTables.register_sessionMap, KeyedMap.get?_set, if_pos rfl]
      rfl
  | created hlive hrecovers hstart hconn hid hchange =>
      refine ⟨Option.isSome_iff_exists.mp ?_, hchange.connection s⟩
      rw [hmap _ _ _ hchange, SessionTables.register_sessionMap, KeyedMap.get?_set, if_pos rfl]
      rfl
  | existing hlive hrecovers hchange =>
      refine ⟨Option.isSome_iff_exists.mp ?_, hchange.connection s⟩
      rw [hmap _ _ _ hchange, SessionTables.forget_sessionMap, AgentSlot.tables_sessionMap, hlive]
      rfl

theorem Ensured.live {m₁ : AgentsManager n} (h : Ensured m s name k a m₁) :
    (∃ id, (m₁.slots s).sessionMap.get? k = some id) ∧
      (m₁.slots s).connection = (m.slots s).connection := by
  cases h with
  | mapped hlive => exact ⟨(KeyedMap.contains_iff _ k).mp hlive, rfl⟩
  | healed _ hheal => exact hheal.live

/-- A key is ensured on the answers on which it is live, recovers or starts. -/
theorem Ensured.cause {m₁ : AgentsManager n} (h : Ensured m s name k a m₁) :
    (m.slots s).sessionMap.contains k = true ∨ (m.slots s).Recovers k a ∨
      (m.slots s).CanStart a := by
  cases h with
  | mapped hlive => exact Or.inl hlive
  | healed hlive hheal =>
      cases hheal with
      | recovered _ hrecovers _ _ _ => exact Or.inr (Or.inl hrecovers)
      | created _ _ hstart _ _ _ => exact Or.inr (Or.inr hstart)
      | existing hlive' _ _ =>
          rw [hlive] at hlive'
          cases hlive'

theorem ensureMapped_outcome (hfind : findSlotByName cfg name = some s) :
    (∃ m₁, ensureMapped cfg m s name k a = (.ok (), m₁) ∧ Ensured m s name k a m₁) ∨
      (∃ e m', ensureMapped cfg m s name k a = (.error e, m') ∧
        (m.slots s).sessionMap.get? k = none ∧
        HealOutcome m s name k a (.error e, m')) := by
  unfold ensureMapped
  by_cases hlive : (m.slots s).sessionMap.contains k = true
  · exact Or.inl ⟨m, by rw [if_pos hlive], .mapped hlive⟩
  · have hnone := (KeyedMap.not_contains_iff _ k).mp (Bool.eq_false_iff.mpr hlive)
    rw [if_neg hlive]
    have hheal := healSession_outcome cfg m k a hfind
    rcases hr : healSession cfg m s name k a with ⟨e | ⟨⟩, m'⟩
    · rw [hr] at hheal
      exact Or.inr ⟨e, m', rfl, hnone, hheal⟩
    · rw [hr] at hheal
      exact Or.inl ⟨m', rfl, .healed hnone hheal⟩

theorem promptSession_outcome (hfind : findSlotByName cfg name = some s)
    {payload : RichPayload} (hplain : IsPlain payload.content) :
    PromptOutcome m s name k payload a (promptSession cfg m name k payload a) := by
  have hquiet := ensureMapped_quiet cfg m s name k a
  unfold IsPlain at hplain
  unfold promptSession
  simp only [hfind, hplain]
  rcases ensureMapped_outcome cfg (m := m) (k := k) (a := a) hfind with
    ⟨m₁, heq, hensured⟩ | ⟨e, m', heq, hlive, hheal⟩
  · obtain ⟨⟨id, hlive⟩, hsame⟩ := hensured.live
    simp only [heq] at hquiet
    simp only [heq, hlive]
    have hwrite := writePrompt_outcome m₁ s k id payload a
    generalize m₁.writePrompt s k id payload a = r at hwrite
    cases hwrite with
    | sent hconn hsent hslot hno hid hprompted hhanded =>
        exact .sent hensured hlive hconn hsent hslot hno hid hprompted
          (hquiet.trans_handed hhanded)
    | unsent hfails hprompted hquiet' =>
        exact .unsent hensured hlive hfails hprompted (hquiet.trans hquiet')
  · simp only [heq] at hquiet
    simp only [heq]
    exact .unhealed hlive hheal hquiet

/-- **A plain message reaches the agent exactly on the answers of `CanPrompt`.** -/
theorem PromptOutcome.ok_iff {payload : RichPayload} {result : Except AgentsError Unit}
    {m' : AgentsManager n} (h : PromptOutcome m s name k payload a (result, m')) :
    result = .ok () ↔ (m.slots s).CanPrompt k a := by
  cases h with
  | sent hensured hlive hconn hsent =>
      refine ⟨fun _ => ⟨?_, hsent, hensured.cause⟩, fun _ => rfl⟩
      rw [← hensured.live.2, hconn]
      rfl
  | unsent hensured hlive hfails =>
      refine ⟨fun hok => (nomatch hok), fun hcan => absurd ⟨?_, hcan.2.1⟩ hfails⟩
      rw [hensured.live.2]
      exact hcan.1
  | unhealed hlive hheal =>
      refine ⟨fun hok => (nomatch hok), fun hcan => ?_⟩
      obtain ⟨hconn, _, hcause⟩ := hcan
      cases hheal with
      | failed _ hrecovers hstart _ =>
          rcases hcause with hcontains | hrec | hst
          · simp [KeyedMap.contains, hlive] at hcontains
          · exact absurd hrec hrecovers
          · exact absurd hst hstart
      | unreachable hnone =>
          rw [hnone] at hconn
          cases hconn

end Prompt

/-! ### Platform commands -/

/-- Events were sent, and the key was released: its next payload, if any, was popped and
    dropped. -/
def Released (es : List ChannelEvent) (m m' : AgentsManager n) (k : SessionKey) : Prop :=
  ∃ m₁, Quiet m m₁ ∧ m' = (m₁.sendEvents es).releaseKey k

/-- Nothing but events was sent. -/
def Told (es : List ChannelEvent) (m m' : AgentsManager n) : Prop :=
  ∃ m₁, Quiet m m₁ ∧ m' = m₁.sendEvents es

inductive PlatformOutcome (s : Fin n) (name : String) (k : SessionKey) (a : Answers) :
    PlatformCommand → Except AgentsError Unit × AgentsManager n → Prop
  | renewed {conn : AgentConnection} {id : AcpSessionId} {m' : AgentsManager n}
      (hstart : (m.slots s).CanStart a) (hconn : (m.slots s).connection = some conn)
      (hid : a.sessionNew.result? = some id)
      (hchange : SessionChange a m m' s (((m.slots s).tables.unmap k).register k id)
        (some ⟨k, name, id⟩) [.answered s conn.no .created id])
      (hincoming : m'.incoming = m.incoming)
      (hreleased : Released (syntheticChunk k "New conversation started.") m m' k) :
      PlatformOutcome s name k a .new (.ok (), m')
  | unmapped {e : AgentsError} {m' : AgentsManager n} (hstart : ¬ (m.slots s).CanStart a)
      (hchange : SessionChange a m m' s ((m.slots s).tables.unmap k) none [])
      (hincoming : m'.incoming = m.incoming) (hquiet : Quiet m m') :
      PlatformOutcome s name k a .new (.error e, m')
  | cancelled {m' : AgentsManager n} (hcancel : (m.slots s).CanCancel k a)
      (hkept : SessionsKept m m')
      (hreleased : Released (syntheticChunk k "Operation cancelled.") m m' k) :
      PlatformOutcome s name k a .cancel (.ok (), m')
  | notCancelled {m' : AgentsManager n} (hcancel : ¬ (m.slots s).CanCancel k a)
      (hkept : SessionsKept m m')
      (htold : Told (syntheticResponse k "No active operation to cancel." .cancelled) m m') :
      PlatformOutcome s name k a .cancel (.ok (), m')

section Platform

variable {m} {s : Fin n} {name : String} {k : SessionKey} {a : Answers}

theorem releaseKey_kept (m : AgentsManager n) (k : SessionKey) :
    SessionsKept m (m.releaseKey k) :=
  ⟨⟨fun _ => rfl, fun _ => rfl, fun _ => rfl, [], by simp [releaseKey], rfl⟩, fun _ => rfl,
    fun _ => rfl, rfl⟩

theorem cancelSession_kept (m : AgentsManager n) (name : String) (k : SessionKey)
    (a : Answers) : SessionsKept m (cancelSession cfg m name k a).2 := by
  unfold cancelSession sendCancel
  split
  · exact SessionsKept.refl m
  · split
    · exact SessionsKept.refl m
    · split
      · exact SessionsKept.refl m
      · split
        · exact (SessionsKept.refl m).emit rfl
        · exact SessionsKept.refl m

theorem cancelSession_ok_iff (hfind : findSlotByName cfg name = some s) :
    (cancelSession cfg m name k a).1 = .ok () ↔ (m.slots s).CanCancel k a := by
  unfold cancelSession sendCancel AgentSlot.CanCancel
  simp only [hfind]
  cases hlive : (m.slots s).sessionMap.get? k with
  | none => simp [KeyedMap.contains, hlive]
  | some id =>
      cases hconn : (m.slots s).connection with
      | none => simp
      | some conn =>
          by_cases hsent : a.cancelSent = true <;> simp [KeyedMap.contains, hlive, hsent]

theorem handlePlatformCommand_outcome (hfind : findSlotByName cfg name = some s)
    (command : PlatformCommand) :
    PlatformOutcome m s name k a command (handlePlatformCommand cfg m command s name k a) := by
  cases command with
  | new =>
      have hunmap := SessionChange.modifySlot a m s (fun slot => slot.unmapSession k) rfl rfl
        (Finset.Subset.refl _)
      rw [AgentSlot.tables_unmapSession] at hunmap
      have hslot : (m.modifySlot s fun slot => slot.unmapSession k).slots s =
          (m.slots s).unmapSession k := by
        rw [slots_modifySlot, if_pos rfl]
      have hquiet := ((Quiet.refl m).modifySlot (s := s) (f := fun slot => slot.unmapSession k) rfl).trans
        (createSession_quiet cfg _ name k a)
      have hcreate := createSession_outcome cfg
        (m.modifySlot s fun slot => slot.unmapSession k) hfind k a
      unfold handlePlatformCommand
      dsimp only
      generalize createSession cfg (m.modifySlot s fun slot => slot.unmapSession k) name k a = r
        at hcreate hquiet
      cases hcreate with
      | existing hlive =>
          rw [hslot] at hlive
          simp at hlive
      | @created conn id m₁ hlive hstart hconn hid hinc hchange =>
          rw [hslot] at hstart hconn hchange
          have hrest := ((SessionsKept.refl m₁).sendEvents
            (syntheticChunk k "New conversation started.")).trans (releaseKey_kept _ k)
          exact .renewed hstart hconn hid
            ((hunmap.trans hchange hinc).trans_sessionsKept hrest) hinc
            ⟨_, hquiet, rfl⟩
      | failed hlive hstart hkept =>
          rw [hslot] at hstart
          have hchange := hunmap.trans (hkept.toChange a s) hkept.incoming
          rw [hslot] at hchange
          exact .unmapped hstart hchange hkept.incoming hquiet
  | cancel =>
      have hok := cancelSession_ok_iff cfg (m := m) (k := k) (a := a) hfind
      have hkept := cancelSession_kept cfg m name k a
      have hquiet := cancelSession_quiet cfg m name k a
      unfold handlePlatformCommand
      dsimp only
      rcases hr : cancelSession cfg m name k a with ⟨e | ⟨⟩, m'⟩
      · simp only [hr] at hok hkept hquiet
        refine .notCancelled (fun hcan => ?_) (hkept.sendEvents _) ⟨_, hquiet, rfl⟩
        cases hok.mpr hcan
      · simp only [hr] at hok hkept hquiet
        exact .cancelled (hok.mp trivial) ((hkept.sendEvents _).trans (releaseKey_kept _ k))
          ⟨_, hquiet, rfl⟩

end Platform

end AgentsManager

end Anyclaw
