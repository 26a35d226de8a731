import Anyclaw.Agents.ActivePrompts
import Anyclaw.Agents.History
import Anyclaw.Agents.ToolContext

/-!
# The tool context is given once

The first prompt that a message hands to a session brings the tool context.  What remembers
this is a mark, which is set before the prompt is sent; a refused prompt uses it up, but a
process that refuses one prompt takes no other.

When a prompt is answered with "session not found", `handle_prompt_completion` takes the key of
the prompt, and forgets the mark of the session that this key maps to by then.  That is the
session that was prompted, unless the key was given another one in between.  The session gets the
context again when it comes back.

`received` reads off the history of a run whether a session has the context.  The invariant
`Marked` says that the marks of the manager agree with it.

The mark is an entry of `tool_context_sent`, which `prompt_session`
(`crates/anyclaw-agents/src/commands.rs`) makes and `handle_prompt_completion` (`incoming.rs`)
removes.
-/

namespace Anyclaw

variable {n : Nat}

/-- A prompt that was handed over, with the tool context that its slot has by then and the
    parts that the messages bring themselves. -/
structure HandedPrompt (n : Nat) extends GivenPrompt n where
  context : Option String
  own : List ContentPart
deriving DecidableEq

/-- What tells whether a session has the tool context.  A session expires when "session not
    found" answers a prompt whose key maps to it at that time. -/
inductive ContextEvent (n : Nat) where
  | prompted (p : HandedPrompt n)
  | expired (s : Fin n) (id : AcpSessionId)
deriving DecidableEq

namespace ContextEvent

/-- The session `id` of the process `no` is prompted, and the tool context is known. -/
def informs (s : Fin n) (no : Nat) (id : AcpSessionId) : ContextEvent n → Bool
  | .prompted p =>
      decide (p.slotIdx = s ∧ p.connection = no ∧ p.acpSessionId = id ∧ p.context.isSome)
  | .expired _ _ => false

def forgets (s : Fin n) (id : AcpSessionId) : ContextEvent n → Bool
  | .prompted _ => false
  | .expired s' id' => decide (s' = s ∧ id' = id)

end ContextEvent

/-- The session was prompted when the tool context was known, and has not expired since. -/
def received (es : List (ContextEvent n)) (s : Fin n) (no : Nat) (id : AcpSessionId) : Bool :=
  es.foldl (fun r e => e.informs s no id || (r && !e.forgets s id)) false

/-- A prompt brings the tool context, as soon as it is known, if its session does not have it
    yet.  Otherwise it brings nothing but what its messages bring. -/
def ContextOnce (es : List (ContextEvent n)) : Prop :=
  ∀ before p, before ++ [.prompted p] <+: es →
    p.parts = (if received before p.slotIdx p.connection p.acpSessionId then []
      else p.context.toList.map ContentPart.text) ++ p.own

section Events

variable {es : List (ContextEvent n)} {s : Fin n} {no : Nat} {id : AcpSessionId}

@[simp] theorem received_nil : received ([] : List (ContextEvent n)) s no id = false := rfl

theorem received_concat (es : List (ContextEvent n)) (e : ContextEvent n) (s : Fin n) (no : Nat)
    (id : AcpSessionId) : received (es ++ [e]) s no id =
      (e.informs s no id || (received es s no id && !e.forgets s id)) :=
  List.foldl_append

theorem received_prompted {p : HandedPrompt n} : received (es ++ [.prompted p]) s no id = true ↔
    (p.slotIdx = s ∧ p.connection = no ∧ p.acpSessionId = id ∧ p.context.isSome) ∨
      received es s no id = true := by
  rw [received_concat]
  simp [ContextEvent.informs, ContextEvent.forgets]

theorem received_expired {ids : List (Fin n × AcpSessionId)} :
    received (es ++ ids.map fun e => .expired e.1 e.2) s no id = true ↔
      received es s no id = true ∧ (s, id) ∉ ids := by
  induction ids using List.reverseRecOn with
  | nil => simp
  | append_singleton ids e ih =>
      rw [List.map_append, List.map_singleton, ← List.append_assoc, received_concat]
      simp only [ContextEvent.informs, ContextEvent.forgets, Bool.false_or, Bool.and_eq_true, ih,
        Bool.not_eq_true', decide_eq_false_iff_not, List.mem_append, List.mem_singleton, not_or,
        and_assoc]
      refine and_congr_right fun _ => and_congr_right fun _ => not_congr ?_
      constructor
      · rintro ⟨rfl, rfl⟩
        rfl
      · rintro rfl
        exact ⟨rfl, rfl⟩

theorem contextOnce_nil : ContextOnce ([] : List (ContextEvent n)) := by
  intro before p hbefore
  have hnil := List.prefix_nil.mp hbefore
  exact absurd hnil (List.append_ne_nil_of_right_ne_nil _ (List.cons_ne_nil _ _))

/-- Only the event that comes last is new. -/
theorem contextOnce_concat {e : ContextEvent n} : ContextOnce (es ++ [e]) ↔ ContextOnce es ∧
    ∀ p, e = .prompted p →
      p.parts = (if received es p.slotIdx p.connection p.acpSessionId then []
        else p.context.toList.map ContentPart.text) ++ p.own := by
  constructor
  · intro h
    refine ⟨fun before p hbefore => h before p (hbefore.trans (List.prefix_append _ _)), ?_⟩
    rintro p rfl
    exact h es p List.prefix_rfl
  · rintro ⟨hold, hlast⟩ before p hbefore
    rcases List.prefix_concat_iff.mp hbefore with heq | hbefore
    · obtain ⟨rfl, hp⟩ := List.append_inj' heq rfl
      exact hlast p (List.singleton_inj.mp hp).symm
    · exact hold before p hbefore

theorem contextOnce_expired (h : ContextOnce es) (ids : List (Fin n × AcpSessionId)) :
    ContextOnce (es ++ ids.map fun e => .expired e.1 e.2) := by
  induction ids using List.reverseRecOn with
  | nil => rwa [List.map_nil, List.append_nil]
  | append_singleton ids e ih =>
      rw [List.map_append, List.map_singleton, ← List.append_assoc]
      exact contextOnce_concat.mpr ⟨ih, nofun⟩

end Events

namespace AgentsManager

/-! ### What a step hands over -/

section Taken

variable (t : Machine.Taken (AgentsManager n) (Label n))

def handedIn : List (HandedPrompt n) :=
  (t.after.given.drop t.before.given.length).map fun p =>
    ⟨p, (t.after.slots p.slotIdx).toolContext, t.before.ownParts t.label⟩

/-- The sessions that expire in a step, and the prompts of messages. -/
def contextEvents : List (ContextEvent n) :=
  (t.before.expiredSessions t.label).map (fun e => .expired e.1 e.2) ++
    if t.label.isSendPrompt then [] else (handedIn t).map .prompted

end Taken

def handedOver (ts : List (Machine.Taken (AgentsManager n) (Label n))) : List (ContextEvent n) :=
  (ts.flatMap handedIn).map .prompted

/-- The prompts of messages that a run hands over, and the sessions that expire. -/
def dispatched (ts : List (Machine.Taken (AgentsManager n) (Label n))) : List (ContextEvent n) :=
  ts.flatMap contextEvents

theorem dispatched_concat (ts : List (Machine.Taken (AgentsManager n) (Label n)))
    (t : Machine.Taken (AgentsManager n) (Label n)) :
    dispatched (ts ++ [t]) = dispatched ts ++ contextEvents t := by
  unfold dispatched
  rw [List.flatMap_append, List.flatMap_singleton]

/-! ### Refused prompts -/

def Refused (cfg : AgentsManagerConfig n) (ts : List (Machine.Taken (AgentsManager n) (Label n)))
    (s : Fin n) (conn : AgentConnection) : Prop :=
  ∃ t ∈ ts, ∃ e ∈ promptTarget cfg t.before t.label,
    e.1 = s ∧ e.2.promptSent = false ∧ (t.before.slots s).connection = some conn

instance (cfg : AgentsManagerConfig n) (ts : List (Machine.Taken (AgentsManager n) (Label n)))
    (s : Fin n) (conn : AgentConnection) : Decidable (Refused cfg ts s conn) :=
  inferInstanceAs (Decidable (∃ t ∈ ts, _))

/-- The channel to a process is refused only when it is closed, and then for good: a process
    that has refused a prompt takes no other. -/
def StaysClosed (cfg : AgentsManagerConfig n) (x : History n) (l : Label n) : Prop :=
  ∀ e ∈ promptTarget cfg x.2 l, e.2.promptSent = true →
    ∀ conn ∈ (x.2.slots e.1).connection, ¬ Refused cfg x.1 e.1 conn

instance (cfg : AgentsManagerConfig n) (x : History n) (l : Label n) :
    Decidable (StaysClosed cfg x l) :=
  inferInstanceAs (Decidable (∀ e ∈ promptTarget cfg x.2 l, _))

variable {cfg : AgentsManagerConfig n} {m m' : AgentsManager n} {l : Label n}

theorem Refused.mono {ts ts' : List (Machine.Taken (AgentsManager n) (Label n))} {s : Fin n}
    {conn : AgentConnection} (h : Refused cfg ts s conn) (hsub : ts ⊆ ts') :
    Refused cfg ts' s conn := by
  obtain ⟨t, hmem, hrefused⟩ := h
  exact ⟨t, hsub hmem, hrefused⟩

/-! ### Labels that hand over a prompt -/

theorem crash_of_promptTarget {e : Fin n × Answers} (h : promptTarget cfg m l = some e) :
    m.crash l = none := by
  cases l with
  | recvIncoming a => cases h
  | drainIncoming a => cases h
  | _ => rfl

theorem expiredSessions_of_promptTarget {e : Fin n × Answers}
    (h : promptTarget cfg m l = some e) : m.expiredSessions l = [] := by
  cases l with
  | finishCompletion a =>
      obtain ⟨c, hc, h⟩ := Option.bind_eq_some_iff.mp h
      obtain ⟨⟨hexpired, -⟩, -⟩ := Option.ite_none_right_eq_some.mp h
      unfold expiredSessions
      rw [hc]
      exact if_neg (Bool.eq_false_iff.mp hexpired)
  | _ => rfl

theorem mem_expiredSessions {a : Answers} {c : PromptCompletion} (hc : m.completing = some c)
    (hexpired : c.sessionExpired = true) {s : Fin n} {id : AcpSessionId} :
    (s, id) ∈ m.expiredSessions (.finishCompletion a) ↔
      (m.slots s).sessionMap.get? c.sessionKey = some id := by
  unfold expiredSessions
  rw [hc]
  simp only [hexpired, if_true, List.mem_filterMap, List.mem_finRange, true_and,
    Option.map_eq_some_iff, Prod.mk.injEq]
  constructor
  · rintro ⟨s', id', hid, rfl, rfl⟩
    exact hid
  · intro hid
    exact ⟨s, id, hid, rfl, rfl⟩

/-- Only a crash gives a slot another process. -/
theorem connection_of_calm (hplain : m.backlog.Plain) (h : step cfg m l = some m')
    (hcalm : m.crash l = none) {s : Fin n} {conn : AgentConnection}
    (hup : (m'.slots s).connection = some conn) : (m.slots s).connection = some conn := by
  cases step_sessions hplain h with
  | kept hkept => exact (hkept.connection s).symm.trans hup
  | changed _ _ _ hchange => exact (hchange.connection s).symm.trans hup
  | expired _ hexpired => exact (hexpired.connection s).symm.trans hup
  | crashed hl _ _ =>
      rw [hcalm] at hl
      cases hl
  | shutdown => cases hup

/-! ### The events of one step -/

theorem handedIn_of_given {ps : List (GivenPrompt n)} (h : m'.given = m.given ++ ps) :
    handedIn ⟨m, l, m'⟩ =
      ps.map fun p => ⟨p, (m'.slots p.slotIdx).toolContext, m.ownParts l⟩ := by
  unfold handedIn
  rw [h, List.drop_left]

theorem contextEvents_of_given {ps : List (GivenPrompt n)} (h : m'.given = m.given ++ ps)
    (hlive : m.expiredSessions l = []) (hl : l.isSendPrompt = false) :
    contextEvents ⟨m, l, m'⟩ = ps.map fun p =>
      .prompted ⟨p, (m'.slots p.slotIdx).toolContext, m.ownParts l⟩ := by
  unfold contextEvents
  rw [handedIn_of_given h, hlive, hl, if_neg Bool.false_ne_true, List.map_map]
  rfl

theorem contextEvents_of_silent (h : m'.given = m.given) :
    contextEvents ⟨m, l, m'⟩ =
      (m.expiredSessions l).map fun e => .expired e.1 e.2 := by
  have hsame : m'.given = m.given ++ [] := h.trans (List.append_nil _).symm
  have hnone : handedIn ⟨m, l, m'⟩ = [] := handedIn_of_given hsame
  unfold contextEvents
  rw [hnone, List.map_nil, ite_self, List.append_nil]

theorem contextEvents_sendPrompt {message : String} {a : Answers} :
    contextEvents ⟨m, .command (.sendPrompt message) a, m'⟩ = [] := rfl

/-! ### The marks agree with the history -/

structure Marked (cfg : AgentsManagerConfig n) (x : History n) : Prop where
  once : ContextOnce (dispatched x.1)
  /-- The mark of a refused prompt stays. -/
  informed : ∀ s conn id, (x.2.slots s).connection = some conn →
    id ∈ (x.2.slots s).toolContextSent →
      received (dispatched x.1) s conn.no id = true ∨ Refused cfg x.1 s conn
  marked : ∀ s conn id, (x.2.slots s).connection = some conn →
    received (dispatched x.1) s conn.no id = true → id ∈ (x.2.slots s).toolContextSent
  numbered : ∀ s no id, received (dispatched x.1) s no id = true → no < x.2.nextConnection

section Steps

variable {ts : List (Machine.Taken (AgentsManager n) (Label n))}

/-- The marks of a process that goes on are kept; new ones are of prompts that it refused. -/
structure KeepsMarks (cfg : AgentsManagerConfig n) (m : AgentsManager n) (l : Label n)
    (m' : AgentsManager n) (s : Fin n) (conn : AgentConnection) : Prop where
  connection : (m.slots s).connection = some conn
  marked : (m.slots s).toolContextSent ⊆ (m'.slots s).toolContextSent
  refused : ∀ id ∈ (m'.slots s).toolContextSent, id ∈ (m.slots s).toolContextSent ∨
    Refused cfg [⟨m, l, m'⟩] s conn

theorem KeepsMarks.of_eq {s : Fin n} {conn : AgentConnection}
    (hconn : (m.slots s).connection = some conn)
    (hmarks : (m'.slots s).toolContextSent = (m.slots s).toolContextSent) :
    KeepsMarks cfg m l m' s conn :=
  ⟨hconn, hmarks.symm.subset, fun _ hmark => Or.inl (hmarks ▸ hmark)⟩

/-- Nothing is told.  Every slot goes on with its process, or has a new one and no mark. -/
theorem Marked.silent (h : Marked cfg (ts, m)) (hevents : contextEvents ⟨m, l, m'⟩ = [])
    (hnext : m.nextConnection ≤ m'.nextConnection)
    (hslots : ∀ s conn, (m'.slots s).connection = some conn → KeepsMarks cfg m l m' s conn ∨
      (m.nextConnection ≤ conn.no ∧ (m'.slots s).toolContextSent = ∅)) :
    Marked cfg (ts ++ [⟨m, l, m'⟩], m') := by
  have hsame : dispatched (ts ++ [⟨m, l, m'⟩]) = dispatched ts := by
    rw [dispatched_concat, hevents, List.append_nil]
  refine ⟨?_, fun s conn id hup hmark => ?_, fun s conn id hup hreceived => ?_,
    fun s no id hreceived => ?_⟩
  · rw [hsame]
    exact h.once
  · rw [hsame]
    rcases hslots s conn hup with hkeeps | ⟨-, hmarks⟩
    · rcases hkeeps.refused id hmark with hold | hrefused
      · exact (h.informed s conn id hkeeps.connection hold).imp_right fun hrefused =>
          hrefused.mono (List.subset_append_left _ _)
      · exact Or.inr (hrefused.mono (List.subset_append_right _ _))
    · rw [hmarks] at hmark
      exact absurd hmark (Finset.notMem_empty id)
  · rw [hsame] at hreceived
    rcases hslots s conn hup with hkeeps | ⟨hnew, -⟩
    · exact hkeeps.marked (h.marked s conn id hkeeps.connection hreceived)
    · exact absurd (h.numbered s conn.no id hreceived) (Nat.not_lt.mpr hnew)
  · rw [hsame] at hreceived
    exact Nat.lt_of_lt_of_le (h.numbered s no id hreceived) hnext

theorem mem_toolContextSent_expireSession {slot : AgentSlot} {k : SessionKey}
    {id : AcpSessionId} : id ∈ (slot.expireSession k).toolContextSent ↔
      id ∈ slot.toolContextSent ∧ slot.sessionMap.get? k ≠ some id := by
  unfold AgentSlot.expireSession
  cases hk : slot.sessionMap.get? k with
  | none => simp
  | some id' => simp [and_comm, eq_comm]

/-- The session is forgotten, and so is its mark. -/
theorem Marked.expired (h : Marked cfg (ts, m)) {a : Answers} {c : PromptCompletion}
    (hc : m.completing = some c) (hexpired : c.sessionExpired = true)
    (hslots : m'.slots = fun s => (m.slots s).expireSession c.sessionKey)
    (hgiven : m'.given = m.given) (hnext : m.nextConnection ≤ m'.nextConnection) :
    Marked cfg (ts ++ [⟨m, .finishCompletion a, m'⟩], m') := by
  have hevents : dispatched (ts ++ [⟨m, .finishCompletion a, m'⟩]) = dispatched ts ++
      (m.expiredSessions (.finishCompletion a)).map fun e => .expired e.1 e.2 := by
    rw [dispatched_concat, contextEvents_of_silent hgiven]
  have hconn : ∀ s, (m'.slots s).connection = (m.slots s).connection := by
    intro s
    rw [hslots]
    exact AgentSlot.connection_expireSession (m.slots s) c.sessionKey
  have hmarks : ∀ s id, id ∈ (m'.slots s).toolContextSent ↔ id ∈ (m.slots s).toolContextSent ∧
      (s, id) ∉ m.expiredSessions (.finishCompletion a) := by
    intro s id
    rw [hslots, mem_expiredSessions hc hexpired]
    exact mem_toolContextSent_expireSession
  refine ⟨?_, fun s conn id hup hmark => ?_, fun s conn id hup hreceived => ?_,
    fun s no id hreceived => ?_⟩
  · rw [hevents]
    exact contextOnce_expired h.once _
  · rw [hconn] at hup
    obtain ⟨hmark, hlive⟩ := (hmarks s id).mp hmark
    rw [hevents]
    refine (h.informed s conn id hup hmark).imp (fun hreceived => ?_) fun hrefused =>
      hrefused.mono (List.subset_append_left _ _)
    exact received_expired.mpr ⟨hreceived, hlive⟩
  · rw [hconn] at hup
    rw [hevents] at hreceived
    obtain ⟨hreceived, hlive⟩ := received_expired.mp hreceived
    exact (hmarks s id).mpr ⟨h.marked s conn id hup hreceived, hlive⟩
  · rw [hevents] at hreceived
    exact Nat.lt_of_lt_of_le (h.numbered s no id (received_expired.mp hreceived).1) hnext

section Wrote

variable {s : Fin n} {id : AcpSessionId} {a : Answers}

theorem Wrote.mem_marks {own : List ContentPart} (h : Wrote m m' s id own a) {s' : Fin n}
    {id' : AcpSessionId} : id' ∈ (m'.slots s').toolContextSent ↔
      (s = s' ∧ id = id' ∧ (m'.slots s).toolContext.isSome) ∨
        id' ∈ (m.slots s').toolContextSent := by
  rw [h.marks s']
  by_cases hs : s = s'
  · subst hs
    by_cases hknown : (m'.slots s).toolContext.isSome
    · simp [hknown, eq_comm]
    · simp [hknown]
  · have hs' : s' ≠ s := fun heq => hs heq.symm
    simp [hs, hs']

/-- The prompt was not handed over, because the process is gone or refuses it. -/
theorem Marked.refused (h : Marked cfg (ts, m)) (htarget : promptTarget cfg m l = some (s, a))
    (hwrote : Wrote m m' s id (m.ownParts l) a) (hl : l.isSendPrompt = false)
    (hnone : (m.slots s).connection.filter (fun _ => a.promptSent) = none)
    (hretains : ∀ s conn, (m'.slots s).connection = some conn →
      (m.slots s).connection = some conn)
    (hnext : m.nextConnection ≤ m'.nextConnection) :
    Marked cfg (ts ++ [⟨m, l, m'⟩], m') := by
  have hgiven := hwrote.given
  rw [hnone] at hgiven
  have hevents : contextEvents ⟨m, l, m'⟩ = [] :=
    contextEvents_of_given hgiven (expiredSessions_of_promptTarget htarget) hl
  refine h.silent hevents hnext fun s' conn hup => Or.inl ?_
  have hold := hretains s' conn hup
  refine ⟨hold, fun id' hmark => hwrote.mem_marks.mpr (Or.inr hmark), fun id' hmark => ?_⟩
  rcases hwrote.mem_marks.mp hmark with ⟨rfl, -, -⟩ | hmark
  · rw [hold] at hnone
    have hsent : a.promptSent = false := by
      simpa [Option.filter_some] using hnone
    exact Or.inr ⟨_, List.mem_singleton_self _, (s, a), htarget, rfl, hsent, hold⟩
  · exact Or.inl hmark

/-- The prompt was handed over.  The process has refused none, so that its session is marked
    if and only if it has the context. -/
theorem Marked.prompted (h : Marked cfg (ts, m)) (hnumbered : Numbered m)
    (hguard : StaysClosed cfg (ts, m) l) (htarget : promptTarget cfg m l = some (s, a))
    (hwrote : Wrote m m' s id (m.ownParts l) a) (hl : l.isSendPrompt = false)
    {conn : AgentConnection} (hconn : (m.slots s).connection = some conn)
    (hsent : a.promptSent = true)
    (hretains : ∀ s conn, (m'.slots s).connection = some conn →
      (m.slots s).connection = some conn)
    (hnext : m.nextConnection ≤ m'.nextConnection) :
    Marked cfg (ts ++ [⟨m, l, m'⟩], m') := by
  have hopen : ¬ Refused cfg ts s conn := hguard (s, a) htarget hsent conn hconn
  have hmarked : received (dispatched ts) s conn.no id = true ↔
      id ∈ (m.slots s).toolContextSent :=
    ⟨h.marked s conn id hconn, fun hmark =>
      (h.informed s conn id hconn hmark).resolve_right hopen⟩
  have hgiven := hwrote.given
  rw [hconn, hsent] at hgiven
  have hevents : dispatched (ts ++ [⟨m, l, m'⟩]) = dispatched ts ++ [.prompted ⟨⟨s, conn.no, id,
      (if id ∈ (m.slots s).toolContextSent then none else (m'.slots s).toolContext).toList.map
        ContentPart.text ++ m.ownParts l⟩, (m'.slots s).toolContext, m.ownParts l⟩] := by
    rw [dispatched_concat,
      contextEvents_of_given hgiven (expiredSessions_of_promptTarget htarget) hl]
    rfl
  refine ⟨?_, fun s' conn' id' hup hmark => ?_, fun s' conn' id' hup hreceived => ?_,
    fun s' no id' hreceived => ?_⟩
  · rw [hevents]
    refine contextOnce_concat.mpr ⟨h.once, fun p hp => ?_⟩
    cases hp
    dsimp only
    by_cases hmark : id ∈ (m.slots s).toolContextSent
    · rw [if_pos hmark, if_pos (hmarked.mpr hmark)]
      rfl
    · rw [if_neg hmark, if_neg fun hreceived => hmark (hmarked.mp hreceived)]
  · have hold := hretains s' conn' hup
    rw [hevents, received_prompted]
    rcases hwrote.mem_marks.mp hmark with ⟨rfl, rfl, hknown⟩ | hmark
    · rw [hconn] at hold
      cases hold
      exact Or.inl (Or.inl ⟨rfl, rfl, rfl, hknown⟩)
    · exact (h.informed s' conn' id' hold hmark).imp Or.inr fun hrefused =>
        hrefused.mono (List.subset_append_left _ _)
  · rw [hevents, received_prompted] at hreceived
    rcases hreceived with ⟨rfl, -, rfl, hknown⟩ | hreceived
    · exact hwrote.mem_marks.mpr (Or.inl ⟨rfl, rfl, hknown⟩)
    · exact hwrote.mem_marks.mpr
        (Or.inr (h.marked s' conn' id' (hretains s' conn' hup) hreceived))
  · rw [hevents, received_prompted] at hreceived
    refine Nat.lt_of_lt_of_le ?_ hnext
    rcases hreceived with ⟨rfl, rfl, -, -⟩ | hreceived
    · exact hnumbered.slots s conn hconn
    · exact h.numbered s' no id' hreceived

end Wrote

/-- **One step keeps the marks in agreement with the history.** -/
theorem Marked.step (h : Marked cfg (ts, m)) (horderly : m.backlog.Plain) (hnumbered : Numbered m)
    (hguard : StaysClosed cfg (ts, m) l) (hstep : AgentsManager.step cfg m l = some m') :
    Marked cfg (ts ++ [⟨m, l, m'⟩], m') := by
  have hnext : m.nextConnection ≤ m'.nextConnection :=
    (step_processes horderly hstep).succeeds.nextConnection
  have hretains : m.crash l = none → ∀ s conn, (m'.slots s).connection = some conn →
      (m.slots s).connection = some conn :=
    fun hcalm s conn hup => connection_of_calm horderly hstep hcalm hup
  cases step_contexts horderly hstep with
  | kept hcalm hlive hkept =>
      refine h.silent ?_ hnext fun s conn hup =>
        Or.inl (.of_eq (hretains hcalm s conn hup) (hkept.marks s))
      rw [contextEvents_of_silent hkept.given, hlive, List.map_nil]
  | @wrote _ _ s id a hl htarget hwrote =>
      have hkeeps := hretains (crash_of_promptTarget htarget)
      cases hconn : (m.slots s).connection with
      | none =>
          refine h.refused htarget hwrote hl ?_ hkeeps hnext
          rw [hconn]
          rfl
      | some conn =>
          by_cases hsent : a.promptSent = true
          · exact h.prompted hnumbered hguard htarget hwrote hl hconn hsent hkeeps hnext
          · refine h.refused htarget hwrote hl ?_ hkeeps hnext
            rw [hconn]
            exact if_neg hsent
  | unmarked htarget hconn hlive hsent hslots hgiven =>
      refine h.silent contextEvents_sendPrompt hnext fun s conn hup => ?_
      rw [hslots] at hup
      exact Or.inl (.of_eq hup (by rw [hslots]))
  | expired hc hexpired hslots hgiven => exact h.expired hc hexpired hslots hgiven hnext
  | @crashed _ s₀ _ _ hl hcleared hothers hnew =>
      refine h.silent ?_ hnext fun s conn hup => ?_
      · have hlive : m.expiredSessions l = [] := by
          cases l with
          | finishCompletion a => cases hl
          | _ => rfl
        rw [contextEvents_of_silent hcleared.given, hlive, List.map_nil]
      · by_cases hs : s = s₀
        · subst hs
          exact Or.inr ⟨(hnew conn hup).ge, hcleared.cleared fun hdown => by
            rw [hdown] at hup
            cases hup⟩
        · rw [hothers s hs] at hup
          exact Or.inl (.of_eq hup (by rw [hothers s hs]))

end Steps

/-! ### Runs -/

theorem marked_of_staysClosed {x : History n}
    (h : (life cfg).recorded.ReachableUnder (StaysClosed cfg) x) : Marked cfg x := by
  refine h.invariant ?_ ?_
  · rintro ⟨ts, m⟩ ⟨rfl, hinit⟩
    have hunmarked := unmarked_of_init hinit
    refine ⟨contextOnce_nil, fun s conn id _ hmark => ?_, nofun, nofun⟩
    rw [hunmarked s] at hmark
    exact absurd hmark (Finset.notMem_empty id)
  · rintro ⟨ts, m⟩ l ⟨ts', m'⟩ hreach hmarked hguard hs
    obtain ⟨hstep, htaken⟩ := Machine.of_recorded_step hs
    dsimp only at hstep htaken
    subst htaken
    have hreach' : (life cfg).Reachable m := hreach.of_recorded fun _ _ _ => trivial
    exact hmarked.step (orderly_of_reachable hreach').plain (numbered_of_reachable hreach') hguard
      hstep

/-- **The tool context is given once**, until the session expires, in every run in which a closed
    channel stays closed. -/
theorem contextOnce_of_staysClosed {x : History n}
    (h : (life cfg).recorded.ReachableUnder (StaysClosed cfg) x) : ContextOnce (dispatched x.1) :=
  (marked_of_staysClosed h).once

end AgentsManager

namespace Sample

def equipped (newId : AcpSessionId) : Answers :=
  { answers newId with toolDescriptions := .replied [⟨"clock", "Tell the time."⟩] }

def answered (no : Nat) (answer : PromptAnswer) : List (Label 1) :=
  [.promptAnswered no answer, .recvCompletion, .finishCompletion (equipped "s")]

/-- Bob sends three messages.  At the second one the agent does not find his session, which it
    loads at the third. -/
def forgetful : List (Label 1) :=
  send "hello" (equipped "s") :: answered 0 (.result (some .endTurn)) ++
    send "again" (equipped "s") :: answered 1 (.error "session not found" "") ++
    [send "back" { equipped "s" with recovery := .answered (some "s") }]

end Sample

namespace AgentsManager

theorem contextOnce_of_staysClosed_forgetful : ∃ (x : History 1) (context : String),
    dispatched x.1 =
      [.prompted ⟨⟨0, 0, "s", [.text context, .text "hello"]⟩, some context, [.text "hello"]⟩,
        .prompted ⟨⟨0, 0, "s", [.text "again"]⟩, some context, [.text "again"]⟩,
        .expired 0 "s",
        .prompted ⟨⟨0, 0, "s", [.text context, .text "back"]⟩, some context, [.text "back"]⟩] ∧
      ContextOnce (dispatched x.1) := by
  have hrun : ∃ x ∈ executeRecorded Sample.cfg (StaysClosed Sample.cfg) true ∅ Sample.boot
      Sample.forgetful, ∃ context ∈ fetchToolContext (Sample.equipped "s").toolDescriptions,
        dispatched x.1 =
          [.prompted ⟨⟨0, 0, "s", [.text context, .text "hello"]⟩, some context,
              [.text "hello"]⟩,
            .prompted ⟨⟨0, 0, "s", [.text "again"]⟩, some context, [.text "again"]⟩,
            .expired 0 "s",
            .prompted ⟨⟨0, 0, "s", [.text context, .text "back"]⟩, some context,
              [.text "back"]⟩] := by
    decide +kernel
  obtain ⟨x, hx, context, -, hevents⟩ := hrun
  exact ⟨x, context, hevents, contextOnce_of_staysClosed (reachable_of_executeRecorded hx)⟩

/-- The last of the three prompts brings the context to a session that has it. -/
theorem context_given_again : ¬ ∀ x,
    (life Sample.cfg).recorded.ReachableUnder (StaysClosed Sample.cfg) x →
      ContextOnce (handedOver x.1) := by
  intro hall
  have hrun : ∃ x ∈ executeRecorded Sample.cfg (StaysClosed Sample.cfg) true ∅ Sample.boot
      Sample.forgetful, ∃ context ∈ fetchToolContext (Sample.equipped "s").toolDescriptions,
        handedOver x.1 =
          [.prompted ⟨⟨0, 0, "s", [.text context, .text "hello"]⟩, some context,
              [.text "hello"]⟩,
            .prompted ⟨⟨0, 0, "s", [.text "again"]⟩, some context, [.text "again"]⟩,
            .prompted ⟨⟨0, 0, "s", [.text context, .text "back"]⟩, some context,
              [.text "back"]⟩] := by
    decide +kernel
  obtain ⟨x, hx, context, -, hevents⟩ := hrun
  have honce := hall x (reachable_of_executeRecorded hx)
  rw [hevents] at honce
  have hparts := honce _ _ (List.prefix_refl ([_, _] ++ [_]))
  cases hparts

end AgentsManager

end Anyclaw
