import Anyclaw.Library.Mailbox
import Anyclaw.Agents.Progress

/-!
# Tickets

A prompt in flight is awaited, or its completion is still to be finished.  Every such
prompt has one ticket, its key and its number: handing a prompt over adds a ticket,
finishing a completion takes one away, and nothing else changes the tickets.

A prompt is handed over by `prompt_session` (`crates/anyclaw-agents/src/commands.rs`), whose
task sends a `PromptCompletion` (`manager.rs`) to `handle_prompt_completion` (`incoming.rs`).
-/

namespace Anyclaw

variable {n : Nat}

def OutstandingPrompt.ticket (p : OutstandingPrompt n) : SessionKey × Nat := (p.sessionKey, p.no)

def PromptCompletion.ticket (c : PromptCompletion) : SessionKey × Nat := (c.sessionKey, c.prompt)

theorem AgentsManager.Completes.ticket {c : PromptCompletion} {p : OutstandingPrompt n}
    (h : Completes c p) : c.ticket = p.ticket :=
  Prod.ext h.key h.no

namespace Backlog

/-- The tickets of the prompts that are awaited, and of those whose completion is still to
    be finished. -/
def tickets (b : Backlog n) : List (SessionKey × Nat) :=
  (b.prompts.filter OutstandingPrompt.awaited).map OutstandingPrompt.ticket ++
    b.pending.map PromptCompletion.ticket

def flights (b : Backlog n) (k : SessionKey) : List Nat := Mailbox.forKey k b.tickets

theorem numbers_tickets (b : Backlog n) : b.tickets.map Prod.snd =
    (b.prompts.filter OutstandingPrompt.awaited).map OutstandingPrompt.no ++
      b.pending.map PromptCompletion.prompt := by
  unfold tickets
  rw [List.map_append, List.map_map, List.map_map]
  rfl

theorem Ticketed.nodup_tickets {b : Backlog n} (h : b.Ticketed) :
    (b.tickets.map Prod.snd).Nodup := by
  rw [numbers_tickets]
  refine (h.distinct.sublist (List.Sublist.map _ List.filter_sublist)).append h.once ?_
  intro no hprompt hpending
  obtain ⟨p, hp, rfl⟩ := List.mem_map.mp hprompt
  obtain ⟨hmem, hawaited⟩ := List.mem_filter.mp hp
  exact h.awaited p hmem hawaited hpending

theorem Ticketed.tickets_lt {b : Backlog n} (h : b.Ticketed) : ∀ t ∈ b.tickets,
    t.2 < b.nextPrompt := by
  intro t ht
  rcases List.mem_append.mp ht with hprompt | hpending
  · obtain ⟨p, hp, rfl⟩ := List.mem_map.mp hprompt
    exact h.fresh p (List.mem_filter.mp hp).1
  · obtain ⟨c, hc, rfl⟩ := List.mem_map.mp hpending
    exact h.completed c hc

/-- Removing a prompt by its number removes it once. -/
theorem Ticketed.perm_prompts {b : Backlog n} (h : b.Ticketed) {p : OutstandingPrompt n}
    (hp : p ∈ b.prompts) :
    b.prompts.Perm (p :: b.prompts.filter fun p' => p'.no != p.no) := by
  have hnodup : b.prompts.Nodup := h.distinct.of_map
  have herase : (b.prompts.filter fun p' => p'.no != p.no) = b.prompts.erase p := by
    rw [hnodup.erase_eq_filter]
    refine List.filter_congr fun q hq => ?_
    by_cases hno : q.no = p.no
    · rw [h.unique hq hp hno, bne_self_eq_false, bne_self_eq_false]
    · have hne : q ≠ p := fun heq => hno (congrArg OutstandingPrompt.no heq)
      rw [bne_iff_ne.mpr hno, bne_iff_ne.mpr hne]
  rw [herase]
  exact List.perm_cons_erase hp

theorem filter_abandoned (ps : List (OutstandingPrompt n)) (no : Nat) :
    (ps.map fun p => if p.no = no then { p with awaited := false } else p).filter
        OutstandingPrompt.awaited =
      (ps.filter fun p => p.no != no).filter OutstandingPrompt.awaited := by
  induction ps with
  | nil => rfl
  | cons p ps ih =>
      by_cases hno : p.no = no
      · rw [List.map_cons, if_pos hno, List.filter_cons_of_neg (by simp), ih,
          List.filter_cons_of_neg (by simp [hno])]
      · have hkeep : (p :: ps).filter (fun p => p.no != no) =
            p :: ps.filter fun p => p.no != no := List.filter_cons_of_pos (by simp [hno])
        rw [List.map_cons, if_neg hno, hkeep, List.filter_cons, List.filter_cons, ih]

/-- The ticket of an awaited prompt becomes that of its completion. -/
theorem Ticketed.tickets_ended {b b' : Backlog n} (h : b.Ticketed) {p : OutstandingPrompt n}
    (hp : p ∈ b.prompts)
    (hprompts : b'.prompts.filter OutstandingPrompt.awaited =
      (b.prompts.filter fun p' => p'.no != p.no).filter OutstandingPrompt.awaited)
    (hpending : b'.pending.map PromptCompletion.ticket =
      b.pending.map PromptCompletion.ticket ++ if p.awaited then [p.ticket] else []) :
    b'.tickets.Perm b.tickets := by
  have hperm :=
    ((h.perm_prompts hp).filter OutstandingPrompt.awaited).map OutstandingPrompt.ticket
  unfold tickets
  rw [hprompts, hpending]
  cases hawaited : p.awaited with
  | false =>
      rw [List.filter_cons_of_neg (by simp [hawaited])] at hperm
      rw [if_neg Bool.false_ne_true, List.append_nil]
      exact hperm.symm.append_right _
  | true =>
      rw [List.filter_cons_of_pos hawaited, List.map_cons] at hperm
      rw [if_pos rfl]
      refine List.Perm.trans ?_ (hperm.symm.append_right _)
      rw [← List.append_assoc]
      exact List.perm_append_comm

/-- A new prompt that is awaited. -/
theorem tickets_addPrompt (b : Backlog n) {p : OutstandingPrompt n} (hawaited : p.awaited = true) :
    (b.addPrompt p).tickets.Perm (p.ticket :: b.tickets) := by
  unfold tickets
  rw [addPrompt_prompts, List.filter_append, List.filter_cons_of_pos hawaited, List.filter_nil,
    List.map_append]
  exact (List.perm_append_singleton _ _).append_right _

theorem tickets_unawaited (b : Backlog n) {p : OutstandingPrompt n}
    (hawaited : p.awaited = false) : (b.addPrompt p).tickets = b.tickets := by
  unfold tickets
  rw [addPrompt_prompts, List.filter_append, List.filter_cons_of_neg (by simp [hawaited]),
    List.filter_nil, List.append_nil]
  rfl

theorem Ticketed.tickets_endPrompt {b : Backlog n} (h : b.Ticketed) {p : OutstandingPrompt n}
    (hp : p ∈ b.prompts) {c : PromptCompletion} (hc : c.ticket = p.ticket) :
    (b.endPrompt p c).tickets.Perm b.tickets := by
  refine h.tickets_ended hp rfl ?_
  unfold pending
  rw [endPrompt_completions, endPrompt_completing]
  split
  · simp [hc]
  · simp

theorem Ticketed.tickets_abandon {b : Backlog n} (h : b.Ticketed) {p : OutstandingPrompt n}
    (hp : p ∈ b.prompts) (hawaited : p.awaited = true) {c : PromptCompletion}
    (hc : c.ticket = p.ticket) : (b.abandon p c).tickets.Perm b.tickets := by
  refine h.tickets_ended hp (filter_abandoned _ _) ?_
  unfold pending
  rw [abandon_completions, abandon_completing, if_pos hawaited]
  simp [hc]

/-- A completion is taken up. -/
theorem tickets_take {b : Backlog n} {c : PromptCompletion} {rest : List PromptCompletion}
    (hidle : b.completing = none) (hc : b.completions = c :: rest) :
    (b.complete (some c) rest).tickets = b.tickets := by
  unfold tickets pending
  rw [complete_completing, complete_completions, hidle, hc]
  rfl

/-- A completion is finished. -/
theorem tickets_complete {b : Backlog n} {c : PromptCompletion} (hc : b.completing = some c) :
    b.tickets.Perm (c.ticket :: (b.complete none b.completions).tickets) := by
  have hpending : b.pending = c :: b.completions := by
    rw [pending, hc]
    rfl
  unfold tickets
  rw [hpending]
  exact List.perm_middle

/-! ### The tickets of a key -/

theorem mem_flights {b : Backlog n} {k : SessionKey} {no : Nat} :
    no ∈ b.flights k ↔ (k, no) ∈ b.tickets := Mailbox.mem_forKey

theorem flights_perm {b : Backlog n} {ts : List (SessionKey × Nat)} (h : b.tickets.Perm ts)
    (k : SessionKey) : (b.flights k).Perm (Mailbox.forKey k ts) :=
  h.filterMap _

theorem forKey_cons_ticket (k : SessionKey) (t : SessionKey × Nat)
    (ts : List (SessionKey × Nat)) : Mailbox.forKey k (t :: ts) =
      if t.1 = k then t.2 :: Mailbox.forKey k ts else Mailbox.forKey k ts := by
  rw [← List.singleton_append, Mailbox.forKey_append]
  obtain ⟨k', no⟩ := t
  rw [Mailbox.forKey_singleton]
  split <;> rfl

theorem flights_addPrompt (b : Backlog n) {p : OutstandingPrompt n} (hawaited : p.awaited = true)
    (k : SessionKey) : ((b.addPrompt p).flights k).Perm
      (if p.sessionKey = k then p.no :: b.flights k else b.flights k) := by
  have hperm := flights_perm (b.tickets_addPrompt hawaited) k
  rw [forKey_cons_ticket] at hperm
  exact hperm

theorem flights_complete {b : Backlog n} {c : PromptCompletion} (hc : b.completing = some c)
    (k : SessionKey) : (b.flights k).Perm
      (if c.sessionKey = k then c.prompt :: (b.complete none b.completions).flights k
      else (b.complete none b.completions).flights k) := by
  have hperm := flights_perm (tickets_complete hc) k
  rw [forKey_cons_ticket] at hperm
  exact hperm

/-- Of a key with one flight at most, nothing is left when it has been completed. -/
theorem flights_completed {b : Backlog n} {c : PromptCompletion} (hc : b.completing = some c)
    (hone : (b.flights c.sessionKey).length ≤ 1) :
    b.flights c.sessionKey = [c.prompt] ∧
      (b.complete none b.completions).flights c.sessionKey = [] := by
  have hperm := flights_complete hc c.sessionKey
  rw [if_pos rfl] at hperm
  have hlength := hperm.length_eq
  rw [List.length_cons] at hlength
  have hnil : (b.complete none b.completions).flights c.sessionKey = [] :=
    List.length_eq_zero_iff.mp (by omega)
  rw [hnil] at hperm
  exact ⟨List.perm_singleton.mp hperm, hnil⟩

/-- A key is in flight if it has a ticket. -/
theorem inFlight_iff {b : Backlog n} {k : SessionKey} : b.InFlight k ↔ b.flights k ≠ [] := by
  have hexists : b.flights k ≠ [] ↔ ∃ no, (k, no) ∈ b.tickets := by
    constructor
    · intro hne
      obtain ⟨no, hno⟩ := List.exists_mem_of_ne_nil _ hne
      exact ⟨no, mem_flights.mp hno⟩
    · rintro ⟨no, hno⟩
      exact List.ne_nil_of_mem (mem_flights.mpr hno)
  rw [hexists]
  unfold InFlight tickets
  constructor
  · rintro (⟨p, hp, hkey, hawaited⟩ | ⟨c, hc, hkey⟩)
    · refine ⟨p.no, List.mem_append_left _ (List.mem_map.mpr ⟨p, ?_, Prod.ext hkey rfl⟩)⟩
      exact List.mem_filter.mpr ⟨hp, hawaited⟩
    · exact ⟨c.prompt, List.mem_append_right _ (List.mem_map.mpr ⟨c, hc, Prod.ext hkey rfl⟩)⟩
  · rintro ⟨no, hno⟩
    rcases List.mem_append.mp hno with hprompt | hpending
    · obtain ⟨p, hp, heq⟩ := List.mem_map.mp hprompt
      obtain ⟨hmem, hawaited⟩ := List.mem_filter.mp hp
      exact Or.inl ⟨p, hmem, congrArg Prod.fst heq, hawaited⟩
    · obtain ⟨c, hc, heq⟩ := List.mem_map.mp hpending
      exact Or.inr ⟨c, hc, congrArg Prod.fst heq⟩

end Backlog

namespace AgentsManager

def finishing (m : AgentsManager n) : Label n → Option PromptCompletion
  | .finishCompletion _ => m.completing
  | _ => none

theorem finishing_eq_none (m : AgentsManager n) {l : Label n} (h : l.finishes = false) :
    m.finishing l = none := by
  cases l with
  | finishCompletion a => cases h
  | _ => rfl

variable {cfg : AgentsManagerConfig n} {m m' : AgentsManager n} {l : Label n} {b : Backlog n}

theorem Talk.finishes (h : Talk cfg m l b) : l.finishes = false := by
  have hreceives : ∀ {a : Answers}, Receives l a → l.finishes = false := by
    rintro a (rfl | rfl) <;> rfl
  cases h with
  | forwarded hl _ _ _ _ => exact hreceives hl
  | malformed hl _ _ => exact hreceives hl
  | crashed hl _ _ => exact hreceives hl
  | aside hl _ => exact Label.finishes_of_speaks hl

theorem Ends.finishes {p : OutstandingPrompt n} {c : PromptCompletion} (h : Ends m l p c) :
    l.finishes = false := by
  cases h <;> rfl

/-- A step adds at most one ticket, under the next number, and takes away the one of the
    completion that it finishes. -/
theorem Effect.tickets (h : Effect cfg m l b) (hticketed : m.backlog.Ticketed) :
    ∃ new : List (SessionKey × Nat),
      (new = [] ∨ (∃ k, new = [(k, m.nextPrompt)]) ∧ b.nextPrompt = m.nextPrompt + 1) ∧
      m.nextPrompt ≤ b.nextPrompt ∧
      ((m.finishing l).toList.map PromptCompletion.ticket ++ b.tickets).Perm
        (new ++ m.backlog.tickets) := by
  have hkept : l.finishes = false → b.tickets.Perm m.backlog.tickets →
      b.nextPrompt = m.nextPrompt → ∃ new : List (SessionKey × Nat),
        (new = [] ∨ (∃ k, new = [(k, m.nextPrompt)]) ∧ b.nextPrompt = m.nextPrompt + 1) ∧
        m.nextPrompt ≤ b.nextPrompt ∧
        ((m.finishing l).toList.map PromptCompletion.ticket ++ b.tickets).Perm
          (new ++ m.backlog.tickets) := by
    intro hl htickets hnext
    refine ⟨[], Or.inl rfl, hnext.ge, ?_⟩
    rw [finishing_eq_none m hl]
    exact htickets
  have hfinishing : ∀ {c : PromptCompletion} {a : Answers}, m.completing = some c →
      (m.finishing (.finishCompletion a)).toList.map PromptCompletion.ticket = [c.ticket] := by
    intro c a hc
    rw [finishing, hc]
    rfl
  have hcomplete : ∀ {c : PromptCompletion}, m.completing = some c → m.backlog.tickets.Perm
      (c.ticket :: (m.backlog.complete none m.completions).tickets) :=
    fun hc => Backlog.tickets_complete (b := m.backlog) hc
  have hnew : ∀ {k : SessionKey} {p : OutstandingPrompt n}, NewPrompt m k p →
      p.ticket = (k, m.nextPrompt) := fun hp => Prod.ext hp.key hp.no
  cases h with
  | quiet hl => exact hkept hl (.refl _) rfl
  | talked htalk =>
      have hl := htalk.finishes
      obtain ⟨os, ks, rfl, _⟩ := htalk.talks
      exact hkept hl (.refl _) rfl
  | unqueued _ hawaited =>
      refine ⟨[], Or.inl rfl, Nat.le_succ _, ?_⟩
      rw [Backlog.tickets_unawaited m.backlog hawaited]
      exact .refl _
  | released _ => exact hkept rfl (.refl _) rfl
  | refused _ _ _ => exact hkept rfl (.refl _) rfl
  | queued _ _ => exact hkept rfl (.refl _) rfl
  | @dispatched _ k _ _ _ _ _ _ _ _ hp =>
      refine ⟨[(k, m.nextPrompt)], Or.inr ⟨⟨k, rfl⟩, rfl⟩, Nat.le_succ _, ?_⟩
      have hperm := Backlog.tickets_addPrompt m.backlog hp.awaited
      rw [hnew hp] at hperm
      exact hperm
  | rejected _ _ _ => exact hkept rfl (.refl _) rfl
  | ended hp hends =>
      exact hkept hends.finishes (hticketed.tickets_endPrompt hp hends.completes.ticket) rfl
  | abandoned hp hawaited => exact hkept rfl (hticketed.tickets_abandon hp hawaited rfl) rfl
  | taken hidle hc => exact hkept rfl (by rw [Backlog.tickets_take hidle hc]) rfl
  | finished hc _ _ =>
      refine ⟨[], Or.inl rfl, le_rfl, ?_⟩
      rw [hfinishing hc]
      exact (hcomplete hc).symm
  | @redispatched _ c _ _ _ hc _ _ _ hp =>
      refine ⟨[(c.sessionKey, m.nextPrompt)], Or.inr ⟨⟨_, rfl⟩, rfl⟩, Nat.le_succ _, ?_⟩
      rw [hfinishing hc]
      have hperm := Backlog.tickets_addPrompt (m.backlog.complete none m.completions) hp.awaited
      rw [hnew hp] at hperm
      refine (hperm.cons c.ticket).trans ?_
      exact (List.Perm.swap _ _ _).trans ((hcomplete hc).symm.cons _)
  | lost hc _ _ _ _ =>
      refine ⟨[], Or.inl rfl, le_rfl, ?_⟩
      rw [hfinishing hc]
      exact (hcomplete hc).symm

/-- Finishing a completion says the closing events, then what it dispatches. -/
theorem Effect.closes (h : Effect cfg m l b) {c : PromptCompletion}
    (hc : m.finishing l = some c) :
    ∃ d os, Closes c d ∧ b.messages = m.backlog.messages ++ m.told (m.closing c d) ++ os ∧
      ∀ o ∈ os, (∃ e, o = .event (.dispatchStarted e)) ∨
        ∃ p parts origin, o = .prompt p parts origin ∧ p.no = m.nextPrompt := by
  have hnone : l.finishes = false → False := by
    intro hl
    rw [finishing_eq_none m hl] at hc
    cases hc
  have hstarted : ∀ (k : SessionKey), ∀ o ∈ m.told [.dispatchStarted k],
      ∃ e, o = .event (.dispatchStarted e) := by
    intro k o ho
    obtain ⟨e, he, rfl⟩ := exists_of_mem_told ho
    exact ⟨k, by rw [List.mem_singleton.mp he]⟩
  cases h with
  | quiet hl => exact (hnone hl).elim
  | talked htalk => exact (hnone htalk.finishes).elim
  | ended _ hends => exact (hnone hends.finishes).elim
  | @finished _ c' d hc' hd _ =>
      rw [finishing, hc'] at hc
      cases hc
      exact ⟨d, [], hd, (List.append_nil _).symm, fun _ ho => nomatch ho⟩
  | @redispatched _ c' d p parts hc' hd _ _ hp =>
      rw [finishing, hc'] at hc
      cases hc
      refine ⟨d, m.told [.dispatchStarted c.sessionKey] ++ [.prompt p parts
        ((m.queue.queued c.sessionKey).flatMap RichPayload.origin)], hd, ?_, ?_⟩
      · exact List.append_assoc _ _ _
      · refine List.forall_mem_append.mpr ⟨fun o ho => Or.inl (hstarted _ o ho), ?_⟩
        exact List.forall_mem_singleton.mpr (Or.inr ⟨p, parts, _, rfl, hp.no⟩)
  | @lost _ c' d es hc' hd _ _ hes =>
      rw [finishing, hc'] at hc
      cases hc
      refine ⟨d, m.told es, hd, rfl, fun o ho => Or.inl ?_⟩
      rw [hes] at ho
      split at ho
      · exact hstarted _ o ho
      · rw [told_nil] at ho
        cases ho
  | _ => exact (hnone rfl).elim

end AgentsManager

end Anyclaw
