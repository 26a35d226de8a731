import Anyclaw.Agents.History
import Anyclaw.Agents.Processes

/-!
# The order of the agents' messages

All agents write into one queue, from which the run loop takes one message at a time.  So
what is taken from some step on is what was queued then, followed by what is queued from
then on; and an update is forwarded when it is taken or never.

The queue is `incoming_rx` of `crates/anyclaw-agents/src/manager.rs`; `forward_session_update`
(`incoming.rs`) forwards an update.
-/

namespace Anyclaw

variable {n : Nat}

def Output.update : Output n → Option SessionUpdate
  | .event (.deliverMessage _ (.update u)) => some u
  | _ => none

def SlotIncoming.update (msg : SlotIncoming n) : Option SessionUpdate :=
  match msg.msg with
  | some (.sessionUpdate u) => some u
  | _ => none

namespace AgentsManager

variable {cfg : AgentsManagerConfig n} {m m' : AgentsManager n} {l : Label n} {b : Backlog n}

/-! ### Taking and queueing -/

def dequeued (m : AgentsManager n) : Label n → Option (SlotIncoming n)
  | .recvIncoming _ => m.incoming.head?
  | .drainIncoming _ => m.incoming.head?
  | _ => none

def unread (m : AgentsManager n) : Label n → List (SlotIncoming n)
  | .recvIncoming _ => m.incoming.tail
  | .drainIncoming _ => m.incoming.tail
  | _ => m.incoming

theorem dequeued_unread (m : AgentsManager n) (l : Label n) :
    (m.dequeued l).toList ++ m.unread l = m.incoming := by
  have htail : m.incoming.head?.toList ++ m.incoming.tail = m.incoming := by
    cases m.incoming <;> rfl
  cases l with
  | recvIncoming a => exact htail
  | drainIncoming a => exact htail
  | _ => rfl

theorem dequeued_of_receives {a : Answers} {msg : SlotIncoming n} {rest : List (SlotIncoming n)}
    (hl : Receives l a) (hincoming : m.incoming = msg :: rest) :
    m.dequeued l = some msg ∧ m.unread l = rest := by
  rcases hl with rfl | rfl
  · rw [dequeued, unread, hincoming]
    exact ⟨rfl, rfl⟩
  · rw [dequeued, unread, hincoming]
    exact ⟨rfl, rfl⟩

inductive Arrivals (m : AgentsManager n) : Label n → List (SlotIncoming n) → Prop
  | updates {l : Label n} {msgs : List (SlotIncoming n)}
      (hmsgs : ∀ msg ∈ msgs, ∃ u, msg.msg = some (.sessionUpdate u)) : Arrivals m l msgs
  | message {s : Fin n} {msg : IncomingMessage} (hreader : (m.slots s).readerAlive = true) :
      Arrivals m (.incoming s msg) [⟨s, some msg⟩]
  | ended {s : Fin n} (hreader : (m.slots s).readerAlive = true) :
      Arrivals m (.eof s) [⟨s, none⟩]

theorem Appends.arrivals (h : Appends m m') :
    ∃ msgs, Arrivals m l msgs ∧ m'.incoming = m.incoming ++ msgs := by
  obtain ⟨msgs, heq, hmsgs⟩ := h
  exact ⟨msgs, .updates hmsgs, heq⟩

theorem ProcessStep.arrivals (h : ProcessStep cfg m l m') (hl : ∀ a, ¬ Receives l a) :
    ∃ msgs, Arrivals m l msgs ∧ m'.incoming = m.incoming ++ msgs := by
  have hsame : m'.incoming = m.incoming →
      ∃ msgs, Arrivals m l msgs ∧ m'.incoming = m.incoming ++ msgs :=
    fun heq => (Appends.of_eq heq).arrivals
  cases h with
  | steady _ hlinked _ => exact hlinked.incoming.arrivals
  | unqueued hlinked _ _ _ _ _ _ => exact hlinked.incoming.arrivals
  | permissionAnswered => exact (respondPermission_calm m _ _).linked.incoming.arrivals
  | queued hreader => exact ⟨_, .message hreader, rfl⟩
  | ended hreader => exact ⟨_, .ended hreader, rfl⟩
  | heard hreceives _ => exact absurd hreceives (hl _)
  | skipped _ _ => exact absurd (Or.inl rfl) (hl _)
  | crashed hreceives _ _ => exact absurd hreceives (hl _)
  | _ => exact hsame rfl

/-- **Messages are taken from the front and queued at the end.** -/
theorem step_arrivals (hplain : m.backlog.Plain) (hstep : step cfg m l = some m') :
    ∃ msgs, Arrivals m l msgs ∧ m'.incoming = m.unread l ++ msgs := by
  have hreceived : ∀ {msg : SlotIncoming n} {rest : List (SlotIncoming n)} {a : Answers},
      Receives l a → m.incoming = msg :: rest →
      ∃ msgs, Arrivals m l msgs ∧
        (handleSlotIncoming cfg { m with incoming := rest } msg a).incoming =
          m.unread l ++ msgs := by
    intro msg rest a hl hincoming
    rw [(dequeued_of_receives hl hincoming).2]
    obtain ⟨s, message⟩ := msg
    have hhandled : Appends { m with incoming := rest }
        (handleSlotIncoming cfg { m with incoming := rest } ⟨s, message⟩ a) := by
      unfold handleSlotIncoming
      cases message with
      | none => exact (handleCrash_process cfg { m with incoming := rest } s a).incoming
      | some message =>
          exact (handleIncoming_calm { m with incoming := rest } s message).linked.incoming
    obtain ⟨msgs, heq, hmsgs⟩ := hhandled
    exact ⟨msgs, .updates hmsgs, heq⟩
  have hother := (step_processes hplain hstep).arrivals
  cases turn_of_step cfg m hstep with
  | recvIncoming _ hincoming _ => exact hreceived (Or.inl rfl) hincoming
  | recvDisabled _ hincoming _ _ =>
      rw [(dequeued_of_receives (Or.inl rfl) hincoming).2]
      exact ⟨[], .updates (fun _ hmsg => nomatch hmsg), (List.append_nil _).symm⟩
  | drainIncoming _ hincoming => exact hreceived (Or.inr rfl) hincoming
  | _ => exact hother fun a h => by rcases h with h | h <;> cases h

/-! ### Forwarding -/

def forwarded (m m' : AgentsManager n) : List SessionUpdate :=
  (m'.trace.drop m.trace.length).filterMap Output.update

theorem update_told (m : AgentsManager n) {es : List ChannelEvent}
    (hes : ∀ e ∈ es, (Output.event e : Output n).update = none) :
    (m.told es).filterMap Output.update = [] := by
  refine List.filterMap_eq_nil_iff.mpr fun o ho => ?_
  obtain ⟨e, he, rfl⟩ := exists_of_mem_told ho
  exact hes e he

theorem update_aside {os : List (Output n)} (hos : ∀ o ∈ os, o.isAside = true) :
    os.filterMap Output.update = [] := by
  refine List.filterMap_eq_nil_iff.mpr fun o ho => ?_
  have haside := hos o ho
  cases o with
  | event e =>
      cases e with
      | deliverMessage k d =>
          cases d with
          | update u => cases haside
          | _ => rfl
      | _ => rfl
  | _ => rfl

/-- The next message is an update of a session that has an owner and is not marked. -/
def Shows (m : AgentsManager n) (u : SessionUpdate) : Prop :=
  ∃ s rest, m.incoming = ⟨s, some (.sessionUpdate u)⟩ :: rest ∧
    u.sessionId ∉ (m.slots s).awaitingFirstPrompt ∧
      (m.slots s).reverseMap.get? u.sessionId ≠ none

theorem Talk.updates (h : Talk cfg m l b) : ∃ us : List SessionUpdate,
    us.Sublist ((m.dequeued l).toList.filterMap SlotIncoming.update) ∧ (∀ u ∈ us, m.Shows u) ∧
      b.messages.filterMap Output.update = m.backlog.messages.filterMap Output.update ++ us := by
  have hnone : ∀ {os : List (Output n)}, os.filterMap Output.update = [] →
      ∃ us : List SessionUpdate,
        us.Sublist ((m.dequeued l).toList.filterMap SlotIncoming.update) ∧
          (∀ u ∈ us, m.Shows u) ∧ (m.backlog.messages ++ os).filterMap Output.update =
            m.backlog.messages.filterMap Output.update ++ us :=
    fun hos => ⟨[], List.nil_sublist _, List.forall_mem_nil _, by
      rw [List.filterMap_append, hos]⟩
  cases h with
  | @forwarded a s u rest k hl hincoming hawait hroute _ =>
      refine ⟨[u], ?_, List.forall_mem_singleton.mpr ⟨s, rest, hincoming, hawait, ?_⟩,
        List.filterMap_append⟩
      · rw [(dequeued_of_receives hl hincoming).1]
        exact List.Sublist.refl _
      · rw [hroute]
        exact Option.some_ne_none k
  | malformed _ _ _ => exact hnone (update_told m (List.forall_mem_singleton.mpr rfl))
  | crashed _ _ _ =>
      refine hnone (List.filterMap_eq_nil_iff.mpr fun o ho => ?_)
      rcases mem_crashOutputs ho with ⟨e, he, rfl⟩ | rfl
      · obtain ⟨_, _, _, _, rfl⟩ := mem_crashNotices he
        rfl
      · rfl
  | aside _ hos => exact hnone (update_aside hos)

/-- A step forwards the update that it takes, or none. -/
theorem Effect.updates (h : Effect cfg m l b) : ∃ us : List SessionUpdate,
    us.Sublist ((m.dequeued l).toList.filterMap SlotIncoming.update) ∧ (∀ u ∈ us, m.Shows u) ∧
      b.messages.filterMap Output.update = m.backlog.messages.filterMap Output.update ++ us := by
  have hnone : b.messages.filterMap Output.update = m.backlog.messages.filterMap Output.update →
      ∃ us : List SessionUpdate,
        us.Sublist ((m.dequeued l).toList.filterMap SlotIncoming.update) ∧
          (∀ u ∈ us, m.Shows u) ∧ b.messages.filterMap Output.update =
            m.backlog.messages.filterMap Output.update ++ us :=
    fun hsame => ⟨[], List.nil_sublist _, List.forall_mem_nil _, by rw [hsame, List.append_nil]⟩
  have hstarted : ∀ k, (m.told [.dispatchStarted k]).filterMap Output.update = [] :=
    fun k => update_told m (List.forall_mem_singleton.mpr rfl)
  have hclosing : ∀ {c : PromptCompletion} {d : Anyclaw.Delivered}, Closes c d →
      (m.told (m.closing c d)).filterMap Output.update = [] := by
    intro c d hd
    refine update_told m (List.forall_mem_append.mpr ⟨?_, List.forall_mem_singleton.mpr rfl⟩)
    split
    · exact fun _ he => nomatch he
    · unfold Closes at hd
      split at hd
      · rw [hd]
        exact List.forall_mem_singleton.mpr rfl
      · obtain ⟨id, rfl⟩ := hd
        exact List.forall_mem_singleton.mpr rfl
  cases h with
  | talked htalk => exact htalk.updates
  | released _ =>
      refine hnone ?_
      rw [Backlog.release_messages, Backlog.sayAll_messages, List.filterMap_append,
        update_told m, List.append_nil]
      simp [syntheticChunk, Output.update]
  | refused _ _ _ =>
      refine hnone ?_
      rw [Backlog.sayAll_messages, List.filterMap_append, update_told m, List.append_nil]
      simp [syntheticResponse, syntheticChunk, Output.update]
  | queued _ _ => exact hnone (by simp [Output.update, List.filterMap_append])
  | dispatched _ _ _ _ => exact hnone (by simp [hstarted, Output.update, List.filterMap_append])
  | rejected _ _ _ => exact hnone (by simp [hstarted, Output.update, List.filterMap_append])
  | finished _ hd _ => exact hnone (by simp [reported, hclosing hd, List.filterMap_append])
  | redispatched _ hd _ _ _ =>
      exact hnone (by simp [reported, hclosing hd, hstarted, Output.update, List.filterMap_append])
  | @lost _ c d es _ hd _ _ hes =>
      have hannounced : (m.told es).filterMap Output.update = [] := by
        rw [hes]
        split
        · exact hstarted _
        · rw [told_nil]
          rfl
      exact hnone (by simp [reported, hclosing hd, hannounced, List.filterMap_append])
  | _ => exact hnone rfl

theorem update_of_not_isMessage (o : Output n) (h : o.isMessage = false) : o.update = none := by
  cases o with
  | event e => cases h
  | _ => rfl

/-- A step shows no update, or one that the next message shows. -/
theorem step_shows (hplain : m.backlog.Plain) (hstep : step cfg m l = some m') :
    ∀ u ∈ m'.trace.filterMap Output.update, u ∈ m.trace.filterMap Output.update ∨ m.Shows u := by
  obtain ⟨us, _, hshows, hmessages⟩ := (step_advances hplain hstep).effect.updates
  rw [filterMap_messages m' update_of_not_isMessage,
    filterMap_messages m update_of_not_isMessage] at hmessages
  rw [hmessages]
  intro u hu
  exact (List.mem_append.mp hu).imp_right (hshows u)

/-! ### Runs -/

def arrived (t : Machine.Taken (AgentsManager n) (Label n)) : List (SlotIncoming n) :=
  t.after.incoming.drop (t.before.unread t.label).length

def shown (t : Machine.Taken (AgentsManager n) (Label n)) : List SessionUpdate :=
  forwarded t.before t.after

def handled (t : Machine.Taken (AgentsManager n) (Label n)) : Option (SlotIncoming n) :=
  t.before.dequeued t.label

/-- What waited before a step or arrived from then on is handled in this order, or waits. -/
theorem arrived_handled {x : History n} (h : (life cfg).recorded.Reachable x) :
    ∀ steps₁ t steps₂, x.1 = steps₁ ++ t :: steps₂ →
      t.before.incoming ++ (t :: steps₂).flatMap arrived =
        (t :: steps₂).filterMap handled ++ x.2.incoming := by
  refine h.invariant (I := fun x => ∀ steps₁ t steps₂, x.1 = steps₁ ++ t :: steps₂ →
    t.before.incoming ++ (t :: steps₂).flatMap arrived =
      (t :: steps₂).filterMap handled ++ x.2.incoming) ?_ ?_
  · rintro x ⟨hnil, _⟩ steps₁ t steps₂ hx
    rw [hnil] at hx
    exact absurd hx.symm (List.append_ne_nil_of_right_ne_nil _ (List.cons_ne_nil _ _))
  · intro x l x' hreach hI _ hstep steps₁ t steps₂ hx
    obtain ⟨hs, hsteps⟩ := Machine.of_recorded_step hstep
    have horderly := orderly_of_reachable (hreach.of_recorded fun _ _ _ => trivial)
    obtain ⟨msgs, _, hincoming⟩ := step_arrivals horderly.plain hs
    have harrived : arrived ⟨x.2, l, x'.2⟩ = msgs := by
      unfold arrived
      dsimp only
      rw [hincoming, List.drop_left]
    have hlast : x.2.incoming ++ msgs = (x.2.dequeued l).toList ++ x'.2.incoming := by
      rw [hincoming, ← List.append_assoc, dequeued_unread]
    have hhandled : [(⟨x.2, l, x'.2⟩ : Machine.Taken (AgentsManager n) (Label n))].filterMap
        handled = (x.2.dequeued l).toList := by
      unfold handled
      cases hd : x.2.dequeued l <;> simp [hd]
    rw [hsteps] at hx
    rcases List.eq_nil_or_concat steps₂ with rfl | ⟨steps, t', rfl⟩
    · -- the step itself
      obtain ⟨_, ht⟩ := List.append_inj' hx rfl
      obtain rfl := List.singleton_inj.mp ht
      rw [hhandled, List.flatMap_singleton, harrived]
      exact hlast
    · -- an earlier one
      rw [List.concat_eq_append, ← List.cons_append, ← List.append_assoc] at hx
      obtain ⟨hsteps', ht⟩ := List.append_inj' hx rfl
      obtain rfl := List.singleton_inj.mp ht
      have ih := hI steps₁ t steps hsteps'
      rw [List.concat_eq_append, ← List.cons_append, List.flatMap_append, List.filterMap_append,
        ← List.append_assoc, ih, List.flatMap_singleton, harrived, hhandled, List.append_assoc,
        hlast, List.append_assoc]

/-- A step shows the update that it has taken, or none. -/
theorem shown_sublist {x : History n} (h : (life cfg).recorded.Reachable x) :
    ∀ t ∈ x.1, (shown t).Sublist ((handled t).toList.filterMap SlotIncoming.update) := by
  refine h.recorded_steps (P := fun _ t =>
    (shown t).Sublist ((handled t).toList.filterMap SlotIncoming.update)) ?_ ?_
  · intro x l x' hreach _ hstep
    obtain ⟨hs, _⟩ := Machine.of_recorded_step hstep
    have horderly := orderly_of_reachable (hreach.of_recorded fun _ _ _ => trivial)
    have hadvances := step_advances horderly.plain hs
    obtain ⟨us, hus, _, hmessages⟩ := hadvances.effect.updates
    obtain ⟨os, hos⟩ := hadvances.trace
    rw [filterMap_messages x'.2 update_of_not_isMessage,
      filterMap_messages x.2 update_of_not_isMessage, ← hos,
      List.filterMap_append] at hmessages
    have hshown : shown ⟨x.2, l, x'.2⟩ = us := by
      unfold shown forwarded
      dsimp only
      rw [← hos, List.drop_left]
      exact List.append_cancel_left hmessages
    rw [hshown]
    exact hus
  · exact fun _ _ _ _ _ _ ht _ _ => ht

/-- When nothing waits before a step, only what arrives from then on is shown from then on. -/
theorem shown_sublist_arrived {x : History n} (h : (life cfg).recorded.Reachable x)
    {steps₁ steps₂ : List (Machine.Taken (AgentsManager n) (Label n))}
    {t : Machine.Taken (AgentsManager n) (Label n)} (hx : x.1 = steps₁ ++ t :: steps₂)
    (hempty : t.before.incoming = []) :
    ((t :: steps₂).flatMap shown).Sublist
      (((t :: steps₂).flatMap arrived).filterMap SlotIncoming.update) := by
  have horder := arrived_handled h steps₁ t steps₂ hx
  rw [hempty, List.nil_append] at horder
  have hsteps : ∀ steps : List (Machine.Taken (AgentsManager n) (Label n)),
      (∀ t ∈ steps, (shown t).Sublist ((handled t).toList.filterMap SlotIncoming.update)) →
      (steps.flatMap shown).Sublist
        ((steps.filterMap handled).filterMap SlotIncoming.update) := by
    intro steps hshown
    induction steps with
    | nil => exact List.Sublist.refl _
    | cons t steps ih =>
        have hhead := hshown t List.mem_cons_self
        have htail := ih fun t' ht' => hshown t' (List.mem_cons_of_mem t ht')
        have hcons : (t :: steps).filterMap handled =
            (handled t).toList ++ steps.filterMap handled := by
          cases hd : handled t <;> simp [hd]
        rw [List.flatMap_cons, hcons, List.filterMap_append]
        exact hhead.append htail
  have hshown := hsteps (t :: steps₂) fun t' ht' =>
    shown_sublist h t' (hx ▸ List.mem_append_right steps₁ ht')
  rw [horder, List.filterMap_append]
  exact hshown.trans (List.sublist_append_left _ _)

end AgentsManager

end Anyclaw
