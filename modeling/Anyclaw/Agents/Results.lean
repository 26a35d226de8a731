import Anyclaw.Agents.Retries
import Anyclaw.Agents.Tickets
import Anyclaw.Agents.UpdateOrder

/-!
# One result for each prompt

A channel ends a turn when it gets a result.  The result of a prompt is the one that the
agent sent and the manager forwarded, or else one that the completion makes; the flag
`streaming_completed` says which.  The flag belongs to the key and not to the prompt, and
other results are sent past it: for malformed updates, for crashes and for a refused
`/cancel`.

Results are sent by `forward_session_update`, `forward_malformed_update_error` and
`handle_prompt_completion` (`crates/anyclaw-agents/src/incoming.rs`),
`notify_crash_to_channels` (`session_recovery.rs`) and `send_synthetic_response`
(`commands.rs`).
-/

namespace Anyclaw

variable {n : Nat}

def Output.isResultFor (k : SessionKey) : Output n → Bool
  | .event (.deliverMessage k' d) => decide (k' = k) && d.isResult
  | _ => false

def Output.isPromptNo (no : Nat) : Output n → Bool
  | .prompt p _ _ => p.no == no
  | _ => false

/-- Count the results for `k` from the dispatch of the prompt `no` on. -/
def countResult (no : Nat) (k : SessionKey) (count : Option Nat) (o : Output n) : Option Nat :=
  if o.isPromptNo no then some 0
  else if o.isResultFor k then count.map (· + 1)
  else count

/-- The number of results for `k` since the prompt `no` was dispatched. -/
def resultsSince (no : Nat) (k : SessionKey) (trace : List (Output n)) : Option Nat :=
  trace.foldl (countResult no k) none

section Count

variable {no : Nat} {k : SessionKey}

theorem resultsSince_append (trace os : List (Output n)) :
    resultsSince no k (trace ++ os) = os.foldl (countResult no k) (resultsSince no k trace) :=
  List.foldl_append

/-- Outputs that do not dispatch the prompt add their results. -/
theorem foldl_countResult (c : Nat) :
    ∀ (os : List (Output n)), (∀ o ∈ os, o.isPromptNo no = false) →
      os.foldl (countResult no k) (some c) = some (c + os.countP (Output.isResultFor k))
  | [], _ => rfl
  | o :: os, hos => by
      have hrest := fun o' ho' => hos o' (List.mem_cons_of_mem o ho')
      have hone : countResult no k (some c) o =
          some (c + if o.isResultFor k = true then 1 else 0) := by
        unfold countResult
        rw [hos o List.mem_cons_self, if_neg Bool.false_ne_true]
        split <;> rfl
      have ih := foldl_countResult (c + if o.isResultFor k = true then 1 else 0) os hrest
      rw [List.foldl_cons, hone, ih, List.countP_cons]
      congr 1
      omega

theorem resultsSince_said {trace os : List (Output n)} {c : Nat}
    (h : resultsSince no k trace = some c) (hos : ∀ o ∈ os, o.isPromptNo no = false) :
    resultsSince no k (trace ++ os) = some (c + os.countP (Output.isResultFor k)) := by
  rw [resultsSince_append, h, foldl_countResult c os hos]

/-- The count begins with the dispatch. -/
theorem resultsSince_dispatched (trace : List (Output n)) {p : OutstandingPrompt n}
    {parts : List ContentPart} {origin : List MessageNo} (hno : p.no = no) :
    resultsSince no k (trace ++ [.prompt p parts origin]) = some 0 := by
  rw [resultsSince_append]
  unfold countResult
  simp [Output.isPromptNo, hno]

end Count

namespace AgentsManager

variable {cfg : AgentsManagerConfig n} {m m' : AgentsManager n} {l : Label n} {b : Backlog n}

theorem resultsSince_messages (m : AgentsManager n) (no : Nat) (k : SessionKey) :
    resultsSince no k m.backlog.messages = resultsSince no k m.trace := by
  unfold resultsSince
  rw [backlog_messages, List.foldl_filter]
  congr 1
  funext count o
  split
  · rfl
  · rename_i ho
    cases o with
    | event e => exact absurd rfl ho
    | prompt p parts origin => exact absurd rfl ho
    | _ => rfl

/-! ### The condition -/

/-- A result that the agent sends is the first one of a prompt of its key that is in flight;
    a malformed update belongs to no prompt in flight. -/
def UpdateFits (m : AgentsManager n) (msg : SlotIncoming n) : Prop :=
  match msg.msg with
  | some (.sessionUpdate u) =>
      u.update.isResult = true → u.sessionId ∉ (m.slots msg.slotIdx).awaitingFirstPrompt →
        ∀ k ∈ (m.slots msg.slotIdx).reverseMap.get? u.sessionId,
          m.backlog.InFlight k ∧ k ∉ m.streamingCompleted
  | some (.malformedUpdate sessionId _) =>
      ∀ k ∈ sessionId.bind (m.slots msg.slotIdx).reverseMap.get?, ¬ m.backlog.InFlight k
  | _ => True

instance (m : AgentsManager n) (msg : SlotIncoming n) : Decidable (UpdateFits m msg) := by
  unfold UpdateFits
  split <;> infer_instance

/-- With a channels manager connected: messages of the agents are as in `UpdateFits`, a
    crash notice goes to a key with nothing in flight, `/cancel` is refused only for such a
    key, and a plain message for an idle key finds nothing of the key in flight. -/
def KeepsResults (cfg : AgentsManagerConfig n) (m : AgentsManager n) (l : Label n) : Prop :=
  m.channelsSender = true →
    (∀ msg ∈ m.dequeued l, UpdateFits m msg) ∧
      (∀ x ∈ m.crash l, m.Restarts x.1 x.2 → ∀ e ∈ (m.slots x.1).sessionMap.entries,
        (m.slots x.1).activePrompts.contains e.2 = false → ¬ m.backlog.InFlight e.1) ∧
      match l with
      | .command (.enqueueMessage name k content _) a =>
          (platformCommandOf content = some .cancel →
            (∃ s ∈ findSlotByName cfg name, ¬ (m.slots s).CanCancel k a) →
              ¬ m.backlog.InFlight k) ∧
            (IsPlain content → k ∉ m.queue.active → ¬ m.backlog.InFlight k)
      | _ => True

instance (cfg : AgentsManagerConfig n) (m : AgentsManager n) (l : Label n) :
    Decidable (KeepsResults cfg m l) := by
  unfold KeepsResults
  refine @instDecidableForall _ _ inferInstance (@instDecidableAnd _ _ inferInstance
    (@instDecidableAnd _ _ inferInstance ?_))
  induction l using Label.casesOn with
  | command c _ => induction c using AgentsCommand.casesOn <;> dsimp only <;> infer_instance
  | _ =>
      dsimp only
      infer_instance

/-! ### Runs -/

/-- One prompt of `k` is in flight at most; it has had a result exactly if the flag is set. -/
structure Counted (b : Backlog n) (k : SessionKey) : Prop where
  one : (b.flights k).length ≤ 1
  none : b.flights k = [] → k ∉ b.streaming
  some : ∀ no ∈ b.flights k,
    resultsSince no k b.messages = some (if k ∈ b.streaming then 1 else 0)

theorem isPromptNo_talk {o : Output n} (h : o.isTalk = true) (no : Nat) :
    o.isPromptNo no = false := by
  cases o with
  | prompt p parts origin => cases h
  | _ => rfl

section Counted

variable {b' : Backlog n} {k : SessionKey}

/-- What is in flight has got the results that are flagged. -/
theorem Counted.said (h : Counted b k) {os : List (Output n)}
    (hflights : (b'.flights k).Perm (b.flights k)) (hsaid : b'.messages = b.messages ++ os)
    (hnos : ∀ no ∈ b.flights k, ∀ o ∈ os, o.isPromptNo no = false)
    (hnone : b.flights k = [] → k ∉ b'.streaming)
    (hcount : b.flights k ≠ [] → (if k ∈ b.streaming then 1 else 0) +
      os.countP (Output.isResultFor k) = if k ∈ b'.streaming then 1 else 0) :
    Counted b' k where
  one := by
    rw [hflights.length_eq]
    exact h.one
  none := fun hnil => hnone (hnil ▸ hflights).symm.eq_nil
  some := by
    intro no hno
    have hno := hflights.subset hno
    rw [hsaid, resultsSince_said (h.some no hno) (hnos no hno),
      hcount (List.ne_nil_of_mem hno)]

/-- Nothing of the key is in flight any more. -/
theorem Counted.landed (hnil : b'.flights k = []) (hflag : k ∉ b'.streaming) :
    Counted b' k where
  one := by
    rw [hnil]
    exact Nat.zero_le 1
  none := fun _ => hflag
  some := by
    rw [hnil]
    exact fun _ h => nomatch h

/-- A prompt of the key has just been handed over. -/
theorem Counted.started (msgs os : List (Output n)) {p : OutstandingPrompt n}
    {parts : List ContentPart} {origin : List MessageNo} (hone : b'.flights k = [p.no])
    (hsaid : b'.messages = msgs ++ [.prompt p parts origin] ++ os)
    (hnos : ∀ o ∈ os, o.isPromptNo p.no = false ∧ o.isResultFor k = false)
    (hflag : k ∉ b'.streaming) : Counted b' k where
  one := by
    rw [hone]
    exact le_rfl
  none := fun _ => hflag
  some := by
    intro no hno
    rw [hone, List.mem_singleton] at hno
    subst hno
    rw [hsaid, resultsSince_said (resultsSince_dispatched msgs rfl) fun o ho => (hnos o ho).1,
      if_neg hflag, List.countP_eq_zero.mpr fun o ho => by simp [(hnos o ho).2]]

end Counted

theorem isResultFor_told (m : AgentsManager n) (k : SessionKey) {es : List ChannelEvent}
    (hes : ∀ e ∈ es, (Output.event e : Output n).isResultFor k = false) :
    (m.told es).countP (Output.isResultFor k) = 0 := by
  refine List.countP_eq_zero.mpr fun o ho => ?_
  obtain ⟨e, he, rfl⟩ := exists_of_mem_told ho
  rw [hes e he]
  exact Bool.false_ne_true

theorem isResultFor_of_ne {k k' : SessionKey} (hk : k' ≠ k) (d : Anyclaw.Delivered) :
    (Output.event (.deliverMessage k' d) : Output n).isResultFor k = false := by
  simp [Output.isResultFor, hk]

/-- What closes a prompt is a result. -/
theorem Closes.isResult {c : PromptCompletion} {d : Anyclaw.Delivered} (h : Closes c d) :
    d.isResult = true := by
  unfold Closes at h
  split at h
  · rw [h]
    rfl
  · obtain ⟨id, rfl⟩ := h
    rfl

/-- A completion gives its key the result that was not forwarded. -/
theorem countP_closing {c : PromptCompletion} {d : Anyclaw.Delivered}
    (hsender : m.channelsSender = true) (hd : Closes c d) (k : SessionKey) :
    (m.told (m.closing c d)).countP (Output.isResultFor k) =
      if c.sessionKey = k then if k ∈ m.streamingCompleted then 0 else 1 else 0 := by
  unfold told closing
  rw [if_pos hsender, List.map_append, List.countP_append]
  have hcomplete : ([ChannelEvent.sessionComplete c.sessionKey c.stopReason].map
      (Output.event : _ → Output n)).countP (Output.isResultFor k) = 0 := rfl
  rw [hcomplete, Nat.add_zero]
  by_cases hk : c.sessionKey = k
  · subst hk
    rw [if_pos rfl]
    split
    · rfl
    · simp [Output.isResultFor, hd.isResult]
  · rw [if_neg hk]
    split
    · rfl
    · simp [isResultFor_of_ne hk]

/-- Talk forwards a result for a prompt in flight once, and flags it. -/
theorem Talk.counted (h : Talk cfg m l b) (hguard : KeepsResults cfg m l)
    (hsender : m.channelsSender = true) (k : SessionKey) (hcounted : Counted m.backlog k) :
    Counted b k := by
  have hguard := hguard hsender
  have hsaid : ∀ {os : List (Output n)} (ks : Finset SessionKey),
      (∀ o ∈ os, o.isTalk = true) → (m.backlog.flights k = [] → k ∉ ks) →
      (m.backlog.flights k ≠ [] → (if k ∈ m.streamingCompleted then 1 else 0) +
        os.countP (Output.isResultFor k) = if k ∈ ks then 1 else 0) →
      Counted ((m.backlog.sayAll os).withStreaming ks) k :=
    fun _ hos hnone hcount =>
      hcounted.said (.refl _) rfl (fun no _ o ho => isPromptNo_talk (hos o ho) no) hnone hcount
  have hquiet : ∀ {os : List (Output n)}, (∀ o ∈ os, o.isTalk = true) →
      (m.backlog.flights k ≠ [] → os.countP (Output.isResultFor k) = 0) →
      Counted (m.backlog.sayAll os) k := by
    intro os hos hcount
    refine hsaid m.streamingCompleted hos hcounted.none fun hne => ?_
    rw [hcount hne, Nat.add_zero]
  cases h with
  | @forwarded a s u rest k' hl hincoming hawait hroute _ =>
      have hfits := hguard.1 _ (dequeued_of_receives hl hincoming).1
      refine hsaid _ (List.forall_mem_singleton.mpr rfl) ?_ ?_
      · intro hnil
        by_cases hresult : u.update.isResult = true
        · rw [if_pos hresult, Finset.mem_insert]
          rintro (rfl | hmem)
          · exact Backlog.inFlight_iff.mp (hfits hresult hawait k hroute).1 hnil
          · exact hcounted.none hnil hmem
        · rw [if_neg hresult]
          exact hcounted.none hnil
      · intro _
        by_cases hk : k' = k
        · subst hk
          by_cases hresult : u.update.isResult = true
          · have hflag := (hfits hresult hawait k' hroute).2
            simp [Output.isResultFor, Delivered.isResult, hresult, hflag]
          · rw [if_neg hresult]
            simp [Output.isResultFor, Delivered.isResult, hresult]
        · have hcount : ([.event (.deliverMessage k' (.update u))] : List (Output n)).countP
              (Output.isResultFor k) = 0 := by
            simp [isResultFor_of_ne hk]
          have hflag : (k ∈ if u.update.isResult = true then insert k' m.streamingCompleted
              else m.streamingCompleted) ↔ k ∈ m.streamingCompleted := by
            split
            · simp [Ne.symm hk]
            · exact Iff.rfl
          rw [hcount, Nat.add_zero]
          exact if_congr hflag.symm rfl rfl
  | @malformed a s sessionId error rest k' hl hincoming hroute =>
      have hfits := hguard.1 _ (dequeued_of_receives hl hincoming).1
      refine hquiet (isTalk_told m _) fun hne => ?_
      have hk : k' ≠ k := by
        rintro rfl
        exact hfits k' hroute (Backlog.inFlight_iff.mpr hne)
      exact isResultFor_told m k (List.forall_mem_singleton.mpr (isResultFor_of_ne hk _))
  | @crashed a s rest hl hincoming henabled =>
      refine hquiet (isTalk_crashOutputs cfg m s a) fun hne => ?_
      refine List.countP_eq_zero.mpr fun o ho => Bool.eq_false_iff.mp ?_
      have hrestarts : m.Restarts s a := by
        by_contra hnot
        unfold crashOutputs at ho
        rw [if_neg hnot] at ho
        cases ho
      rcases mem_crashOutputs ho with ⟨e, he, rfl⟩ | rfl
      · obtain ⟨k', id, hid, hidle, rfl⟩ := mem_crashNotices he
        refine isResultFor_of_ne ?_ _
        rintro rfl
        exact hguard.2.1 (s, a) (crash_of_receives hl hincoming henabled) hrestarts ⟨k', id⟩
          (AList.mem_lookup_iff.mp hid) hidle (Backlog.inFlight_iff.mpr hne)
      · rfl
  | aside hl hos =>
      refine hquiet (fun o ho => isTalk_of_isAside (hos o ho)) fun _ => ?_
      refine List.countP_eq_zero.mpr fun o ho => Bool.eq_false_iff.mp ?_
      have haside := hos o ho
      cases o with
      | event e =>
          cases e with
          | deliverMessage k' d =>
              cases d with
              | pushed u => exact Bool.and_false _
              | _ => cases haside
          | _ => rfl
      | _ => rfl

theorem Effect.counted (h : Effect cfg m l b) (hticketed : m.backlog.Ticketed)
    (hguard : KeepsResults cfg m l) (hsender : m.channelsSender = true) (k : SessionKey)
    (hcounted : Counted m.backlog k) : Counted b k := by
  have hnew : ∀ {no : Nat} {k' : SessionKey} {p : OutstandingPrompt n} {parts : List ContentPart}
      {origin : List MessageNo}, no ∈ m.backlog.flights k → NewPrompt m k' p →
      (Output.prompt p parts origin).isPromptNo no = false := by
    intro no k' p parts origin hno hp
    have hlt : no < m.nextPrompt := hticketed.tickets_lt _ (Backlog.mem_flights.mp hno)
    have hne : p.no ≠ no := by
      rw [hp.no]
      exact Nat.ne_of_gt hlt
    exact beq_eq_false_iff_ne.mpr hne
  have htold : ∀ {es : List ChannelEvent} (no : Nat), ∀ o ∈ m.told es, o.isPromptNo no = false :=
    fun no o ho => isPromptNo_talk (isTalk_told m _ o ho) no
  -- what is said to a key with a prompt in flight is no result
  have hkept : ∀ {b' : Backlog n} (os : List (Output n)), b'.tickets.Perm m.backlog.tickets →
      b'.messages = m.backlog.messages ++ os → b'.streaming = m.streamingCompleted →
      (∀ no, ∀ o ∈ os, o.isPromptNo no = false) →
      (m.backlog.flights k ≠ [] → os.countP (Output.isResultFor k) = 0) → Counted b' k := by
    intro b' os htickets hsaid hflag hnos hcount
    refine hcounted.said (Backlog.flights_perm htickets k) hsaid (fun no _ => hnos no) ?_ ?_
    · rw [hflag]
      exact hcounted.none
    · intro hne
      rw [hcount hne, hflag]
      rfl
  have hsame : ∀ {b' : Backlog n}, b'.tickets.Perm m.backlog.tickets →
      b'.messages = m.backlog.messages → b'.streaming = m.streamingCompleted → Counted b' k :=
    fun htickets hsaid hflag => hkept [] htickets (by rw [hsaid, List.append_nil]) hflag
      (fun _ _ ho => nomatch ho) fun _ => rfl
  -- another key
  have hapart : ∀ {b' : Backlog n} (os : List (Output n)),
      (b'.flights k).Perm (m.backlog.flights k) → b'.messages = m.backlog.messages ++ os →
      (k ∈ b'.streaming ↔ k ∈ m.streamingCompleted) →
      (∀ no ∈ m.backlog.flights k, ∀ o ∈ os, o.isPromptNo no = false) →
      os.countP (Output.isResultFor k) = 0 → Counted b' k := by
    intro b' os hflights hsaid hflag hnos hcount
    refine hcounted.said hflights hsaid hnos (fun hnil => mt hflag.mp (hcounted.none hnil)) ?_
    intro _
    rw [hcount]
    exact if_congr hflag.symm rfl rfl
  have hrest : ∀ {c : PromptCompletion}, m.completing = some c → c.sessionKey ≠ k →
      ((m.backlog.complete none m.completions).flights k).Perm (m.backlog.flights k) := by
    intro c hc hk
    have hperm := Backlog.flights_complete (b := m.backlog) hc k
    rw [if_neg hk] at hperm
    exact hperm.symm
  have hclosing : ∀ {c : PromptCompletion} {d : Anyclaw.Delivered}, Closes c d → c.sessionKey ≠ k →
      (m.told (m.closing c d)).countP (Output.isResultFor k) = 0 := by
    intro c d hd hk
    rw [countP_closing hsender hd, if_neg hk]
  have herased : ∀ {c : PromptCompletion}, c.sessionKey ≠ k →
      (k ∈ m.streamingCompleted.erase c.sessionKey ↔ k ∈ m.streamingCompleted) := by
    intro c hk
    rw [Finset.mem_erase]
    exact and_iff_right (Ne.symm hk)
  have hstarted : ∀ (k' : SessionKey),
      (m.told [.dispatchStarted k']).countP (Output.isResultFor k) = 0 :=
    fun k' => isResultFor_told m k (List.forall_mem_singleton.mpr rfl)
  cases h with
  | quiet _ => exact hcounted
  | talked htalk => exact htalk.counted hguard hsender k hcounted
  | unqueued _ hawaited =>
      refine hsame ?_ rfl rfl
      rw [Backlog.tickets_unawaited m.backlog hawaited]
  | ended hp hends => exact hsame (hticketed.tickets_endPrompt hp hends.completes.ticket) rfl rfl
  | abandoned hp hawaited => exact hsame (hticketed.tickets_abandon hp hawaited rfl) rfl rfl
  | taken hidle hc =>
      refine hsame ?_ rfl rfl
      rw [Backlog.tickets_take (b := m.backlog) hidle hc]
  | @released _ k' _ _ _ text _ =>
      refine hkept (m.told (syntheticChunk k' text)) (.refl _) rfl rfl htold fun _ => ?_
      refine isResultFor_told m k ?_
      simp [syntheticChunk, Output.isResultFor, Delivered.isResult]
  | @refused _ k' _ _ _ s hcommand hfind hcannot =>
      refine hkept _ (.refl _) rfl rfl htold fun hne => ?_
      have hk : k' ≠ k := by
        rintro rfl
        exact (hguard hsender).2.2.1 hcommand ⟨s, hfind, hcannot⟩ (Backlog.inFlight_iff.mpr hne)
      refine isResultFor_told m k ?_
      simp [syntheticResponse, syntheticChunk, Output.isResultFor, hk]
  | queued _ _ =>
      exact hkept _ (.refl _) rfl rfl (fun _ => List.forall_mem_singleton.mpr rfl) fun _ => rfl
  | @rejected _ k' _ _ _ e _ _ _ =>
      refine hkept (m.told [.dispatchStarted k'] ++
        [.reply m.nextMessage k' true (.error e)]) (.refl _) ?_ rfl ?_ fun _ => ?_
      · exact List.append_assoc _ _ _
      · exact fun no => List.forall_mem_append.mpr
          ⟨htold no, List.forall_mem_singleton.mpr rfl⟩
      · rw [List.countP_append, hstarted]
        rfl
  | @dispatched _ k' _ _ _ p parts hplain hidle _ hp =>
      have hflights := Backlog.flights_addPrompt m.backlog hp.awaited k
      rw [hp.key] at hflights
      by_cases hk : k' = k
      · subst hk
        have hnone : m.backlog.flights k' = [] := by
          by_contra hne
          exact (hguard hsender).2.2.2 hplain hidle (Backlog.inFlight_iff.mpr hne)
        rw [if_pos rfl, hnone] at hflights
        refine Counted.started (m.backlog.messages ++ m.told [.dispatchStarted k']) _
          (List.perm_singleton.mp hflights) rfl ?_ (hcounted.none hnone)
        exact List.forall_mem_singleton.mpr ⟨rfl, rfl⟩
      · rw [if_neg hk] at hflights
        refine hapart (m.told [.dispatchStarted k'] ++ ([.prompt p parts
          ((m.queue.queued k').flatMap RichPayload.origin ++ [m.nextMessage])] ++
            [.reply m.nextMessage k' true (.ok ())])) hflights ?_ Iff.rfl (fun no hno => ?_) ?_
        · simp only [Backlog.say_messages, Backlog.addPrompt_messages, Backlog.claim_messages,
            Backlog.clear_messages, Backlog.sayAll_messages, List.append_assoc]
        · refine List.forall_mem_append.mpr ⟨htold no, ?_⟩
          exact List.forall_mem_append.mpr ⟨List.forall_mem_singleton.mpr (hnew hno hp),
            List.forall_mem_singleton.mpr rfl⟩
        · rw [List.countP_append, hstarted]
          rfl
  | @finished _ c d hc hd _ =>
      by_cases hk : c.sessionKey = k
      · subst hk
        exact .landed (Backlog.flights_completed (b := m.backlog) hc hcounted.one).2
          (Finset.notMem_erase _ _)
      · exact hapart _ (hrest hc hk) rfl (herased hk) (fun no _ => htold no) (hclosing hd hk)
  | @redispatched _ c d p parts hc hd _ _ hp =>
      have hflights := Backlog.flights_addPrompt (m.backlog.complete none m.completions)
        hp.awaited k
      rw [hp.key] at hflights
      by_cases hk : c.sessionKey = k
      · subst hk
        have hnone : (m.backlog.complete none m.completions).flights c.sessionKey = [] :=
          (Backlog.flights_completed (b := m.backlog) hc hcounted.one).2
        rw [if_pos rfl, hnone] at hflights
        exact Counted.started _ [] (List.perm_singleton.mp hflights)
          (List.append_nil _).symm (fun _ ho => nomatch ho) (Finset.notMem_erase _ _)
      · rw [if_neg hk] at hflights
        refine hapart (m.told (m.closing c d) ++ (m.told [.dispatchStarted c.sessionKey] ++
          [.prompt p parts ((m.queue.queued c.sessionKey).flatMap RichPayload.origin)]))
          (hflights.trans (hrest hc hk)) ?_ (herased hk) (fun no hno => ?_) ?_
        · simp only [Backlog.say_messages, Backlog.addPrompt_messages, Backlog.clear_messages,
            Backlog.sayAll_messages, reported, Backlog.withStreaming_messages,
            Backlog.complete_messages, List.append_assoc]
        · refine List.forall_mem_append.mpr ⟨htold no, List.forall_mem_append.mpr ⟨htold no, ?_⟩⟩
          exact List.forall_mem_singleton.mpr (hnew hno hp)
        · rw [List.countP_append, hclosing hd hk, List.countP_append, hstarted]
          rfl
  | @lost _ c d es hc hd _ _ hes =>
      by_cases hk : c.sessionKey = k
      · subst hk
        exact .landed (Backlog.flights_completed (b := m.backlog) hc hcounted.one).2
          (Finset.notMem_erase _ _)
      · refine hapart (m.told (m.closing c d) ++ m.told es) (hrest hc hk) ?_ (herased hk)
          (fun no _ => List.forall_mem_append.mpr ⟨htold no, htold no⟩) ?_
        · exact List.append_assoc _ _ _
        · rw [List.countP_append, hclosing hd hk, Nat.zero_add]
          refine isResultFor_told m k fun e he => ?_
          rw [hes] at he
          split at he
          · rw [List.mem_singleton.mp he]
            rfl
          · cases he

/-- The prompt of `c` got one result, and its end was sent. -/
structure ResultGiven (m m' : AgentsManager n) (c : PromptCompletion) : Prop where
  one : resultsSince c.prompt c.sessionKey m'.trace = some 1
  ended : ChannelEvent.sessionComplete c.sessionKey c.stopReason ∈ sent m m'

theorem resultGiven_of_counted (hadvances : Advances cfg m l m') (hticketed : m.backlog.Ticketed)
    (hsender : m.channelsSender = true) {c : PromptCompletion} (hc : m.finishing l = some c)
    (hcounted : Counted m.backlog c.sessionKey) : ResultGiven m m' c := by
  have hcompleting : m.completing = some c := by
    cases l with
    | finishCompletion a => exact hc
    | _ => cases hc
  obtain ⟨hone, _⟩ := Backlog.flights_completed (b := m.backlog) hcompleting hcounted.one
  have hmem : c.prompt ∈ m.backlog.flights c.sessionKey := by
    rw [hone]
    exact List.mem_cons_self
  have hlt : c.prompt < m.nextPrompt := hticketed.tickets_lt _ (Backlog.mem_flights.mp hmem)
  obtain ⟨d, os, hd, hsaid, hos⟩ := hadvances.effect.closes hc
  constructor
  · rw [← resultsSince_messages, hsaid, List.append_assoc,
      resultsSince_said (hcounted.some _ hmem)]
    · have hnone : os.countP (Output.isResultFor c.sessionKey) = 0 := by
        refine List.countP_eq_zero.mpr fun o ho => ?_
        rcases hos o ho with ⟨k, rfl⟩ | ⟨p, parts, origin, rfl, _⟩
        · exact Bool.false_ne_true
        · exact Bool.false_ne_true
      rw [List.countP_append, countP_closing hsender hd, if_pos rfl, hnone, backlog_streaming]
      split <;> rfl
    · refine List.forall_mem_append.mpr ⟨fun o ho => ?_, fun o ho => ?_⟩
      · exact isPromptNo_talk (isTalk_told m _ o ho) _
      · rcases hos o ho with ⟨k, rfl⟩ | ⟨p, parts, origin, rfl, hno⟩
        · rfl
        · exact beq_eq_false_iff_ne.mpr (by rw [hno]; exact Nat.ne_of_gt hlt)
  · rw [List.append_assoc] at hsaid
    rw [sent_of_messages hadvances.trace hsaid, List.filterMap_append,
      sentEvent_told m _ hsender]
    exact List.mem_append_left _ (List.mem_append_right _ (List.mem_singleton.mpr rfl))

theorem counted_of_keepsResults (h : (life cfg).ReachableUnder (KeepsResults cfg) m)
    (hsender : m.channelsSender = true) (k : SessionKey) : Counted m.backlog k := by
  refine h.invariant (I := fun m => m.channelsSender = true → Counted m.backlog k) ?_ ?_ hsender
  · intro m hinit _
    obtain ⟨os, _, hbacklog⟩ := life_init hinit
    rw [hbacklog]
    exact .landed rfl (Finset.notMem_empty k)
  · intro m l m' hreach hcounted hguard hstep hsender
    have horderly := orderly_of_reachable hreach.reachable
    have heffect := (step_advances horderly.plain hstep).effect
    have hsame : m'.channelsSender = m.channelsSender := heffect.sender
    rw [hsame] at hsender
    exact heffect.counted horderly.ticketed hguard hsender k (hcounted hsender)

/-- A completion is finished when no message waits. -/
theorem incoming_of_finishing (hstep : step cfg m l = some m') {c : PromptCompletion}
    (hc : m.finishing l = some c) : m.incoming = [] := by
  cases turn_of_step cfg m hstep with
  | finishCompletion _ hincoming => exact hincoming
  | _ => cases hc

/-- Every prompt that was completed has one result between its dispatch and its end; and
    the updates that were shown from then on arrived from then on. -/
def ResultsOnce (x : History n) : Prop :=
  ∀ steps₁ t steps₂, x.1 = steps₁ ++ t :: steps₂ → t.before.channelsSender = true →
    ∀ c, t.before.finishing t.label = some c →
      ResultGiven t.before t.after c ∧
        ((t :: steps₂).flatMap shown).Sublist
          (((t :: steps₂).flatMap arrived).filterMap SlotIncoming.update)

/-- **Every prompt gets one result**, in every run in which a result is sent only for a
    prompt in flight, and once for each. -/
theorem resultsOnce_of_keepsResults {x : History n}
    (h : (life cfg).recorded.ReachableUnder (fun x l => KeepsResults cfg x.2 l) x) :
    ResultsOnce x := by
  have hgiven : ∀ t ∈ x.1, t.before.channelsSender = true →
      ∀ c, t.before.finishing t.label = some c →
        ResultGiven t.before t.after c ∧ t.before.incoming = [] := by
    refine h.recorded_steps (P := fun _ t => t.before.channelsSender = true →
      ∀ c, t.before.finishing t.label = some c →
        ResultGiven t.before t.after c ∧ t.before.incoming = []) ?_ ?_
    · intro x l x' hreach _ hstep hsender c hc
      obtain ⟨hs, _⟩ := Machine.of_recorded_step hstep
      have hguarded : (life cfg).ReachableUnder (KeepsResults cfg) x.2 :=
        hreach.of_recorded fun _ _ hguard => hguard
      have horderly := orderly_of_reachable hguarded.reachable
      refine ⟨resultGiven_of_counted (step_advances horderly.plain hs) horderly.ticketed hsender
        hc (counted_of_keepsResults hguarded hsender c.sessionKey), ?_⟩
      exact incoming_of_finishing hs hc
    · exact fun _ _ _ _ _ _ ht _ _ => ht
  intro steps₁ t steps₂ hx hsender c hc
  have hmem : t ∈ x.1 := by
    rw [hx]
    exact List.mem_append_right _ List.mem_cons_self
  obtain ⟨hresult, hempty⟩ := hgiven t hmem hsender c hc
  exact ⟨hresult, shown_sublist_arrived h.reachable hx hempty⟩

/-- The agent streams a chunk and a result, and answers. -/
theorem resultsOnce_of_keepsResults_bob :
    ∃ x : History 1, ResultsOnce x ∧ ∃ t ∈ x.1, ∃ c, t.before.finishing t.label = some c ∧
      t.before.channelsSender = true ∧ x.1.flatMap shown =
        [⟨"s", .agentMessageChunk, false⟩, ⟨"s", .result false, false⟩] := by
  have hrun : ∃ x ∈ executeRecorded Sample.cfg (fun x l => KeepsResults Sample.cfg x.2 l) true ∅
      Sample.boot
      [Sample.send "hello" (Sample.answers "s"),
        .incoming 0 (.sessionUpdate ⟨"s", .agentMessageChunk, false⟩),
        .incoming 0 (.sessionUpdate ⟨"s", .result false, false⟩),
        .promptAnswered 0 (.result (some .endTurn)), .recvCompletion,
        .drainIncoming (Sample.answers "s"), .drainIncoming (Sample.answers "s"),
        .finishCompletion (Sample.answers "s")],
        ∃ t ∈ x.1, (t.before.finishing t.label).isSome = true ∧
          t.before.channelsSender = true ∧ x.1.flatMap shown =
            [⟨"s", .agentMessageChunk, false⟩, ⟨"s", .result false, false⟩] := by
    decide
  obtain ⟨x, hx, t, ht, hsome, hsender, hshown⟩ := hrun
  obtain ⟨c, hc⟩ := Option.isSome_iff_exists.mp hsome
  exact ⟨x, resultsOnce_of_keepsResults (reachable_of_executeRecorded hx), t, ht, c, hc,
    hsender, hshown⟩

/-- A malformed update during a prompt is an error result, and the completion adds another. -/
theorem results_twice_after_malformed : ¬ ∀ x, (life Sample.cfg).recorded.Reachable x →
    ResultsOnce x := by
  intro hall
  have hrun : ∃ x ∈ executeRecorded Sample.cfg (fun _ _ => True) true ∅ Sample.boot
      [Sample.send "hello" (Sample.answers "s"),
        .incoming 0 (.malformedUpdate (some "s") "missing field"),
        .promptAnswered 0 (.result (some .endTurn)), .recvCompletion,
        .drainIncoming (Sample.answers "s"), .finishCompletion (Sample.answers "s")],
        ∃ t ∈ x.1.getLast?, t.before.channelsSender = true ∧
          ∃ c ∈ t.before.finishing t.label,
            resultsSince c.prompt c.sessionKey t.after.trace = some 2 := by
    decide
  obtain ⟨x, hx, t, ht, hsender, c, hc, htwo⟩ := hrun
  obtain ⟨steps, hsteps⟩ := List.getLast?_eq_some_iff.mp ht
  have hgiven := (hall x (reachable_of_executeRecorded hx) steps t [] hsteps hsender c hc).1
  have hone := hgiven.one
  rw [htwo] at hone
  cases hone

end AgentsManager

end Anyclaw
