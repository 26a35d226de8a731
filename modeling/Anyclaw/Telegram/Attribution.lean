import Anyclaw.Telegram.Effects

/-!
# Whose message it is

As long as a debounce task goes on only with the turn whose text it has read, the message
that a turn knows is its own, and every edit is made to a message of the turn whose text it
shows.

The debounce task is spawned by `deliver_to_chat` (`ext/channels/telegram/src/deliver.rs`); it
reads the text of a turn and claims the turn of the chat in two separate moments.
-/

namespace Anyclaw.Telegram

/-! ### Small facts about turns -/

theorem exists_of_core {s : Chat} {turn : Option ChatTurn} {t : ChatTurn}
    (h : turn.map ChatTurn.core = s.core) (ht : turn = some t) :
    ∃ t₀, s.turn = some t₀ ∧ t.core = t₀.core := by
  rw [ht, Chat.core, Option.map_some] at h
  obtain ⟨t₀, ht₀, hcore⟩ := Option.map_eq_some_iff.mp h.symm
  exact ⟨t₀, ht₀, hcore.symm⟩

theorem exists_of_map {s : Chat} {f : ChatTurn → ChatTurn} {c : TurnCore}
    (h : (s.turn.map f).map ChatTurn.core = some c) :
    ∃ t, s.turn = some t ∧ c = (f t).core := by
  rw [Option.map_map] at h
  obtain ⟨t, ht, hc⟩ := Option.map_eq_some_iff.mp h
  exact ⟨t, ht, hc.symm⟩

namespace Chat

variable {t : ChatTurn} {track : ResponseTrack}

theorem core_setMsgId (k : Nat) (h : t.response = some track) :
    (setMsgId k t).core = { t.core with msgId := k, debounceHandle := none } := by
  simp [setMsgId, ChatTurn.core, ChatTurn.msgId, ChatTurn.buffer, ChatTurn.debounceHandle, h]

theorem setMsgId_of_none (k : Nat) (h : t.response = none) : (setMsgId k t).core = t.core := by
  simp [setMsgId, ChatTurn.core, ChatTurn.msgId, ChatTurn.buffer, ChatTurn.debounceHandle, h]

theorem core_setDebounceHandle (k : Nat) :
    (setDebounceHandle k t).core = t.core ∨
      (setDebounceHandle k t).core = { t.core with debounceHandle := some k } := by
  cases h : t.response with
  | none =>
      left
      simp [setDebounceHandle, ChatTurn.core, ChatTurn.msgId, ChatTurn.buffer,
        ChatTurn.debounceHandle, h]
  | some track =>
      right
      simp [setDebounceHandle, ChatTurn.core, ChatTurn.msgId, ChatTurn.buffer,
        ChatTurn.debounceHandle, h]

theorem enteredCore_of_some {s : Chat} (h : s.turn = some t) : s.enteredCore = t.core := by
  rw [enteredCore, core, h]
  rfl

theorem enteredCore_of_none {s : Chat} (h : s.turn = none) :
    s.enteredCore = ⟨0, "", .active, none, false⟩ := by
  rw [enteredCore, core, h]
  rfl

theorem serial_le_enteredSerial (s : Chat) : s.serial ≤ s.enteredSerial := by
  rw [enteredSerial]
  split
  · exact Nat.le_refl _
  · exact Nat.le_succ _

theorem enteredSerial_of_some {s : Chat} (h : s.turn = some t) : s.enteredSerial = s.serial := by
  rw [enteredSerial, h]
  rfl

theorem core_of_turn {s : Chat} (ht : s.turn = some t) : s.core = some t.core := by
  rw [core, ht]
  rfl

@[simp] theorem setTask_self (s : Chat) (i : Nat) (task : Task) :
    (s.setTask i task).tasks i = task :=
  Function.update_self ..

theorem setTask_of_ne (s : Chat) {i j : Nat} (task : Task) (h : j ≠ i) :
    (s.setTask i task).tasks j = s.tasks j :=
  Function.update_of_ne h _ _

theorem abortAll_of_mem (s : Chat) {hs : List Nat} {i : Nat} (h : i ∈ hs) :
    (s.abortAll hs).tasks i = .over :=
  if_pos h

theorem abortAll_of_not_mem (s : Chat) {hs : List Nat} {i : Nat} (h : i ∉ hs) :
    (s.abortAll hs).tasks i = s.tasks i :=
  if_neg h

theorem setTask_posting {s : Chat} {i j n : Nat} {task : Task}
    (h : ((s.setTask i task).tasks j).posting = some n) :
    j = i ∧ task.posting = some n ∨ j ≠ i ∧ (s.tasks j).posting = some n := by
  by_cases heq : j = i
  · left
    rw [heq, setTask_self] at h
    exact ⟨heq, h⟩
  · right
    rw [setTask_of_ne s task heq] at h
    exact ⟨heq, h⟩

theorem abortAll_posting {s : Chat} {hs : List Nat} {i n : Nat}
    (h : ((s.abortAll hs).tasks i).posting = some n) : i ∉ hs ∧ (s.tasks i).posting = some n := by
  by_cases hi : i ∈ hs
  · rw [abortAll_of_mem s hi] at h
    cases h
  · rw [abortAll_of_not_mem s hi] at h
    exact ⟨hi, h⟩

end Chat

/-! ### Numbers -/

/-- What is waited for has been started, nothing has the number of a later turn, and a task
    that was not spawned does nothing. -/
structure Numbered (s : Chat) : Prop where
  unspawned : ∀ i, s.spawned ≤ i → s.tasks i = .over
  tasks : ∀ i n, (s.tasks i).posting = some n → n < s.outbox.posted
  delivery : ∀ n, s.delivery.posting = some n → n < s.outbox.posted
  reads : ∀ i g text, s.tasks i = .debounceRead g text → g ≤ s.serial
  turns : ∀ n, n < s.outbox.posted → (s.outbox.postings n).turn ≤ s.serial

namespace Numbered

variable {s s' : Chat}

theorem abortAll (h : Numbered s) (hs : List Nat) : Numbered (s.abortAll hs) where
  unspawned := by
    intro i hi
    by_cases hmem : i ∈ hs
    · exact Chat.abortAll_of_mem s hmem
    · rw [Chat.abortAll_of_not_mem s hmem]
      exact h.unspawned i hi
  tasks := by
    intro i n hi
    exact h.tasks i n (Chat.abortAll_posting hi).2
  delivery := h.delivery
  reads := by
    intro i g text hi
    by_cases hmem : i ∈ hs
    · rw [Chat.abortAll_of_mem s hmem] at hi
      cases hi
    · rw [Chat.abortAll_of_not_mem s hmem] at hi
      exact h.reads i g text hi
  turns := by
    intro n hn
    have hturn : ((s.abortAll hs).outbox.postings n).turn = (s.outbox.postings n).turn :=
      (Outbox.cutWhere_fields _ _ n).1
    rw [hturn]
    exact h.turns n hn

/-- A posting is started for a turn that there has been. -/
theorem post_turns (h : Numbered s) {turn serial : Nat} (source : String) (msgId : Nat)
    (parts : List String) (whole : Bool) (hturn : turn ≤ serial) (hserial : s.serial ≤ serial) :
    ∀ n, n < (s.outbox.post turn source msgId parts whole).posted →
      ((s.outbox.post turn source msgId parts whole).postings n).turn ≤ serial := by
  intro n hn
  by_cases heq : n = s.outbox.posted
  · rw [heq, Outbox.post_postings_self]
    exact hturn
  · rw [Outbox.post_postings_of_ne _ _ _ _ _ _ heq]
    have hlt : n < s.outbox.posted + 1 := hn
    exact Nat.le_trans (h.turns n (by omega)) hserial

/-- The tasks after one of them has gone on. -/
theorem setTask_tasks (h : Numbered s) {i posted : Nat} {task : Task}
    (hposted : s.outbox.posted ≤ posted) (htask : ∀ n, task.posting = some n → n < posted) :
    ∀ j n, ((s.setTask i task).tasks j).posting = some n → n < posted := by
  intro j n hj
  rcases Chat.setTask_posting hj with ⟨_, hn⟩ | ⟨_, hn⟩
  · exact htask n hn
  · exact Nat.lt_of_lt_of_le (h.tasks j n hn) hposted

/-- A task that goes on was spawned. -/
theorem setTask_unspawned (h : Numbered s) {i : Nat} {task : Task} (hi : s.tasks i ≠ .over) :
    ∀ j, s.spawned ≤ j → (s.setTask i task).tasks j = .over := by
  intro j hj
  have hne : j ≠ i := by
    rintro rfl
    exact hi (h.unspawned j hj)
  rw [Chat.setTask_of_ne s task hne]
  exact h.unspawned j hj

theorem setTask_reads (h : Numbered s) {i : Nat} {task : Task}
    (htask : ∀ g text, task = .debounceRead g text → g ≤ s.serial) :
    ∀ j g text, (s.setTask i task).tasks j = .debounceRead g text → g ≤ s.serial := by
  intro j g text hj
  by_cases heq : j = i
  · rw [heq, Chat.setTask_self] at hj
    exact htask g text hj
  · rw [Chat.setTask_of_ne s task heq] at hj
    exact h.reads j g text hj

theorem step {tg : Settings} {l : ChatLabel} (h : Numbered s) (heff : s.Effect tg l s') :
    Numbered s' := by
  have hnone : ∀ {d : Delivery} {n : Nat}, d.Waits none → d.posting = some n →
      n < s.outbox.posted := by
    intro d n hd hn
    rw [hd.posting] at hn
    cases hn
  have hlater := fun n (hn : n < s.outbox.posted) => Nat.lt_succ_of_lt hn
  cases heff with
  | still l turn now hturn => exact ⟨h.unspawned, h.tasks, h.delivery, h.reads, h.turns⟩
  | moved l turn d hturn hlanded hd hskips =>
      exact ⟨h.unspawned, h.tasks, fun n => hnone hd, h.reads, h.turns⟩
  | dropped l t d ht hflushed hlanded hempty hd =>
      have ha := h.abortAll t.cleanupHandles
      exact ⟨ha.unspawned, ha.tasks, fun n => hnone hd, ha.reads, ha.turns⟩
  | flushed l t d ht hflushed hlanded htext hd =>
      have ha := h.abortAll t.cleanupHandles
      refine ⟨ha.unspawned, fun i n hn => hlater n (ha.tasks i n hn), ?_, ha.reads,
        ha.post_turns _ _ _ _ (Nat.le_refl _) (Nat.le_refl _)⟩
      intro n hn
      have heq : some s.outbox.posted = some n := hd.posting.symm.trans hn
      cases heq
      exact Nat.lt_succ_self _
  | entered t text d ht hlanded hfrom hd =>
      have hle := s.serial_le_enteredSerial
      refine ⟨h.unspawned, h.tasks, ?_, fun i g text hi => Nat.le_trans (h.reads i g text hi) hle,
        fun n hn => Nat.le_trans (h.turns n hn) hle⟩
      intro n hn
      rcases hd with ⟨hd, _⟩ | ⟨rfl, _, _⟩
      · exact hnone hd hn
      · cases hn
  | enteredLate text messageId p t₀ t hdelivery ht₀ ht hlanded hphase hid htext =>
      have hle := s.serial_le_enteredSerial
      refine ⟨h.unspawned, fun i n hn => hlater n (h.tasks i n hn), ?_,
        fun i g text hi => Nat.le_trans (h.reads i g text hi) hle,
        h.post_turns _ _ _ _ (Nat.le_refl _) hle⟩
      intro n hn
      cases hn
      exact Nat.lt_succ_self _
  | spawned task d hlanded hfrom hd =>
      have hposting : task.posting = none := by
        rcases hd with ⟨_, rfl⟩ | ⟨_, rfl⟩
        · rfl
        · rfl
      have hread : ∀ g text, task = .debounceRead g text → g ≤ s.serial := by
        intro g text hg
        rcases hd with ⟨_, rfl⟩ | ⟨_, rfl⟩
        · cases hg
        · cases hg
      refine ⟨?_, h.setTask_tasks (i := s.spawned) (Nat.le_refl _) ?_, ?_,
        h.setTask_reads (i := s.spawned) hread, h.turns⟩
      · intro i hi
        have hlt : s.spawned + 1 ≤ i := hi
        have hsame : (s.spawn task).tasks i = s.tasks i := Function.update_of_ne (by omega) _ _
        exact hsame.trans (h.unspawned i (by omega))
      · intro n hn
        rw [hposting] at hn
        cases hn
      · intro n hn
        rcases hd with ⟨rfl, _⟩ | ⟨rfl, _⟩
        · cases hn
        · cases hn
  | registeredFinalize handle t hdelivery ht =>
      have ha := h.abortAll t.finalizeHandle.toList
      exact ⟨ha.unspawned, ha.tasks, fun n hn => (nomatch hn), ha.reads, ha.turns⟩
  | registeredDebounce handle hdelivery =>
      exact ⟨h.unspawned, h.tasks, fun n hn => (nomatch hn), h.reads, h.turns⟩
  | edited accumulated msgId t t' hdelivery ht ht' =>
      refine ⟨h.unspawned, fun i n hn => hlater n (h.tasks i n hn), ?_, h.reads,
        h.post_turns _ _ _ _ (Nat.le_refl _) (Nat.le_refl _)⟩
      intro n hn
      cases hn
      exact Nat.lt_succ_self _
  | debounced i task hi htask =>
      have hposting : ∀ n, task.posting = some n → n < s.outbox.posted := by
        intro n hn
        rcases htask with rfl | ⟨_, text, rfl⟩
        · cases hn
        · cases hn
      have hread : ∀ g text, task = .debounceRead g text → g ≤ s.serial := by
        intro g text hg
        rcases htask with rfl | ⟨_, text', rfl⟩
        · cases hg
        · cases hg
          exact Nat.le_refl _
      have hne : s.tasks i ≠ .over := by
        rcases hi with hi | ⟨g, text, hi⟩ | ⟨n, hi, _⟩
        · simp [hi]
        · simp [hi]
        · simp [hi]
      exact ⟨h.setTask_unspawned hne, h.setTask_tasks (Nat.le_refl _) hposting, h.delivery,
        h.setTask_reads hread, h.turns⟩
  | debounceClaimed i turn accumulated t t' hi ht hfree ht' =>
      refine ⟨h.setTask_unspawned (by simp [hi]), h.setTask_tasks (Nat.le_succ _) ?_,
        fun n hn => hlater n (h.delivery n hn), h.setTask_reads (fun g text hg => (nomatch hg)),
        h.post_turns _ _ _ _ (h.reads i turn accumulated hi) (Nat.le_refl _)⟩
      intro n hn
      cases hn
      exact Nat.lt_succ_self _
  | debounceStored i n hi hlanded hreply =>
      exact ⟨h.setTask_unspawned (by simp [hi]),
        h.setTask_tasks (Nat.le_refl _) (fun n hn => (nomatch hn)), h.delivery,
        h.setTask_reads (fun g text hg => (nomatch hg)), h.turns⟩
  | finalizeEmpty i turn hi hturn =>
      exact ⟨h.setTask_unspawned (by simp [hi]),
        h.setTask_tasks (Nat.le_refl _) (fun n hn => (nomatch hn)), h.delivery,
        h.setTask_reads (fun g text hg => (nomatch hg)), h.turns⟩
  | finalizeClaimed i t t' hi ht hfree htext ht' =>
      refine ⟨h.setTask_unspawned (by simp [hi]), h.setTask_tasks (Nat.le_succ _) ?_,
        fun n hn => hlater n (h.delivery n hn), h.setTask_reads (fun g text hg => (nomatch hg)),
        h.post_turns _ _ _ _ (Nat.le_refl _) (Nat.le_refl _)⟩
      intro n hn
      cases hn
      exact Nat.lt_succ_self _
  | removed i p hi hlanded =>
      exact ⟨h.setTask_unspawned (by simp [hi]),
        h.setTask_tasks (Nat.le_refl _) (fun n hn => (nomatch hn)), h.delivery,
        h.setTask_reads (fun g text hg => (nomatch hg)), h.turns⟩
  | sent l n r rest next answered hpending htarget hends =>
      refine ⟨h.unspawned, h.tasks, h.delivery, h.reads, ?_⟩
      intro j hj
      rw [Outbox.send_turn]
      exact h.turns j hj
  | replaced l n k r rest next answered hpending htarget hends =>
      refine ⟨h.unspawned, h.tasks, h.delivery, h.reads, ?_⟩
      intro j hj
      rw [Outbox.replace_turn]
      exact h.turns j hj
  | delayed l n r rest next hpending hdelays =>
      refine ⟨h.unspawned, h.tasks, h.delivery, h.reads, ?_⟩
      intro j hj
      rw [Outbox.keep_turn]
      exact h.turns j hj

end Numbered

theorem numbered {tg : Settings} {G : Chat → ChatLabel → Prop} {s : Chat}
    (h : (chat tg).ReachableUnder G s) : Numbered s := by
  refine h.invariant (I := Numbered) ?_ ?_
  · rintro s rfl
    refine ⟨fun i _ => rfl, fun i n hn => (nomatch hn), fun n hn => (nomatch hn),
      fun i g text hi => (nomatch hi), fun n hn => absurd hn (Nat.not_lt_zero n)⟩
  · intro s l s' _ hs _ hstep
    exact hs.step (effect_of_step hstep)

/-! ### The turn that a debounce task goes on with -/

/-- A debounce task claims the right to send, and stores its message, only for the turn
    whose text it has read. -/
def OwnTurn (s : Chat) : ChatLabel → Prop
  | .fire i =>
      match s.tasks i with
      | .debounceRead turn _ => ∀ t ∈ s.turn, t.responseFinalized = false → turn = s.serial
      | .debounceSending n =>
          ∀ t ∈ s.turn, t.response.isSome → (s.outbox.postings n).turn = s.serial
      | _ => True
  | _ => True

instance (s : Chat) (l : ChatLabel) : Decidable (OwnTurn s l) := by
  cases l with
  | fire i =>
      simp only [OwnTurn]
      split <;> infer_instance
  | receive | deliver | land | fail | retry | wait => exact isTrue trivial

section OwnTurn

variable {s : Chat} {i turn n : Nat} {text : String} {t : ChatTurn}

theorem OwnTurn.of_claim (h : OwnTurn s (.fire i)) (hi : s.tasks i = .debounceRead turn text)
    (ht : s.turn = some t) (hfree : t.responseFinalized = false) : turn = s.serial := by
  simp only [OwnTurn, hi] at h
  exact h t ht hfree

theorem OwnTurn.of_store (h : OwnTurn s (.fire i)) (hi : s.tasks i = .debounceSending n)
    (ht : s.turn = some t) (hresponse : t.response.isSome) :
    (s.outbox.postings n).turn = s.serial := by
  simp only [OwnTurn, hi] at h
  exact h t ht hresponse

end OwnTurn

/-- Every message belongs to the turn of the posting that wrote it, the turn knows its own
    message, and an edit that is about to be made is for the turn's own message. -/
structure Owned (s : Chat) : Prop where
  attributed : s.outbox.Attributed
  stored : ∀ t, s.turn = some t → t.msgId ≠ 0 → s.outbox.Shows t.msgId s.serial
  edits : ∀ text k, s.delivery = .tryingEdit text k → k ≠ 0 ∧ s.outbox.Shows k s.serial

namespace Owned

variable {s s' : Chat}

theorem stored_of_core (h : Owned s) {t t' : ChatTurn} (ht : s.turn = some t)
    (hid : t'.msgId = t.msgId) : t'.msgId ≠ 0 → s.outbox.Shows t'.msgId s.serial := by
  intro hne
  rw [hid] at hne ⊢
  exact h.stored t ht hne

/-- The turn that an update has found or opened knows its own message. -/
theorem stored_entered (h : Owned s) {t : ChatTurn} {text : String}
    (ht : t.core = { s.enteredCore with buffer := text }) (hid : t.msgId ≠ 0) :
    s.outbox.Shows t.msgId s.enteredSerial := by
  have hcore : t.msgId = s.enteredCore.msgId := congrArg TurnCore.msgId ht
  cases hturn : s.turn with
  | none =>
      rw [hcore, Chat.enteredCore_of_none hturn] at hid
      exact absurd rfl hid
  | some t₀ =>
      rw [Chat.enteredCore_of_some hturn] at hcore
      rw [Chat.enteredSerial_of_some hturn]
      exact h.stored_of_core hturn hcore hid

theorem edits_of_waits {d : Delivery} {p : Option Nat} (hd : d.Waits p) (o : Outbox)
    (serial : Nat) : ∀ text k, d = .tryingEdit text k → k ≠ 0 ∧ o.Shows k serial :=
  fun text k heq => absurd heq (hd.tryingEdit text k)

theorem abortAll (h : Owned s) (hs : List Nat) : Owned (s.abortAll hs) where
  attributed := h.attributed.cutWhere _
  stored := h.stored
  edits := h.edits

theorem step {tg : Settings} {l : ChatLabel} (h : Owned s) (hown : OwnTurn s l)
    (heff : s.Effect tg l s') : Owned s' := by
  cases heff with
  | still l turn now hturn =>
      refine ⟨h.attributed, ?_, h.edits⟩
      intro t ht
      obtain ⟨t₀, ht₀, hcore⟩ := exists_of_core hturn ht
      exact h.stored_of_core ht₀ (congrArg TurnCore.msgId hcore)
  | moved l turn d hturn hlanded hd hskips =>
      refine ⟨h.attributed, ?_, edits_of_waits hd _ _⟩
      intro t ht
      obtain ⟨t₀, ht₀, hcore⟩ := exists_of_core hturn ht
      exact h.stored_of_core ht₀ (congrArg TurnCore.msgId hcore)
  | dropped l t d ht hflushed hlanded hempty hd =>
      exact ⟨(h.abortAll _).attributed, fun t ht => (nomatch ht), edits_of_waits hd _ _⟩
  | flushed l t d ht hflushed hlanded htext hd =>
      exact ⟨(h.abortAll _).attributed.post _ _ _ (h.stored t ht), fun t ht => (nomatch ht),
        edits_of_waits hd _ _⟩
  | entered t text d ht hlanded hfrom hd =>
      refine ⟨h.attributed, ?_, ?_⟩
      · intro t' ht' hid
        cases ht'
        exact h.stored_entered ht hid
      · intro text' k heq
        rcases hd with ⟨hd, _⟩ | ⟨hd, hid, _⟩
        · exact absurd heq (hd.tryingEdit text' k)
        · have hsame := hd.symm.trans heq
          cases hsame
          exact ⟨hid, h.stored_entered ht hid⟩
  | enteredLate text messageId p t₀ t hdelivery ht₀ ht hlanded hphase hid htext =>
      have hshows : s.outbox.Shows t.msgId s.enteredSerial := by
        rw [Chat.enteredSerial_of_some ht₀]
        exact h.stored_of_core ht₀ (congrArg TurnCore.msgId ht) hid
      refine ⟨h.attributed.post _ _ _ fun _ => hshows, ?_, fun text' k heq => (nomatch heq)⟩
      intro t' ht' _
      cases ht'
      exact hshows
  | spawned task d hlanded hfrom hd =>
      refine ⟨h.attributed, h.stored, ?_⟩
      intro text k heq
      rcases hd with ⟨rfl, _⟩ | ⟨rfl, _⟩
      · cases heq
      · cases heq
  | registeredFinalize handle t hdelivery ht =>
      refine ⟨(h.abortAll _).attributed, ?_, fun text k heq => (nomatch heq)⟩
      intro t' ht'
      cases ht'
      exact h.stored_of_core ht rfl
  | registeredDebounce handle hdelivery =>
      refine ⟨h.attributed, ?_, fun text k heq => (nomatch heq)⟩
      intro t' ht'
      obtain ⟨t, ht, rfl⟩ := Option.map_eq_some_iff.mp ht'
      apply h.stored_of_core ht
      rcases Chat.core_setDebounceHandle (t := t) handle with hcore | hcore
      · exact congrArg TurnCore.msgId hcore
      · exact congrArg TurnCore.msgId hcore
  | edited accumulated msgId t t' hdelivery ht ht' =>
      refine ⟨h.attributed.post _ _ _ fun _ => (h.edits _ _ hdelivery).2, ?_,
        fun text k heq => (nomatch heq)⟩
      intro t'' ht''
      cases ht''
      exact h.stored_of_core ht (congrArg TurnCore.msgId ht')
  | debounced i task hi htask => exact ⟨h.attributed, h.stored, h.edits⟩
  | debounceClaimed i turn accumulated t t' hi ht hfree ht' =>
      refine ⟨h.attributed.post _ _ _ fun hne => absurd rfl hne, ?_, h.edits⟩
      intro t'' ht''
      cases ht''
      exact h.stored_of_core ht (congrArg TurnCore.msgId ht')
  | debounceStored i n hi hlanded hreply =>
      refine ⟨h.attributed, ?_, h.edits⟩
      intro t' ht' hid
      obtain ⟨t, ht, rfl⟩ := Option.map_eq_some_iff.mp ht'
      cases hresponse : t.response with
      | none => exact h.stored_of_core ht (congrArg TurnCore.msgId
          (Chat.setMsgId_of_none _ hresponse)) hid
      | some track =>
          have hreply : (Chat.setMsgId (s.outbox.postings n).reply t).msgId
              = (s.outbox.postings n).reply := congrArg TurnCore.msgId
            (Chat.core_setMsgId _ hresponse)
          rw [hreply] at hid ⊢
          have hturn := hown.of_store hi ht (by rw [hresponse]; rfl)
          have hshows := h.attributed.replied n hid
          rw [hturn] at hshows
          exact hshows
  | finalizeEmpty i turn hi hturn =>
      refine ⟨h.attributed, ?_, h.edits⟩
      intro t' ht'
      rcases hturn with ⟨hturn, _⟩ | ⟨t, t'', ht, hturn, _, _, hcore⟩
      · obtain ⟨t₀, ht₀, hcore⟩ := exists_of_core hturn ht'
        exact h.stored_of_core ht₀ (congrArg TurnCore.msgId hcore)
      · cases hturn.symm.trans ht'
        exact h.stored_of_core ht (congrArg TurnCore.msgId hcore)
  | finalizeClaimed i t t' hi ht hfree htext ht' =>
      refine ⟨h.attributed.post _ _ _ (h.stored t ht), ?_, h.edits⟩
      intro t'' ht''
      cases ht''
      exact h.stored_of_core ht (congrArg TurnCore.msgId ht')
  | removed i p hi hlanded => exact ⟨h.attributed, fun t ht => (nomatch ht), h.edits⟩
  | sent l n r rest next answered hpending htarget hends =>
      refine ⟨h.attributed.send hpending hends.leaves,
        fun t ht hid => (h.stored t ht hid).send, ?_⟩
      intro text k heq
      exact ⟨(h.edits text k heq).1, (h.edits text k heq).2.send⟩
  | replaced l n k r rest next answered hpending htarget hends =>
      have hown' := h.attributed.targets n r (by rw [hpending]; exact List.mem_cons_self) k htarget
      refine ⟨h.attributed.replace hpending htarget hends.leaves,
        fun t ht hid => (h.stored t ht hid).replace hown', ?_⟩
      intro text k' heq
      exact ⟨(h.edits text k' heq).1, (h.edits text k' heq).2.replace hown'⟩
  | delayed l n r rest next hpending hdelays =>
      exact ⟨h.attributed.keep hpending hdelays.leaves, h.stored, h.edits⟩

end Owned

theorem owned {tg : Settings} {G : Chat → ChatLabel → Prop} {s : Chat}
    (hG : ∀ s l, G s l → OwnTurn s l) (h : (chat tg).ReachableUnder G s) : Owned s := by
  refine h.invariant (I := Owned) ?_ ?_
  · rintro s rfl
    exact ⟨Outbox.attributed_empty, fun t ht => (nomatch ht), fun text k heq => (nomatch heq)⟩
  · intro s l s' _ hs hguard hstep
    exact hs.step (hG s l hguard) (effect_of_step hstep)

end Anyclaw.Telegram
