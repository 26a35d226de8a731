import Anyclaw.Telegram.Attribution

/-!
# The tasks of a turn

A turn knows its tasks by their handles.  Here is what these tasks are doing: they send for
the turn that knows them, a turn that is being finalized has a task that will remove it, and
whatever is on its way is waited for, unless it was cut off.

The tasks are spawned by `deliver_to_chat` (`ext/channels/telegram/src/deliver.rs`), the
handles are kept in `ChatTurn` (`turn.rs`).
-/

namespace Anyclaw.Telegram

/-! ### The tasks that a turn has registered -/

/-- The task is a finalization task that has not ended. -/
def Task.Finalizes : Task → Prop
  | .finalizeSleeping => True
  | .finalizePosting _ => True
  | _ => False

theorem ChatTurn.mem_cleanupHandles {t : ChatTurn} {h : Nat} :
    h ∈ t.cleanupHandles ↔ t.phase = .finalizing h ∨ t.debounceHandle = some h := by
  rw [cleanupHandles, List.mem_append, Option.mem_toList, Option.mem_toList,
    t.mem_finalizeHandle]

/-- Handles are of tasks that have been spawned, what these tasks send is for the turn that
    has registered them, and a turn that is being finalized has a task that will remove it. -/
structure Handles (s : Chat) : Prop where
  owner : ∀ t, s.turn = some t → ∀ h ∈ t.cleanupHandles, ∀ n, (s.tasks h).posting = some n →
    (s.outbox.postings n).turn = s.serial
  ownerNext : ∀ h, s.delivery.registering = some h → ∀ n, (s.tasks h).posting = some n →
    (s.outbox.postings n).turn = s.serial
  spawned : ∀ t, s.turn = some t → ∀ h ∈ t.cleanupHandles, h < s.spawned
  spawnedNext : ∀ h, s.delivery.registering = some h → h < s.spawned
  live : ∀ t h, s.turn = some t → t.phase = .finalizing h → (s.tasks h).Finalizes
  liveNext : ∀ t h, s.turn = some t → s.delivery = .registeringFinalize h →
    (s.tasks h).Finalizes ∧ t.phase ≠ .finalizing h

namespace Handles

variable {s s' : Chat} {t t' : ChatTurn}

theorem cleanupHandles_of_core (h : t'.core = t.core) : t'.cleanupHandles = t.cleanupHandles := by
  have hphase : t'.phase = t.phase := congrArg TurnCore.phase h
  have hhandle : t'.debounceHandle = t.debounceHandle := congrArg TurnCore.debounceHandle h
  rw [ChatTurn.cleanupHandles, ChatTurn.cleanupHandles, ChatTurn.finalizeHandle,
    ChatTurn.finalizeHandle, hphase, hhandle]

/-- A turn is replaced by one that has registered no other tasks. -/
structure Replaces (t' t : ChatTurn) : Prop where
  handles : ∀ h ∈ t'.cleanupHandles, h ∈ t.cleanupHandles
  phase : t'.phase = t.phase

theorem Replaces.of_core (h : t'.core = t.core) : Replaces t' t where
  handles := by
    intro x hx
    rw [cleanupHandles_of_core h] at hx
    exact hx
  phase := congrArg TurnCore.phase h

theorem Replaces.of_fields (hphase : t'.phase = t.phase)
    (hhandle : t'.debounceHandle = t.debounceHandle ∨ t'.debounceHandle = none) :
    Replaces t' t where
  handles := by
    intro x hx
    rw [ChatTurn.mem_cleanupHandles] at hx ⊢
    rcases hx with hx | hx
    · exact .inl (hphase.symm.trans hx)
    · rcases hhandle with heq | heq
      · exact .inr (heq.symm.trans hx)
      · rw [heq] at hx
        cases hx
  phase := hphase

theorem Replaces.of_claimed (h : t'.core = { t.core with responseFinalized := true }) :
    Replaces t' t :=
  .of_fields (congrArg TurnCore.phase h) (.inl (congrArg TurnCore.debounceHandle h))

/-- A step that registers nothing: the handles are among the ones before, and the tasks send
    for the turn, if they send anything new. -/
theorem mono (h : Handles s) (hserial : s'.turn.isSome → s.turn.isSome → s'.serial = s.serial)
    (hturn : ∀ t', s'.turn = some t' → t'.cleanupHandles = [] ∧ t'.phase = .active ∨
      ∃ t, s.turn = some t ∧ Replaces t' t)
    (hspawned : s.spawned ≤ s'.spawned)
    (hdelivery : s'.delivery.registering = none ∨
      s'.delivery = s.delivery ∧ s'.serial = s.serial ∧
        ∀ t', s'.turn = some t' → ∃ t, s.turn = some t ∧ Replaces t' t)
    (hposting : ∀ i n, i < s.spawned → (s'.tasks i).posting = some n →
      (s.tasks i).posting = some n ∧ (s'.outbox.postings n).turn = (s.outbox.postings n).turn ∨
        (s'.outbox.postings n).turn = s.serial)
    (hlive : ∀ i, i < s.spawned → s'.turn.isSome → (s.tasks i).Finalizes →
      (s'.tasks i).Finalizes) : Handles s' := by
  have howner : ∀ i n, i < s.spawned → (∀ n, (s.tasks i).posting = some n →
      (s.outbox.postings n).turn = s.serial) → (s'.tasks i).posting = some n →
      (s'.outbox.postings n).turn = s.serial := by
    intro i n hi hold hn
    rcases hposting i n hi hn with ⟨hbefore, hsame⟩ | hnew
    · rw [hsame]
      exact hold n hbefore
    · exact hnew
  refine ⟨?_, ?_, ?_, ?_, ?_, ?_⟩
  · intro t' ht' x hx n hn
    rcases hturn t' ht' with ⟨hnil, _⟩ | ⟨t, ht, hreplaces⟩
    · rw [hnil] at hx
      cases hx
    · rw [hserial (by rw [ht']; rfl) (by rw [ht]; rfl)]
      have hmem := hreplaces.handles x hx
      exact howner x n (h.spawned t ht x hmem) (h.owner t ht x hmem) hn
  · intro x hx n hn
    rcases hdelivery with hnone | ⟨hsame, heq, _⟩
    · rw [hnone] at hx
      cases hx
    · rw [hsame] at hx
      rw [heq]
      exact howner x n (h.spawnedNext x hx) (h.ownerNext x hx) hn
  · intro t' ht' x hx
    rcases hturn t' ht' with ⟨hnil, _⟩ | ⟨t, ht, hreplaces⟩
    · rw [hnil] at hx
      cases hx
    · exact Nat.lt_of_lt_of_le (h.spawned t ht x (hreplaces.handles x hx)) hspawned
  · intro x hx
    rcases hdelivery with hnone | ⟨hsame, _⟩
    · rw [hnone] at hx
      cases hx
    · rw [hsame] at hx
      exact Nat.lt_of_lt_of_le (h.spawnedNext x hx) hspawned
  · intro t' x ht' hx
    rcases hturn t' ht' with ⟨_, hactive⟩ | ⟨t, ht, hreplaces⟩
    · rw [hactive] at hx
      cases hx
    · have hphase := hreplaces.phase.symm.trans hx
      exact hlive x (h.spawned t ht x (ChatTurn.mem_cleanupHandles.mpr (.inl hphase)))
        (by rw [ht']; rfl) (h.live t x ht hphase)
  · intro t' x ht' hx
    rcases hdelivery with hnone | ⟨hsame, _, hold⟩
    · rw [hx] at hnone
      cases hnone
    · rw [hsame] at hx
      obtain ⟨t, ht, hreplaces⟩ := hold t' ht'
      obtain ⟨hfin, hne⟩ := h.liveNext t x ht hx
      refine ⟨hlive x (h.spawnedNext x (by rw [hx]; rfl)) (by rw [ht']; rfl) hfin, ?_⟩
      rw [hreplaces.phase]
      exact hne

theorem of_none (hturn : s.turn = none) (hdelivery : s.delivery.registering = none) :
    Handles s where
  owner := by
    intro t ht
    cases hturn.symm.trans ht
  ownerNext := by
    intro x hx
    cases hdelivery.symm.trans hx
  spawned := by
    intro t ht
    cases hturn.symm.trans ht
  spawnedNext := by
    intro x hx
    cases hdelivery.symm.trans hx
  live := by
    intro t x ht
    cases hturn.symm.trans ht
  liveNext := by
    intro t x ht
    cases hturn.symm.trans ht

/-- A posting is for the turn that it was for, whatever has become of its requests. -/
theorem requested (h : Handles s) {o : Outbox}
    (ho : ∀ n, (o.postings n).turn = (s.outbox.postings n).turn) :
    Handles { s with outbox := o } :=
  h.mono (fun _ _ => rfl) (fun t' ht' => .inr ⟨t', ht', .of_core rfl⟩) (Nat.le_refl _)
    (.inr ⟨rfl, rfl, fun t' ht' => ⟨t', ht', .of_core rfl⟩⟩)
    (fun _ n _ hn => .inl ⟨hn, ho n⟩) (fun _ _ _ hi => hi)

theorem finalizes_setTask {i j : Nat} {task : Task}
    (htask : ¬(s.tasks i).Finalizes ∨ task.Finalizes) (hj : (s.tasks j).Finalizes) :
    ((s.setTask i task).tasks j).Finalizes := by
  by_cases heq : j = i
  · rw [heq] at hj
    rw [heq, Chat.setTask_self]
    exact htask.resolve_left (fun hnot => hnot hj)
  · rw [Chat.setTask_of_ne s task heq]
    exact hj

/-- A task goes on: it still finalizes if it did, and what it sends is for the turn. -/
theorem goesOn (h : Handles s) {i : Nat} {task : Task} (hserial : s'.serial = s.serial)
    (hspawned : s'.spawned = s.spawned) (hdelivery : s'.delivery = s.delivery)
    (htasks : s'.tasks = (s.setTask i task).tasks)
    (hturn : ∀ t', s'.turn = some t' → ∃ t, s.turn = some t ∧ Replaces t' t)
    (hposting : ∀ j n, (s.tasks j).posting = some n →
      (s'.outbox.postings n).turn = (s.outbox.postings n).turn)
    (htask : ∀ n, task.posting = some n → (s'.outbox.postings n).turn = s.serial)
    (hfinalizes : ¬(s.tasks i).Finalizes ∨ task.Finalizes) : Handles s' := by
  refine h.mono (fun _ _ => hserial) (fun t' ht' => .inr (hturn t' ht')) hspawned.ge
    (.inr ⟨hdelivery, hserial, hturn⟩) ?_ ?_
  · intro j n _ hn
    rw [htasks] at hn
    rcases Chat.setTask_posting hn with ⟨_, hnew⟩ | ⟨_, hbefore⟩
    · exact .inr (htask n hnew)
    · exact .inl ⟨hbefore, hposting j n hbefore⟩
  · intro j _ _ hfin
    rw [htasks]
    exact finalizes_setTask hfinalizes hfin

/-- The new task is known to the delivery only, which has yet to register it. -/
theorem spawn (h : Handles s) {task : Task} {d : Delivery}
    (hd : d = .registeringFinalize s.spawned ∧ task = .finalizeSleeping ∨
      d = .registeringDebounce s.spawned ∧ task = .debounceSleeping) :
    Handles { s.spawn task with delivery := d } := by
  have hposting : task.posting = none := by
    rcases hd with ⟨_, rfl⟩ | ⟨_, rfl⟩
    · rfl
    · rfl
  have hreg : d.registering = some s.spawned := by
    rcases hd with ⟨rfl, _⟩ | ⟨rfl, _⟩
    · rfl
    · rfl
  have hsame : ∀ i, i < s.spawned → (s.spawn task).tasks i = s.tasks i := fun i hi =>
    Function.update_of_ne (by omega) _ _
  have hnew : (s.spawn task).tasks s.spawned = task := Function.update_self ..
  refine ⟨?_, ?_, ?_, ?_, ?_, ?_⟩
  · intro t ht x hx n hn
    have hlt := h.spawned t ht x hx
    exact h.owner t ht x hx n (by rw [← hsame x hlt]; exact hn)
  · intro x hx n hn
    cases hreg.symm.trans hx
    have hcon : task.posting = some n := by rw [← hnew]; exact hn
    rw [hposting] at hcon
    cases hcon
  · intro t ht x hx
    exact Nat.lt_succ_of_lt (h.spawned t ht x hx)
  · intro x hx
    cases hreg.symm.trans hx
    exact Nat.lt_succ_self _
  · intro t x ht hx
    have hlt := h.spawned t ht x (ChatTurn.mem_cleanupHandles.mpr (.inl hx))
    have hlive := h.live t x ht hx
    rw [← hsame x hlt] at hlive
    exact hlive
  · intro t x ht hx
    have hdx : d = .registeringFinalize x := hx
    rcases hd with ⟨rfl, rfl⟩ | ⟨rfl, rfl⟩
    · cases hdx
      refine ⟨?_, ?_⟩
      · have hfin : ((s.spawn .finalizeSleeping).tasks s.spawned).Finalizes := by
          rw [hnew]
          trivial
        exact hfin
      · intro hcon
        exact absurd (h.spawned t ht _ (ChatTurn.mem_cleanupHandles.mpr (.inl hcon)))
          (Nat.lt_irrefl _)
    · cases hdx

/-- The task that the turn knew before is aborted, and the new one takes its place. -/
theorem registerFinalize (h : Handles s) {handle : Nat} {t : ChatTurn}
    (hdelivery : s.delivery = .registeringFinalize handle) (ht : s.turn = some t) :
    Handles { s.abortAll t.finalizeHandle.toList with
      turn := some (t.beginFinalizing handle), delivery := .idle } := by
  obtain ⟨hlive, hfresh⟩ := h.liveNext t handle ht hdelivery
  have hreg : s.delivery.registering = some handle := by rw [hdelivery]; rfl
  have hkeep : handle ∉ t.finalizeHandle.toList := by
    rw [Option.mem_toList, t.mem_finalizeHandle]
    exact hfresh
  have hhandles : ∀ x ∈ (t.beginFinalizing handle).cleanupHandles,
      x = handle ∨ x ∈ t.cleanupHandles := by
    intro x hx
    rw [ChatTurn.mem_cleanupHandles] at hx ⊢
    rcases hx with hx | hx
    · cases hx
      exact .inl rfl
    · exact .inr (.inr hx)
  refine ⟨?_, fun x hx => (by cases hx), ?_, fun x hx => (by cases hx), ?_,
    fun t x _ hx => (by cases hx)⟩
  · intro t' ht' x hx n hn
    cases ht'
    obtain ⟨_, hbefore⟩ := Chat.abortAll_posting hn
    have hturn : (s.outbox.postings n).turn = s.serial := by
      rcases hhandles x hx with rfl | hmem
      · exact h.ownerNext x hreg n hbefore
      · exact h.owner t ht x hmem n hbefore
    exact (Outbox.cutWhere_fields _ _ n).1.trans hturn
  · intro t' ht' x hx
    cases ht'
    rcases hhandles x hx with rfl | hmem
    · exact h.spawnedNext x hreg
    · exact h.spawned t ht x hmem
  · intro t' x ht' hx
    cases ht'
    cases hx
    have hfin : ((s.abortAll t.finalizeHandle.toList).tasks handle).Finalizes := by
      rw [Chat.abortAll_of_not_mem s hkeep]
      exact hlive
    exact hfin

theorem registerDebounce (h : Handles s) {handle : Nat}
    (hdelivery : s.delivery = .registeringDebounce handle) :
    Handles { s with turn := s.turn.map (Chat.setDebounceHandle handle), delivery := .idle } := by
  have hreg : s.delivery.registering = some handle := by rw [hdelivery]; rfl
  have hhandles : ∀ t' t, t' = Chat.setDebounceHandle handle t → t'.phase = t.phase ∧
      ∀ x ∈ t'.cleanupHandles, x = handle ∨ x ∈ t.cleanupHandles := by
    rintro t' t rfl
    rcases Chat.core_setDebounceHandle (t := t) handle with hcore | hcore
    · refine ⟨congrArg TurnCore.phase hcore, ?_⟩
      intro x hx
      rw [cleanupHandles_of_core hcore] at hx
      exact .inr hx
    · have hphase : (Chat.setDebounceHandle handle t).phase = t.phase :=
        congrArg TurnCore.phase hcore
      have hhandle : (Chat.setDebounceHandle handle t).debounceHandle = some handle :=
        congrArg TurnCore.debounceHandle hcore
      refine ⟨hphase, ?_⟩
      intro x hx
      rw [ChatTurn.mem_cleanupHandles, hphase, hhandle] at hx
      rw [ChatTurn.mem_cleanupHandles]
      rcases hx with hx | hx
      · exact .inr (.inl hx)
      · cases hx
        exact .inl rfl
  refine ⟨?_, fun x hx => (by cases hx), ?_, fun x hx => (by cases hx), ?_,
    fun t x _ hx => (by cases hx)⟩
  · intro t' ht' x hx n hn
    obtain ⟨t, ht, heq⟩ := Option.map_eq_some_iff.mp ht'
    rcases (hhandles t' t heq.symm).2 x hx with rfl | hmem
    · exact h.ownerNext x hreg n hn
    · exact h.owner t ht x hmem n hn
  · intro t' ht' x hx
    obtain ⟨t, ht, heq⟩ := Option.map_eq_some_iff.mp ht'
    rcases (hhandles t' t heq.symm).2 x hx with rfl | hmem
    · exact h.spawnedNext x hreg
    · exact h.spawned t ht x hmem
  · intro t' x ht' hx
    obtain ⟨t, ht, heq⟩ := Option.map_eq_some_iff.mp ht'
    rw [(hhandles t' t heq.symm).1] at hx
    exact h.live t x ht hx

/-- What a task waits for keeps its turn when something new is sent. -/
theorem post_turn (hnum : Numbered s) {turn msgId i n : Nat} {source : String}
    {parts : List String} {whole : Bool} (hn : (s.tasks i).posting = some n) :
    ((s.outbox.post turn source msgId parts whole).postings n).turn
      = (s.outbox.postings n).turn := by
  have hlt := hnum.tasks i n hn
  rw [Outbox.post_postings_of_ne _ _ _ _ _ _ (by omega)]

theorem step {tg : Settings} {l : ChatLabel} (h : Handles s) (hnum : Numbered s)
    (hown : OwnTurn s l) (heff : s.Effect tg l s') : Handles s' := by
  have hkept : ∀ {t' : ChatTurn} {turn : Option ChatTurn}, turn.map ChatTurn.core = s.core →
      turn = some t' → ∃ t, s.turn = some t ∧ Replaces t' t := by
    intro t' turn hturn ht'
    obtain ⟨t, ht, hcore⟩ := exists_of_core hturn ht'
    exact ⟨t, ht, .of_core hcore⟩
  cases heff with
  | still l turn now hturn =>
      exact h.mono (fun _ _ => rfl) (fun t' ht' => .inr (hkept hturn ht')) (Nat.le_refl _)
        (.inr ⟨rfl, rfl, fun t' ht' => hkept hturn ht'⟩) (fun i n _ hn => .inl ⟨hn, rfl⟩)
        (fun i _ _ hi => hi)
  | moved l turn d hturn hlanded hd hskips =>
      exact h.mono (fun _ _ => rfl) (fun t' ht' => .inr (hkept hturn ht')) (Nat.le_refl _)
        (.inl hd.registering) (fun i n _ hn => .inl ⟨hn, rfl⟩) (fun i _ _ hi => hi)
  | dropped l t d ht hflushed hlanded hempty hd => exact .of_none rfl hd.registering
  | flushed l t d ht hflushed hlanded htext hd => exact .of_none rfl hd.registering
  | entered t text d ht hlanded hfrom hd =>
      refine h.mono ?_ ?_ (Nat.le_refl _) (.inl ?_) (fun i n _ hn => .inl ⟨hn, rfl⟩)
        (fun i _ _ hi => hi)
      · intro _ hsome
        obtain ⟨t₀, ht₀⟩ := Option.isSome_iff_exists.mp hsome
        exact Chat.enteredSerial_of_some ht₀
      · intro t' ht'
        cases ht'
        cases hturn : s.turn with
        | none =>
            rw [Chat.enteredCore_of_none hturn] at ht
            have hphase : t.phase = .active := congrArg TurnCore.phase ht
            have hhandle : t.debounceHandle = none := congrArg TurnCore.debounceHandle ht
            refine .inl ⟨?_, hphase⟩
            rw [ChatTurn.cleanupHandles, ChatTurn.finalizeHandle, hphase, hhandle]
            rfl
        | some t₀ =>
            rw [Chat.enteredCore_of_some hturn] at ht
            exact .inr ⟨t₀, rfl, .of_fields (congrArg TurnCore.phase ht)
              (.inl (congrArg TurnCore.debounceHandle ht))⟩
      · rcases hd with ⟨hd, _⟩ | ⟨rfl, _⟩
        · exact hd.registering
        · rfl
  | enteredLate text messageId p t₀ t hdelivery ht₀ ht hlanded hphase hid htext =>
      refine h.mono (fun _ _ => Chat.enteredSerial_of_some ht₀) ?_ (Nat.le_refl _) (.inl rfl)
        (fun i n _ hn => .inl ⟨hn, post_turn hnum hn⟩) (fun i _ _ hi => hi)
      intro t' ht'
      cases ht'
      exact .inr ⟨t₀, ht₀, .of_fields (congrArg TurnCore.phase ht)
        (.inl (congrArg TurnCore.debounceHandle ht))⟩
  | spawned task d hlanded hfrom hd => exact h.spawn hd
  | registeredFinalize handle t hdelivery ht => exact h.registerFinalize hdelivery ht
  | registeredDebounce handle hdelivery => exact h.registerDebounce hdelivery
  | edited accumulated msgId t t' hdelivery ht ht' =>
      refine h.mono (fun _ _ => rfl) ?_ (Nat.le_refl _) (.inl rfl)
        (fun i n _ hn => .inl ⟨hn, post_turn hnum hn⟩) (fun i _ _ hi => hi)
      intro t'' ht''
      cases ht''
      exact .inr ⟨t, ht, .of_core ht'⟩
  | debounced i task hi htask =>
      refine h.goesOn rfl rfl rfl rfl (fun t' ht' => ⟨t', ht', .of_core rfl⟩)
        (fun _ _ _ => rfl) ?_ (.inl ?_)
      · intro n hn
        rcases htask with rfl | ⟨_, text, rfl⟩
        · cases hn
        · cases hn
      · rcases hi with hi | ⟨g, text, hi⟩ | ⟨n, hi, _⟩
        · rw [hi]
          exact id
        · rw [hi]
          exact id
        · rw [hi]
          exact id
  | debounceClaimed i turn accumulated t t' hi ht hfree ht' =>
      have hturn := hown.of_claim hi ht hfree
      refine h.goesOn rfl rfl rfl rfl ?_ (fun _ _ hn => post_turn hnum hn) ?_ (.inl ?_)
      · intro t'' ht''
        cases ht''
        exact ⟨t, ht, .of_claimed ht'⟩
      · intro n hn
        cases hn
        exact (congrArg Posting.turn (Outbox.post_postings_self ..)).trans hturn
      · rw [hi]
        exact id
  | debounceStored i n hi hlanded hreply =>
      refine h.goesOn rfl rfl rfl rfl ?_ (fun _ _ _ => rfl) (fun m hm => (by cases hm)) (.inl ?_)
      · intro t' ht'
        obtain ⟨t, ht, rfl⟩ := Option.map_eq_some_iff.mp ht'
        refine ⟨t, ht, ?_⟩
        cases hresponse : t.response with
        | none => exact .of_core (Chat.setMsgId_of_none _ hresponse)
        | some track =>
            have hcore := Chat.core_setMsgId (s.outbox.postings n).reply hresponse
            exact .of_fields (congrArg TurnCore.phase hcore)
              (.inr (congrArg TurnCore.debounceHandle hcore))
      · rw [hi]
        exact id
  | finalizeEmpty i turn hi hturn =>
      refine h.goesOn rfl rfl rfl rfl ?_ (fun _ _ _ => rfl) (fun m hm => (by cases hm))
        (.inr trivial)
      intro t' ht'
      rcases hturn with ⟨hturn, _⟩ | ⟨t, t'', ht, hturn, _, _, hcore⟩
      · exact hkept hturn ht'
      · cases hturn.symm.trans ht'
        exact ⟨t, ht, .of_claimed hcore⟩
  | finalizeClaimed i t t' hi ht hfree htext ht' =>
      refine h.goesOn rfl rfl rfl rfl ?_ (fun _ _ hn => post_turn hnum hn) ?_ (.inr trivial)
      · intro t'' ht''
        cases ht''
        exact ⟨t, ht, .of_claimed ht'⟩
      · intro n hn
        cases hn
        exact congrArg Posting.turn (Outbox.post_postings_self ..)
  | removed i p hi hlanded =>
      refine h.mono (fun hsome => (by cases hsome)) (fun t' ht' => (by cases ht')) (Nat.le_refl _)
        (.inr ⟨rfl, rfl, fun t' ht' => (by cases ht')⟩) ?_ (fun j _ hsome => (by cases hsome))
      intro j n _ hn
      rcases Chat.setTask_posting hn with ⟨_, hcon⟩ | ⟨_, hn⟩
      · cases hcon
      · exact .inl ⟨hn, rfl⟩
  | sent l n r rest next answered hpending htarget hends =>
      exact h.requested fun m => Outbox.send_turn m
  | replaced l n k r rest next answered hpending htarget hends =>
      exact h.requested fun m => Outbox.replace_turn m k
  | delayed l n r rest next hpending hdelays => exact h.requested fun m => Outbox.keep_turn m

end Handles

theorem handles {tg : Settings} {G : Chat → ChatLabel → Prop} {s : Chat}
    (hG : ∀ s l, G s l → OwnTurn s l) (h : (chat tg).ReachableUnder G s) : Handles s := by
  refine h.invariant (I := Handles) ?_ ?_
  · rintro s rfl
    exact ⟨fun t ht => (nomatch ht), fun x hx => (nomatch hx), fun t ht => (nomatch ht),
      fun x hx => (nomatch hx), fun t x ht => (nomatch ht), fun t x ht => (nomatch ht)⟩
  · intro s l s' hreach hs hguard hstep
    exact hs.step (numbered hreach) (hG s l hguard) (effect_of_step hstep)

/-! ### Who waits for a posting -/

def Chat.Awaits (s : Chat) (n : Nat) : Prop :=
  s.delivery.posting = some n ∨ ∃ i, (s.tasks i).posting = some n

/-- What is on its way and was not cut off has someone who waits for it. -/
def Awaited (s : Chat) : Prop :=
  ∀ n, n < s.outbox.posted → (s.outbox.postings n).cut = false →
    (s.outbox.postings n).pending ≠ [] → s.Awaits n

theorem landed_some {o : Outbox} {n : Nat} (h : o.landed (some n) = true) :
    (o.postings n).pending = [] :=
  List.isEmpty_iff.mp h

theorem landed_of_eq {o : Outbox} {p : Option Nat} {n : Nat} (h : o.landed p = true)
    (hp : p = some n) : (o.postings n).pending = [] := by
  rw [hp] at h
  exact landed_some h

/-- What is aborted is cut off, unless nothing of it was still to come. -/
theorem abortAll_awaits {s : Chat} {hs : List Nat} {i n : Nat} (hi : i ∈ hs)
    (hn : (s.tasks i).posting = some n)
    (hcut : ((s.abortAll hs).outbox.postings n).cut = false) :
    ((s.abortAll hs).outbox.postings n).pending = [] := by
  have hoff : (s.abortAll hs).outbox.postings n = (s.outbox.postings n).cutOff :=
    if_pos ⟨i, hi, hn⟩
  rw [hoff] at hcut ⊢
  have hnil := Outbox.cutOff_of_uncut hcut
  simp only [Posting.cutOff, hnil]
  rfl

/-- What is left of a posting after an abort, when it was not cut off. -/
theorem abortAll_uncut {s : Chat} {hs : List Nat} {n : Nat}
    (hcut : ((s.abortAll hs).outbox.postings n).cut = false)
    (hpending : ((s.abortAll hs).outbox.postings n).pending ≠ []) :
    (s.abortAll hs).outbox.postings n = s.outbox.postings n := by
  by_cases hP : ∃ h ∈ hs, (s.tasks h).posting = some n
  · obtain ⟨i, hi, hn⟩ := hP
    exact absurd (abortAll_awaits hi hn hcut) hpending
  · exact if_neg hP

namespace Awaited

variable {s s' : Chat}

theorem mono (h : Awaited s)
    (hold : ∀ n, n < s'.outbox.posted → (s'.outbox.postings n).cut = false →
      (s'.outbox.postings n).pending ≠ [] → s'.Awaits n ∨
        n < s.outbox.posted ∧ (s.outbox.postings n).cut = false ∧
          (s.outbox.postings n).pending ≠ [])
    (hdelivery : ∀ n, s.delivery.posting = some n → (s.outbox.postings n).pending ≠ [] →
      s'.Awaits n)
    (htask : ∀ i n, (s.tasks i).posting = some n → (s'.outbox.postings n).cut = false →
      (s'.outbox.postings n).pending ≠ [] → s'.Awaits n) : Awaited s' := by
  intro n hn hcut hpending
  rcases hold n hn hcut hpending with hdone | ⟨hlt, hcut', hpending'⟩
  · exact hdone
  · rcases h n hlt hcut' hpending' with hdel | ⟨i, hi⟩
    · exact hdelivery n hdel hpending'
    · exact htask i n hi hcut hpending

/-- What is on its way after something new is sent was on its way before, or is the new one. -/
theorem post_pending {o : Outbox} {turn msgId n : Nat} {source : String} {parts : List String}
    {whole : Bool} (hn : n < o.posted + 1)
    (hcut : ((o.post turn source msgId parts whole).postings n).cut = false)
    (hpending : ((o.post turn source msgId parts whole).postings n).pending ≠ []) :
    n = o.posted ∨
      n < o.posted ∧ (o.postings n).cut = false ∧ (o.postings n).pending ≠ [] := by
  by_cases heq : n = o.posted
  · exact .inl heq
  · rw [Outbox.post_postings_of_ne _ _ _ _ _ _ heq] at hcut hpending
    exact .inr ⟨by omega, hcut, hpending⟩

/-- The tasks other than the one that goes on still wait. -/
theorem awaits_setTask {i j n : Nat} {task : Task} (htasks : s'.tasks = (s.setTask i task).tasks)
    (hi : ∀ n, (s.tasks i).posting = some n → (s.outbox.postings n).pending = [])
    (hj : (s.tasks j).posting = some n) (hpending : (s.outbox.postings n).pending ≠ []) :
    s'.Awaits n := by
  have hne : j ≠ i := by
    rintro rfl
    exact hpending (hi n hj)
  refine .inr ⟨j, ?_⟩
  rw [htasks, Chat.setTask_of_ne s task hne]
  exact hj

/-- A task goes on that has nothing left to wait for. -/
theorem goesOn (h : Awaited s) {i : Nat} {task : Task} (houtbox : s'.outbox = s.outbox)
    (htasks : s'.tasks = (s.setTask i task).tasks)
    (hi : ∀ n, (s.tasks i).posting = some n → (s.outbox.postings n).pending = [])
    (hdelivery : ∀ n, s.delivery.posting = some n → (s.outbox.postings n).pending ≠ [] →
      s'.Awaits n) : Awaited s' := by
  refine h.mono ?_ hdelivery ?_
  · rw [houtbox]
    exact fun n hn hcut hpending => .inr ⟨hn, hcut, hpending⟩
  · rw [houtbox]
    exact fun j n hj _ hpending => awaits_setTask htasks hi hj hpending

/-- A task that claims the turn sends something and waits for it. -/
theorem claimed (h : Awaited s) (hnum : Numbered s) {i turn msgId : Nat} {task : Task}
    {source : String} {parts : List String} {whole : Bool} (hi : (s.tasks i).posting = none)
    (htask : task.posting = some s.outbox.posted) (htasks : s'.tasks = (s.setTask i task).tasks)
    (houtbox : s'.outbox = s.outbox.post turn source msgId parts whole)
    (hdelivery : s'.delivery = s.delivery) : Awaited s' := by
  refine h.mono ?_ (fun n hn _ => .inl (by rw [hdelivery]; exact hn)) ?_
  · rw [houtbox]
    intro n hn hcut hpending
    rcases post_pending hn hcut hpending with rfl | hrest
    · refine .inl (.inr ⟨i, ?_⟩)
      rw [htasks, Chat.setTask_self, htask]
    · exact .inr hrest
  · rw [houtbox]
    intro j n hj hcut hpending
    have hlt := hnum.tasks j n hj
    rcases post_pending (Nat.lt_succ_of_lt hlt) hcut hpending with rfl | ⟨_, _, hpending'⟩
    · exact absurd hlt (Nat.lt_irrefl _)
    · refine awaits_setTask htasks ?_ hj hpending'
      intro m hm
      rw [hi] at hm
      cases hm

/-- The delivery, which had nothing left to wait for, sends something and waits for it. -/
theorem posted (h : Awaited s) {turn msgId : Nat} {source : String} {parts : List String}
    {whole : Bool} (hgone : ∀ n, s.delivery.posting = some n → (s.outbox.postings n).pending = [])
    (htasks : s'.tasks = s.tasks)
    (houtbox : s'.outbox = s.outbox.post turn source msgId parts whole)
    (hdelivery : s'.delivery.posting = some s.outbox.posted) : Awaited s' := by
  refine h.mono ?_ (fun n hn hpending => absurd (hgone n hn) hpending) ?_
  · rw [houtbox]
    intro n hn hcut hpending
    rcases post_pending hn hcut hpending with rfl | hrest
    · exact .inl (.inl hdelivery)
    · exact .inr hrest
  · intro i n hi _ _
    refine .inr ⟨i, ?_⟩
    rw [htasks]
    exact hi

/-- What an aborted task was waiting for is cut off. -/
theorem abortAll (h : Awaited s) {hs : List Nat} (houtbox : s'.outbox = (s.abortAll hs).outbox)
    (htasks : s'.tasks = (s.abortAll hs).tasks)
    (hgone : ∀ n, s.delivery.posting = some n → (s.outbox.postings n).pending = []) :
    Awaited s' := by
  refine h.mono ?_ (fun n hn hpending => absurd (hgone n hn) hpending) ?_
  · rw [houtbox]
    intro n hn hcut hpending
    have hsame := abortAll_uncut hcut hpending
    rw [hsame] at hcut hpending
    exact .inr ⟨hn, hcut, hpending⟩
  · rw [houtbox]
    intro i n hi hcut hpending
    have hkeep : i ∉ hs := fun hmem => hpending (abortAll_awaits hmem hi hcut)
    refine .inr ⟨i, ?_⟩
    rw [htasks, Chat.abortAll_of_not_mem s hkeep]
    exact hi

/-- A request of a posting has ended, and what was on its way is waited for as before. -/
theorem requested (h : Awaited s) {o : Outbox} {n : Nat} (hposted : o.posted = s.outbox.posted)
    (hcut : (o.postings n).cut = (s.outbox.postings n).cut)
    (hpending : (s.outbox.postings n).pending ≠ [])
    (hother : ∀ j, j ≠ n → o.postings j = s.outbox.postings j) :
    Awaited { s with outbox := o } := by
  refine h.mono ?_ (fun n hn _ => .inl hn) (fun i n hi _ _ => .inr ⟨i, hi⟩)
  intro j hj hc hp
  have hlt : j < s.outbox.posted := Nat.lt_of_lt_of_eq hj hposted
  by_cases heq : j = n
  · rw [heq] at hlt hc ⊢
    exact .inr ⟨hlt, hcut.symm.trans hc, hpending⟩
  · have hsame := hother j heq
    have hc' : (o.postings j).cut = false := hc
    have hp' : (o.postings j).pending ≠ [] := hp
    rw [hsame] at hc' hp'
    exact .inr ⟨hlt, hc', hp'⟩

theorem step {tg : Settings} {l : ChatLabel} (h : Awaited s) (hnum : Numbered s)
    (heff : s.Effect tg l s') : Awaited s' := by
  -- a delivery that goes on has nothing left to wait for
  have hgone : s.outbox.landed s.delivery.posting = true → ∀ n, s.delivery.posting = some n →
      (s.outbox.postings n).pending = [] := fun hlanded n hn => landed_of_eq hlanded hn
  have hleaves : s.outbox.landed s.delivery.posting = true → ∀ n, s.delivery.posting = some n →
      (s.outbox.postings n).pending ≠ [] → s'.Awaits n :=
    fun hlanded n hn hpending => absurd (hgone hlanded n hn) hpending
  have hnone : s.delivery.posting = none → ∀ n, s.delivery.posting = some n →
      (s.outbox.postings n).pending = [] := by
    intro hnil n hn
    cases hnil.symm.trans hn
  cases heff with
  | still l turn now hturn => exact h
  | moved l turn d hturn hlanded hd hskips =>
      exact h.mono (fun n hn hc hp => .inr ⟨hn, hc, hp⟩) (hleaves hlanded)
        (fun i n hn _ _ => .inr ⟨i, hn⟩)
  | dropped l t d ht hflushed hlanded hempty hd => exact h.abortAll rfl rfl (hgone hlanded)
  | flushed l t d ht hflushed hlanded htext hd =>
      have habort : Awaited { s.abortAll t.cleanupHandles with delivery := .idle } :=
        h.abortAll rfl rfl (hgone hlanded)
      exact habort.posted (fun n hn => (by cases hn)) rfl rfl hd.posting
  | entered t text d ht hlanded hfrom hd =>
      exact h.mono (fun n hn hc hp => .inr ⟨hn, hc, hp⟩) (hleaves hlanded)
        (fun i n hn _ _ => .inr ⟨i, hn⟩)
  | enteredLate text messageId p t₀ t hdelivery ht₀ ht hlanded hphase hid htext =>
      exact h.posted (hgone hlanded) rfl rfl rfl
  | spawned task d hlanded hfrom hd =>
      refine h.goesOn (i := s.spawned) rfl rfl ?_ (hleaves hlanded)
      intro n hn
      rw [hnum.unspawned s.spawned (Nat.le_refl _)] at hn
      cases hn
  | registeredFinalize handle t hdelivery ht =>
      exact h.abortAll rfl rfl (hnone (by rw [hdelivery]; rfl))
  | registeredDebounce handle hdelivery =>
      refine h.mono (fun n hn hc hp => .inr ⟨hn, hc, hp⟩) ?_ (fun i n hn _ _ => .inr ⟨i, hn⟩)
      intro n hn
      rw [hdelivery] at hn
      cases hn
  | edited accumulated msgId t t' hdelivery ht ht' =>
      exact h.posted (hnone (by rw [hdelivery]; rfl)) rfl rfl rfl
  | debounced i task hi htask =>
      refine h.goesOn (i := i) rfl rfl ?_ (fun n hn _ => .inl hn)
      intro n hn
      rcases hi with hi | ⟨g, text, hi⟩ | ⟨n', hi, hlanded⟩
      · rw [hi] at hn
        cases hn
      · rw [hi] at hn
        cases hn
      · rw [hi] at hn
        exact landed_of_eq hlanded hn
  | debounceClaimed i turn accumulated t t' hi ht hfree ht' =>
      exact h.claimed hnum (i := i) (by rw [hi]; rfl) rfl rfl rfl rfl
  | debounceStored i n hi hlanded hreply =>
      refine h.goesOn (i := i) rfl rfl ?_ (fun n hn _ => .inl hn)
      intro m hm
      rw [hi] at hm
      exact landed_of_eq hlanded hm
  | finalizeEmpty i turn hi hturn =>
      refine h.goesOn (i := i) rfl rfl ?_ (fun n hn _ => .inl hn)
      intro m hm
      rw [hi] at hm
      cases hm
  | finalizeClaimed i t t' hi ht hfree htext ht' =>
      exact h.claimed hnum (i := i) (by rw [hi]; rfl) rfl rfl rfl rfl
  | removed i p hi hlanded =>
      refine h.goesOn (i := i) rfl rfl ?_ (fun n hn _ => .inl hn)
      intro m hm
      rw [hi] at hm
      exact landed_of_eq hlanded hm
  | sent l n r rest next answered hpending htarget hends =>
      exact h.requested (n := n) rfl (by rw [Outbox.send_postings_self])
        (by rw [hpending]; exact List.cons_ne_nil r rest)
        (fun j hj => Outbox.send_postings_of_ne hj)
  | replaced l n k r rest next answered hpending htarget hends =>
      exact h.requested (n := n) rfl (by rw [Outbox.replace_postings_self])
        (by rw [hpending]; exact List.cons_ne_nil r rest)
        (fun j hj => Outbox.replace_postings_of_ne hj)
  | delayed l n r rest next hpending hdelays =>
      exact h.requested (n := n) rfl (by rw [Outbox.keep_postings_self])
        (by rw [hpending]; exact List.cons_ne_nil r rest)
        (fun j hj => Outbox.keep_postings_of_ne hj)

end Awaited

theorem awaited {tg : Settings} {G : Chat → ChatLabel → Prop} {s : Chat}
    (h : (chat tg).ReachableUnder G s) : Awaited s := by
  refine h.invariant (I := Awaited) ?_ ?_
  · rintro s rfl n hn
    exact absurd hn (Nat.not_lt_zero n)
  · intro s l s' hreach hs _ hstep
    exact hs.step (numbered hreach) (effect_of_step hstep)

end Anyclaw.Telegram
