import Anyclaw.Telegram.Tracking
import Anyclaw.Telegram.TurnTasks
import Mathlib.Data.List.Sublists

/-!
# The user sees the whole answer

Once the timers of a turn have fired, the messages of the turn should show everything that
was appended to its response.  The finalization timer of `deliver_to_chat`
(`ext/channels/telegram/src/deliver.rs`) is to see to that, but it shares a one-shot right to
send (`try_finalize_response`, `turn.rs`) with the debounce task: when the debounce task has
sent the first message, the finalization timer sends nothing, and what came after the last
edit, or does not fit in the first message, is never shown.

What holds is this.  When the requests succeed and what comes after the right to send was taken
is shown at once (the id of the first message is stored, the cooldown is over, and one message
is enough), every turn is shown whole.

* `Orderly`: the conditions on the steps.
* `Current`: once the right to send is taken, the last posting for the turn carries its text.
* `Kept`: so does the last posting for a turn that is over.
* `showsText_of_orderly`: what the user sees.
-/

namespace Anyclaw.Telegram

/-! ### Steps that leave nothing behind -/

/-- One message is enough for the text, with the tags that are still open closed. -/
def FitsOne (tg : Settings) (text : String) : Prop :=
  (messageParts (closeOpenTags (tg.formatTelegramHtml text))).length ≤ 1

instance (tg : Settings) (text : String) : Decidable (FitsOne tg text) := by
  unfold FitsOne
  infer_instance

/-- What comes after the right to send was taken is shown at once: a chunk finds the id of the
    first message stored, the cooldown over and room in that message; no error follows; the
    result does not abort a finalization task that is sending.  A debounce task sends all there
    is, and a finalization task removes only the turn that it was started for. -/
def ShowsNext (tg : Settings) (s : Chat) : ChatLabel → Prop
  | .deliver =>
      match s.delivery with
      | .flushingForChunk _ _ _ => ∀ t ∈ s.turn, t.responseFinalized = true → t.msgId ≠ 0
      | .resulting isError text _ =>
          isError = true ∧ text ≠ "" → ∀ t ∈ s.turn, t.responseFinalized = false
      | .tryingEdit accumulated _ =>
          FitsOne tg accumulated ∧ ∀ t ∈ s.turn,
            (t.canEditResponse tg.responseEditCooldownMs s.now).1 = true
      | .registeringFinalize _ =>
          ∀ t ∈ s.turn, ∀ h ∈ t.finalizeHandle, s.outbox.landed (s.tasks h).posting = true
      | _ => True
  | .fire i =>
      match s.tasks i with
      | .debounceRead _ accumulated =>
          ∀ t ∈ s.turn, t.responseFinalized = false →
            accumulated = t.buffer ∧ FitsOne tg accumulated
      | .finalizePosting _ =>
          ∀ t ∈ s.turn, t.phase = .finalizing i ∨ s.delivery = .registeringFinalize i
      | _ => True
  | _ => True

instance (tg : Settings) (s : Chat) (l : ChatLabel) : Decidable (ShowsNext tg s l) := by
  induction l using ChatLabel.casesOn with
  | deliver =>
      dsimp only [ShowsNext]
      generalize s.delivery = d
      induction d using Delivery.casesOn <;> infer_instance
  | fire i =>
      dsimp only [ShowsNext]
      generalize s.tasks i = task
      induction task using Task.casesOn <;> infer_instance
  | receive | land | fail | retry | wait => exact isTrue trivial

/-- A debounce task goes on only with the turn it has read, edits take effect in order, no
    request fails, and what comes late is shown at once. -/
def Orderly (tg : Settings) (s : Chat) (l : ChatLabel) : Prop :=
  OwnTurn s l ∧ EditsInOrder s l ∧ Succeeds l ∧ ShowsNext tg s l

instance (tg : Settings) (s : Chat) (l : ChatLabel) : Decidable (Orderly tg s l) := by
  unfold Orderly
  infer_instance

section ShowsNext

variable {tg : Settings} {s : Chat} {t : ChatTurn} {i : Nat}

theorem ShowsNext.of_chunk (h : ShowsNext tg s .deliver) {text : String}
    {messageId : Option String} {p : Option Nat}
    (hdelivery : s.delivery = .flushingForChunk text messageId p) (ht : s.turn = some t)
    (htaken : t.responseFinalized = true) : t.msgId ≠ 0 := by
  simp only [ShowsNext, hdelivery] at h
  exact h t ht htaken

theorem ShowsNext.of_result (h : ShowsNext tg s .deliver) {isError : Bool} {text : String}
    {messageId : Option String} (hdelivery : s.delivery = .resulting isError text messageId)
    (ht : s.turn = some t) (htaken : t.responseFinalized = true) :
    Chat.errorText isError text = "" := by
  simp only [ShowsNext, hdelivery] at h
  refine if_neg ?_
  intro herror
  rw [h herror t ht] at htaken
  cases htaken

theorem ShowsNext.of_edit (h : ShowsNext tg s .deliver) {text : String} {k : Nat}
    (hdelivery : s.delivery = .tryingEdit text k) : FitsOne tg text ∧ ∀ t, s.turn = some t →
      (t.canEditResponse tg.responseEditCooldownMs s.now).1 = true := by
  simp only [ShowsNext, hdelivery] at h
  exact h

theorem ShowsNext.of_register (h : ShowsNext tg s .deliver) {x y : Nat}
    (hdelivery : s.delivery = .registeringFinalize y) (ht : s.turn = some t)
    (hx : x ∈ t.finalizeHandle) : s.outbox.landed (s.tasks x).posting = true := by
  simp only [ShowsNext, hdelivery] at h
  exact h t ht x hx

theorem ShowsNext.of_claim (h : ShowsNext tg s (.fire i)) {turn : Nat} {text : String}
    (hi : s.tasks i = .debounceRead turn text) (ht : s.turn = some t)
    (hfree : t.responseFinalized = false) : text = t.buffer ∧ FitsOne tg text := by
  simp only [ShowsNext, hi] at h
  exact h t ht hfree

theorem ShowsNext.of_remove (h : ShowsNext tg s (.fire i)) {p : Option Nat}
    (hi : s.tasks i = .finalizePosting p) (ht : s.turn = some t) :
    t.phase = .finalizing i ∨ s.delivery = .registeringFinalize i := by
  simp only [ShowsNext, hi] at h
  exact h t ht

end ShowsNext

/-! ### What was sent for the turn of the chat -/

/-- The posting was made from the text, with every part of it, and was not cut off. -/
def Outbox.Carries (o : Outbox) (n : Nat) (text : String) : Prop :=
  (o.postings n).source = text ∧ (o.postings n).whole = true ∧ (o.postings n).cut = false

namespace Outbox

variable {o : Outbox} {n : Nat} {text : String}

theorem Carries.of_eq {o' : Outbox} (h : o.Carries n text)
    (heq : o'.postings n = o.postings n) : o'.Carries n text := by
  rw [Carries, heq]
  exact h

theorem carries_post (o : Outbox) (turn msgId : Nat) (source : String) (parts : List String)
    {whole : Bool} (hwhole : whole = true) :
    (o.post turn source msgId parts whole).Carries o.posted source := by
  rw [Carries, post_postings_self]
  exact ⟨rfl, hwhole, rfl⟩

section Land

variable {j : Nat} {r : Request} {next : List Request} {answered : Bool}

theorem Carries.send (h : o.Carries n text) : (o.send j r next answered).Carries n text := by
  by_cases heq : n = j
  · rw [heq] at h ⊢
    rw [Carries, send_postings_self]
    exact h
  · exact h.of_eq (send_postings_of_ne heq)

theorem Carries.replace (h : o.Carries n text) (k : Nat) :
    (o.replace j k r next).Carries n text := by
  by_cases heq : n = j
  · rw [heq] at h ⊢
    rw [Carries, replace_postings_self]
    exact h
  · exact h.of_eq (replace_postings_of_ne heq)

theorem Carries.keep (h : o.Carries n text) : (o.keep j next).Carries n text := by
  by_cases heq : n = j
  · rw [heq] at h ⊢
    rw [Carries, keep_postings_self]
    exact h
  · exact h.of_eq (keep_postings_of_ne heq)

end Land

/-- An abort does not harm a posting that is through. -/
theorem Carries.cutWhere (h : o.Carries n text) (P : Nat → Prop) [DecidablePred P]
    (hthrough : P n → (o.postings n).pending = []) : (o.cutWhere P).Carries n text := by
  by_cases hP : P n
  · have hoff : (o.cutWhere P).postings n = (o.postings n).cutOff := if_pos hP
    rw [Carries, hoff, Posting.cutOff, hthrough hP]
    obtain ⟨hsource, hwhole, hcut⟩ := h
    exact ⟨hsource, hwhole, by rw [hcut]; rfl⟩
  · exact h.of_eq (cutWhere_of_not o P hP)

end Outbox

/-- Once the right to send is taken, the last posting for the turn carries its text, or an edit
    with its text is about to be tried.  A finalization task of the turn has taken it. -/
structure Current (s : Chat) : Prop where
  carried : ∀ c, s.core = some c → c.responseFinalized = true → c.buffer ≠ "" →
    (∃ k, s.delivery = .tryingEdit c.buffer k) ∨
      ∃ n, s.outbox.latest s.serial = some n ∧ s.outbox.Carries n c.buffer
  editing : ∀ c text k, s.core = some c → s.delivery = .tryingEdit text k →
    text = c.buffer ∧ c.phase = .active
  claimed : ∀ i p c, s.tasks i = .finalizePosting p → s.core = some c →
    c.phase = .finalizing i ∨ s.delivery = .registeringFinalize i → c.responseFinalized = true

namespace Current

variable {tg : Settings} {s s' : Chat} {l : ChatLabel}

/-- The text of a turn, its phase and the right to send stay. -/
structure Same (c' c : TurnCore) : Prop where
  buffer : c'.buffer = c.buffer
  phase : c'.phase = c.phase
  claimed : c'.responseFinalized = c.responseFinalized

theorem Same.rfl' (c : TurnCore) : Same c c := ⟨rfl, rfl, rfl⟩

theorem same_of_eq {o : Option TurnCore} (heq : o = s.core) :
    ∀ c', o = some c' → ∃ c, s.core = some c ∧ Same c' c := by
  intro c' hc'
  exact ⟨c', heq.symm.trans hc', .rfl' c'⟩

/-- A step that sends nothing and appends nothing. -/
theorem mono (h : Current s) (hserial : s'.serial = s.serial)
    (hcore : ∀ c', s'.core = some c' → ∃ c, s.core = some c ∧ Same c' c)
    (htries : ∀ text k, s'.delivery = .tryingEdit text k → s.delivery = .tryingEdit text k)
    (htried : ∀ c text k, s.core = some c → s.delivery = .tryingEdit text k →
      s'.delivery = .tryingEdit text k)
    (htasks : ∀ i p, s'.tasks i = .finalizePosting p → s.tasks i = .finalizePosting p ∧
      (s'.delivery = .registeringFinalize i → s.delivery = .registeringFinalize i))
    (hlatest : s'.outbox.latest = s.outbox.latest)
    (hcarries : ∀ n text, s.outbox.Carries n text → s'.outbox.Carries n text) : Current s' where
  carried := by
    intro c' hc' htaken hne
    obtain ⟨c, hc, hsame⟩ := hcore c' hc'
    rw [hsame.claimed] at htaken
    rw [hsame.buffer] at hne ⊢
    rw [hserial, hlatest]
    rcases h.carried c hc htaken hne with ⟨k, hk⟩ | ⟨n, hn, hold⟩
    · exact .inl ⟨k, htried c _ k hc hk⟩
    · exact .inr ⟨n, hn, hcarries n _ hold⟩
  editing := by
    intro c' text k hc' hk
    obtain ⟨c, hc, hsame⟩ := hcore c' hc'
    rw [hsame.buffer, hsame.phase]
    exact h.editing c text k hc (htries text k hk)
  claimed := by
    intro i p c' hi hc' hturn
    obtain ⟨c, hc, hsame⟩ := hcore c' hc'
    obtain ⟨hold, hregisters⟩ := htasks i p hi
    rw [hsame.phase] at hturn
    rw [hsame.claimed]
    exact h.claimed i p c hold hc (hturn.imp_right hregisters)

/-- The turn is not there. -/
theorem of_none (hnone : s.core = none) : Current s where
  carried := by
    intro c hc
    rw [hnone] at hc
    cases hc
  editing := by
    intro c _ _ hc
    rw [hnone] at hc
    cases hc
  claimed := by
    intro _ _ c _ hc
    rw [hnone] at hc
    cases hc

/-- The text of the turn is sent. -/
theorem post {c : TurnCore} (hc : s'.core = some c) {o : Outbox} {turn msgId : Nat}
    {source : String} {parts : List String} {whole : Bool}
    (ho : s'.outbox = o.post turn source msgId parts whole) (hturn : turn = s'.serial)
    (hsource : source = c.buffer) (hwhole : whole = true)
    (hediting : ∀ text k, s'.delivery = .tryingEdit text k → text = c.buffer ∧ c.phase = .active)
    (hclaimed : ∀ i p, s'.tasks i = .finalizePosting p →
      c.phase = .finalizing i ∨ s'.delivery = .registeringFinalize i →
        c.responseFinalized = true) : Current s' where
  carried := by
    intro c' hc' _ _
    cases hc.symm.trans hc'
    refine .inr ⟨o.posted, ?_, ?_⟩
    · rw [ho, ← hturn]
      exact Outbox.post_latest_self ..
    · rw [ho, ← hsource]
      exact o.carries_post turn msgId source parts hwhole
  editing := by
    intro c' text k hc' hk
    cases hc.symm.trans hc'
    exact hediting text k hk
  claimed := by
    intro i p c' hi hc'
    cases hc.symm.trans hc'
    exact hclaimed i p hi

/-- What is added to a response is shown next, or the turn has everything sent already. -/
theorem carried_entered (h : Current s) (hshows : ShowsNext tg s .deliver) {t₀ t : ChatTurn}
    {text : String} {d : Delivery} (ht₀ : s.turn = some t₀)
    (ht : t.core = { t₀.core with buffer := t₀.buffer ++ text })
    (hfrom : ∀ accumulated msgId, s.delivery ≠ .tryingEdit accumulated msgId)
    (hd : d.Waits none ∧ s.Adds t text ∨
      d = .tryingEdit t.buffer t.msgId ∧ t.msgId ≠ 0 ∧ t.phase = .active)
    (htaken : t.responseFinalized = true) (hne : t.buffer ≠ "") :
    (∃ k, d = .tryingEdit t.buffer k) ∨
      ∃ n, s.outbox.latest s.serial = some n ∧ s.outbox.Carries n t.buffer := by
  have hbuffer : t.buffer = t₀.buffer ++ text := congrArg TurnCore.buffer ht
  have htaken₀ : t₀.responseFinalized = true :=
    (congrArg TurnCore.responseFinalized ht).symm.trans htaken
  have hsame : text = "" →
      ∃ n, s.outbox.latest s.serial = some n ∧ s.outbox.Carries n t.buffer := by
    intro hempty
    rw [hempty, String.append_empty] at hbuffer
    rw [hbuffer] at hne ⊢
    rcases h.carried t₀.core (Chat.core_of_turn ht₀) htaken₀ hne with ⟨k, hk⟩ | hsent
    · exact absurd hk (hfrom _ k)
    · exact hsent
  rcases hd with ⟨_, hadds⟩ | ⟨hd, _, _⟩
  · right
    cases hadds with
    | nothing => exact hsame rfl
    | chunk text messageId p hdelivery hskips =>
        have hid : t.msgId = t₀.msgId := congrArg TurnCore.msgId ht
        have hstored := hshows.of_chunk hdelivery ht₀ htaken₀
        rw [← hid] at hstored
        exact absurd hskips (not_or.mpr ⟨hne, hstored⟩)
    | result isError text messageId hdelivery =>
        exact hsame (hshows.of_result hdelivery ht₀ htaken₀)
  · exact .inl ⟨t.msgId, hd⟩

theorem entered (h : Current s) (hshows : ShowsNext tg s .deliver) {t : ChatTurn}
    {text : String} {d : Delivery}
    (ht : t.core = { s.enteredCore with buffer := s.enteredCore.buffer ++ text })
    (hfrom : ∀ accumulated msgId, s.delivery ≠ .tryingEdit accumulated msgId)
    (hd : d.Waits none ∧ s.Adds t text ∨
      d = .tryingEdit t.buffer t.msgId ∧ t.msgId ≠ 0 ∧ t.phase = .active) :
    Current { s.enter t text with delivery := d } := by
  have hedit : ∀ text' k, d = .tryingEdit text' k → text' = t.buffer ∧ t.phase = .active := by
    intro text' k heq
    rcases hd with ⟨hd, _⟩ | ⟨hd, _, hactive⟩
    · exact absurd heq (hd.tryingEdit text' k)
    · cases hd.symm.trans heq
      exact ⟨rfl, hactive⟩
  have hregister : ∀ i, d ≠ .registeringFinalize i := by
    intro i heq
    rcases hd with ⟨hd, _⟩ | ⟨hd, _, _⟩
    · rw [heq] at hd
      cases hd.registering
    · cases hd.symm.trans heq
  cases hturn : s.turn with
  | none =>
      rw [Chat.enteredCore_of_none hturn] at ht
      have hfree : t.responseFinalized = false := congrArg TurnCore.responseFinalized ht
      have hactive : t.phase = .active := congrArg TurnCore.phase ht
      refine ⟨?_, ?_, ?_⟩
      · intro c hc htaken
        cases hc
        cases hfree.symm.trans htaken
      · intro c text' k hc
        cases hc
        exact hedit text' k
      · intro i p c _ hc hregistered
        cases hc
        rcases hregistered with hphase | hreg
        · cases hactive.symm.trans hphase
        · exact absurd hreg (hregister i)
  | some t₀ =>
      rw [Chat.enteredCore_of_some hturn] at ht
      have hphase : t.phase = t₀.phase := congrArg TurnCore.phase ht
      have hflag : t.responseFinalized = t₀.responseFinalized :=
        congrArg TurnCore.responseFinalized ht
      refine ⟨?_, ?_, ?_⟩
      · intro c hc htaken hne
        cases hc
        have hcarried := h.carried_entered hshows hturn ht hfrom hd htaken hne
        rw [← Chat.enteredSerial_of_some hturn] at hcarried
        exact hcarried
      · intro c text' k hc
        cases hc
        exact hedit text' k
      · intro i p c hi hc hregistered
        cases hc
        rcases hregistered with hfinal | hreg
        · exact hflag.trans (h.claimed i p t₀.core hi (Chat.core_of_turn hturn)
            (.inl (hphase.symm.trans hfinal)))
        · exact absurd hreg (hregister i)

/-- The finalization timer that is aborted has sent its posting. -/
theorem registeredFinalize (h : Current s) (hshows : ShowsNext tg s .deliver) {handle : Nat}
    {t : ChatTurn} (hdelivery : s.delivery = .registeringFinalize handle) (ht : s.turn = some t) :
    Current { s.abortAll t.finalizeHandle.toList with
      turn := some (t.beginFinalizing handle), delivery := .idle } := by
  refine ⟨?_, fun _ _ _ _ hk => (by cases hk), ?_⟩
  · intro c hc htaken hne
    cases hc
    rcases h.carried t.core (Chat.core_of_turn ht) htaken hne with ⟨k, hk⟩ | ⟨n, hn, hc⟩
    · rw [hdelivery] at hk
      cases hk
    · refine .inr ⟨n, hn, hc.cutWhere _ ?_⟩
      rintro ⟨x, hx, hposting⟩
      exact landed_of_eq (hshows.of_register hdelivery ht (Option.mem_toList.mp hx)) hposting
  · intro i p c hi hc hregistered
    cases hc
    have hsame : i = handle := by
      rcases hregistered with hfinal | hreg
      · cases hfinal
        rfl
      · cases hreg
    rw [hsame] at hi
    have hbefore : s.tasks handle = .finalizePosting p := by
      by_cases hmem : handle ∈ t.finalizeHandle.toList
      · have hover : (s.abortAll t.finalizeHandle.toList).tasks handle = .over :=
          Chat.abortAll_of_mem s hmem
        cases hover.symm.trans hi
      · exact (Chat.abortAll_of_not_mem s hmem).symm.trans hi
    exact h.claimed handle p t.core hbefore (Chat.core_of_turn ht) (.inr hdelivery)

theorem step (h : Current s) (hown : OwnTurn s l) (hshows : ShowsNext tg s l)
    (heff : s.Effect tg l s') : Current s' := by
  have hset : ∀ {i : Nat} {task : Task}, (∀ p, task ≠ .finalizePosting p) → ∀ j p,
      (s.setTask i task).tasks j = .finalizePosting p → s.tasks j = .finalizePosting p := by
    intro i task htask j p hj
    by_cases heq : j = i
    · rw [heq, Chat.setTask_self] at hj
      exact absurd hj (htask p)
    · rw [Chat.setTask_of_ne s task heq] at hj
      exact hj
  have hidle : ∀ {d : Delivery} {i : Nat}, d.Waits none → d ≠ .registeringFinalize i := by
    rintro d i hd rfl
    cases hd.registering
  -- a turn that has just been claimed
  have hediting : ∀ {t t' : ChatTurn}, s.turn = some t →
      t'.core = { t.core with responseFinalized := true } → ∀ text k,
      s.delivery = .tryingEdit text k → text = t'.core.buffer ∧ t'.core.phase = .active := by
    intro t t' ht hcore text k hk
    rw [hcore]
    exact h.editing t.core text k (Chat.core_of_turn ht) hk
  cases heff with
  | still l turn now hturn =>
      exact h.mono rfl (same_of_eq hturn) (fun _ _ hk => hk) (fun _ _ _ _ hk => hk)
        (fun _ _ hi => ⟨hi, fun hd => hd⟩) rfl (fun _ _ hc => hc)
  | moved l turn d hturn hlanded hd hskips =>
      refine h.mono rfl (same_of_eq hturn) (fun text k hk => absurd hk (hd.tryingEdit text k)) ?_
        (fun _ _ hi => ⟨hi, fun hreg => absurd hreg (hidle hd)⟩) rfl (fun _ _ hc => hc)
      intro c text k hc hk
      obtain ⟨rfl, hdenied⟩ := hskips text k hk
      obtain ⟨t, ht, _⟩ := Option.map_eq_some_iff.mp hc
      have hallowed := (hshows.of_edit hk).2 t ht
      rw [hdenied t ht] at hallowed
      cases hallowed
  | dropped | flushed | removed => exact of_none rfl
  | entered t text d ht hlanded hfrom hd => exact h.entered hshows ht hfrom hd
  | enteredLate text messageId p t₀ t hdelivery ht₀ ht hlanded hphase hid htext =>
      refine post (c := t.core) rfl rfl rfl rfl rfl (fun _ _ hk => (by cases hk)) ?_
      intro i p' hi hregistered
      have hphase₀ : t.phase = t₀.phase := congrArg TurnCore.phase ht
      have hflag : t.responseFinalized = t₀.responseFinalized :=
        congrArg TurnCore.responseFinalized ht
      rcases hregistered with hfinal | hreg
      · exact hflag.trans (h.claimed i p' t₀.core hi (Chat.core_of_turn ht₀)
          (.inl (hphase₀.symm.trans hfinal)))
      · cases hreg
  | spawned task d hlanded hfrom hd =>
      refine h.mono rfl (same_of_eq rfl) ?_ (fun _ text k _ hk => absurd hk (hfrom text k)) ?_ rfl
        (fun _ _ hc => hc)
      · intro text k hk
        rcases hd with ⟨rfl, _⟩ | ⟨rfl, _⟩
        · cases hk
        · cases hk
      · intro i p hi
        have hne : i ≠ s.spawned := by
          rintro rfl
          have hnew : task = .finalizePosting p := (Function.update_self ..).symm.trans hi
          rcases hd with ⟨_, rfl⟩ | ⟨_, rfl⟩
          · cases hnew
          · cases hnew
        refine ⟨(Function.update_of_ne hne _ _).symm.trans hi, ?_⟩
        intro hreg
        rcases hd with ⟨rfl, _⟩ | ⟨rfl, _⟩
        · cases hreg
          exact absurd rfl hne
        · cases hreg
  | registeredFinalize handle t hdelivery ht => exact h.registeredFinalize hshows hdelivery ht
  | registeredDebounce handle hdelivery =>
      refine h.mono rfl ?_ (fun _ _ hk => (by cases hk)) ?_
        (fun _ _ hi => ⟨hi, fun hreg => (by cases hreg)⟩) rfl (fun _ _ hc => hc)
      · intro c' hc'
        obtain ⟨t, ht, rfl⟩ := exists_of_map hc'
        refine ⟨t.core, Chat.core_of_turn ht, ?_⟩
        rcases Chat.core_setDebounceHandle (t := t) handle with hcore | hcore
        · rw [hcore]
          exact .rfl' _
        · rw [hcore]
          exact ⟨rfl, rfl, rfl⟩
      · intro c text k _ hk
        rw [hdelivery] at hk
        cases hk
  | edited accumulated msgId t t' hdelivery ht ht' =>
      have hcore := Chat.core_of_turn ht
      have hbuffer := (h.editing t.core accumulated msgId hcore hdelivery).1
      have hfits := (hshows.of_edit hdelivery).1
      refine post (c := t'.core) rfl rfl rfl ?_ (decide_eq_true hfits)
        (fun _ _ hk => (by cases hk)) ?_
      · rw [ht']
        exact hbuffer
      · intro i p hi hregistered
        rw [ht'] at hregistered ⊢
        rcases hregistered with hfinal | hreg
        · exact h.claimed i p t.core hi hcore (.inl hfinal)
        · cases hreg
  | debounced i task hi htask =>
      refine h.mono rfl (same_of_eq rfl) (fun _ _ hk => hk) (fun _ _ _ _ hk => hk)
        (fun j p hj => ⟨hset ?_ j p hj, fun hd => hd⟩) rfl (fun _ _ hc => hc)
      rintro p' rfl
      rcases htask with hcon | ⟨_, text, hcon⟩
      · cases hcon
      · cases hcon
  | debounceClaimed i turn accumulated t t' hi ht hfree ht' =>
      obtain ⟨hbuffer, hfits⟩ := hshows.of_claim hi ht hfree
      refine post (c := t'.core) rfl rfl (hown.of_claim hi ht hfree) ?_ (decide_eq_true hfits)
        (hediting ht ht') ?_
      · rw [ht']
        exact hbuffer
      · intro j p _ _
        rw [ht']
  | debounceStored i n hi hlanded hreply =>
      refine h.mono rfl ?_ (fun _ _ hk => hk) (fun _ _ _ _ hk => hk)
        (fun j p hj => ⟨hset (fun _ hcon => (by cases hcon)) j p hj, fun hd => hd⟩) rfl
        (fun _ _ hc => hc)
      intro c' hc'
      have hmap : (s.turn.map (Chat.setMsgId (s.outbox.postings n).reply)).map ChatTurn.core
          = some c' := hc'
      obtain ⟨t, ht, rfl⟩ := exists_of_map hmap
      refine ⟨t.core, Chat.core_of_turn ht, ?_⟩
      cases hresponse : t.response with
      | none =>
          rw [Chat.setMsgId_of_none _ hresponse]
          exact .rfl' _
      | some track =>
          rw [Chat.core_setMsgId _ hresponse]
          exact ⟨rfl, rfl, rfl⟩
  | finalizeEmpty i turn hi hturn =>
      rcases hturn with ⟨hturn, htaken⟩ | ⟨t, t', ht, rfl, hfree, hempty, hcore⟩
      · refine ⟨?_, ?_, ?_⟩
        · intro c hc
          exact h.carried c (hturn.symm.trans hc)
        · intro c text k hc
          exact h.editing c text k (hturn.symm.trans hc)
        · intro j p c _ hc _
          obtain ⟨t, ht, rfl⟩ := Option.map_eq_some_iff.mp (hturn.symm.trans hc)
          exact htaken t ht
      · refine ⟨?_, ?_, ?_⟩
        · intro c hc _ hne
          cases hc
          rw [hcore] at hne
          exact absurd hempty hne
        · intro c text k hc
          cases hc
          exact hediting ht hcore text k
        · intro j p c _ hc _
          cases hc
          rw [hcore]
  | finalizeClaimed i t t' hi ht hfree htext ht' =>
      refine post (c := t'.core) rfl rfl rfl ?_ rfl (hediting ht ht') ?_
      · rw [ht']
        rfl
      · intro j p _ _
        rw [ht']
  | sent l n r rest next answered hpending htarget hends =>
      exact h.mono rfl (same_of_eq rfl) (fun _ _ hk => hk) (fun _ _ _ _ hk => hk)
        (fun _ _ hi => ⟨hi, fun hd => hd⟩) rfl (fun _ _ hc => hc.send)
  | replaced l n k r rest next answered hpending htarget hends =>
      exact h.mono rfl (same_of_eq rfl) (fun _ _ hk => hk) (fun _ _ _ _ hk => hk)
        (fun _ _ hi => ⟨hi, fun hd => hd⟩) rfl (fun _ _ hc => hc.replace k)
  | delayed l n r rest next hpending hdelays =>
      exact h.mono rfl (same_of_eq rfl) (fun _ _ hk => hk) (fun _ _ _ _ hk => hk)
        (fun _ _ hi => ⟨hi, fun hd => hd⟩) rfl (fun _ _ hc => hc.keep)

/-- What a finalization timer removes has been sent. -/
theorem carried_of_remove (h : Current s) {i : Nat} {p : Option Nat}
    (hi : s.tasks i = .finalizePosting p) (hshows : ShowsNext tg s (.fire i)) {t : ChatTurn}
    (ht : s.turn = some t) (hne : t.buffer ≠ "") :
    ∃ n, s.outbox.latest s.serial = some n ∧ s.outbox.Carries n t.buffer := by
  have hcore := Chat.core_of_turn ht
  have hregistered := hshows.of_remove hi ht
  have htaken := h.claimed i p t.core hi hcore hregistered
  rcases h.carried t.core hcore htaken hne with ⟨k, hk⟩ | hsent
  · -- an edit is tried only for an active turn
    have hactive : t.phase = .active := (h.editing t.core _ k hcore hk).2
    rcases hregistered with hfinal | hreg
    · cases hactive.symm.trans hfinal
    · cases hk.symm.trans hreg
  · exact hsent

end Current

theorem current {tg : Settings} {s : Chat} (h : (chat tg).ReachableUnder (Orderly tg) s) :
    Current s := by
  refine h.invariant (I := Current) ?_ ?_
  · rintro s rfl
    exact .of_none rfl
  · intro s l s' _ hs hguard hstep
    exact hs.step hguard.1 hguard.2.2.2 (effect_of_step hstep)

/-! ### Turns that are over -/

/-- The buffer of the turn is what was appended to its response, and a turn that is over was
    sent as it is. -/
structure Kept (s : Chat) : Prop where
  text : ∀ t, s.turn = some t → s.texts s.serial = t.buffer
  later : ∀ g, s.serial < g → s.texts g = ""
  closed : ∀ g, g ≤ s.serial → (g = s.serial → s.turn = none) → s.texts g ≠ "" →
    ∃ n, s.outbox.latest g = some n ∧ s.outbox.Carries n (s.texts g)

namespace Kept

variable {tg : Settings} {s s' : Chat} {l : ChatLabel}

/-- A step that closes no turn: what was sent for the turns that are over stays. -/
theorem mono (h : Kept s)
    (htext : ∀ t, s'.turn = some t → s'.texts s'.serial = t.buffer)
    (hlater : ∀ g, s'.serial < g → s'.texts g = "")
    (hclosed : ∀ g, g ≤ s'.serial → (g = s'.serial → s'.turn = none) → s'.texts g ≠ "" →
      g ≤ s.serial ∧ (g = s.serial → s.turn = none) ∧ s'.texts g = s.texts g)
    (houtbox : ∀ g n, g ≤ s.serial → (g = s.serial → s.turn = none) →
      s.outbox.latest g = some n → ∀ text, s.outbox.Carries n text →
        s'.outbox.latest g = some n ∧ s'.outbox.Carries n text) : Kept s' := by
  refine ⟨htext, hlater, ?_⟩
  intro g hle hover hne
  obtain ⟨hle', hover', hsame⟩ := hclosed g hle hover hne
  rw [hsame] at hne ⊢
  obtain ⟨n, hlatest, hcarries⟩ := h.closed g hle' hover' hne
  exact ⟨n, houtbox g n hle' hover' hlatest _ hcarries⟩

theorem text_of_core (h : Kept s) {turn : Option ChatTurn} {t : ChatTurn}
    (hturn : turn.map ChatTurn.core = s.core) (ht : turn = some t) :
    s.texts s.serial = t.buffer := by
  obtain ⟨t₀, ht₀, hcore⟩ := exists_of_core hturn ht
  rw [h.text t₀ ht₀]
  exact (congrArg TurnCore.buffer hcore).symm

/-- What is aborted with a turn was sent for that turn. -/
theorem carries_abortAll (hhandles : Handles s) (htracked : s.outbox.Tracked tg) {t : ChatTurn}
    (ht : s.turn = some t) {hs : List Nat} (hsub : ∀ x ∈ hs, x ∈ t.cleanupHandles) {g n : Nat}
    (hover : g = s.serial → s.turn = none) (hlatest : s.outbox.latest g = some n) {text : String}
    (hcarries : s.outbox.Carries n text) : (s.abortAll hs).outbox.Carries n text := by
  have hkeep : (s.abortAll hs).outbox.postings n = s.outbox.postings n := by
    refine if_neg ?_
    rintro ⟨x, hx, hn⟩
    have howner := hhandles.owner t ht x (hsub x hx) n hn
    rw [(htracked.latest g n hlatest).2] at howner
    rw [hover howner] at ht
    cases ht
  exact hcarries.of_eq hkeep

/-- A posting for the turn of the chat is none for a turn that is over. -/
theorem carries_post (htracked : s.outbox.Tracked tg) {t : ChatTurn} (ht : s.turn = some t)
    {o : Outbox} (ho : o.posted = s.outbox.posted) {turn msgId : Nat} {source : String}
    {parts : List String} {whole : Bool} (hturn : turn = s.serial) {g n : Nat}
    (hover : g = s.serial → s.turn = none) (hlatest : s.outbox.latest g = some n)
    (hlatest' : o.latest g = s.outbox.latest g) {text : String} (hcarries : o.Carries n text) :
    (o.post turn source msgId parts whole).latest g = some n ∧
      (o.post turn source msgId parts whole).Carries n text := by
  have hg : g ≠ turn := by
    rintro rfl
    rw [hover hturn] at ht
    cases ht
  have hlt := (htracked.latest g n hlatest).1
  have hne : n ≠ o.posted := by omega
  rw [Outbox.post_latest_of_ne _ _ _ _ _ _ hg]
  exact ⟨hlatest'.trans hlatest, hcarries.of_eq (Outbox.post_postings_of_ne _ _ _ _ _ _ hne)⟩

theorem texts_enter (s : Chat) (t : ChatTurn) (text : String) {g : Nat}
    (hg : g ≠ s.enteredSerial) : (s.enter t text).texts g = s.texts g :=
  Function.update_of_ne hg _ _

/-- The text that is added to a response is added to what is recorded of it. -/
theorem text_enter (h : Kept s) {t : ChatTurn} {text : String}
    (ht : t.core = { s.enteredCore with buffer := s.enteredCore.buffer ++ text }) :
    (s.enter t text).texts s.enteredSerial = t.buffer := by
  have hbuffer : t.buffer = s.enteredCore.buffer ++ text := congrArg TurnCore.buffer ht
  have htexts : (s.enter t text).texts s.enteredSerial = s.texts s.enteredSerial ++ text :=
    Function.update_self ..
  rw [hbuffer, htexts]
  cases hturn : s.turn with
  | none =>
      rw [Chat.enteredCore_of_none hturn]
      have hserial : s.enteredSerial = s.serial + 1 := by
        rw [Chat.enteredSerial, hturn]
        rfl
      rw [hserial, h.later _ (Nat.lt_succ_self _)]
  | some t₀ =>
      rw [Chat.enteredCore_of_some hturn, Chat.enteredSerial_of_some hturn, h.text t₀ hturn]
      rfl

/-- The turns before the one that is entered are those that were over before. -/
theorem closed_enter (s : Chat) (t : ChatTurn) (text : String) {g : Nat}
    (hle : g ≤ s.enteredSerial) (hover : g = s.enteredSerial → some t = none) :
    g ≤ s.serial ∧ (g = s.serial → s.turn = none) ∧ (s.enter t text).texts g = s.texts g := by
  have hne : g ≠ s.enteredSerial := fun heq => (nomatch hover heq)
  refine ⟨?_, ?_, texts_enter s t text hne⟩
  · rw [Chat.enteredSerial] at hle hne
    split at hle
    · exact hle
    · rename_i hnone
      rw [if_neg hnone] at hne
      omega
  · intro heq
    by_contra hsome
    apply hne
    rw [Chat.enteredSerial, if_pos (Option.isSome_iff_ne_none.mpr hsome)]
    exact heq

/-- Text is added to the response, and what was sent for the turns that are over stays. -/
theorem enter (h : Kept s) {t : ChatTurn} {text : String}
    (ht : t.core = { s.enteredCore with buffer := s.enteredCore.buffer ++ text })
    (hturn : s'.turn = some t) (hserial : s'.serial = s.enteredSerial)
    (htexts : s'.texts = (s.enter t text).texts)
    (houtbox : ∀ g n, g ≤ s.serial → (g = s.serial → s.turn = none) →
      s.outbox.latest g = some n → ∀ text, s.outbox.Carries n text →
        s'.outbox.latest g = some n ∧ s'.outbox.Carries n text) : Kept s' := by
  refine h.mono ?_ ?_ ?_ houtbox
  · intro t' ht'
    cases hturn.symm.trans ht'
    rw [htexts, hserial]
    exact h.text_enter ht
  · intro g hg
    rw [hserial] at hg
    rw [htexts]
    have hle := s.serial_le_enteredSerial
    exact (texts_enter s t text (by omega)).trans (h.later g (by omega))
  · intro g hle hover _
    rw [hserial] at hle hover
    rw [hturn] at hover
    rw [htexts]
    exact closed_enter s t text hle hover

/-- Something is sent for the turn of the chat, which keeps its text. -/
theorem post (h : Kept s) (htracked : s.outbox.Tracked tg) {t t' : ChatTurn}
    (ht : s.turn = some t) (ht' : s'.turn = some t') (hbuffer : t'.buffer = t.buffer)
    (hserial : s'.serial = s.serial) (htexts : s'.texts = s.texts) {turn msgId : Nat}
    {source : String} {parts : List String} {whole : Bool} (hturn : turn = s.serial)
    (houtbox : s'.outbox = s.outbox.post turn source msgId parts whole) : Kept s' := by
  refine h.mono ?_ ?_ ?_ ?_
  · intro t'' ht''
    cases ht'.symm.trans ht''
    rw [htexts, hserial, h.text t ht, hbuffer]
  · intro g hg
    rw [hserial] at hg
    rw [htexts]
    exact h.later g hg
  · intro g hle hover _
    rw [hserial] at hle hover
    refine ⟨hle, fun heq => ?_, by rw [htexts]⟩
    rw [hover heq] at ht'
    cases ht'
  · intro g n _ hover hlatest text hcarries
    rw [houtbox]
    exact carries_post htracked ht rfl hturn hover hlatest rfl hcarries

/-- A turn that is flushed is sent as it is. -/
theorem flush (h : Kept s) (hhandles : Handles s) (htracked : s.outbox.Tracked tg) {t : ChatTurn}
    {d : Delivery} (ht : s.turn = some t) :
    Kept { s.abortAll t.cleanupHandles with
      turn := none
      delivery := d
      outbox := (s.abortAll t.cleanupHandles).outbox.post s.serial t.buffer t.msgId
        (messageParts (tg.formatTelegramHtml t.buffer)) true } := by
  refine ⟨fun t ht => (by cases ht), h.later, ?_⟩
  intro g hle _ hne
  by_cases hg : g = s.serial
  · rw [hg] at hne ⊢
    have hcarries : ((s.abortAll t.cleanupHandles).outbox.post s.serial t.buffer t.msgId
        (messageParts (tg.formatTelegramHtml t.buffer)) true).Carries s.outbox.posted
          (s.texts s.serial) := by
      rw [h.text t ht]
      exact Outbox.carries_post _ _ _ _ _ rfl
    exact ⟨s.outbox.posted, Outbox.post_latest_self .., hcarries⟩
  · obtain ⟨n, hlatest, hcarries⟩ := h.closed g hle (fun heq => absurd heq hg) hne
    have hafter : (s.abortAll t.cleanupHandles).outbox.Carries n (s.texts g) :=
      carries_abortAll hhandles htracked ht (fun x hx => hx) (fun heq => absurd heq hg)
        hlatest hcarries
    exact ⟨n, carries_post htracked ht (o := (s.abortAll t.cleanupHandles).outbox) rfl rfl
      (fun heq => absurd heq hg) hlatest rfl hafter⟩

/-- The turn that a finalization timer removes was sent as it is. -/
theorem remove (h : Kept s) (hcurrent : Current s) {i : Nat} {p : Option Nat}
    (hi : s.tasks i = .finalizePosting p) (hshows : ShowsNext tg s (.fire i)) :
    Kept (({ s with turn := none }).setTask i .over) := by
  refine ⟨fun t ht => (by cases ht), h.later, ?_⟩
  intro g hle _ hne
  by_cases hover : g = s.serial → s.turn = none
  · exact h.closed g hle hover hne
  · obtain ⟨rfl, hsome⟩ := Classical.not_imp.mp hover
    obtain ⟨t, ht⟩ := Option.ne_none_iff_exists'.mp hsome
    have htext := h.text t ht
    have hne' : s.texts s.serial ≠ "" := hne
    rw [htext] at hne'
    obtain ⟨n, hlatest, hcarries⟩ := hcurrent.carried_of_remove hi hshows ht hne'
    rw [← htext] at hcarries
    exact ⟨n, hlatest, hcarries⟩

theorem step (h : Kept s) (hhandles : Handles s) (htracked : s.outbox.Tracked tg)
    (hcurrent : Current s) (hown : OwnTurn s l) (hshows : ShowsNext tg s l)
    (heff : s.Effect tg l s') : Kept s' := by
  -- nothing is sent, and the turn stays
  have hquiet : ∀ {c : Chat}, c.outbox = s.outbox → c.serial = s.serial → c.texts = s.texts →
      (c.turn = none → s.turn = none) →
      (∀ t, c.turn = some t → s.texts s.serial = t.buffer) → Kept c := by
    intro c ho hserial htexts hnone htext
    refine h.mono ?_ ?_ ?_ ?_
    · intro t ht
      rw [htexts, hserial]
      exact htext t ht
    · intro g hg
      rw [hserial] at hg
      rw [htexts]
      exact h.later g hg
    · intro g hle hover _
      rw [hserial] at hle hover
      exact ⟨hle, fun heq => hnone (hover heq), by rw [htexts]⟩
    · intro g n _ _ hlatest text hcarries
      rw [ho]
      exact ⟨hlatest, hcarries⟩
  have hcore_none : ∀ {turn : Option ChatTurn}, turn.map ChatTurn.core = s.core →
      turn = none → s.turn = none := by
    intro turn hturn hnone
    rw [hnone, Chat.core] at hturn
    exact Option.map_eq_none_iff.mp hturn.symm
  cases heff with
  | still l turn now hturn =>
      exact hquiet rfl rfl rfl (hcore_none hturn) fun t ht => h.text_of_core hturn ht
  | moved l turn d hturn hlanded hd hskips =>
      exact hquiet rfl rfl rfl (hcore_none hturn) fun t ht => h.text_of_core hturn ht
  | dropped l t d ht hflushed hlanded hempty hd =>
      refine ⟨fun t ht => (by cases ht), h.later, ?_⟩
      intro g hle _ hne
      have hlt : g ≠ s.serial := by
        rintro rfl
        exact hne ((h.text t ht).trans hempty)
      obtain ⟨n, hlatest, hcarries⟩ := h.closed g hle (fun heq => absurd heq hlt) hne
      exact ⟨n, hlatest, carries_abortAll hhandles htracked ht (fun x hx => hx)
        (fun heq => absurd heq hlt) hlatest hcarries⟩
  | flushed l t d ht hflushed hlanded htext hd => exact h.flush hhandles htracked ht
  | entered t text d ht hlanded hfrom hd =>
      exact h.enter ht rfl rfl rfl fun g n _ _ hlatest text' hcarries => ⟨hlatest, hcarries⟩
  | enteredLate text messageId p t₀ t hdelivery ht₀ ht hlanded hphase hid htext =>
      have hentered : t.core = { s.enteredCore with buffer := s.enteredCore.buffer ++ text } := by
        rw [Chat.enteredCore_of_some ht₀]
        exact ht
      refine h.enter hentered rfl rfl rfl ?_
      intro g n _ hover hlatest text' hcarries
      exact carries_post htracked ht₀ rfl (Chat.enteredSerial_of_some ht₀) hover hlatest rfl
        hcarries
  | spawned task d hlanded hfrom hd => exact hquiet rfl rfl rfl (fun hnone => hnone) h.text
  | registeredFinalize handle t hdelivery ht =>
      refine h.mono ?_ h.later ?_ ?_
      · intro t' ht'
        cases ht'
        exact h.text t ht
      · intro g hle hover _
        exact ⟨hle, fun heq => (by cases hover heq), rfl⟩
      · intro g n _ hover hlatest text hcarries
        refine ⟨hlatest, carries_abortAll hhandles htracked ht ?_ hover hlatest hcarries⟩
        intro x hx
        exact List.mem_append_left _ hx
  | registeredDebounce handle hdelivery =>
      refine hquiet rfl rfl rfl (fun hnone => Option.map_eq_none_iff.mp hnone) ?_
      intro t' ht'
      obtain ⟨t, ht, rfl⟩ := Option.map_eq_some_iff.mp ht'
      rw [h.text t ht]
      rcases Chat.core_setDebounceHandle (t := t) handle with hcore | hcore
      · exact (congrArg TurnCore.buffer hcore).symm
      · exact (congrArg TurnCore.buffer hcore).symm
  | edited accumulated msgId t t' hdelivery ht ht' =>
      exact h.post htracked ht rfl (congrArg TurnCore.buffer ht') rfl rfl rfl rfl
  | debounced i task hi htask => exact hquiet rfl rfl rfl (fun hnone => hnone) h.text
  | debounceClaimed i turn accumulated t t' hi ht hfree ht' =>
      exact h.post htracked ht rfl (congrArg TurnCore.buffer ht') rfl rfl
        (hown.of_claim hi ht hfree) rfl
  | debounceStored i n hi hlanded hreply =>
      refine hquiet rfl rfl rfl (fun hnone => Option.map_eq_none_iff.mp hnone) ?_
      intro t' ht'
      obtain ⟨t, ht, rfl⟩ := Option.map_eq_some_iff.mp ht'
      rw [h.text t ht]
      cases hresponse : t.response with
      | none => exact (congrArg TurnCore.buffer (Chat.setMsgId_of_none _ hresponse)).symm
      | some track => exact (congrArg TurnCore.buffer (Chat.core_setMsgId _ hresponse)).symm
  | finalizeEmpty i turn hi hturn =>
      rcases hturn with ⟨hturn, _⟩ | ⟨t, t', ht, rfl, _, _, hcore⟩
      · exact hquiet rfl rfl rfl (hcore_none hturn) fun t ht => h.text_of_core hturn ht
      · refine hquiet rfl rfl rfl (fun hnone => (by cases hnone)) ?_
        intro t'' ht''
        cases ht''
        exact (h.text t ht).trans (congrArg TurnCore.buffer hcore).symm
  | finalizeClaimed i t t' hi ht hfree htext ht' =>
      exact h.post htracked ht rfl (congrArg TurnCore.buffer ht') rfl rfl rfl rfl
  | removed i p hi hlanded => exact h.remove hcurrent hi hshows
  | sent l n r rest next answered hpending htarget hends =>
      exact h.mono h.text h.later (fun g hle hover _ => ⟨hle, hover, rfl⟩)
        fun g j _ _ hlatest text hcarries => ⟨hlatest, hcarries.send⟩
  | replaced l n k r rest next answered hpending htarget hends =>
      exact h.mono h.text h.later (fun g hle hover _ => ⟨hle, hover, rfl⟩)
        fun g j _ _ hlatest text hcarries => ⟨hlatest, hcarries.replace k⟩
  | delayed l n r rest next hpending hdelays =>
      exact h.mono h.text h.later (fun g hle hover _ => ⟨hle, hover, rfl⟩)
        fun g j _ _ hlatest text hcarries => ⟨hlatest, hcarries.keep⟩

end Kept

/-! ### What the user sees -/

theorem kept {tg : Settings} {s : Chat} (h : (chat tg).ReachableUnder (Orderly tg) s) :
    Kept s := by
  refine h.invariant (I := Kept) ?_ ?_
  · rintro s rfl
    exact ⟨fun t ht => (nomatch ht), fun g _ => rfl, fun g _ _ hne => absurd rfl hne⟩
  · intro s l s' hreach hs hguard hstep
    exact hs.step (handles (fun _ _ hl => hl.1) hreach)
      (tracked (fun _ _ hl => ⟨hl.1, hl.2.1, hl.2.2.1⟩) hreach) (current hreach) hguard.1
      hguard.2.2.2 (effect_of_step hstep)

namespace Chat

/-- The messages of a turn, in the order in which they stand in the chat. -/
def messagesOf (s : Chat) (g : Nat) : List String :=
  (s.outbox.shown.filter fun m => m.turn = g).map Message.text

/-- Some messages of the turn show, one after the other, the formatted text of everything that
    was appended to its response, perhaps with closing tags behind it. -/
def ShowsText (tg : Settings) (s : Chat) (g : Nat) : Prop :=
  ∃ shown : List String, shown.Sublist (s.messagesOf g) ∧
    (String.join shown = tg.formatTelegramHtml (s.texts g) ∨
      String.join shown = closeOpenTags (tg.formatTelegramHtml (s.texts g)))

/-- The timers of a turn have fired: nobody is sending for it, and if it is still there its
    result has come and its finalization task has ended. -/
structure TimersFired (s : Chat) (g : Nat) : Prop where
  delivery : ∀ n, s.delivery.posting = some n → (s.outbox.postings n).turn ≠ g
  tasks : ∀ i n, (s.tasks i).posting = some n → (s.outbox.postings n).turn ≠ g
  finalized : g = s.serial → ∀ t, s.turn = some t → ∃ h, t.phase = .finalizing h ∧
    s.tasks h = .over

end Chat

/-- **The user sees the whole answer.**  In an orderly run, a turn whose timers have fired
    shows everything that was appended to its response. -/
theorem showsText_of_orderly {tg : Settings} {s : Chat} {g : Nat}
    (h : (chat tg).ReachableUnder (Orderly tg) s) (hfired : s.TimersFired g)
    (htext : s.texts g ≠ "") : s.ShowsText tg g := by
  have hkept := kept h
  have htracked : s.outbox.Tracked tg := tracked (fun _ _ hl => ⟨hl.1, hl.2.1, hl.2.2.1⟩) h
  have hhandles := handles (fun _ _ hl => hl.1) h
  have hwritten := (owned (fun _ _ hl => hl.1) h).attributed.written
  have hle : g ≤ s.serial := by
    by_contra hlt
    exact htext (hkept.later g (by omega))
  -- a turn whose finalization task has ended is not there any more
  have hover : g = s.serial → s.turn = none := by
    intro heq
    by_contra hsome
    obtain ⟨t, ht⟩ := Option.ne_none_iff_exists'.mp hsome
    obtain ⟨handle, hphase, hdone⟩ := hfired.finalized heq t ht
    have hlive := hhandles.live t handle ht hphase
    rw [hdone] at hlive
    exact hlive
  obtain ⟨n, hlatest, hsource, hwhole, hcut⟩ := hkept.closed g hle hover htext
  obtain ⟨hlt, hturn⟩ := htracked.latest g n hlatest
  have hdone : (s.outbox.postings n).pending = [] := by
    by_contra hpending
    rcases awaited h n hlt hcut hpending with hn | ⟨i, hn⟩
    · exact hfired.delivery n hn hturn
    · exact hfired.tasks i n hn hturn
  have hparts := htracked.progress g n hlatest hcut
  rw [hdone, List.map_nil, List.append_nil] at hparts
  refine ⟨s.outbox.textsOf n, ?_, ?_⟩
  · apply List.Sublist.map
    rw [List.filter_congr (q := fun m => m.posting = n && m.turn = g)]
    · rw [← List.filter_filter]
      exact List.filter_sublist
    · intro m hm
      by_cases heq : m.posting = n
      · have hmturn := (hwritten m hm).2
        rw [heq, hturn] at hmturn
        simp [heq, hmturn]
      · simp [heq]
  · rw [hparts, ← hsource]
    exact htracked.whole n hlt hwhole

/-- No turn is there, and nobody does anything any more. -/
def Chat.Over (s : Chat) : Prop :=
  s.turn = none ∧ s.delivery = .idle ∧ ∀ i < s.spawned, s.tasks i = .over

instance (s : Chat) : Decidable s.Over := by
  unfold Chat.Over
  infer_instance

theorem timersFired_of_over {tg : Settings} {G : Chat → ChatLabel → Prop} {s : Chat}
    (h : (chat tg).ReachableUnder G s) (hover : s.Over) (g : Nat) : s.TimersFired g := by
  obtain ⟨hturn, hidle, htasks⟩ := hover
  refine ⟨?_, ?_, fun _ t ht => absurd (hturn.symm.trans ht) (by simp)⟩
  · intro n hn
    rw [hidle] at hn
    cases hn
  · intro i n hn
    by_cases hi : i < s.spawned
    · rw [htasks i hi] at hn
      cases hn
    · rw [(numbered h).unspawned i (Nat.not_lt.mp hi)] at hn
      cases hn

namespace Sample

def plain : Settings := ⟨id, 1000⟩

def chunk (text messageId : String) : ChatLabel :=
  .receive (.messageChunk text) (some messageId)

/-- The first chunk comes, and the debounce task sends it. -/
def firstChunk (text messageId : String) : List ChatLabel :=
  [chunk text messageId, .deliver, .deliver, .deliver, .fire 0, .fire 0, .land 0, .fire 0]

/-- The result comes, and the finalization timer fires. -/
def resultThenTimer (messageId : String) : List ChatLabel :=
  [.receive (.result "" false) (some messageId), .deliver, .deliver, .deliver, .deliver,
    .fire 1, .fire 1]

end Sample

/-- A chunk that comes before the cooldown has passed is not shown, and neither is it by the
    finalization timer. -/
theorem answer_cut_short : ¬∀ s g, (chat Sample.plain).Reachable s → s.TimersFired g →
    s.texts g ≠ "" → s.ShowsText Sample.plain g := by
  intro hall
  have hrun : ∃ x ∈ (chat Sample.plain).run (fun _ _ => True) Chat.initial
      (Sample.firstChunk "a" "m1" ++ [Sample.chunk "b" "m1", .deliver, .deliver] ++
        Sample.resultThenTimer "m1"),
      x.Over ∧
        x.messagesOf 1 = ["a"] ∧ x.texts 1 = "ab" := by decide +kernel
  obtain ⟨x, hx, hover, hmessages, htext⟩ := hrun
  have hreach : (chat Sample.plain).Reachable x := Machine.reachable_of_run _ rfl hx
  have hfired := timersFired_of_over hreach hover 1
  obtain ⟨shown, hsub, hjoin⟩ := hall x 1 hreach hfired (by rw [htext]; decide)
  rw [hmessages] at hsub
  rw [htext] at hjoin
  have hnone : ∀ shown ∈ ["a"].sublists, ¬(String.join shown = "ab" ∨
      String.join shown = closeOpenTags "ab") := by decide +kernel
  exact hnone shown (List.mem_sublists.mpr hsub) hjoin

/-- A chunk that comes when the cooldown has passed is shown. -/
theorem answer_in_two_chunks : ∃ s : Chat, s.texts 1 = "ab" ∧ s.messagesOf 1 = ["ab"] ∧
    s.ShowsText Sample.plain 1 := by
  have hrun : ∃ x ∈ (chat Sample.plain).run (Orderly Sample.plain) Chat.initial
      (Sample.firstChunk "a" "m1" ++
        [.wait 1000, Sample.chunk "b" "m1", .deliver, .deliver, .land 1, .deliver] ++
        Sample.resultThenTimer "m1"),
      x.Over ∧
        x.messagesOf 1 = ["ab"] ∧ x.texts 1 = "ab" := by decide +kernel
  obtain ⟨x, hx, hover, hmessages, htext⟩ := hrun
  have hreach : (chat Sample.plain).ReachableUnder (Orderly Sample.plain) x :=
    Machine.reachable_of_run _ rfl hx
  have hfired := timersFired_of_over hreach hover 1
  exact ⟨x, htext, hmessages, showsText_of_orderly hreach hfired (by rw [htext]; decide)⟩

end Anyclaw.Telegram
