import Anyclaw.Telegram.Deliver

/-!
# What a step of a chat can do

The steps of a delivery and of the tasks, sorted by what they do to the messages, the
postings and the part of the turn that decides what is sent.  The invariants of the chat are
proved over these effects.

The steps are those of `deliver_to_chat` and of the tasks that it spawns
(`ext/channels/telegram/src/deliver.rs`).
-/

namespace Anyclaw.Telegram

def Delivery.registering : Delivery → Option Nat
  | .registeringFinalize h => some h
  | .registeringDebounce h => some h
  | _ => none

/-- The delivery waits for the posting, if there is one, and for nothing else. -/
structure Delivery.Waits (d : Delivery) (p : Option Nat) : Prop where
  posting : d.posting = p
  registering : d.registering = none
  tryingEdit : ∀ accumulated msgId, d ≠ .tryingEdit accumulated msgId

namespace Chat

/-! ### Aborting several tasks -/

/-- All the tasks end, and what they were sending is cut off. -/
def abortAll (s : Chat) (hs : List Nat) : Chat :=
  { s with
    tasks := fun i => if i ∈ hs then .over else s.tasks i
    outbox := s.outbox.cutWhere fun n => ∃ h ∈ hs, (s.tasks h).posting = some n }

theorem abort_abortAll (s : Chat) (h : Nat) (hs : List Nat) :
    (s.abort h).abortAll hs = s.abortAll (h :: hs) := by
  have htasks : ((s.abort h).abortAll hs).tasks = (s.abortAll (h :: hs)).tasks := by
    funext i
    by_cases heq : i = h
    · simp [abortAll, abort, setTask, heq]
    · simp [abortAll, abort, setTask, heq]
  have hpostings : ((s.abort h).abortAll hs).outbox.postings
      = (s.abortAll (h :: hs)).outbox.postings := by
    funext n
    have hrest : (∃ h' ∈ hs, ((s.abort h).tasks h').posting = some n)
        ↔ ∃ h' ∈ hs, h' ≠ h ∧ (s.tasks h').posting = some n := by
      refine exists_congr fun h' => and_congr_right fun _ => ?_
      by_cases heq : h' = h
      · simp [abort, setTask, heq, Task.posting]
      · simp [abort, setTask, heq]
    simp only [abortAll, Outbox.cutWhere, hrest]
    by_cases hn : (s.tasks h).posting = some n
    · have hfirst : ∃ h' ∈ h :: hs, (s.tasks h').posting = some n := ⟨h, List.mem_cons_self, hn⟩
      rw [if_pos hfirst]
      simp [abort, Outbox.cutWhere, hn, Outbox.cutOff_cutOff]
    · have hne : (∃ h' ∈ hs, h' ≠ h ∧ (s.tasks h').posting = some n)
          ↔ ∃ h' ∈ h :: hs, (s.tasks h').posting = some n := by
        constructor
        · rintro ⟨h', hmem, _, hp⟩
          exact ⟨h', List.mem_cons_of_mem h hmem, hp⟩
        · rintro ⟨h', hmem, hp⟩
          have hdiff : h' ≠ h := by
            rintro rfl
            exact hn hp
          exact ⟨h', (List.mem_cons.mp hmem).resolve_left hdiff, hdiff, hp⟩
      simp only [hne]
      simp [abort, Outbox.cutWhere, hn]
  calc (s.abort h).abortAll hs
      = { s with
          tasks := ((s.abort h).abortAll hs).tasks
          outbox := { s.outbox with postings := ((s.abort h).abortAll hs).outbox.postings } } := rfl
    _ = s.abortAll (h :: hs) := by
      rw [htasks, hpostings]
      rfl

theorem foldl_abort (s : Chat) (hs : List Nat) : hs.foldl abort s = s.abortAll hs := by
  induction hs generalizing s with
  | nil =>
      simp [abortAll, Outbox.cutWhere]
  | cons h hs ih => rw [List.foldl_cons, ih, abort_abortAll]

/-! ### Effects -/

def core (s : Chat) : Option TurnCore := s.turn.map ChatTurn.core

/-- The turn that an update finds or opens. -/
def enteredCore (s : Chat) : TurnCore := s.core.getD ⟨0, "", .active, none, false⟩

def flushed (s : Chat) : ChatLabel → Option ChatTurn
  | .receive kind messageId =>
      match kind with
      | .messageChunk _ => s.changedTurn messageId
      | .thought _ _ _ => s.changedTurn messageId
      | _ => none
  | .deliver =>
      match s.delivery with
      | .unsuppressed _ => s.finalizingTurn
      | _ => none
  | _ => none

/-- The next request of a posting ends after it has taken effect: it has succeeded, or the task
    takes it for failed. -/
inductive Ends (s : Chat) (n : Nat) (r : Request) (rest : List Request) :
    ChatLabel → List Request → Bool → Prop where
  | succeeded : Ends s n r rest (.land n) rest true
  | failed (f : Failure) (heffect : f.tookEffect = true) :
      Ends s n r rest (.fail n f) (r.afterFailure f (s.sendsFinal n) rest) false

/-- The next request of a posting has failed without an effect, or is made again. -/
inductive Delays (s : Chat) (n : Nat) (r : Request) (rest : List Request) :
    ChatLabel → List Request → Prop where
  | failed (f : Failure) (heffect : f.tookEffect = false) :
      Delays s n r rest (.fail n f) (r.afterFailure f (s.sendsFinal n) rest)
  | retried : Delays s n r rest (.retry n) (r.woken :: rest)

/-- How text is added to the response without an edit that is tried for it. -/
inductive Adds (s : Chat) (t : ChatTurn) : String → Prop where
  | nothing : Adds s t ""
  | chunk (text : String) (messageId : Option String) (p : Option Nat)
      (hdelivery : s.delivery = .flushingForChunk text messageId p)
      (hskips : t.buffer = "" ∨ t.msgId = 0) : Adds s t text
  | result (isError : Bool) (text : String) (messageId : Option String)
      (hdelivery : s.delivery = .resulting isError text messageId) :
      Adds s t (errorText isError text)

inductive Effect (tg : Settings) (s : Chat) : ChatLabel → Chat → Prop where
  /-- Nothing that matters changes. -/
  | still (l : ChatLabel) (turn : Option ChatTurn) (now : Nat)
      (hturn : turn.map ChatTurn.core = s.core) :
      Effect tg s l { s with turn := turn, now := now }
  /-- The delivery goes on, without an edit that was to be tried. -/
  | moved (l : ChatLabel) (turn : Option ChatTurn) (d : Delivery)
      (hturn : turn.map ChatTurn.core = s.core) (hlanded : s.outbox.landed s.delivery.posting = true)
      (hd : d.Waits none)
      (hskips : ∀ accumulated msgId, s.delivery = .tryingEdit accumulated msgId →
        l = .deliver ∧ ∀ t, s.turn = some t →
          (t.canEditResponse tg.responseEditCooldownMs s.now).1 = false) :
      Effect tg s l { s with turn := turn, delivery := d }
  /-- A turn without text is dropped. -/
  | dropped (l : ChatLabel) (t : ChatTurn) (d : Delivery) (ht : s.turn = some t)
      (hflushed : s.flushed l = some t) (hlanded : s.outbox.landed s.delivery.posting = true)
      (hempty : t.buffer = "") (hd : d.Waits none) :
      Effect tg s l { s.abortAll t.cleanupHandles with turn := none, delivery := d }
  | flushed (l : ChatLabel) (t : ChatTurn) (d : Delivery) (ht : s.turn = some t)
      (hflushed : s.flushed l = some t) (hlanded : s.outbox.landed s.delivery.posting = true)
      (htext : t.buffer ≠ "") (hd : d.Waits (some s.outbox.posted)) :
      Effect tg s l
        { s.abortAll t.cleanupHandles with
          turn := none
          delivery := d
          outbox := (s.abortAll t.cleanupHandles).outbox.post s.serial t.buffer t.msgId
            (messageParts (tg.formatTelegramHtml t.buffer)) true }
  /-- Text, which may be empty, is added to the response of the turn. -/
  | entered (t : ChatTurn) (text : String) (d : Delivery)
      (ht : t.core = { s.enteredCore with buffer := s.enteredCore.buffer ++ text })
      (hlanded : s.outbox.landed s.delivery.posting = true)
      (hfrom : ∀ accumulated msgId, s.delivery ≠ .tryingEdit accumulated msgId)
      (hd : d.Waits none ∧ s.Adds t text ∨
        d = .tryingEdit t.buffer t.msgId ∧ t.msgId ≠ 0 ∧ t.phase = .active) :
      Effect tg s .deliver { s.enter t text with delivery := d }
  /-- A chunk comes after the result, and everything is sent again. -/
  | enteredLate (text : String) (messageId : Option String) (p : Option Nat) (t₀ t : ChatTurn)
      (hdelivery : s.delivery = .flushingForChunk text messageId p) (ht₀ : s.turn = some t₀)
      (ht : t.core = { t₀.core with buffer := t₀.buffer ++ text })
      (hlanded : s.outbox.landed s.delivery.posting = true) (hphase : t.phase ≠ .active)
      (hid : t.msgId ≠ 0) (htext : t.buffer ≠ "") :
      Effect tg s .deliver
        { s.enter t text with
          outbox := s.outbox.post s.enteredSerial t.buffer t.msgId
            (messageParts (tg.formatTelegramHtml t.buffer)) true
          delivery := .finalizing (some s.outbox.posted) }
  | spawned (task : Task) (d : Delivery) (hlanded : s.outbox.landed s.delivery.posting = true)
      (hfrom : ∀ accumulated msgId, s.delivery ≠ .tryingEdit accumulated msgId)
      (hd : d = .registeringFinalize s.spawned ∧ task = .finalizeSleeping ∨
        d = .registeringDebounce s.spawned ∧ task = .debounceSleeping) :
      Effect tg s .deliver { s.spawn task with delivery := d }
  | registeredFinalize (h : Nat) (t : ChatTurn) (hdelivery : s.delivery = .registeringFinalize h)
      (ht : s.turn = some t) :
      Effect tg s .deliver
        { s.abortAll t.finalizeHandle.toList with
          turn := some (t.beginFinalizing h), delivery := .idle }
  | registeredDebounce (h : Nat) (hdelivery : s.delivery = .registeringDebounce h) :
      Effect tg s .deliver
        { s with turn := s.turn.map (setDebounceHandle h), delivery := .idle }
  | edited (accumulated : String) (msgId : Nat) (t t' : ChatTurn)
      (hdelivery : s.delivery = .tryingEdit accumulated msgId) (ht : s.turn = some t)
      (ht' : t'.core = t.core) :
      Effect tg s .deliver
        { ({ s with turn := some t' }).postFirst tg s.serial accumulated msgId with
          delivery := .editing s.outbox.posted }
  /-- A debounce task reads the buffer, or ends without a message that it knows. -/
  | debounced (i : Nat) (task : Task)
      (hi : s.tasks i = .debounceSleeping ∨ (∃ g text, s.tasks i = .debounceRead g text) ∨
        ∃ n, s.tasks i = .debounceSending n ∧ s.outbox.landed (some n) = true)
      (htask : task = .over ∨ s.tasks i = .debounceSleeping ∧
        ∃ text, task = .debounceRead s.serial text) :
      Effect tg s (.fire i) (s.setTask i task)
  | debounceClaimed (i turn : Nat) (accumulated : String) (t t' : ChatTurn)
      (hi : s.tasks i = .debounceRead turn accumulated) (ht : s.turn = some t)
      (hfree : t.responseFinalized = false)
      (ht' : t'.core = { t.core with responseFinalized := true }) :
      Effect tg s (.fire i)
        ((({ s with turn := some t' }).postFirst tg turn accumulated 0).setTask i
          (.debounceSending s.outbox.posted))
  | debounceStored (i n : Nat) (hi : s.tasks i = .debounceSending n)
      (hlanded : s.outbox.landed (some n) = true) (hreply : (s.outbox.postings n).reply ≠ 0) :
      Effect tg s (.fire i)
        (({ s with turn := s.turn.map (setMsgId (s.outbox.postings n).reply) }).setTask i .over)
  /-- A finalization timer runs out without anything to send. -/
  | finalizeEmpty (i : Nat) (turn : Option ChatTurn) (hi : s.tasks i = .finalizeSleeping)
      (hturn : turn.map ChatTurn.core = s.core ∧
          (∀ t, s.turn = some t → t.responseFinalized = true) ∨
        ∃ t t', s.turn = some t ∧ turn = some t' ∧ t.responseFinalized = false ∧
          t.buffer = "" ∧ t'.core = { t.core with responseFinalized := true }) :
      Effect tg s (.fire i) (({ s with turn := turn }).setTask i (.finalizePosting none))
  | finalizeClaimed (i : Nat) (t t' : ChatTurn) (hi : s.tasks i = .finalizeSleeping)
      (ht : s.turn = some t) (hfree : t.responseFinalized = false) (htext : t.buffer ≠ "")
      (ht' : t'.core = { t.core with responseFinalized := true }) :
      Effect tg s (.fire i)
        (({ s with
            turn := some t'
            outbox := s.outbox.post s.serial t.buffer t.msgId
              (messageParts (tg.formatTelegramHtml t.buffer)) true }).setTask i
          (.finalizePosting (some s.outbox.posted)))
  | removed (i : Nat) (p : Option Nat) (hi : s.tasks i = .finalizePosting p)
      (hlanded : s.outbox.landed p = true) :
      Effect tg s (.fire i) (({ s with turn := none }).setTask i .over)
  | sent (l : ChatLabel) (n : Nat) (r : Request) (rest next : List Request) (answered : Bool)
      (hpending : (s.outbox.postings n).pending = r :: rest) (htarget : r.target = none)
      (hends : s.Ends n r rest l next answered) :
      Effect tg s l { s with outbox := s.outbox.send n r next answered }
  | replaced (l : ChatLabel) (n k : Nat) (r : Request) (rest next : List Request) (answered : Bool)
      (hpending : (s.outbox.postings n).pending = r :: rest) (htarget : r.target = some k)
      (hends : s.Ends n r rest l next answered) :
      Effect tg s l { s with outbox := s.outbox.replace n k r next }
  /-- No message changes. -/
  | delayed (l : ChatLabel) (n : Nat) (r : Request) (rest next : List Request)
      (hpending : (s.outbox.postings n).pending = r :: rest) (hdelays : s.Delays n r rest l next) :
      Effect tg s l { s with outbox := s.outbox.keep n next }

/-! ### The effect of every step -/

variable {tg : Settings} {s s' : Chat}

theorem Ends.leaves {l : ChatLabel} {n : Nat} {r : Request} {rest next : List Request}
    {answered : Bool} (h : s.Ends n r rest l next answered) : r.Leaves rest next := by
  cases h with
  | succeeded => exact r.leaves_rest rest
  | failed f heffect => exact r.leaves_afterFailure rest f _

theorem Delays.leaves {l : ChatLabel} {n : Nat} {r : Request} {rest next : List Request}
    (h : s.Delays n r rest l next) : r.Leaves rest next := by
  cases h with
  | failed f heffect => exact r.leaves_afterFailure rest f _
  | retried => exact r.leaves_woken rest

theorem core_entered (s : Chat) (messageId : Option String) :
    (s.entered messageId).core = s.enteredCore := by
  rw [entered, ChatTurn.core_rename, enteredCore, core]
  cases s.turn with
  | none => exact ChatTurn.core_new _
  | some t => rfl

theorem turn_of_changedTurn {messageId : Option String} {t : ChatTurn}
    (h : s.changedTurn messageId = some t) : s.turn = some t := by
  cases messageId with
  | none => cases h
  | some mid =>
      cases hturn : s.turn with
      | none =>
          simp only [changedTurn, hturn] at h
          cases h
      | some turn =>
          simp only [changedTurn, hturn] at h
          exact (Option.ite_none_right_eq_some.mp h).2

theorem skips_of_ne {l : ChatLabel}
    (hfrom : ∀ accumulated msgId, s.delivery ≠ .tryingEdit accumulated msgId) :
    ∀ accumulated msgId, s.delivery = .tryingEdit accumulated msgId →
      l = .deliver ∧ ∀ t, s.turn = some t →
        (t.canEditResponse tg.responseEditCooldownMs s.now).1 = false :=
  fun accumulated msgId heq => absurd heq (hfrom accumulated msgId)

theorem effect_flush (tg : Settings) {l : ChatLabel} {o : Option ChatTurn}
    {d : Option Nat → Delivery}
    (ho : ∀ t, o = some t → s.turn = some t ∧ s.flushed l = some t)
    (hlanded : s.outbox.landed s.delivery.posting = true)
    (hfrom : ∀ accumulated msgId, s.delivery ≠ .tryingEdit accumulated msgId)
    (hd : ∀ p, (d p).Waits p) :
    s.Effect tg l { (s.flush tg o).1 with delivery := d (s.flush tg o).2 } := by
  cases o with
  | none => exact .moved l s.turn (d none) rfl hlanded (hd none) (skips_of_ne hfrom)
  | some t =>
      obtain ⟨hturn, hflushed⟩ := ho t rfl
      simp only [flush, flushTurn, foldl_abort]
      split
      · rename_i text msgId htake
        cases t.takeResponseForFinalize_eq_some htake
        simp only [postWhole]
        split
        · rename_i hempty
          exact .dropped l t _ hturn hflushed hlanded hempty (hd none)
        · rename_i htext
          exact .flushed l t _ hturn hflushed hlanded htext (hd _)
      · rename_i htake
        exact .dropped l t _ hturn hflushed hlanded (t.takeResponseForFinalize_eq_none htake)
          (hd none)

theorem effect_receive (kind : ContentKind) (messageId : Option String)
    (hidle : s.delivery = .idle) :
    s.Effect tg (.receive kind messageId) (s.receive tg kind messageId) := by
  have hlanded : s.outbox.landed s.delivery.posting = true := by rw [hidle]; rfl
  have hfrom : ∀ accumulated msgId, s.delivery ≠ .tryingEdit accumulated msgId := by
    simp [hidle]
  cases kind with
  | messageChunk text =>
      apply effect_flush tg (d := fun p => .flushingForChunk text messageId p) ?_ hlanded hfrom
      · intro p
        exact ⟨rfl, rfl, by simp⟩
      · intro t ht
        exact ⟨turn_of_changedTurn ht, ht⟩
  | thought sessionId updateType content =>
      apply effect_flush tg (d := fun p => .flushingForThought messageId p) ?_ hlanded hfrom
      · intro p
        exact ⟨rfl, rfl, by simp⟩
      · intro t ht
        exact ⟨turn_of_changedTurn ht, ht⟩
  | result text isError =>
      simp only [receive]
      split
      · exact .still _ s.turn s.now rfl
      · exact .moved _ s.turn _ rfl hlanded ⟨rfl, rfl, by simp⟩ (skips_of_ne hfrom)
  | toolCall name toolCallId input =>
      simp only [receive]
      split
      · rename_i t ht
        split
        · exact .still _ s.turn s.now rfl
        · apply Effect.still _ (some (t.rename (messageId.getD "")).unsuppress) s.now
          rw [core, ht]
          simp
      · exact .still _ s.turn s.now rfl
  | userMessageChunk | usageUpdate | toolCallUpdate | availableCommandsUpdate | image | file
  | audio | unknown => exact .still _ s.turn s.now rfl

/-- A chunk is appended; what follows is decided by what the turn has become. -/
theorem effect_appendChunk {text : String} {messageId : Option String} {p : Option Nat}
    (hdelivery : s.delivery = .flushingForChunk text messageId p)
    (hlanded : s.outbox.landed p = true) :
    s.Effect tg .deliver (s.appendChunk tg text messageId) := by
  have hland : s.outbox.landed s.delivery.posting = true := by rw [hdelivery]; exact hlanded
  have hfrom : ∀ accumulated msgId, s.delivery ≠ .tryingEdit accumulated msgId := by
    simp [hdelivery]
  have hcore : ((s.entered messageId).unsuppress).core = s.enteredCore := by
    rw [ChatTurn.core_unsuppress, core_entered]
  generalize hold : (s.entered messageId).unsuppress = old at hcore
  have hnew := old.core_appendResponse text s.now
  generalize ht : old.appendResponse text 0 s.now = t at hnew
  have hid : (old.appendedTrack text 0 s.now).msgId = t.msgId := by
    rw [old.appendedTrack_msgId text s.now]
    exact (congrArg TurnCore.msgId hnew).symm
  have hbuffer : (old.appendedTrack text 0 s.now).buffer = t.buffer := by
    rw [old.appendedTrack_buffer text s.now]
    exact (congrArg TurnCore.buffer hnew).symm
  have hphase : t.phase = old.phase := congrArg TurnCore.phase hnew
  have hentered : t.core = { s.enteredCore with buffer := s.enteredCore.buffer ++ text } := by
    rw [hnew, ← hcore]
    rfl
  have hadds : t.buffer = "" ∨ t.msgId = 0 → s.Adds t text := .chunk text messageId p hdelivery
  simp only [appendChunk, hold, ht, hid, hbuffer]
  split
  · rename_i hempty
    exact .entered t text _ hentered hland hfrom
      (.inl ⟨⟨rfl, rfl, by simp⟩, hadds (.inl hempty)⟩)
  · rename_i htext
    split
    · rename_i hfinal
      split
      · rename_i hzero
        exact .entered t text _ hentered hland hfrom
          (.inl ⟨⟨rfl, rfl, by simp⟩, hadds (.inr hzero)⟩)
      · rename_i hne
        simp only [postWhole, if_neg htext]
        have hactive := old.isFinalizing_iff.mp hfinal
        -- a turn that was just opened is active
        cases hturn : s.turn with
        | none =>
            rw [enteredCore, core, hturn] at hcore
            exact absurd (congrArg TurnCore.phase hcore) hactive
        | some t₀ =>
            rw [enteredCore, core, hturn] at hcore hentered
            exact .enteredLate text messageId p t₀ t hdelivery hturn hentered hland
              (by rw [hphase]; exact hactive) hne htext
    · rename_i hfinal
      split
      · rename_i hzero
        exact .entered t text _ hentered hland hfrom
          (.inl ⟨⟨rfl, rfl, by simp⟩, hadds (.inr hzero)⟩)
      · rename_i hne
        have hactive : t.phase = .active := by
          rw [hphase]
          by_contra hcon
          exact hfinal (old.isFinalizing_iff.mpr hcon)
        exact .entered t text _ hentered hland hfrom (.inr ⟨rfl, hne, hactive⟩)

theorem effect_appendResult {isError : Bool} {text : String} {messageId : Option String}
    (hdelivery : s.delivery = .resulting isError text messageId) :
    s.Effect tg .deliver (s.appendResult isError text messageId) := by
  have hland : s.outbox.landed s.delivery.posting = true := by rw [hdelivery]; rfl
  rw [appendResult]
  refine .entered _ _ _ ?_ hland (by simp [hdelivery])
    (.inl ⟨⟨rfl, rfl, by simp⟩, .result isError text messageId hdelivery⟩)
  rw [ChatTurn.core_suppressThought, errorText]
  split
  · rw [ChatTurn.core_appendResponse, ChatTurn.core_lastResultWasError, core_entered]
    have hbuffer : ChatTurn.buffer { s.entered messageId with lastResultWasError := isError }
        = s.enteredCore.buffer := congrArg TurnCore.buffer (core_entered s messageId)
    rw [hbuffer]
  · rw [ChatTurn.core_lastResultWasError, core_entered]
    simp

theorem effect_tryEdit {accumulated : String} {msgId : Nat}
    (hdelivery : s.delivery = .tryingEdit accumulated msgId) :
    s.Effect tg .deliver (s.tryEdit tg accumulated msgId) := by
  have hland : s.outbox.landed s.delivery.posting = true := by rw [hdelivery]; rfl
  rw [tryEdit]
  split
  · rename_i t ht
    have hcore := t.core_canEditResponse tg.responseEditCooldownMs s.now
    simp only
    split
    · exact .edited accumulated msgId t _ hdelivery ht hcore
    · rename_i hdenied
      refine .moved _ (some _) _ ?_ hland ⟨rfl, rfl, by simp⟩ ?_
      · rw [core, ht, Option.map_some, hcore]
        rfl
      · intro _ _ _
        refine ⟨rfl, ?_⟩
        intro t' ht'
        cases ht.symm.trans ht'
        exact Bool.eq_false_iff.mpr hdenied
  · rename_i hnone
    refine .moved _ s.turn _ rfl hland ⟨rfl, rfl, by simp⟩ ?_
    intro _ _ _
    refine ⟨rfl, ?_⟩
    intro t' ht'
    rw [hnone] at ht'
    cases ht'

theorem effect_deliver (h : s.deliver tg = some s') : s.Effect tg .deliver s' := by
  rw [deliver] at h
  split at h
  · cases h
  · rename_i text messageId p hdelivery
    obtain ⟨hlanded, h⟩ := Option.ite_none_right_eq_some.mp h
    cases h
    exact effect_appendChunk hdelivery hlanded
  · rename_i messageId p hdelivery
    have hland : s.outbox.landed p = true → s.outbox.landed s.delivery.posting = true := by
      intro hlanded
      rw [hdelivery]
      exact hlanded
    obtain ⟨hlanded, h⟩ := Option.ite_none_right_eq_some.mp h
    split at h
    · cases h
      exact .moved _ s.turn _ rfl (hland hlanded) ⟨rfl, rfl, by simp⟩ (by simp [hdelivery])
    · cases h
      exact .moved _ s.turn _ rfl (hland hlanded) ⟨rfl, rfl, by simp⟩ (by simp [hdelivery])
  · rename_i messageId hdelivery
    cases h
    apply effect_flush tg (d := fun p => .reflushing messageId p)
    · intro t ht
      refine ⟨(Option.filter_eq_some_iff.mp ht).1, ?_⟩
      simp only [flushed, hdelivery]
      exact ht
    · rw [hdelivery]
      rfl
    · simp [hdelivery]
    · intro p
      exact ⟨rfl, rfl, by simp⟩
  · rename_i messageId p hdelivery
    obtain ⟨hlanded, h⟩ := Option.ite_none_right_eq_some.mp h
    cases h
    refine .entered _ "" _ ?_ ?_ (by simp [hdelivery]) (.inl ⟨⟨rfl, rfl, by simp⟩, .nothing⟩)
    · rw [ChatTurn.core_appendThought, core_entered]
      simp
    · rw [hdelivery]
      exact hlanded
  · rename_i isError text messageId hdelivery
    cases h
    refine .moved _ _ _ ?_ (by rw [hdelivery]; rfl) ⟨rfl, rfl, by simp⟩ (by simp [hdelivery])
    rw [core, Option.map_map]
    rfl
  · rename_i isError text messageId hdelivery
    cases h
    exact effect_appendResult hdelivery
  · rename_i p hdelivery
    obtain ⟨hlanded, h⟩ := Option.ite_none_right_eq_some.mp h
    cases h
    exact .spawned _ _ (by rw [hdelivery]; exact hlanded) (by simp [hdelivery])
      (.inl ⟨rfl, rfl⟩)
  · rename_i handle hdelivery
    cases h
    rw [registerFinalize]
    split
    · rename_i t ht
      rw [foldl_abort]
      exact .registeredFinalize handle t hdelivery ht
    · exact .moved _ s.turn _ rfl (by rw [hdelivery]; rfl) ⟨rfl, rfl, by simp⟩
        (by simp [hdelivery])
  · rename_i accumulated msgId hdelivery
    cases h
    exact effect_tryEdit hdelivery
  · rename_i n hdelivery
    obtain ⟨hlanded, h⟩ := Option.ite_none_right_eq_some.mp h
    cases h
    exact .moved _ s.turn _ rfl (by rw [hdelivery]; exact hlanded) ⟨rfl, rfl, by simp⟩
      (by simp [hdelivery])
  · rename_i hdelivery
    have hland : s.outbox.landed s.delivery.posting = true := by rw [hdelivery]; rfl
    cases h
    rw [checkDebounce]
    split
    · exact .moved _ s.turn _ rfl hland ⟨rfl, rfl, by simp⟩ (by simp [hdelivery])
    · exact .spawned _ _ hland (by simp [hdelivery]) (.inr ⟨rfl, rfl⟩)
  · rename_i handle hdelivery
    cases h
    exact .registeredDebounce handle hdelivery

theorem effect_claimForDebounce {i turn : Nat} {accumulated : String}
    (hi : s.tasks i = .debounceRead turn accumulated) :
    s.Effect tg (.fire i) (s.claimForDebounce tg i turn accumulated) := by
  have hlost : s.Effect tg (.fire i) (s.setTask i .over) :=
    .debounced i .over (.inr (.inl ⟨turn, accumulated, hi⟩)) (.inl rfl)
  rw [claimForDebounce]
  split
  · rename_i t ht
    split
    · rename_i hwon
      have hfree : t.responseFinalized = false := by simpa [t.tryFinalizeResponse_fst] using hwon
      exact .debounceClaimed i turn accumulated t _ hi ht hfree (t.core_tryFinalizeResponse hfree)
    · exact hlost
  · exact hlost

theorem effect_claimForFinalize {i : Nat} (hi : s.tasks i = .finalizeSleeping) :
    s.Effect tg (.fire i) (s.claimForFinalize tg i) := by
  have hlost : (∀ t, s.turn = some t → t.responseFinalized = true) →
      s.Effect tg (.fire i) (s.setTask i (.finalizePosting none)) := fun htaken =>
    .finalizeEmpty i s.turn hi (.inl ⟨rfl, htaken⟩)
  rw [claimForFinalize]
  split
  · rename_i t ht
    split
    · rename_i hwon
      have hfree : t.responseFinalized = false := by simpa [t.tryFinalizeResponse_fst] using hwon
      have hcore := t.core_tryFinalizeResponse hfree
      have hempty : t.buffer = "" → s.Effect tg (.fire i)
          (({ s with turn := some t.tryFinalizeResponse.2 }).setTask i (.finalizePosting none)) :=
        fun hbuffer => .finalizeEmpty i _ hi (.inr ⟨t, _, ht, rfl, hfree, hbuffer, hcore⟩)
      simp only
      split
      · rename_i text msgId htake
        cases t.takeResponseForFinalize_eq_some htake
        rw [postWhole]
        split
        · rename_i hbuffer
          exact hempty hbuffer
        · rename_i htext
          exact .finalizeClaimed i t _ hi ht hfree htext hcore
      · rename_i htake
        exact hempty (t.takeResponseForFinalize_eq_none htake)
    · rename_i hlate
      apply hlost
      intro t' ht'
      cases ht.symm.trans ht'
      simpa [t.tryFinalizeResponse_fst] using hlate
  · rename_i hnone
    apply hlost
    intro t' ht'
    rw [hnone] at ht'
    cases ht'

theorem effect_fire {i : Nat} (h : s.fire tg i = some s') : s.Effect tg (.fire i) s' := by
  rw [fire] at h
  split at h
  · rename_i hi
    cases h
    refine .debounced i _ (.inl hi) ?_
    rw [readForDebounce]
    split
    · split
      · exact .inl rfl
      · split
        · exact .inl rfl
        · exact .inr ⟨hi, _, rfl⟩
    · exact .inl rfl
  · rename_i turn accumulated hi
    cases h
    exact effect_claimForDebounce hi
  · rename_i n hi
    obtain ⟨hlanded, h⟩ := Option.ite_none_right_eq_some.mp h
    split at h
    · cases h
      exact .debounced i .over (.inr (.inr ⟨n, hi, hlanded⟩)) (.inl rfl)
    · rename_i hreply
      cases h
      exact .debounceStored i n hi hlanded hreply
  · rename_i hi
    cases h
    exact effect_claimForFinalize hi
  · rename_i p hi
    obtain ⟨hlanded, h⟩ := Option.ite_none_right_eq_some.mp h
    cases h
    exact .removed i p hi hlanded
  · cases h

/-- What a request that takes effect does, however it ends. -/
theorem effect_takeEffect {l : ChatLabel} {n : Nat} {r : Request} {rest next : List Request}
    {answered : Bool} (hpending : (s.outbox.postings n).pending = r :: rest)
    (hends : s.Ends n r rest l next answered) :
    s.Effect tg l { s with outbox := s.outbox.takeEffect n r next answered } := by
  rw [Outbox.takeEffect]
  split
  · rename_i htarget
    exact .sent l n r rest next answered hpending htarget hends
  · rename_i k htarget
    exact .replaced l n k r rest next answered hpending htarget hends

theorem effect_land {n : Nat} {o : Outbox} (h : s.outbox.land n = some o) :
    s.Effect tg (.land n) { s with outbox := o } := by
  rw [Outbox.land] at h
  split at h
  · cases h
  · rename_i r rest hpending
    obtain ⟨_, h⟩ := Option.ite_none_left_eq_some.mp h
    cases h
    exact effect_takeEffect hpending .succeeded

theorem effect_fail {n : Nat} {f : Failure} {o : Outbox}
    (h : s.outbox.fail n f (s.sendsFinal n) = some o) :
    s.Effect tg (.fail n f) { s with outbox := o } := by
  rw [Outbox.fail] at h
  split at h
  · cases h
  · rename_i r rest hpending
    obtain ⟨_, h⟩ := Option.ite_none_left_eq_some.mp h
    split at h
    · rename_i heffect
      cases h
      exact effect_takeEffect hpending (.failed f heffect)
    · rename_i heffect
      cases h
      exact .delayed _ n r rest _ hpending (.failed f (Bool.eq_false_iff.mpr heffect))

theorem effect_retry {n : Nat} {o : Outbox} (h : s.outbox.retry n = some o) :
    s.Effect tg (.retry n) { s with outbox := o } := by
  rw [Outbox.retry] at h
  split at h
  · cases h
  · rename_i r rest hpending
    obtain ⟨_, h⟩ := Option.ite_none_right_eq_some.mp h
    cases h
    exact .delayed _ n r rest _ hpending .retried

end Chat

/-- **Every step of the chat has one of these effects.** -/
theorem effect_of_step {tg : Settings} {s s' : Chat} {l : ChatLabel}
    (h : (chat tg).step s l = some s') : s.Effect tg l s' := by
  cases l with
  | receive kind messageId =>
      obtain ⟨hidle, h⟩ := Option.ite_none_right_eq_some.mp h
      cases h
      exact Chat.effect_receive kind messageId hidle
  | deliver => exact Chat.effect_deliver h
  | fire i => exact Chat.effect_fire h
  | land n =>
      obtain ⟨o, hland, rfl⟩ := Option.map_eq_some_iff.mp h
      exact Chat.effect_land hland
  | fail n f =>
      obtain ⟨o, hfail, rfl⟩ := Option.map_eq_some_iff.mp h
      exact Chat.effect_fail hfail
  | retry n =>
      obtain ⟨o, hretry, rfl⟩ := Option.map_eq_some_iff.mp h
      exact Chat.effect_retry hretry
  | wait ms =>
      cases h
      exact .still _ s.turn _ rfl

end Anyclaw.Telegram
