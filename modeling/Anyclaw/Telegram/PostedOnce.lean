import Anyclaw.Telegram.Parts
import Anyclaw.Telegram.TurnTasks
import Anyclaw.Telegram.WholeAnswer

/-!
# No part of an answer is posted twice

A flush (`flush_turn_data`, `send_flush` in `ext/channels/telegram/src/deliver.rs`) decides by
the id of the first message whether to edit or to send, and that id is stored late: while the
first message is on its way, or after the finalization timer has sent it, the flush sends the
text once more.  Every chunk that comes after the result, and the flush, send all the further
parts of a long text again.  And `retry_telegram_op` makes a request again that may have taken
effect.

What holds is this.  In a run in which a turn is flushed only when its message is known or
none is there, in which nothing is sent after the further parts of a turn were, in which a
message whose request has failed is sent again only if it is not there, and in which a debounce
task goes on only with the turn it has read, two messages of a turn are different parts of one
text.

* `SendsOnce`: the conditions on the steps.
* `Sends`: what was sent for the turn of the chat, and who waits for it.
* `postedOnce_of_sendsOnce`: one message for each part.
-/

namespace Anyclaw.Telegram

namespace Outbox

/-! ### What was sent for a turn -/

def Silent (o : Outbox) (g : Nat) : Prop := ∀ n < o.posted, (o.postings n).turn ≠ g

/-- No message of the turn is there or on its way. -/
def Unsent (o : Outbox) (g : Nat) : Prop :=
  (∀ n < o.posted, (o.postings n).turn = g → (o.postings n).pending = []) ∧
    ∀ m ∈ o.shown, m.turn ≠ g

/-- One message was enough for whatever was sent for the turn. -/
def Short (o : Outbox) (g : Nat) : Prop :=
  ∀ n < o.posted, (o.postings n).turn = g → (o.postings n).parts.length ≤ 1

instance (o : Outbox) (g : Nat) : Decidable (o.Unsent g) := by
  unfold Unsent
  infer_instance

instance (o : Outbox) (g : Nat) : Decidable (o.Short g) := by
  unfold Short
  infer_instance

variable {o : Outbox} {g : Nat}

theorem Silent.unsent (ha : o.Attributed) (hsilent : o.Silent g) : o.Unsent g := by
  refine ⟨fun n hn hturn => absurd hturn (hsilent n hn), ?_⟩
  intro m hm hturn
  obtain ⟨hlt, hposting⟩ := ha.written m hm
  exact hsilent _ hlt (hposting.trans hturn)

/-- The first message for a turn. -/
theorem Unsent.ready (ha : o.Attributed) (hunsent : o.Unsent g) (msgId : Nat) :
    Single.Ready o g msgId where
  quiet := by
    intro n hn
    by_contra hpending
    exact hpending (hunsent.1 n (ha.lt_posted hpending) hn)
  only := fun _ m hm hturn => absurd hturn (hunsent.2 m (List.mem_of_getElem? hm))

/-- A turn that one message was enough for has only one. -/
theorem Single.ready_of_short (h : Single o) (ha : o.Attributed) (hshort : o.Short g) {k : Nat}
    (hk : o.Shows k g) (hquiet : ∀ n, (o.postings n).turn = g → (o.postings n).pending = []) :
    Single.Ready o g k where
  quiet := hquiet
  only := by
    intro j m hm hturn
    obtain ⟨hpos, m', hm', hturn'⟩ := hk
    refine ⟨Nat.pos_iff_ne_zero.mp hpos, ?_⟩
    have hzero : ∀ m'' ∈ o.shown, m''.turn = g → m''.part = 0 := by
      intro m'' hmem hg
      obtain ⟨hlt, hposting⟩ := ha.written m'' hmem
      have hparts := h.parts m'' hmem
      have hlen := hshort _ hlt (hposting.trans hg)
      omega
    by_contra hne
    have hdiff := (h.once j (k - 1) m m' hne hm hm' (hturn.trans hturn'.symm)).2
    rw [hzero m (List.mem_of_getElem? hm) hturn, hzero m' (List.mem_of_getElem? hm') hturn']
      at hdiff
    exact hdiff rfl

theorem Single.Ready.cutWhere {k : Nat} (h : Single.Ready o g k) (P : Nat → Prop)
    [DecidablePred P] : Single.Ready (o.cutWhere P) g k where
  quiet := by
    intro n hn
    rw [(cutWhere_fields o P n).1] at hn
    by_contra hpending
    exact cutWhere_ne_nil hpending (h.quiet n hn)
  only := h.only

/-! ### New messages -/

/-- What is still to come of the posting are new messages. -/
def SendsNew (o : Outbox) (n : Nat) : Prop := ∀ r ∈ (o.postings n).pending, r.target = none

variable {n : Nat}

theorem SendsNew.of_eq {o' : Outbox} (h : o.SendsNew n) (heq : o'.postings n = o.postings n) :
    o'.SendsNew n := by
  rw [SendsNew, heq]
  exact h

theorem sendsNew_post (o : Outbox) (turn : Nat) (source : String) {msgId : Nat}
    (hid : msgId = 0) (parts : List String) (whole : Bool) :
    (o.post turn source msgId parts whole).SendsNew o.posted := by
  rw [SendsNew, post_postings_self]
  intro r hr
  by_contra htarget
  obtain ⟨k, hk⟩ := Option.ne_none_iff_exists'.mp htarget
  obtain ⟨rfl, hne⟩ := (of_mem_requests hr).2 k hk
  exact hne hid

end Outbox

/-- Some requests have ended, or have been cut off; nothing new was started. -/
structure Outbox.Later (o' o : Outbox) : Prop where
  posted : o'.posted = o.posted
  turn : ∀ n, (o'.postings n).turn = (o.postings n).turn
  parts : ∀ n, (o'.postings n).parts = (o.postings n).parts
  pending : ∀ n, (o'.postings n).pending ≠ [] → (o.postings n).pending ≠ []
  targets : ∀ n, ∀ r ∈ (o'.postings n).pending, r.target = none ∨
    ∃ r₀ ∈ (o.postings n).pending, r.target = r₀.target

namespace Outbox.Later

variable {o : Outbox}

theorem rfl' (o : Outbox) : o.Later o where
  posted := rfl
  turn _ := rfl
  parts _ := rfl
  pending _ h := h
  targets _ r hr := .inr ⟨r, hr, rfl⟩

theorem cutWhere (o : Outbox) (P : Nat → Prop) [DecidablePred P] : (o.cutWhere P).Later o where
  posted := rfl
  turn n := (cutWhere_fields o P n).1
  parts n := (cutWhere_fields o P n).2.2.1
  pending _ h := cutWhere_ne_nil h
  targets n r hr := .inr ⟨r, (cutWhere_fields o P n).2.2.2.2.2 hr, rfl⟩

section Land

variable {n : Nat} {r : Request} {rest next : List Request}

/-- One of the postings goes on. -/
theorem of_next {o' : Outbox} (hposted : o'.posted = o.posted) (hcont : o'.Continues o n next)
    (hpending : (o.postings n).pending = r :: rest) (hnext : r.Leaves rest next) :
    o'.Later o where
  posted := hposted
  turn := hcont.turn
  parts := hcont.parts
  pending _ hj := hcont.came (by rw [hpending]; exact List.cons_ne_nil r rest) hj
  targets := by
    intro j r' hr'
    by_cases heq : j = n
    · rw [heq, hcont.pending] at hr'
      rw [heq, hpending]
      rcases hnext r' hr' with hmem | hnone | hsame
      · exact .inr ⟨r', List.mem_cons_of_mem r hmem, rfl⟩
      · exact .inl hnone
      · exact .inr ⟨r, List.mem_cons_self, hsame⟩
    · rw [hcont.others j heq] at hr'
      exact .inr ⟨r', hr', rfl⟩

theorem send {answered : Bool} (hpending : (o.postings n).pending = r :: rest)
    (hnext : r.Leaves rest next) : (o.send n r next answered).Later o :=
  of_next rfl continues_send hpending hnext

theorem replace {k : Nat} (hpending : (o.postings n).pending = r :: rest)
    (hnext : r.Leaves rest next) : (o.replace n k r next).Later o :=
  of_next rfl continues_replace hpending hnext

theorem keep (hpending : (o.postings n).pending = r :: rest) (hnext : r.Leaves rest next) :
    (o.keep n next).Later o :=
  of_next rfl continues_keep hpending hnext

end Land

theorem sendsNew {o' : Outbox} (h : o'.Later o) {n : Nat} (hnew : o.SendsNew n) :
    o'.SendsNew n := by
  intro r hr
  rcases h.targets n r hr with hnone | ⟨r₀, hr₀, hsame⟩
  · exact hnone
  · exact hsame.trans (hnew r₀ hr₀)

theorem silent {o' : Outbox} (h : o'.Later o) {g : Nat} (hsilent : o.Silent g) :
    o'.Silent g := by
  intro n hn
  rw [h.posted] at hn
  rw [h.turn]
  exact hsilent n hn

theorem short {o' : Outbox} (h : o'.Later o) {g : Nat} (hshort : o.Short g) : o'.Short g := by
  intro n hn hturn
  rw [h.posted] at hn
  rw [h.turn] at hturn
  rw [h.parts]
  exact hshort n hn hturn

end Outbox.Later

/-! ### What the tasks send -/

/-- The tasks send new messages, a debounce task only one. -/
structure TasksSend (tasks : Nat → Task) (o : Outbox) : Prop where
  new : ∀ i n, (tasks i).posting = some n → o.SendsNew n
  short : ∀ i n, tasks i = .debounceSending n → (o.postings n).parts.length ≤ 1

namespace TasksSend

variable {tasks : Nat → Task} {o : Outbox}

theorem later (h : TasksSend tasks o) {o' : Outbox} (hlater : o'.Later o) :
    TasksSend tasks o' where
  new i n hi := hlater.sendsNew (h.new i n hi)
  short i n hi := by
    rw [hlater.parts]
    exact h.short i n hi

theorem post (h : TasksSend tasks o) (hnum : ∀ i n, (tasks i).posting = some n → n < o.posted)
    (turn msgId : Nat) (source : String) (parts : List String) (whole : Bool) :
    TasksSend tasks (o.post turn source msgId parts whole) where
  new i n hi := by
    have hlt := hnum i n hi
    exact (h.new i n hi).of_eq (Outbox.post_postings_of_ne _ _ _ _ _ _ (by omega))
  short i n hi := by
    have hlt := hnum i n (by rw [hi]; rfl)
    rw [Outbox.post_postings_of_ne _ _ _ _ _ _ (by omega)]
    exact h.short i n hi

/-- One of the tasks goes on. -/
theorem set (h : TasksSend tasks o) {i : Nat} {task : Task}
    (hnew : ∀ n, task.posting = some n → o.SendsNew n)
    (hshort : ∀ n, task = .debounceSending n → (o.postings n).parts.length ≤ 1) :
    TasksSend (Function.update tasks i task) o where
  new j n hj := by
    by_cases heq : j = i
    · rw [heq, Function.update_self] at hj
      exact hnew n hj
    · rw [Function.update_of_ne heq] at hj
      exact h.new j n hj
  short j n hj := by
    by_cases heq : j = i
    · rw [heq, Function.update_self] at hj
      exact hshort n hj
    · rw [Function.update_of_ne heq] at hj
      exact h.short j n hj

/-- A task that goes on without a posting. -/
theorem set_none (h : TasksSend tasks o) {i : Nat} {task : Task} (htask : task.posting = none) :
    TasksSend (Function.update tasks i task) o := by
  refine h.set ?_ ?_
  · intro n hn
    rw [htask] at hn
    cases hn
  · rintro n rfl
    cases htask

theorem abortAll {s : Chat} (h : TasksSend s.tasks s.outbox) (hs : List Nat) :
    TasksSend (s.abortAll hs).tasks (s.abortAll hs).outbox := by
  refine TasksSend.later (o := s.outbox) ⟨?_, ?_⟩ (.cutWhere _ _)
  · intro i n hi
    exact h.new i n (Chat.abortAll_posting hi).2
  · intro i n hi
    have hsame : i ∉ hs := by
      intro hmem
      rw [Chat.abortAll_of_mem s hmem] at hi
      cases hi
    rw [Chat.abortAll_of_not_mem s hsame] at hi
    exact h.short i n hi

end TasksSend

/-! ### What was sent for the turn of the chat -/

/-- Nothing is sent for a turn before the right to send is claimed, and only one posting is
    started before its message is known.  From then on, whatever is on its way for the turn is
    what the delivery waits for, and while the turn is active it has one message. -/
structure Sends (s : Chat) : Prop where
  free : ∀ c, s.core = some c → c.responseFinalized = false →
    c.msgId = 0 ∧ s.outbox.Silent s.serial
  awaited : ∀ c, s.core = some c → c.msgId ≠ 0 → ∀ n, (s.outbox.postings n).turn = s.serial →
    (s.outbox.postings n).pending ≠ [] → s.delivery.posting = some n
  first : ∀ c, s.core = some c → c.msgId = 0 → ∀ n n', n < s.outbox.posted →
    n' < s.outbox.posted → (s.outbox.postings n).turn = s.serial →
    (s.outbox.postings n').turn = s.serial → n = n'
  short : ∀ c, s.core = some c → c.msgId ≠ 0 → c.phase = .active → s.outbox.Short s.serial
  tasks : TasksSend s.tasks s.outbox
  editing : ∀ c text k, s.core = some c → s.delivery = .tryingEdit text k →
    c.msgId ≠ 0 ∧ c.phase = .active

namespace Sends

variable {tg : Settings} {s s' : Chat}

/-- The message of a turn stays what it is, the phase does not become active again, and a claim
    is not given back. -/
structure Follows (c' c : TurnCore) : Prop where
  msgId : c'.msgId = c.msgId
  phase : c'.phase = .active → c.phase = .active
  claimed : c'.responseFinalized = false → c.responseFinalized = false

theorem Follows.rfl' (c : TurnCore) : Follows c c := ⟨rfl, fun h => h, fun h => h⟩

/-- A step that starts no posting. -/
theorem mono (h : Sends s) (hlater : s'.outbox.Later s.outbox)
    (hserial : s'.serial = s.serial)
    (hcore : ∀ c', s'.core = some c' → ∃ c, s.core = some c ∧ Follows c' c)
    (hdelivery : ∀ n, (s.outbox.postings n).pending ≠ [] → s.delivery.posting = some n →
      s'.delivery.posting = some n)
    (htasks : TasksSend s'.tasks s'.outbox)
    (hediting : ∀ c text k, s'.core = some c → s'.delivery = .tryingEdit text k →
      c.msgId ≠ 0 ∧ c.phase = .active) : Sends s' where
  free := by
    intro c' hc' hfree
    obtain ⟨c, hc, hfollows⟩ := hcore c' hc'
    obtain ⟨hid, hsilent⟩ := h.free c hc (hfollows.claimed hfree)
    rw [hfollows.msgId, hserial]
    exact ⟨hid, hlater.silent hsilent⟩
  awaited := by
    intro c' hc' hid n hturn hpending
    obtain ⟨c, hc, hfollows⟩ := hcore c' hc'
    rw [hfollows.msgId] at hid
    rw [hlater.turn, hserial] at hturn
    have hbefore := hlater.pending n hpending
    exact hdelivery n hbefore (h.awaited c hc hid n hturn hbefore)
  first := by
    intro c' hc' hid n n' hn hn' hturn hturn'
    obtain ⟨c, hc, hfollows⟩ := hcore c' hc'
    rw [hfollows.msgId] at hid
    rw [hlater.posted] at hn hn'
    rw [hlater.turn, hserial] at hturn hturn'
    exact h.first c hc hid n n' hn hn' hturn hturn'
  short := by
    intro c' hc' hid hactive
    obtain ⟨c, hc, hfollows⟩ := hcore c' hc'
    rw [hfollows.msgId] at hid
    rw [hserial]
    exact hlater.short (h.short c hc hid (hfollows.phase hactive))
  tasks := htasks
  editing := hediting

theorem of_none (hnone : s.core = none) (htasks : TasksSend s.tasks s.outbox) : Sends s := by
  have hno : ∀ {c : TurnCore}, s.core ≠ some c := by
    intro c hc
    rw [hnone] at hc
    cases hc
  exact ⟨fun c hc => absurd hc hno, fun c hc => absurd hc hno, fun c hc => absurd hc hno,
    fun c hc => absurd hc hno, htasks, fun c _ _ hc => absurd hc hno⟩

/-- The first posting for a turn. -/
theorem post_first {c : TurnCore} (hc : s'.core = some c) (hid : c.msgId = 0)
    (hclaimed : c.responseFinalized = true) {o : Outbox} (hsilent : o.Silent s'.serial)
    {turn msgId : Nat} {source : String} {parts : List String} {whole : Bool}
    (ho : s'.outbox = o.post turn source msgId parts whole)
    (htasks : TasksSend s'.tasks s'.outbox)
    (hdelivery : ∀ text k, s'.delivery ≠ .tryingEdit text k) : Sends s' where
  free := by
    intro c' hc' hfree
    cases hc.symm.trans hc'
    rw [hclaimed] at hfree
    cases hfree
  awaited := by
    intro c' hc' hne
    cases hc.symm.trans hc'
    exact absurd hid hne
  first := by
    have hself : ∀ n, n < s'.outbox.posted → (s'.outbox.postings n).turn = s'.serial →
        n = o.posted := by
      intro n hn hturn
      rw [ho] at hn hturn
      by_contra hne
      have hlt : n < o.posted + 1 := hn
      rw [Outbox.post_postings_of_ne _ _ _ _ _ _ hne] at hturn
      exact hsilent n (by omega) hturn
    intro c' _ _ n n' hn hn' hturn hturn'
    rw [hself n hn hturn, hself n' hn' hturn']
  short := by
    intro c' hc' hne
    cases hc.symm.trans hc'
    exact absurd hid hne
  tasks := htasks
  editing := fun c' text k _ hd => absurd hd (hdelivery text k)

/-- A posting for a turn whose message is known: the delivery waits for it. -/
theorem post_again (h : Sends s) {c c' : TurnCore} (hc : s.core = some c)
    (hc' : s'.core = some c') (hfollows : Follows c' c) (hid : c'.msgId ≠ 0)
    (hlanded : s.outbox.landed s.delivery.posting = true) (hserial : s'.serial = s.serial)
    {source : String} {parts : List String} {whole : Bool} {msgId : Nat}
    (ho : s'.outbox = s.outbox.post s.serial source msgId parts whole)
    (hdelivery : s'.delivery.posting = some s.outbox.posted)
    (htrying : ∀ text k, s'.delivery ≠ .tryingEdit text k)
    (hparts : c'.phase = .active → parts.length ≤ 1)
    (htasks : TasksSend s'.tasks s'.outbox) : Sends s' where
  free := by
    intro c'' hc'' hfree
    cases hc'.symm.trans hc''
    have hzero := (h.free c hc (hfollows.claimed hfree)).1
    rw [← hfollows.msgId] at hzero
    exact absurd hzero hid
  awaited := by
    intro c'' hc'' _ n hturn hpending
    by_cases heq : n = s.outbox.posted
    · rw [heq]
      exact hdelivery
    · rw [ho, Outbox.post_postings_of_ne _ _ _ _ _ _ heq] at hturn hpending
      rw [hserial] at hturn
      have hwaits := h.awaited c hc (by rw [← hfollows.msgId]; exact hid) n hturn hpending
      exact absurd (landed_of_eq hlanded hwaits) hpending
  first := by
    intro c'' hc'' hzero
    cases hc'.symm.trans hc''
    exact absurd hzero hid
  short := by
    intro c'' hc'' _ hactive n hn hturn
    cases hc'.symm.trans hc''
    rw [ho] at hn hturn ⊢
    have hlt : n < s.outbox.posted + 1 := hn
    by_cases heq : n = s.outbox.posted
    · rw [heq, Outbox.post_postings_self]
      exact hparts hactive
    · rw [Outbox.post_postings_of_ne _ _ _ _ _ _ heq] at hturn ⊢
      rw [hserial] at hturn
      exact h.short c hc (by rw [← hfollows.msgId]; exact hid) (hfollows.phase hactive) n
        (by omega) hturn
  tasks := htasks
  editing := fun c'' text k _ hd => absurd hd (htrying text k)

end Sends

/-! ### Runs in which nothing is sent again -/

/-- A turn with text is flushed only when no message of it is there or on its way, or its
    message is known and is its only one. -/
def FlushesOnce (s : Chat) (l : ChatLabel) : Prop :=
  ∀ t ∈ s.flushed l, t.buffer ≠ "" →
    s.outbox.Unsent s.serial ∨ t.msgId ≠ 0 ∧ s.outbox.Short s.serial

/-- A chunk that comes after the result finds a turn with at most one message. -/
def AppendsOnce (s : Chat) : ChatLabel → Prop
  | .deliver =>
      match s.delivery with
      | .flushingForChunk _ _ _ =>
          ∀ t ∈ s.turn, t.phase ≠ .active → t.msgId ≠ 0 → s.outbox.Short s.serial
      | _ => True
  | _ => True

/-- A message is sent again only if the request that failed has not taken effect, and an edit
    that has not taken effect is given up only if no further parts follow. -/
def FailsOnce (s : Chat) : ChatLabel → Prop
  | .fail n f =>
      ∀ r ∈ (s.outbox.postings n).pending.head?,
        if r.retries f then r.target = none → f.tookEffect = false
        else r.target ≠ none →
          f.tookEffect = true ∨ (s.outbox.postings n).pending.length ≤ 1
  | _ => True

/-- A debounce task goes on only with the turn it has read, and neither a flush nor a late
    chunk nor a request that has failed sends a part again. -/
def SendsOnce (s : Chat) (l : ChatLabel) : Prop :=
  OwnTurn s l ∧ FlushesOnce s l ∧ AppendsOnce s l ∧ FailsOnce s l

instance (s : Chat) (l : ChatLabel) : Decidable (FlushesOnce s l) := by
  unfold FlushesOnce
  infer_instance

instance (s : Chat) (l : ChatLabel) : Decidable (AppendsOnce s l) := by
  induction l using ChatLabel.casesOn with
  | deliver =>
      dsimp only [AppendsOnce]
      generalize s.delivery = d
      induction d using Delivery.casesOn <;> infer_instance
  | receive | fire | land | fail | retry | wait => exact isTrue trivial

instance (s : Chat) (l : ChatLabel) : Decidable (FailsOnce s l) := by
  induction l using ChatLabel.casesOn with
  | fail n f =>
      dsimp only [FailsOnce]
      infer_instance
  | receive | deliver | fire | land | retry | wait => exact isTrue trivial

instance (s : Chat) (l : ChatLabel) : Decidable (SendsOnce s l) := by
  unfold SendsOnce
  infer_instance

section FailsOnce

variable {s : Chat} {n : Nat} {f : Failure} {r : Request} {rest : List Request}

theorem FailsOnce.of_retries (h : FailsOnce s (.fail n f))
    (hpending : (s.outbox.postings n).pending = r :: rest) (hretries : r.retries f = true)
    (htarget : r.target = none) : f.tookEffect = false := by
  have hfirst := h r (by rw [hpending]; rfl)
  rw [if_pos hretries] at hfirst
  exact hfirst htarget

theorem FailsOnce.of_given_up (h : FailsOnce s (.fail n f))
    (hpending : (s.outbox.postings n).pending = r :: rest) (hretries : r.retries f = false)
    (htarget : r.target ≠ none) : f.tookEffect = true ∨ rest = [] := by
  have hfirst := h r (by rw [hpending]; rfl)
  rw [if_neg (by simp [hretries])] at hfirst
  refine (hfirst htarget).imp_right ?_
  intro hlen
  rw [hpending, List.length_cons] at hlen
  exact List.length_eq_zero_iff.mp (by omega)

end FailsOnce

namespace Sends

variable {tg : Settings} {s s' : Chat} {l : ChatLabel}

theorem follows_of_eq {o : Option TurnCore} (heq : o = s.core) :
    ∀ c', o = some c' → ∃ c, s.core = some c ∧ Follows c' c := by
  intro c' hc'
  exact ⟨c', heq.symm.trans hc', .rfl' c'⟩

/-- When the posting that the delivery waits for is through, the delivery may go on. -/
theorem goesOn (hlanded : s.outbox.landed s.delivery.posting = true) {d : Delivery} :
    ∀ n, (s.outbox.postings n).pending ≠ [] → s.delivery.posting = some n →
      d.posting = some n :=
  fun _ hpending hn => absurd (landed_of_eq hlanded hn) hpending

/-- Nothing is on its way for a turn whose message is known when the delivery goes on. -/
theorem quiet (h : Sends s) {t : ChatTurn} (ht : s.turn = some t) (hid : t.msgId ≠ 0)
    (hlanded : s.outbox.landed s.delivery.posting = true) :
    ∀ n, (s.outbox.postings n).turn = s.serial → (s.outbox.postings n).pending = [] := by
  intro n hn
  by_contra hpending
  have hwaits := h.awaited t.core (Chat.core_of_turn ht) hid n hn hpending
  exact hpending (landed_of_eq hlanded hwaits)

/-- While the right to send is free, nothing is being edited. -/
theorem not_tryingEdit (h : Sends s) {t : ChatTurn} (ht : s.turn = some t)
    (hfree : t.responseFinalized = false) : ∀ text k, s.delivery ≠ .tryingEdit text k := by
  intro text k hd
  have hzero := (h.free t.core (Chat.core_of_turn ht) hfree).1
  exact (h.editing t.core text k (Chat.core_of_turn ht) hd).1 hzero

theorem enter (h : Sends s) (hnum : Numbered s) {t : ChatTurn} {text : String} {d : Delivery}
    (ht : t.core = { s.enteredCore with buffer := s.enteredCore.buffer ++ text })
    (hlanded : s.outbox.landed s.delivery.posting = true)
    (hd : d.Waits none ∧ s.Adds t text ∨
      d = .tryingEdit t.buffer t.msgId ∧ t.msgId ≠ 0 ∧ t.phase = .active) :
    Sends { s.enter t text with delivery := d } := by
  have hediting : ∀ c text' k, some t.core = some c → d = .tryingEdit text' k →
      c.msgId ≠ 0 ∧ c.phase = .active := by
    intro c text' k hc heq
    cases hc
    rcases hd with ⟨hd, _⟩ | ⟨_, hid, hactive⟩
    · exact absurd heq (hd.tryingEdit text' k)
    · exact ⟨hid, hactive⟩
  cases hturn : s.turn with
  | none =>
      rw [Chat.enteredCore_of_none hturn] at ht
      have hzero : t.msgId = 0 := congrArg TurnCore.msgId ht
      have hserial : s.enteredSerial = s.serial + 1 := by
        rw [Chat.enteredSerial, hturn]
        rfl
      -- a turn that was just opened has a number of its own
      have hsilent : s.outbox.Silent s.enteredSerial := by
        intro n hn heq
        have hle := hnum.turns n hn
        omega
      refine ⟨?_, ?_, ?_, ?_, h.tasks, hediting⟩
      · intro c hc _
        cases hc
        exact ⟨hzero, hsilent⟩
      · intro c hc hne
        cases hc
        exact absurd hzero hne
      · intro c _ _ n _ hn _ heq
        exact absurd heq (hsilent n hn)
      · intro c hc hne
        cases hc
        exact absurd hzero hne
  | some t₀ =>
      rw [Chat.enteredCore_of_some hturn] at ht
      refine h.mono (.rfl' _) (Chat.enteredSerial_of_some hturn) ?_ (goesOn hlanded)
        h.tasks hediting
      intro c hc
      cases hc
      refine ⟨t₀.core, Chat.core_of_turn hturn, ?_⟩
      rw [ht]
      exact ⟨rfl, fun heq => heq, fun heq => heq⟩

/-- A debounce task has sent the first message of the turn, and the turn now knows it. -/
theorem store (h : Sends s) (hnum : Numbered s) (ha : s.outbox.Attributed) {i n : Nat}
    (hown : OwnTurn s (.fire i)) (hi : s.tasks i = .debounceSending n)
    (hlanded : s.outbox.landed (some n) = true) (hreply : (s.outbox.postings n).reply ≠ 0) :
    Sends (({ s with
      turn := s.turn.map (Chat.setMsgId (s.outbox.postings n).reply) }).setTask i .over) := by
  have hshort := h.tasks.short i n hi
  -- without a response the turn stays, otherwise it now knows its message
  have hcases : ∀ c', (s.turn.map (Chat.setMsgId (s.outbox.postings n).reply)).map
      ChatTurn.core = some c' → ∃ t, s.turn = some t ∧ (c' = t.core ∨
        t.response.isSome ∧ c'.msgId ≠ 0 ∧ c'.phase = t.core.phase ∧
          c'.responseFinalized = t.core.responseFinalized) := by
    intro c' hc'
    obtain ⟨t, ht, rfl⟩ := exists_of_map hc'
    refine ⟨t, ht, ?_⟩
    cases hresponse : t.response with
    | none => exact .inl (Chat.setMsgId_of_none _ hresponse)
    | some track =>
        right
        rw [Chat.core_setMsgId _ hresponse]
        exact ⟨rfl, hreply, rfl, rfl⟩
  -- what was sent for the turn before its message was known is this posting
  have honly : ∀ t, s.turn = some t → t.response.isSome → t.msgId = 0 →
      ∀ m, m < s.outbox.posted → (s.outbox.postings m).turn = s.serial → m = n := by
    intro t ht hsome hid m hm hturn
    have hlt := hnum.tasks i n (by rw [hi]; rfl)
    exact h.first t.core (Chat.core_of_turn ht) hid m n hm hlt hturn (hown.of_store hi ht hsome)
  refine ⟨?_, ?_, ?_, ?_, h.tasks.set_none rfl, ?_⟩
  · intro c' hc' hfree
    obtain ⟨t, ht, rfl | ⟨hsome, _, _, hclaim⟩⟩ := hcases c' hc'
    · exact h.free t.core (Chat.core_of_turn ht) hfree
    · rw [hclaim] at hfree
      have hlt := hnum.tasks i n (by rw [hi]; rfl)
      have hsilent := (h.free t.core (Chat.core_of_turn ht) hfree).2
      exact absurd (hown.of_store hi ht hsome) (hsilent n hlt)
  · intro c' hc' hid m hturn hpending
    obtain ⟨t, ht, rfl | ⟨hsome, _, _, _⟩⟩ := hcases c' hc'
    · exact h.awaited t.core (Chat.core_of_turn ht) hid m hturn hpending
    · by_cases hzero : t.msgId = 0
      · have heq := honly t ht hsome hzero m (ha.lt_posted hpending) hturn
        rw [heq] at hpending
        exact absurd (landed_some hlanded) hpending
      · exact h.awaited t.core (Chat.core_of_turn ht) hzero m hturn hpending
  · intro c' hc' hid
    obtain ⟨t, ht, rfl | ⟨_, hne, _, _⟩⟩ := hcases c' hc'
    · exact h.first t.core (Chat.core_of_turn ht) hid
    · exact absurd hid hne
  · intro c' hc' hid hactive
    obtain ⟨t, ht, rfl | ⟨hsome, _, hphase, _⟩⟩ := hcases c' hc'
    · exact h.short t.core (Chat.core_of_turn ht) hid hactive
    · rw [hphase] at hactive
      by_cases hzero : t.msgId = 0
      · intro m hm hturn
        have heq := honly t ht hsome hzero m hm hturn
        rw [heq]
        exact hshort
      · exact h.short t.core (Chat.core_of_turn ht) hzero hactive
  · intro c' text k hc' hd
    obtain ⟨t, ht, rfl | ⟨_, hne, hphase, _⟩⟩ := hcases c' hc'
    · exact h.editing t.core text k (Chat.core_of_turn ht) hd
    · rw [hphase]
      exact ⟨hne, (h.editing t.core text k (Chat.core_of_turn ht) hd).2⟩

theorem step (h : Sends s) (hnum : Numbered s) (ha : s.outbox.Attributed) (hown : OwnTurn s l)
    (heff : s.Effect tg l s') : Sends s' := by
  cases heff with
  | still l turn now hturn =>
      refine h.mono (.rfl' _) rfl (follows_of_eq hturn) (fun _ _ hn => hn) h.tasks ?_
      intro c text k hc hd
      exact h.editing c text k (hturn.symm.trans hc) hd
  | moved l turn d hturn hlanded hd hskips =>
      exact h.mono (.rfl' _) rfl (follows_of_eq hturn) (goesOn hlanded) h.tasks
        (fun c text k _ heq => absurd heq (hd.tryingEdit text k))
  | dropped l t d ht hflushed hlanded hempty hd =>
      exact of_none rfl (h.tasks.abortAll _)
  | flushed l t d ht hflushed hlanded htext hd =>
      exact of_none rfl ((h.tasks.abortAll _).post (hnum.abortAll _).tasks _ _ _ _ _)
  | entered t text d ht hlanded hfrom hd => exact h.enter hnum ht hlanded hd
  | enteredLate text messageId p t₀ t hdelivery ht₀ ht hlanded hphase hid htext =>
      have hserial := Chat.enteredSerial_of_some ht₀
      refine h.post_again (Chat.core_of_turn ht₀) (rfl : _ = some t.core) ?_ hid hlanded hserial
        (congrArg (fun g => s.outbox.post g _ _ _ _) hserial) rfl (fun _ _ heq => (by cases heq))
        (fun hactive => absurd hactive hphase) (h.tasks.post hnum.tasks _ _ _ _ _)
      rw [ht]
      exact ⟨rfl, fun heq => heq, fun heq => heq⟩
  | spawned task d hlanded hfrom hd =>
      have hposting : task.posting = none := by
        rcases hd with ⟨_, rfl⟩ | ⟨_, rfl⟩
        · rfl
        · rfl
      refine h.mono (.rfl' _) rfl (follows_of_eq rfl) (goesOn hlanded)
        (h.tasks.set_none hposting) ?_
      intro c text k _ heq
      rcases hd with ⟨rfl, _⟩ | ⟨rfl, _⟩
      · cases heq
      · cases heq
  | registeredFinalize handle t hdelivery ht =>
      have hlanded : s.outbox.landed s.delivery.posting = true := by rw [hdelivery]; rfl
      refine h.mono (.cutWhere _ _) rfl ?_ (goesOn hlanded) (h.tasks.abortAll _)
        (fun _ _ _ _ heq => (by cases heq))
      intro c hc
      cases hc
      exact ⟨t.core, Chat.core_of_turn ht, rfl, fun heq => (by cases heq), fun heq => heq⟩
  | registeredDebounce handle hdelivery =>
      have hlanded : s.outbox.landed s.delivery.posting = true := by rw [hdelivery]; rfl
      refine h.mono (.rfl' _) rfl ?_ (goesOn hlanded) h.tasks
        (fun _ _ _ _ heq => (by cases heq))
      intro c hc
      obtain ⟨t, ht, rfl⟩ := exists_of_map hc
      refine ⟨t.core, Chat.core_of_turn ht, ?_⟩
      rcases Chat.core_setDebounceHandle (t := t) handle with hcore | hcore
      · rw [hcore]
        exact .rfl' _
      · rw [hcore]
        exact ⟨rfl, fun heq => heq, fun heq => heq⟩
  | edited accumulated msgId t t' hdelivery ht ht' =>
      have hlanded : s.outbox.landed s.delivery.posting = true := by rw [hdelivery]; rfl
      obtain ⟨hid, _⟩ := h.editing t.core _ _ (Chat.core_of_turn ht) hdelivery
      refine h.post_again (Chat.core_of_turn ht) (rfl : _ = some t'.core) ?_ ?_ hlanded rfl rfl rfl
        (fun _ _ heq => (by cases heq)) (fun _ => List.length_take_le 1 _)
        (h.tasks.post hnum.tasks _ _ _ _ _)
      · rw [ht']
        exact .rfl' _
      · rw [ht']
        exact hid
  | debounced i task hi htask =>
      refine h.mono (.rfl' _) rfl (follows_of_eq rfl) (fun _ _ hn => hn)
        (h.tasks.set_none ?_) h.editing
      rcases htask with rfl | ⟨_, text, rfl⟩
      · rfl
      · rfl
  | debounceClaimed i turn accumulated t t' hi ht hfree ht' =>
      obtain ⟨hzero, hsilent⟩ := h.free t.core (Chat.core_of_turn ht) hfree
      refine post_first (c := t'.core) rfl ?_ ?_ hsilent rfl
        ((h.tasks.post hnum.tasks _ _ _ _ _).set ?_ ?_) (h.not_tryingEdit ht hfree)
      · rw [ht']
        exact hzero
      · rw [ht']
      · intro n hn
        cases hn
        exact s.outbox.sendsNew_post _ _ rfl _ _
      · intro n hn
        cases hn
        rw [Outbox.post_postings_self]
        exact List.length_take_le 1 _
  | debounceStored i n hi hlanded hreply => exact h.store hnum ha hown hi hlanded hreply
  | finalizeEmpty i turn hi hturn =>
      rcases hturn with ⟨hturn, _⟩ | ⟨t, t', ht, rfl, hfree, _, hcore⟩
      · refine h.mono (.rfl' _) rfl (follows_of_eq hturn) (fun _ _ hn => hn)
          (h.tasks.set_none rfl) ?_
        intro c text k hc hd
        exact h.editing c text k (hturn.symm.trans hc) hd
      · refine h.mono (.rfl' _) rfl ?_ (fun _ _ hn => hn) (h.tasks.set_none rfl)
          (fun c text k _ hd => absurd hd (h.not_tryingEdit ht hfree text k))
        intro c hc
        cases hc
        refine ⟨t.core, Chat.core_of_turn ht, ?_⟩
        rw [hcore]
        exact ⟨rfl, fun heq => heq, fun heq => (by cases heq)⟩
  | finalizeClaimed i t t' hi ht hfree htext ht' =>
      obtain ⟨hzero, hsilent⟩ := h.free t.core (Chat.core_of_turn ht) hfree
      refine post_first (c := t'.core) rfl ?_ ?_ hsilent rfl
        ((h.tasks.post hnum.tasks _ _ _ _ _).set ?_ fun n hn => (by cases hn))
        (h.not_tryingEdit ht hfree)
      · rw [ht']
        exact hzero
      · rw [ht']
      · intro n hn
        cases hn
        exact s.outbox.sendsNew_post _ _ hzero _ _
  | removed i p hi hlanded => exact of_none rfl (h.tasks.set_none rfl)
  | sent l n r rest next answered hpending htarget hends =>
      have hlater : (s.outbox.send n r next answered).Later s.outbox :=
        .send hpending hends.leaves
      exact h.mono hlater rfl (follows_of_eq rfl) (fun _ _ hn => hn) (h.tasks.later hlater)
        h.editing
  | replaced l n k r rest next answered hpending htarget hends =>
      have hlater : (s.outbox.replace n k r next).Later s.outbox :=
        .replace hpending hends.leaves
      exact h.mono hlater rfl (follows_of_eq rfl) (fun _ _ hn => hn) (h.tasks.later hlater)
        h.editing
  | delayed l n r rest next hpending hdelays =>
      have hlater : (s.outbox.keep n next).Later s.outbox := .keep hpending hdelays.leaves
      exact h.mono hlater rfl (follows_of_eq rfl) (fun _ _ hn => hn) (h.tasks.later hlater)
        h.editing

/-- No finalization task edits, so that none falls back to a new message. -/
theorem not_final (h : Sends s) {n : Nat} {r : Request} {rest : List Request}
    (hpending : (s.outbox.postings n).pending = r :: rest) (htarget : r.target ≠ none) :
    s.sendsFinal n = false := by
  rw [Chat.sendsFinal, decide_eq_false_iff_not]
  rintro ⟨i, _, hi⟩
  have hnew := h.tasks.new i n (by rw [hi]; rfl)
  exact htarget (hnew r (by rw [hpending]; exact List.mem_cons_self))

/-- A request that has failed is made again or given up. -/
theorem afterFailure_cases (h : Sends s) {n : Nat} {r : Request} {rest : List Request}
    (hpending : (s.outbox.postings n).pending = r :: rest) (f : Failure) :
    r.retries f = true ∧ r.afterFailure f (s.sendsFinal n) rest = r.again :: rest ∨
      r.retries f = false ∧ r.afterFailure f (s.sendsFinal n) rest = rest := by
  rcases r.afterFailure_cases rest f (s.sendsFinal n) with
    hagain | ⟨_, ⟨hfinal, htarget⟩, _⟩ | hgiven
  · exact .inl hagain
  · rw [h.not_final hpending htarget] at hfinal
    cases hfinal
  · exact .inr hgiven

end Sends

theorem sends {tg : Settings} {s : Chat} (h : (chat tg).ReachableUnder SendsOnce s) :
    Sends s := by
  refine h.invariant (I := Sends) ?_ ?_
  · rintro s rfl
    exact .of_none rfl ⟨fun i n hi => (nomatch hi), fun i n hi => (nomatch hi)⟩
  · intro s l s' hreach hs hguard hstep
    exact hs.step (numbered hreach) (owned (fun _ _ hl => hl.1) hreach).attributed hguard.1
      (effect_of_step hstep)

theorem Outbox.single_empty : Outbox.Single .empty where
  once _ _ _ _ _ hm := nomatch hm
  parts _ hm := nomatch hm
  alone _ _ hn := absurd rfl hn
  nextEdit _ _ _ _ hpending := nomatch hpending
  nextSend _ _ _ hpending := nomatch hpending
  shape _ _ _ hpending := nomatch hpending
  sorted _ := List.Pairwise.nil

/-- A step sends nothing for a turn that has it already. -/
theorem Outbox.Single.step {tg : Settings} {s s' : Chat} {l : ChatLabel} (h : s.outbox.Single)
    (hsends : Sends s) (howned : Owned s) (hguard : SendsOnce s l) (heff : s.Effect tg l s') :
    s'.outbox.Single := by
  have ha := howned.attributed
  cases heff with
  | still | moved | entered | spawned | registeredDebounce | debounced | debounceStored
  | finalizeEmpty | removed => exact h
  | dropped l t d ht hflushed hlanded hempty hd => exact h.cutWhere _
  | flushed l t d ht hflushed hlanded htext hd =>
      apply (h.cutWhere _).post (ha.cutWhere _)
      apply Single.Ready.cutWhere
      rcases hguard.2.1 t hflushed htext with hunsent | ⟨hid, hshort⟩
      · exact hunsent.ready ha _
      · exact h.ready_of_short ha hshort (howned.stored t ht hid) (hsends.quiet ht hid hlanded)
  | enteredLate text messageId p t₀ t hdelivery ht₀ ht hlanded hphase hid htext =>
      have hid₀ : t.msgId = t₀.msgId := congrArg TurnCore.msgId ht
      have hphase₀ : t.phase = t₀.phase := congrArg TurnCore.phase ht
      have happends := hguard.2.2.1
      simp only [AppendsOnce, hdelivery] at happends
      rw [hphase₀] at hphase
      rw [hid₀] at hid ⊢
      have hshort := happends t₀ ht₀ hphase hid
      rw [Chat.enteredSerial_of_some ht₀]
      apply h.post ha
      exact h.ready_of_short ha hshort (howned.stored t₀ ht₀ hid)
        (hsends.quiet ht₀ hid hlanded)
  | registeredFinalize handle t hdelivery ht => exact h.cutWhere _
  | edited accumulated msgId t t' hdelivery ht ht' =>
      have hcore := Chat.core_of_turn ht
      obtain ⟨hid, hactive⟩ := hsends.editing t.core _ _ hcore hdelivery
      apply h.post ha
      exact h.ready_of_short ha (hsends.short t.core hcore hid hactive)
        (howned.edits _ _ hdelivery).2 (hsends.quiet ht hid (by rw [hdelivery]; rfl))
  | debounceClaimed i turn accumulated t t' hi ht hfree ht' =>
      have hturn := hguard.1.of_claim hi ht hfree
      rw [hturn]
      apply h.post ha
      have hsilent := (hsends.free t.core (Chat.core_of_turn ht) hfree).2
      exact (hsilent.unsent ha).ready ha _
  | finalizeClaimed i t t' hi ht hfree htext ht' =>
      apply h.post ha
      have hsilent := (hsends.free t.core (Chat.core_of_turn ht) hfree).2
      exact (hsilent.unsent ha).ready ha _
  | sent l n r rest next answered hpending htarget hends =>
      cases hends with
      | succeeded => exact h.send hpending htarget
      | failed f heffect =>
          rcases hsends.afterFailure_cases hpending f with ⟨hretries, _⟩ | ⟨_, hnext⟩
          · rw [hguard.2.2.2.of_retries hpending hretries htarget] at heffect
            cases heffect
          · rw [hnext]
            exact h.send hpending htarget
  | replaced l n k r rest next answered hpending htarget hends =>
      apply h.replace hpending htarget
      cases hends with
      | succeeded => exact .inl rfl
      | failed f heffect =>
          rcases hsends.afterFailure_cases hpending f with ⟨_, hnext⟩ | ⟨_, hnext⟩
          · exact .inr ⟨r.again, hnext, rfl, rfl⟩
          · exact .inl hnext
  | delayed l n r rest next hpending hdelays =>
      cases hdelays with
      | failed f heffect =>
          rcases hsends.afterFailure_cases hpending f with ⟨_, hnext⟩ | ⟨hretries, hnext⟩
          · refine h.keep hpending (.inr ⟨r.again, hnext, rfl, rfl⟩) ?_
            intro hrest
            exact absurd (hnext.symm.trans hrest) (by simp)
          · refine h.keep hpending (.inl hnext) ?_
            intro _
            by_cases htarget : r.target = none
            · exact .inl htarget
            · rcases hguard.2.2.2.of_given_up hpending hretries htarget with htook | hnil
              · rw [heffect] at htook
                cases htook
              · exact .inr hnil
      | retried =>
          refine h.keep hpending (.inr ⟨r.woken, rfl, rfl, rfl⟩) ?_
          intro hrest
          exact absurd hrest (by simp)

/-- **No part of an answer is posted twice.**  When a turn is flushed only while its message
    is its only one and known, or before anything was sent for it, and nothing is sent after
    the further parts of a turn were, two messages of a turn are different parts of one
    text. -/
theorem postedOnce_of_sendsOnce {tg : Settings} {s : Chat}
    (h : (chat tg).ReachableUnder SendsOnce s) : s.outbox.PostedOnce := by
  have hsingle : s.outbox.Single := by
    refine h.invariant (I := fun s => s.outbox.Single) ?_ ?_
    · rintro s rfl
      exact Outbox.single_empty
    · intro s l s' hreach hs hguard hstep
      exact hs.step (sends hreach) (owned (fun _ _ hl => hl.1) hreach) hguard
        (effect_of_step hstep)
  exact hsingle.once

/-- A turn change while the first message is on its way: the flush finds no message to edit
    and sends the text once more. -/
theorem first_part_posted_twice : ¬∀ s, (chat Sample.plain).Reachable s →
    s.outbox.PostedOnce := by
  intro hall
  have hrun : ∃ x ∈ (chat Sample.plain).run (fun _ _ => True) Chat.initial
      [Sample.chunk "a" "m1", .deliver, .deliver, .deliver, .fire 0, .fire 0, .land 0,
        Sample.chunk "b" "m2", .land 1],
      x.outbox.shown = [⟨1, 0, 0, "a"⟩, ⟨1, 1, 0, "a"⟩] := by decide +kernel
  obtain ⟨x, hx, hshown⟩ := hrun
  have honce := hall x (Machine.reachable_of_run _ rfl hx)
  have hdiff := honce 0 1 ⟨1, 0, 0, "a"⟩ ⟨1, 1, 0, "a"⟩ (by decide) (by rw [hshown]; rfl)
    (by rw [hshown]; rfl) rfl
  exact hdiff.2 rfl

/-- A turn change after the debounce task has stored its message: the flush edits it. -/
theorem first_part_edited : ∃ s : Chat, s.messagesOf 1 = ["a"] ∧ s.outbox.posted = 2 ∧
    s.outbox.PostedOnce := by
  have hrun : ∃ x ∈ (chat Sample.plain).run SendsOnce Chat.initial
      (Sample.firstChunk "a" "m1" ++ [Sample.chunk "b" "m2", .land 1]),
      x.messagesOf 1 = ["a"] ∧ x.outbox.posted = 2 := by decide +kernel
  obtain ⟨x, hx, hmessages, hposted⟩ := hrun
  exact ⟨x, hmessages, hposted, postedOnce_of_sendsOnce (Machine.reachable_of_run _ rfl hx)⟩

end Anyclaw.Telegram
