import Mathlib.Data.List.Basic
import Mathlib.Logic.Function.Basic

/-!
# Requests to Telegram

What the channel sends for one text, one request after the other, is a *posting*
(`send_or_edit_final`, `send_flush` and the requests of `deliver_to_chat` in
`ext/channels/telegram/src/deliver.rs`).  A request takes effect some time after it was made,
or fails: `retry_telegram_op` waits and makes it again when the error may go away, up to three
times in all, and a request that the channel takes for failed may have taken effect all the
same.  When the task that made a posting is aborted, the request it was waiting for may still
take effect, or not; the later ones are never made.

Two things are recorded that neither side keeps: the turn that a message belongs to, and the
posting that wrote it last.
-/

namespace Anyclaw.Telegram

/-! ### Postings -/

/-- `send_message`, or `edit_message_text` with the message to edit, how often it has failed,
    and whether its task sleeps before it makes it again. -/
structure Request where
  part : Nat
  target : Option Nat
  text : String
  attempts : Nat
  delayed : Bool
deriving DecidableEq, Repr

/-- The messages for the parts from one on. -/
def sendsFrom : Nat → List String → List Request
  | _, [] => []
  | i, text :: texts => ⟨i, none, text, 0, false⟩ :: sendsFrom (i + 1) texts

/-- The first part replaces the message if there is one already, each other part is a new
    message. -/
def requests (msgId : Nat) : List String → List Request
  | [] => []
  | text :: texts =>
      ⟨0, if msgId = 0 then none else some msgId, text, 0, false⟩ :: sendsFrom 1 texts

/-! ### Requests that fail -/

/-- An error of a request: whether it is one of those that may go away (`RetryAfter`,
    `Network`), and whether the request took effect nevertheless, as one whose answer is lost
    does. -/
structure Failure where
  retryable : Bool
  tookEffect : Bool
deriving DecidableEq, Repr

/-- `MAX_RETRY_ATTEMPTS` -/
def maxRetryAttempts : Nat := 3

namespace Request

/-- `retry_telegram_op` makes the request again. -/
def retries (r : Request) (f : Failure) : Bool :=
  f.retryable && r.attempts + 1 < maxRetryAttempts

/-- The request after the failure, while its task sleeps. -/
def again (r : Request) : Request := { r with attempts := r.attempts + 1, delayed := true }

def woken (r : Request) : Request := { r with delayed := false }

/-- What is still to come when the request has failed.  Only `send_or_edit_final`, which makes
    the `final` postings, sends a message in place of an edit that it gives up. -/
def afterFailure (r : Request) (f : Failure) (final : Bool) (rest : List Request) :
    List Request :=
  if r.retries f then r.again :: rest
  else if final ∧ r.target ≠ none then ⟨r.part, none, r.text, 0, false⟩ :: rest
  else rest

end Request

/-- The requests for one text.  `whole` says whether every part of the text is among them,
    `reply` is the message that the last `send_message` returned, `cut` whether the task that
    made them was aborted before they were through. -/
structure Posting where
  turn : Nat
  source : String
  parts : List String
  whole : Bool
  pending : List Request
  reply : Nat
  cut : Bool
deriving DecidableEq, Repr

/-- Only a request that was made can still take effect. -/
def Posting.cutOff (p : Posting) : Posting :=
  { p with
    pending := (p.pending.take 1).filter fun r => !r.delayed
    cut := p.cut || !p.pending.isEmpty }

/-- A message of the chat, in the order in which they were sent; its id is one more than the
    number of messages before it. -/
structure Message where
  turn : Nat
  posting : Nat
  part : Nat
  text : String
deriving DecidableEq, Repr

/-- What has been sent and what is on its way.  The postings are numbered from 0 in the order
    in which they were started; `latest` is the last one for each turn. -/
structure Outbox where
  postings : Nat → Posting
  posted : Nat
  latest : Nat → Option Nat
  shown : List Message

namespace Outbox

def empty : Outbox where
  postings := fun _ => ⟨0, "", [], false, [], 0, false⟩
  posted := 0
  latest := fun _ => none
  shown := []

variable (o : Outbox)

/-- Start a posting, which gets the number `o.posted`. -/
def post (turn : Nat) (source : String) (msgId : Nat) (parts : List String) (whole : Bool) :
    Outbox :=
  { o with
    postings := Function.update o.postings o.posted
      ⟨turn, source, parts, whole, requests msgId parts, 0, false⟩
    posted := o.posted + 1
    latest := Function.update o.latest turn (some o.posted) }

/-- Whether a posting, if there is one, is through. -/
def landed : Option Nat → Bool
  | none => true
  | some n => (o.postings n).pending.isEmpty

/-- The tasks that made some of the postings are aborted. -/
def cutWhere (P : Nat → Prop) [DecidablePred P] : Outbox :=
  { o with postings := fun n => if P n then (o.postings n).cutOff else o.postings n }

/-- A new message, after which `next` is still to come; its id is known to the task that has
    sent it if the request was answered. -/
def send (n : Nat) (r : Request) (next : List Request) (answered : Bool) : Outbox :=
  { o with
    shown := o.shown ++ [⟨(o.postings n).turn, n, r.part, r.text⟩]
    postings := Function.update o.postings n
      { o.postings n with
        pending := next
        reply := if answered then o.shown.length + 1 else (o.postings n).reply } }

def replace (n k : Nat) (r : Request) (next : List Request) : Outbox :=
  { o with
    shown := o.shown.set (k - 1) ⟨(o.postings n).turn, n, r.part, r.text⟩
    postings := Function.update o.postings n { o.postings n with pending := next } }

/-- No message changes. -/
def keep (n : Nat) (next : List Request) : Outbox :=
  { o with postings := Function.update o.postings n { o.postings n with pending := next } }

def takeEffect (n : Nat) (r : Request) (next : List Request) (answered : Bool) : Outbox :=
  match r.target with
  | none => o.send n r next answered
  | some k => o.replace n k r next

/-- The next request of a posting succeeds. -/
def land (n : Nat) : Option Outbox :=
  match (o.postings n).pending with
  | [] => none
  | r :: rest => if r.delayed then none else some (o.takeEffect n r rest true)

/-- The task that made a posting sees the next request fail. -/
def fail (n : Nat) (f : Failure) (final : Bool) : Option Outbox :=
  match (o.postings n).pending with
  | [] => none
  | r :: rest =>
      if r.delayed ∨ (o.postings n).cut then none
      else if f.tookEffect then
        some (o.takeEffect n r (r.afterFailure f final rest) false)
      else some (o.keep n (r.afterFailure f final rest))

/-- A request that has failed is made again. -/
def retry (n : Nat) : Option Outbox :=
  match (o.postings n).pending with
  | [] => none
  | r :: rest => if r.delayed then some (o.keep n (r.woken :: rest)) else none

def Shows (k turn : Nat) : Prop := 0 < k ∧ ∃ m, o.shown[k - 1]? = some m ∧ m.turn = turn

end Outbox

/-! ### The requests of a posting -/

theorem texts_sendsFrom (i : Nat) (texts : List String) :
    (sendsFrom i texts).map Request.text = texts := by
  induction texts generalizing i with
  | nil => rfl
  | cons text texts ih => rw [sendsFrom, List.map_cons, ih]

theorem texts_requests (msgId : Nat) (parts : List String) :
    (requests msgId parts).map Request.text = parts := by
  cases parts with
  | nil => rfl
  | cons text texts => rw [requests, List.map_cons, texts_sendsFrom]

theorem of_mem_sendsFrom {i : Nat} {texts : List String} {r : Request}
    (h : r ∈ sendsFrom i texts) : r.target = none ∧ i ≤ r.part ∧ r.part < i + texts.length := by
  induction texts generalizing i with
  | nil => cases h
  | cons text texts ih =>
      rw [List.length_cons]
      cases h with
      | head => exact ⟨rfl, Nat.le_refl i, by simp⟩
      | tail _ h =>
          obtain ⟨htarget, hle, hlt⟩ := ih h
          exact ⟨htarget, by omega, by omega⟩

/-- Only the first request of a posting may be an edit. -/
theorem of_mem_requests {msgId : Nat} {parts : List String} {r : Request}
    (h : r ∈ requests msgId parts) :
    r.part < parts.length ∧ ∀ k, r.target = some k → k = msgId ∧ k ≠ 0 := by
  cases parts with
  | nil => cases h
  | cons text texts =>
      rw [List.length_cons]
      cases h with
      | head =>
          refine ⟨Nat.succ_pos _, ?_⟩
          intro k hk
          obtain ⟨hne, hk⟩ := Option.ite_none_left_eq_some.mp hk
          cases hk
          exact ⟨rfl, hne⟩
      | tail _ h =>
          obtain ⟨htarget, _, hlt⟩ := of_mem_sendsFrom h
          refine ⟨by omega, ?_⟩
          intro k hk
          rw [htarget] at hk
          cases hk

/-- What is still to come edits no messages but those that were to be edited before. -/
def Request.Leaves (r : Request) (rest next : List Request) : Prop :=
  ∀ r' ∈ next, r' ∈ rest ∨ r'.target = none ∨ r'.target = r.target

namespace Request

variable (r : Request) (rest : List Request)

theorem leaves_rest : r.Leaves rest rest := fun _ hr' => .inl hr'

theorem leaves_woken : r.Leaves rest (r.woken :: rest) := by
  intro r' hr'
  rcases List.mem_cons.mp hr' with rfl | hr'
  · exact .inr (.inr rfl)
  · exact .inl hr'

/-- A request that has failed is made again, becomes a new message, or is given up. -/
theorem afterFailure_cases (f : Failure) (final : Bool) :
    r.retries f = true ∧ r.afterFailure f final rest = r.again :: rest ∨
      r.retries f = false ∧ (final = true ∧ r.target ≠ none) ∧
        r.afterFailure f final rest = ⟨r.part, none, r.text, 0, false⟩ :: rest ∨
      r.retries f = false ∧ r.afterFailure f final rest = rest := by
  rw [afterFailure]
  by_cases hretries : r.retries f = true
  · rw [if_pos hretries]
    exact .inl ⟨hretries, rfl⟩
  · rw [if_neg hretries]
    rw [Bool.not_eq_true] at hretries
    by_cases hfinal : final ∧ r.target ≠ none
    · rw [if_pos hfinal]
      exact .inr (.inl ⟨hretries, hfinal, rfl⟩)
    · rw [if_neg hfinal]
      exact .inr (.inr ⟨hretries, rfl⟩)

theorem leaves_afterFailure (f : Failure) (final : Bool) :
    r.Leaves rest (r.afterFailure f final rest) := by
  intro r' hr'
  rcases r.afterFailure_cases rest f final with ⟨_, heq⟩ | ⟨_, _, heq⟩ | ⟨_, heq⟩
  · rw [heq] at hr'
    rcases List.mem_cons.mp hr' with rfl | hr'
    · exact .inr (.inr rfl)
    · exact .inl hr'
  · rw [heq] at hr'
    rcases List.mem_cons.mp hr' with rfl | hr'
    · exact .inr (.inl rfl)
    · exact .inl hr'
  · rw [heq] at hr'
    exact .inl hr'

end Request

namespace Outbox

variable {o : Outbox}

/-! ### Starting a posting -/

section Post

variable (o) (turn : Nat) (source : String) (msgId : Nat) (parts : List String) (whole : Bool)

@[simp] theorem post_postings_self :
    (o.post turn source msgId parts whole).postings o.posted
      = ⟨turn, source, parts, whole, requests msgId parts, 0, false⟩ :=
  Function.update_self ..

theorem post_postings_of_ne {n : Nat} (h : n ≠ o.posted) :
    (o.post turn source msgId parts whole).postings n = o.postings n :=
  Function.update_of_ne h _ _

@[simp] theorem post_latest_self :
    (o.post turn source msgId parts whole).latest turn = some o.posted :=
  Function.update_self ..

theorem post_latest_of_ne {g : Nat} (h : g ≠ turn) :
    (o.post turn source msgId parts whole).latest g = o.latest g :=
  Function.update_of_ne h _ _

end Post

/-! ### What is cut off -/

theorem cutOff_cutOff (p : Posting) : p.cutOff.cutOff = p.cutOff := by
  simp only [Posting.cutOff, Posting.mk.injEq, true_and]
  cases p.pending with
  | nil => simp
  | cons r rest =>
      cases hdelayed : r.delayed with
      | false => simp [hdelayed]
      | true => simp [hdelayed]

/-- An abort cuts a posting off only if something of it is still to come. -/
theorem cutOff_of_uncut {p : Posting} (h : p.cutOff.cut = false) : p.pending = [] := by
  simp only [Posting.cutOff, Bool.or_eq_false_iff] at h
  simpa using h.2

theorem cutOff_pending_subset (p : Posting) : p.cutOff.pending ⊆ p.pending :=
  fun _ h => List.mem_of_mem_take (List.mem_filter.mp h).1

/-- All that an abort changes of a posting is what is still to come. -/
theorem cutWhere_fields (o : Outbox) (P : Nat → Prop) [DecidablePred P] (n : Nat) :
    ((o.cutWhere P).postings n).turn = (o.postings n).turn ∧
      ((o.cutWhere P).postings n).source = (o.postings n).source ∧
      ((o.cutWhere P).postings n).parts = (o.postings n).parts ∧
      ((o.cutWhere P).postings n).whole = (o.postings n).whole ∧
      ((o.cutWhere P).postings n).reply = (o.postings n).reply ∧
      ((o.cutWhere P).postings n).pending ⊆ (o.postings n).pending := by
  simp only [cutWhere]
  split
  · exact ⟨rfl, rfl, rfl, rfl, rfl, cutOff_pending_subset _⟩
  · exact ⟨rfl, rfl, rfl, rfl, rfl, List.Subset.refl _⟩

theorem cutWhere_of_not (o : Outbox) (P : Nat → Prop) [DecidablePred P] {n : Nat} (h : ¬P n) :
    (o.cutWhere P).postings n = o.postings n :=
  if_neg h

/-- Of what is cut off, at most the first request is left. -/
theorem cutWhere_pending (o : Outbox) (P : Nat → Prop) [DecidablePred P] (n : Nat) :
    ((o.cutWhere P).postings n).pending = (o.postings n).pending ∨
      ((o.cutWhere P).postings n).pending
        = ((o.postings n).pending.take 1).filter fun r => !r.delayed := by
  by_cases hP : P n
  · have hcut : (o.cutWhere P).postings n = (o.postings n).cutOff := if_pos hP
    rw [hcut]
    exact .inr rfl
  · rw [cutWhere_of_not o P hP]
    exact .inl rfl

theorem cutWhere_cons {P : Nat → Prop} [DecidablePred P] {n : Nat} {r : Request}
    {rest : List Request} (h : ((o.cutWhere P).postings n).pending = r :: rest) :
    ∃ rest₀, (o.postings n).pending = r :: rest₀ ∧ ∀ r' ∈ rest, r' ∈ rest₀ := by
  rcases cutWhere_pending o P n with heq | heq
  · exact ⟨rest, heq.symm.trans h, fun r' hr' => hr'⟩
  · rw [h] at heq
    cases hpending : (o.postings n).pending with
    | nil =>
        rw [hpending] at heq
        cases heq
    | cons r₀ rest₀ =>
        rw [hpending] at heq
        have hfirst : r :: rest = [r₀].filter fun r => !r.delayed := heq
        have hsub : (r :: rest).Sublist [r₀] := by
          rw [hfirst]
          exact List.filter_sublist
        have hlen := hsub.length_le
        rw [List.length_cons, List.length_singleton] at hlen
        have hnil : rest = [] := List.length_eq_zero_iff.mp (by omega)
        rw [hnil] at hsub ⊢
        have hr := List.mem_singleton.mp (hsub.subset List.mem_cons_self)
        rw [hr]
        exact ⟨rest₀, rfl, fun r' hr' => (nomatch hr')⟩

theorem cutWhere_ne_nil {P : Nat → Prop} [DecidablePred P] {n : Nat}
    (h : ((o.cutWhere P).postings n).pending ≠ []) : (o.postings n).pending ≠ [] := by
  obtain ⟨r, rest, hcons⟩ := List.exists_cons_of_ne_nil h
  obtain ⟨rest₀, hpending, _⟩ := cutWhere_cons hcons
  rw [hpending]
  exact List.cons_ne_nil r rest₀

/-! ### The requests that take effect -/

section Land

variable {n : Nat} {r : Request} {next : List Request} {answered : Bool}

theorem send_postings_self :
    (o.send n r next answered).postings n
      = { o.postings n with
          pending := next
          reply := if answered then o.shown.length + 1 else (o.postings n).reply } :=
  Function.update_self ..

theorem send_postings_of_ne {j : Nat} (h : j ≠ n) :
    (o.send n r next answered).postings j = o.postings j :=
  Function.update_of_ne h _ _

theorem replace_postings_self {k : Nat} :
    (o.replace n k r next).postings n = { o.postings n with pending := next } :=
  Function.update_self ..

theorem replace_postings_of_ne {j k : Nat} (h : j ≠ n) :
    (o.replace n k r next).postings j = o.postings j :=
  Function.update_of_ne h _ _

theorem keep_postings_self : (o.keep n next).postings n = { o.postings n with pending := next } :=
  Function.update_self ..

theorem keep_postings_of_ne {j : Nat} (h : j ≠ n) : (o.keep n next).postings j = o.postings j :=
  Function.update_of_ne h _ _

@[simp] theorem send_turn (j : Nat) :
    ((o.send n r next answered).postings j).turn = (o.postings j).turn := by
  by_cases hj : j = n
  · rw [hj, send_postings_self]
  · rw [send_postings_of_ne hj]

@[simp] theorem replace_turn (j k : Nat) :
    ((o.replace n k r next).postings j).turn = (o.postings j).turn := by
  by_cases hj : j = n
  · rw [hj, replace_postings_self]
  · rw [replace_postings_of_ne hj]

@[simp] theorem keep_turn (j : Nat) :
    ((o.keep n next).postings j).turn = (o.postings j).turn := by
  by_cases hj : j = n
  · rw [hj, keep_postings_self]
  · rw [keep_postings_of_ne hj]

end Land

/-! ### Messages belong to the turn of the posting that wrote them -/

structure Attributed (o : Outbox) : Prop where
  started : ∀ n, o.posted ≤ n → (o.postings n).pending = []
  written : ∀ m ∈ o.shown, m.posting < o.posted ∧ (o.postings m.posting).turn = m.turn
  replied : ∀ n, (o.postings n).reply ≠ 0 → o.Shows (o.postings n).reply (o.postings n).turn
  targets : ∀ n, ∀ r ∈ (o.postings n).pending, ∀ k, r.target = some k →
    o.Shows k (o.postings n).turn

theorem attributed_empty : empty.Attributed where
  started := fun _ _ => rfl
  written := by
    intro m hm
    cases hm
  replied := fun _ h => absurd rfl h
  targets := by
    intro n r hr
    cases hr

theorem Attributed.lt_posted (h : o.Attributed) {n : Nat} (hn : (o.postings n).pending ≠ []) :
    n < o.posted := by
  by_contra hle
  exact hn (h.started n (Nat.not_lt.mp hle))

theorem Attributed.post (h : o.Attributed) {turn msgId : Nat} (source : String)
    (parts : List String) (whole : Bool) (hid : msgId ≠ 0 → o.Shows msgId turn) :
    (o.post turn source msgId parts whole).Attributed where
  started := by
    intro n hn
    have hlt : o.posted + 1 ≤ n := hn
    rw [post_postings_of_ne _ _ _ _ _ _ (by omega)]
    exact h.started n (by omega)
  written := by
    intro m hm
    obtain ⟨hlt, hturn⟩ := h.written m hm
    rw [post_postings_of_ne _ _ _ _ _ _ (by omega)]
    exact ⟨Nat.lt_succ_of_lt hlt, hturn⟩
  replied := by
    intro n hn
    by_cases heq : n = o.posted
    · rw [heq, post_postings_self] at hn
      exact absurd rfl hn
    · rw [post_postings_of_ne _ _ _ _ _ _ heq] at hn ⊢
      exact h.replied n hn
  targets := by
    intro n r hr k hk
    by_cases heq : n = o.posted
    · rw [heq, post_postings_self] at hr ⊢
      obtain ⟨rfl, hne⟩ := (of_mem_requests hr).2 k hk
      exact hid hne
    · rw [post_postings_of_ne _ _ _ _ _ _ heq] at hr ⊢
      exact h.targets n r hr k hk

theorem Attributed.cutWhere (h : o.Attributed) (P : Nat → Prop) [DecidablePred P] :
    (o.cutWhere P).Attributed where
  started := by
    intro n hn
    obtain ⟨_, _, _, _, _, hpending⟩ := cutWhere_fields o P n
    rw [h.started n hn] at hpending
    exact List.subset_nil.mp hpending
  written := by
    intro m hm
    rw [(cutWhere_fields o P m.posting).1]
    exact h.written m hm
  replied := by
    intro n hn
    obtain ⟨hturn, _, _, _, hreply, _⟩ := cutWhere_fields o P n
    rw [hreply] at hn
    rw [hreply, hturn]
    exact h.replied n hn
  targets := by
    intro n r hr k hk
    obtain ⟨hturn, _, _, _, _, hpending⟩ := cutWhere_fields o P n
    rw [hturn]
    exact h.targets n r (hpending hr) k hk

section Land

variable {n : Nat} {r : Request} {rest next : List Request} {answered : Bool}

theorem Shows.send {k g : Nat} (h : o.Shows k g) : (o.send n r next answered).Shows k g := by
  obtain ⟨hpos, m, hm, hturn⟩ := h
  refine ⟨hpos, m, ?_, hturn⟩
  have hlt := (List.getElem?_eq_some_iff.mp hm).1
  exact (List.getElem?_append_left hlt).trans hm

/-- An edit that targets a message of its own turn leaves every message with its turn. -/
theorem Shows.replace {j k g : Nat} (h : o.Shows j g) (hk : o.Shows k (o.postings n).turn) :
    (o.replace n k r next).Shows j g := by
  obtain ⟨hpos, m, hm, hturn⟩ := h
  by_cases heq : k - 1 = j - 1
  · obtain ⟨_, m', hm', hturn'⟩ := hk
    rw [heq, hm] at hm'
    cases hm'
    have hlt := (List.getElem?_eq_some_iff.mp hm).1
    refine ⟨hpos, ⟨(o.postings n).turn, n, r.part, r.text⟩, ?_, hturn'.symm.trans hturn⟩
    simp only [Outbox.replace, heq]
    exact List.getElem?_set_self hlt
  · refine ⟨hpos, m, ?_, hturn⟩
    simp only [Outbox.replace]
    rw [List.getElem?_set_ne heq]
    exact hm

/-- The messages that are still to be edited. -/
theorem Attributed.targets_next (h : o.Attributed) (hpending : (o.postings n).pending = r :: rest)
    (hnext : r.Leaves rest next) {r' : Request} (hr' : r' ∈ next) {k : Nat}
    (hk : r'.target = some k) : o.Shows k (o.postings n).turn := by
  rcases hnext r' hr' with hr' | hnone | hsame
  · exact h.targets n r' (by rw [hpending]; exact List.mem_cons_of_mem r hr') k hk
  · rw [hnone] at hk
    cases hk
  · exact h.targets n r (by rw [hpending]; exact List.mem_cons_self) k (hsame.symm.trans hk)

theorem Attributed.send (h : o.Attributed) (hpending : (o.postings n).pending = r :: rest)
    (hnext : r.Leaves rest next) : (o.send n r next answered).Attributed where
  started := by
    intro j hj
    have hlt := h.lt_posted (n := n) (by rw [hpending]; exact List.cons_ne_nil r rest)
    have hle : o.posted ≤ j := hj
    rw [send_postings_of_ne (by omega)]
    exact h.started j hj
  written := by
    intro m hm
    rw [send_turn]
    rcases List.mem_append.mp hm with hm | hm
    · exact h.written m hm
    · rw [List.mem_singleton.mp hm]
      exact ⟨h.lt_posted (by rw [hpending]; exact List.cons_ne_nil r rest), rfl⟩
  replied := by
    intro j hj
    rw [send_turn]
    by_cases heq : j = n
    · rw [heq, send_postings_self] at hj ⊢
      cases answered with
      | false => exact (h.replied n hj).send
      | true =>
          refine ⟨Nat.succ_pos _, ⟨(o.postings n).turn, n, r.part, r.text⟩, ?_, rfl⟩
          simp [Outbox.send]
    · rw [send_postings_of_ne heq] at hj ⊢
      exact (h.replied j hj).send
  targets := by
    intro j r' hr' k hk
    rw [send_turn]
    by_cases heq : j = n
    · rw [heq, send_postings_self] at hr'
      rw [heq]
      exact (h.targets_next hpending hnext hr' hk).send
    · rw [send_postings_of_ne heq] at hr'
      exact (h.targets j r' hr' k hk).send

theorem Attributed.replace (h : o.Attributed) {k : Nat}
    (hpending : (o.postings n).pending = r :: rest) (htarget : r.target = some k)
    (hnext : r.Leaves rest next) : (o.replace n k r next).Attributed where
  started := by
    intro j hj
    have hlt := h.lt_posted (n := n) (by rw [hpending]; exact List.cons_ne_nil r rest)
    have hle : o.posted ≤ j := hj
    rw [replace_postings_of_ne (by omega)]
    exact h.started j hj
  written := by
    intro m hm
    rw [replace_turn]
    rcases List.mem_or_eq_of_mem_set hm with hm | rfl
    · exact h.written m hm
    · exact ⟨h.lt_posted (by rw [hpending]; exact List.cons_ne_nil r rest), rfl⟩
  replied := by
    intro j hj
    have hown := h.targets n r (by rw [hpending]; exact List.mem_cons_self) k htarget
    rw [replace_turn]
    by_cases heq : j = n
    · rw [heq, replace_postings_self] at hj ⊢
      exact (h.replied n hj).replace hown
    · rw [replace_postings_of_ne heq] at hj ⊢
      exact (h.replied j hj).replace hown
  targets := by
    intro j r' hr' k' hk'
    have hown := h.targets n r (by rw [hpending]; exact List.mem_cons_self) k htarget
    rw [replace_turn]
    by_cases heq : j = n
    · rw [heq, replace_postings_self] at hr'
      rw [heq]
      exact (h.targets_next hpending hnext hr' hk').replace hown
    · rw [replace_postings_of_ne heq] at hr'
      exact (h.targets j r' hr' k' hk').replace hown

theorem Attributed.keep (h : o.Attributed) (hpending : (o.postings n).pending = r :: rest)
    (hnext : r.Leaves rest next) : (o.keep n next).Attributed where
  started := by
    intro j hj
    have hlt := h.lt_posted (n := n) (by rw [hpending]; exact List.cons_ne_nil r rest)
    have hle : o.posted ≤ j := hj
    rw [keep_postings_of_ne (by omega)]
    exact h.started j hj
  written := by
    intro m hm
    rw [keep_turn]
    exact h.written m hm
  replied := by
    intro j hj
    rw [keep_turn]
    by_cases heq : j = n
    · rw [heq, keep_postings_self] at hj ⊢
      exact h.replied n hj
    · rw [keep_postings_of_ne heq] at hj ⊢
      exact h.replied j hj
  targets := by
    intro j r' hr' k hk
    rw [keep_turn]
    by_cases heq : j = n
    · rw [heq, keep_postings_self] at hr'
      rw [heq]
      exact h.targets_next hpending hnext hr' hk
    · rw [keep_postings_of_ne heq] at hr'
      exact h.targets j r' hr' k hk

end Land

end Outbox

end Anyclaw.Telegram
