import Anyclaw.Telegram.Attribution

/-!
# What has taken effect of a posting

An edit takes the place of what a message showed before.  As long as edits take effect in the
order in which they were made, nothing of the last posting of a turn is lost: its parts are
shown, or still to come.

The postings are those of `deliver_to_chat`, `send_or_edit_final` and `send_flush`
(`ext/channels/telegram/src/deliver.rs`).
-/

namespace Anyclaw.Telegram

/-! ### What has taken effect of the last posting of a turn -/

namespace Outbox

def textsOf (o : Outbox) (n : Nat) : List String :=
  (o.shown.filter fun m => m.posting = n).map Message.text

/-- An edit does not take effect on top of one that was made later. -/
def InOrder (o : Outbox) (n : Nat) : Prop :=
  ∀ r ∈ (o.postings n).pending.head?, ∀ k ∈ r.target, ∀ m ∈ o.shown[k - 1]?, m.posting ≤ n

instance (o : Outbox) (n : Nat) : Decidable (o.InOrder n) := by
  unfold InOrder
  infer_instance

/-- The parts of the last posting of a turn are shown or on their way, and with all of its
    parts it shows the whole text. -/
structure Tracked (tg : Settings) (o : Outbox) : Prop where
  latest : ∀ g n, o.latest g = some n → n < o.posted ∧ (o.postings n).turn = g
  upTo : ∀ n, n < o.posted → ∃ m, o.latest (o.postings n).turn = some m ∧ n ≤ m
  progress : ∀ g n, o.latest g = some n → (o.postings n).cut = false →
    o.textsOf n ++ (o.postings n).pending.map Request.text = (o.postings n).parts
  edits : ∀ n r rest, (o.postings n).pending = r :: rest →
    (r.target ≠ none → o.textsOf n = []) ∧ ∀ r' ∈ rest, r'.target = none
  whole : ∀ n, n < o.posted → (o.postings n).whole = true →
    String.join (o.postings n).parts = tg.formatTelegramHtml (o.postings n).source ∨
      String.join (o.postings n).parts
        = closeOpenTags (tg.formatTelegramHtml (o.postings n).source)

namespace Tracked

variable {tg : Settings} {o : Outbox}

theorem textsOf_posted (h : o.Attributed) : o.textsOf o.posted = [] := by
  rw [textsOf, List.map_eq_nil_iff, List.filter_eq_nil_iff]
  intro m hm hcon
  have hlt := (h.written m hm).1
  have heq : m.posting = o.posted := of_decide_eq_true hcon
  omega

theorem post (h : Tracked tg o) (ha : o.Attributed) {turn : Nat} {source : String}
    (msgId : Nat) {parts : List String} {whole : Bool}
    (hwhole : whole = true → String.join parts = tg.formatTelegramHtml source ∨
      String.join parts = closeOpenTags (tg.formatTelegramHtml source)) :
    Tracked tg (o.post turn source msgId parts whole) where
  latest := by
    intro g n hn
    by_cases hg : g = turn
    · rw [hg, post_latest_self] at hn
      cases hn
      rw [post_postings_self]
      exact ⟨Nat.lt_succ_self _, hg.symm⟩
    · rw [post_latest_of_ne _ _ _ _ _ _ hg] at hn
      obtain ⟨hlt, hturn⟩ := h.latest g n hn
      rw [post_postings_of_ne _ _ _ _ _ _ (by omega)]
      exact ⟨Nat.lt_succ_of_lt hlt, hturn⟩
  upTo := by
    intro n hn
    have hlt : n < o.posted + 1 := hn
    by_cases heq : n = o.posted
    · rw [heq, post_postings_self]
      exact ⟨o.posted, post_latest_self .., Nat.le_refl _⟩
    · rw [post_postings_of_ne _ _ _ _ _ _ heq]
      by_cases hg : (o.postings n).turn = turn
      · rw [hg]
        exact ⟨o.posted, post_latest_self .., by omega⟩
      · rw [post_latest_of_ne _ _ _ _ _ _ hg]
        exact h.upTo n (by omega)
  progress := by
    intro g n hn hcut
    by_cases hg : g = turn
    · rw [hg, post_latest_self] at hn
      cases hn
      have hnil : (o.post turn source msgId parts whole).textsOf o.posted = [] :=
        textsOf_posted ha
      rw [hnil, post_postings_self, List.nil_append]
      exact texts_requests msgId parts
    · rw [post_latest_of_ne _ _ _ _ _ _ hg] at hn
      have hlt := (h.latest g n hn).1
      rw [post_postings_of_ne _ _ _ _ _ _ (by omega)] at hcut ⊢
      exact h.progress g n hn hcut
  edits := by
    intro n r rest hpending
    by_cases heq : n = o.posted
    · refine ⟨fun _ => by rw [heq]; exact textsOf_posted ha, ?_⟩
      rw [heq, post_postings_self] at hpending
      cases parts with
      | nil => cases hpending
      | cons text texts =>
          cases hpending
          intro r' hr'
          exact (of_mem_sendsFrom hr').1
    · rw [post_postings_of_ne _ _ _ _ _ _ heq] at hpending
      exact h.edits n r rest hpending
  whole := by
    intro n hn
    have hlt : n < o.posted + 1 := hn
    by_cases heq : n = o.posted
    · rw [heq, post_postings_self]
      exact hwhole
    · rw [post_postings_of_ne _ _ _ _ _ _ heq]
      exact h.whole n (by omega)

theorem cutWhere (h : Tracked tg o) (P : Nat → Prop) [DecidablePred P] :
    Tracked tg (o.cutWhere P) where
  latest := by
    intro g n hn
    obtain ⟨hturn, _⟩ := cutWhere_fields o P n
    rw [hturn]
    exact h.latest g n hn
  upTo := by
    intro n hn
    obtain ⟨hturn, _⟩ := cutWhere_fields o P n
    rw [hturn]
    exact h.upTo n hn
  progress := by
    intro g n hn hcut
    obtain ⟨_, _, hparts, _⟩ := cutWhere_fields o P n
    rw [hparts]
    by_cases hP : P n
    · have hcutoff : (o.cutWhere P).postings n = (o.postings n).cutOff := if_pos hP
      rw [hcutoff] at hcut ⊢
      have hnil := cutOff_of_uncut hcut
      have hold : (o.postings n).cut = false := by
        simp only [Posting.cutOff, Bool.or_eq_false_iff] at hcut
        exact hcut.1
      have hprogress := h.progress g n hn hold
      rw [hnil] at hprogress
      simp only [Posting.cutOff, hnil]
      exact hprogress
    · rw [cutWhere_of_not o P hP] at hcut ⊢
      exact h.progress g n hn hcut
  edits := by
    intro n r rest hpending
    obtain ⟨rest₀, hpending₀, hsub⟩ := cutWhere_cons hpending
    obtain ⟨hfirst, hnone⟩ := h.edits n r rest₀ hpending₀
    exact ⟨hfirst, fun r' hr' => hnone r' (hsub r' hr')⟩
  whole := by
    intro n hn
    obtain ⟨_, hsource, hparts, hwhole, _⟩ := cutWhere_fields o P n
    rw [hsource, hparts, hwhole]
    exact h.whole n hn

section Land

variable {n : Nat} {r : Request} {rest : List Request} {answered : Bool}

theorem textsOf_send (o : Outbox) (j : Nat) (r : Request) (rest : List Request) (n : Nat) :
    (o.send n r rest answered).textsOf j =
      if j = n then o.textsOf j ++ [r.text] else o.textsOf j := by
  simp only [textsOf, Outbox.send, List.filter_append, List.map_append]
  by_cases hj : j = n
  · rw [if_pos hj]
    simp [hj]
  · rw [if_neg hj]
    simp [Ne.symm hj]

theorem send (h : Tracked tg o) (hpending : (o.postings n).pending = r :: rest) :
    Tracked tg (o.send n r rest answered) where
  latest := by
    intro g j hj
    rw [send_turn]
    exact h.latest g j hj
  upTo := by
    intro j hj
    rw [send_turn]
    exact h.upTo j hj
  progress := by
    intro g j hj
    rw [textsOf_send]
    by_cases heq : j = n
    · rw [heq] at hj ⊢
      rw [send_postings_self, if_pos rfl]
      intro hcut
      have hprogress := h.progress g n hj hcut
      rw [hpending, List.map_cons] at hprogress
      rw [List.append_assoc]
      exact hprogress
    · rw [send_postings_of_ne heq, if_neg heq]
      exact h.progress g j hj
  edits := by
    intro j r' rest' hj
    by_cases heq : j = n
    · rw [heq, send_postings_self] at hj
      have hrest : rest = r' :: rest' := hj
      obtain ⟨_, hnone⟩ := h.edits n r rest hpending
      rw [hrest] at hnone
      refine ⟨fun hne => absurd (hnone r' List.mem_cons_self) hne, ?_⟩
      intro r'' hr''
      exact hnone r'' (List.mem_cons_of_mem r' hr'')
    · rw [send_postings_of_ne heq] at hj
      rw [textsOf_send, if_neg heq]
      exact h.edits j r' rest' hj
  whole := by
    intro j hj
    by_cases heq : j = n
    · rw [heq] at hj ⊢
      rw [send_postings_self]
      exact h.whole n hj
    · rw [send_postings_of_ne heq]
      exact h.whole j hj

theorem filter_set_of_ne {ms : List Message} {i j : Nat} {m m' : Message}
    (hm : ms[i]? = some m) (hne : m.posting ≠ j) (hne' : m'.posting ≠ j) :
    (ms.set i m').filter (fun m => m.posting = j) = ms.filter fun m => m.posting = j := by
  induction ms generalizing i with
  | nil => rfl
  | cons a ms ih =>
      cases i with
      | zero =>
          cases hm
          simp [hne, hne']
      | succ i =>
          rw [List.set_cons_succ, List.filter_cons, List.filter_cons, ih hm]

theorem filter_set_of_nil {ms : List Message} {i j : Nat} {m' : Message}
    (hnil : ms.filter (fun m => m.posting = j) = []) (hi : i < ms.length)
    (heq : m'.posting = j) : (ms.set i m').filter (fun m => m.posting = j) = [m'] := by
  induction ms generalizing i with
  | nil => exact absurd hi (Nat.not_lt_zero i)
  | cons a ms ih =>
      have ha : ¬a.posting = j := by
        intro hcon
        rw [List.filter_cons_of_pos (by simpa using hcon)] at hnil
        cases hnil
      rw [List.filter_cons_of_neg (by simpa using ha)] at hnil
      cases i with
      | zero => rw [List.set_cons_zero, List.filter_cons_of_pos (by simpa using heq), hnil]
      | succ i =>
          rw [List.set_cons_succ, List.filter_cons_of_neg (by simpa using ha)]
          exact ih hnil (Nat.lt_of_succ_lt_succ hi)

/-- The message that is edited was written by no later posting, so that the last posting of
    its turn loses nothing. -/
theorem replace (h : Tracked tg o) (ha : o.Attributed) {k : Nat} (horder : o.InOrder n)
    (hpending : (o.postings n).pending = r :: rest) (htarget : r.target = some k) :
    Tracked tg (o.replace n k r rest) := by
  have hmem : r ∈ (o.postings n).pending := by rw [hpending]; exact List.mem_cons_self
  obtain ⟨_, m, hm, hturn⟩ := ha.targets n r hmem k htarget
  have hle : m.posting ≤ n :=
    horder r (by rw [hpending]; rfl) k htarget m hm
  have hlt : k - 1 < o.shown.length := (List.getElem?_eq_some_iff.mp hm).1
  have hnil : o.textsOf n = [] := by
    refine (h.edits n r rest hpending).1 ?_
    rw [htarget]
    exact Option.some_ne_none k
  have hself : (o.replace n k r rest).textsOf n = [r.text] := by
    rw [textsOf, List.map_eq_nil_iff] at hnil
    simp only [textsOf, Outbox.replace]
    rw [filter_set_of_nil hnil hlt rfl]
    rfl
  have hother : ∀ j, j ≠ n → m.posting ≠ j → (o.replace n k r rest).textsOf j = o.textsOf j := by
    intro j hj hmj
    simp only [textsOf, Outbox.replace]
    rw [filter_set_of_ne hm hmj (Ne.symm hj)]
  have hkeeps : ∀ j, j ≠ n → o.textsOf j = [] → (o.replace n k r rest).textsOf j = [] := by
    intro j hj hj'
    by_cases hmj : m.posting = j
    · have hcon : m.text ∈ o.textsOf j :=
        List.mem_map_of_mem (List.mem_filter.mpr ⟨List.mem_of_getElem? hm, by simpa using hmj⟩)
      rw [hj'] at hcon
      cases hcon
    · rw [hother j hj hmj, hj']
  -- the message was not written by the last posting of another turn, nor by a later one
  have hlast : ∀ g j, o.latest g = some j → j ≠ n → m.posting ≠ j := by
    intro g j hj hne heq
    obtain ⟨hjlt, hjturn⟩ := h.latest g j hj
    have hwritten := (ha.written m (List.mem_of_getElem? hm)).2
    obtain ⟨i, hi, hni⟩ := h.upTo n (ha.lt_posted (by rw [hpending]; exact List.cons_ne_nil r rest))
    rw [← hturn, ← hwritten, heq, hjturn, hj] at hi
    cases hi
    omega
  exact {
    latest := by
      intro g j hj
      rw [replace_turn]
      exact h.latest g j hj
    upTo := by
      intro j hj
      rw [replace_turn]
      exact h.upTo j hj
    progress := by
      intro g j hj
      by_cases heq : j = n
      · rw [heq] at hj ⊢
        rw [replace_postings_self, hself]
        intro hcut
        have hprogress := h.progress g n hj hcut
        rw [hpending, hnil] at hprogress
        exact hprogress
      · rw [replace_postings_of_ne heq, hother j heq (hlast g j hj heq)]
        exact h.progress g j hj
    edits := by
      intro j r' rest' hj
      by_cases heq : j = n
      · rw [heq, replace_postings_self] at hj
        have hrest : rest = r' :: rest' := hj
        obtain ⟨_, hnone⟩ := h.edits n r rest hpending
        rw [hrest] at hnone
        refine ⟨fun hne => absurd (hnone r' List.mem_cons_self) hne, ?_⟩
        intro r'' hr''
        exact hnone r'' (List.mem_cons_of_mem r' hr'')
      · rw [replace_postings_of_ne heq] at hj
        obtain ⟨hfirst, hnone⟩ := h.edits j r' rest' hj
        exact ⟨fun hne => hkeeps j heq (hfirst hne), hnone⟩
    whole := by
      intro j hj
      by_cases heq : j = n
      · rw [heq] at hj ⊢
        rw [replace_postings_self]
        exact h.whole n hj
      · rw [replace_postings_of_ne heq]
        exact h.whole j hj }

/-- The same request is made again. -/
theorem keep (h : Tracked tg o) (hpending : (o.postings n).pending = r :: rest) :
    Tracked tg (o.keep n (r.woken :: rest)) where
  latest := by
    intro g j hj
    rw [keep_turn]
    exact h.latest g j hj
  upTo := by
    intro j hj
    rw [keep_turn]
    exact h.upTo j hj
  progress := by
    intro g j hj
    by_cases heq : j = n
    · rw [heq] at hj ⊢
      rw [keep_postings_self]
      intro hcut
      have hprogress := h.progress g n hj hcut
      rw [hpending] at hprogress
      exact hprogress
    · rw [keep_postings_of_ne heq]
      exact h.progress g j hj
  edits := by
    intro j r' rest' hj
    by_cases heq : j = n
    · rw [heq, keep_postings_self] at hj
      have hcons : r.woken :: rest = r' :: rest' := hj
      cases hcons
      rw [heq]
      exact h.edits n r rest hpending
    · rw [keep_postings_of_ne heq] at hj
      exact h.edits j r' rest' hj
  whole := by
    intro j hj
    by_cases heq : j = n
    · rw [heq] at hj ⊢
      rw [keep_postings_self]
      exact h.whole n hj
    · rw [keep_postings_of_ne heq]
      exact h.whole j hj

end Land

end Tracked

end Outbox

/-! ### What is sent for the whole of a text -/

theorem postWhole_whole (tg : Settings) (source : String) :
    String.join (messageParts (tg.formatTelegramHtml source)) = tg.formatTelegramHtml source ∨
      String.join (messageParts (tg.formatTelegramHtml source))
        = closeOpenTags (tg.formatTelegramHtml source) :=
  .inl (join_messageParts _)

theorem postFirst_whole (tg : Settings) (source : String)
    (h : decide ((messageParts (closeOpenTags (tg.formatTelegramHtml source))).length ≤ 1)
      = true) :
    String.join ((messageParts (closeOpenTags (tg.formatTelegramHtml source))).take 1)
        = tg.formatTelegramHtml source ∨
      String.join ((messageParts (closeOpenTags (tg.formatTelegramHtml source))).take 1)
        = closeOpenTags (tg.formatTelegramHtml source) :=
  .inr (join_take_messageParts (of_decide_eq_true h))

section Steps

variable {tg : Settings} {s s' : Chat} {l : ChatLabel}

def EditsInOrder (s : Chat) : ChatLabel → Prop
  | .land n => s.outbox.InOrder n
  | _ => True

instance (s : Chat) (l : ChatLabel) : Decidable (EditsInOrder s l) := by
  induction l using ChatLabel.casesOn with
  | land n =>
      dsimp only [EditsInOrder]
      infer_instance
  | receive | deliver | fire | fail | retry | wait => exact isTrue trivial

def Succeeds : ChatLabel → Prop
  | .fail _ _ => False
  | _ => True

instance (l : ChatLabel) : Decidable (Succeeds l) := by
  induction l using ChatLabel.casesOn with
  | fail => exact isFalse id
  | receive | deliver | fire | land | retry | wait => exact isTrue trivial

theorem tracked_step (h : s.outbox.Tracked tg) (ha : s.outbox.Attributed)
    (horder : EditsInOrder s l) (hsucceeds : Succeeds l) (heff : s.Effect tg l s') :
    s'.outbox.Tracked tg := by
  cases heff with
  | still | moved | entered | spawned | registeredDebounce | debounced | debounceStored
  | finalizeEmpty | removed => exact h
  | dropped l t d ht hflushed hlanded hempty hd => exact h.cutWhere _
  | flushed l t d ht hflushed hlanded htext hd =>
      exact (h.cutWhere _).post (ha.cutWhere _) _ fun _ => postWhole_whole tg t.buffer
  | enteredLate text messageId p t₀ t hdelivery ht₀ ht hlanded hphase hid htext =>
      exact h.post ha _ fun _ => postWhole_whole tg t.buffer
  | registeredFinalize handle t hdelivery ht => exact h.cutWhere _
  | edited accumulated msgId t t' hdelivery ht ht' =>
      exact h.post ha _ (postFirst_whole tg accumulated)
  | debounceClaimed i turn accumulated t t' hi ht hfree ht' =>
      exact h.post ha _ (postFirst_whole tg accumulated)
  | finalizeClaimed i t t' hi ht hfree htext ht' =>
      exact h.post ha _ fun _ => postWhole_whole tg t.buffer
  | sent l n r rest next answered hpending htarget hends =>
      cases hends with
      | succeeded => exact h.send hpending
      | failed f heffect => exact hsucceeds.elim
  | replaced l n k r rest next answered hpending htarget hends =>
      cases hends with
      | succeeded => exact h.replace ha horder hpending htarget
      | failed f heffect => exact hsucceeds.elim
  | delayed l n r rest next hpending hdelays =>
      cases hdelays with
      | failed f heffect => exact hsucceeds.elim
      | retried => exact h.keep hpending

end Steps

theorem tracked {tg : Settings} {G : Chat → ChatLabel → Prop} {s : Chat}
    (hG : ∀ s l, G s l → OwnTurn s l ∧ EditsInOrder s l ∧ Succeeds l)
    (h : (chat tg).ReachableUnder G s) : s.outbox.Tracked tg := by
  refine h.invariant (I := fun s => s.outbox.Tracked tg) ?_ ?_
  · rintro s rfl
    refine ⟨fun g n hn => (nomatch hn), fun n hn => absurd hn (Nat.not_lt_zero n),
      fun g n hn => (nomatch hn), fun n r rest hn => (nomatch hn),
      fun n hn => absurd hn (Nat.not_lt_zero n)⟩
  · intro s l s' hreach hs hguard hstep
    obtain ⟨_, horder, hsucceeds⟩ := hG s l hguard
    exact tracked_step hs (owned (fun s l hl => (hG s l hl).1) hreach).attributed horder
      hsucceeds (effect_of_step hstep)

end Anyclaw.Telegram
