import Anyclaw.Telegram.Attribution

/-!
# One message for each part

A turn is shown by its first message and, when its text is too long for one, by one message
for each further part.  Here is what has to hold of the messages and of what is on its way
for it to stay so: when a posting is started, nothing else is on its way for the turn, and the
message that is to be edited is the only one of the turn.

The parts are those of `split_message`, sent by `send_or_edit_final`, `send_flush` and the
tasks of `deliver_to_chat` (`ext/channels/telegram/src/deliver.rs`).
-/

namespace Anyclaw.Telegram

namespace Outbox

variable {o : Outbox}

/-! ### One message for each part -/

/-- Two messages of one turn are different parts of one posting. -/
def PostedOnce (o : Outbox) : Prop :=
  ∀ (i j : Nat) (m m' : Message), i ≠ j → o.shown[i]? = some m → o.shown[j]? = some m' →
    m.turn = m'.turn → m.posting = m'.posting ∧ m.part ≠ m'.part

/-- What is still to come of a posting: an edit is for the only message of the turn, a message
    is for a part that no message of the turn shows, and nothing else is sent for the turn. -/
structure Single (o : Outbox) : Prop where
  once : o.PostedOnce
  parts : ∀ m ∈ o.shown, m.part < (o.postings m.posting).parts.length
  alone : ∀ n n', (o.postings n).pending ≠ [] → (o.postings n').pending ≠ [] →
    (o.postings n).turn = (o.postings n').turn → n = n'
  nextEdit : ∀ n r rest k, (o.postings n).pending = r :: rest → r.target = some k →
    ∀ j m, o.shown[j]? = some m → m.turn = (o.postings n).turn → j = k - 1
  nextSend : ∀ n r rest, (o.postings n).pending = r :: rest → r.target = none →
    ∀ m ∈ o.shown, m.turn = (o.postings n).turn → m.posting = n ∧ m.part < r.part
  shape : ∀ n r rest, (o.postings n).pending = r :: rest →
    r.part < (o.postings n).parts.length ∧
      ∀ r' ∈ rest, r.part < r'.part ∧ r'.target = none ∧ r'.part < (o.postings n).parts.length
  sorted : ∀ n, (o.postings n).pending.Pairwise fun r r' => r.part < r'.part

end Outbox

theorem pairwise_sendsFrom (i : Nat) (texts : List String) :
    (sendsFrom i texts).Pairwise fun r r' => r.part < r'.part := by
  induction texts generalizing i with
  | nil => exact List.Pairwise.nil
  | cons text texts ih =>
      refine List.Pairwise.cons ?_ (ih (i + 1))
      intro r' hr'
      have hle := (of_mem_sendsFrom hr').2.1
      exact hle

theorem pairwise_requests (msgId : Nat) (parts : List String) :
    (requests msgId parts).Pairwise fun r r' => r.part < r'.part := by
  cases parts with
  | nil => exact List.Pairwise.nil
  | cons text texts =>
      refine List.Pairwise.cons ?_ (pairwise_sendsFrom 1 texts)
      intro r' hr'
      have hle := (of_mem_sendsFrom hr').2.1
      exact hle

/-- The requests after the first are messages for later parts. -/
theorem requests_eq_cons {msgId : Nat} {parts : List String} {r : Request}
    {rest : List Request} (h : requests msgId parts = r :: rest) :
    r.part = 0 ∧ (r.target = if msgId = 0 then none else some msgId) ∧
      r.part < parts.length ∧
      ∀ r' ∈ rest, r.part < r'.part ∧ r'.target = none ∧ r'.part < parts.length := by
  cases parts with
  | nil => cases h
  | cons text texts =>
      cases h
      refine ⟨rfl, rfl, Nat.succ_pos _, ?_⟩
      intro r' hr'
      obtain ⟨htarget, hle, hlt⟩ := of_mem_sendsFrom hr'
      rw [List.length_cons]
      exact ⟨hle, htarget, by omega⟩

/-- What comes after a request is still to come, perhaps after the same request again. -/
def Request.Resumes (r : Request) (rest next : List Request) : Prop :=
  next = rest ∨ ∃ r', next = r' :: rest ∧ r'.part = r.part ∧ r'.target = r.target

namespace Outbox

variable {o : Outbox}

/-- One of the postings goes on, and the others stay as they are. -/
structure Continues (o' o : Outbox) (n : Nat) (next : List Request) : Prop where
  turn : ∀ j, (o'.postings j).turn = (o.postings j).turn
  parts : ∀ j, (o'.postings j).parts = (o.postings j).parts
  pending : (o'.postings n).pending = next
  others : ∀ j, j ≠ n → o'.postings j = o.postings j

section Continues

variable {n : Nat} {r : Request} {next : List Request}

theorem continues_send {answered : Bool} : (o.send n r next answered).Continues o n next where
  turn := send_turn
  parts := by
    intro j
    by_cases hj : j = n
    · rw [hj, send_postings_self]
    · rw [send_postings_of_ne hj]
  pending := congrArg Posting.pending send_postings_self
  others _ hj := send_postings_of_ne hj

theorem continues_replace {k : Nat} : (o.replace n k r next).Continues o n next where
  turn j := replace_turn j k
  parts := by
    intro j
    by_cases hj : j = n
    · rw [hj, replace_postings_self]
    · rw [replace_postings_of_ne hj]
  pending := congrArg Posting.pending replace_postings_self
  others _ hj := replace_postings_of_ne hj

theorem continues_keep : (o.keep n next).Continues o n next where
  turn := keep_turn
  parts := by
    intro j
    by_cases hj : j = n
    · rw [hj, keep_postings_self]
    · rw [keep_postings_of_ne hj]
  pending := congrArg Posting.pending keep_postings_self
  others _ hj := keep_postings_of_ne hj

/-- What is still to come was still to come before. -/
theorem Continues.came {o' : Outbox} (hcont : o'.Continues o n next)
    (hpending : (o.postings n).pending ≠ []) {j : Nat} (hj : (o'.postings j).pending ≠ []) :
    (o.postings j).pending ≠ [] := by
  by_cases heq : j = n
  · rw [heq]
    exact hpending
  · rw [hcont.others j heq] at hj
    exact hj

end Continues

namespace Single

/-- Nothing is on its way for the turn, and the message that is to be edited, if there is one,
    is its only message. -/
structure Ready (o : Outbox) (turn msgId : Nat) : Prop where
  quiet : ∀ n, (o.postings n).turn = turn → (o.postings n).pending = []
  only : ∀ j m, o.shown[j]? = some m → m.turn = turn → msgId ≠ 0 ∧ j = msgId - 1

theorem post (h : Single o) (ha : o.Attributed) {turn msgId : Nat} (source : String)
    (parts : List String) (whole : Bool) (hready : Ready o turn msgId) :
    Single (o.post turn source msgId parts whole) where
  once := h.once
  parts := by
    intro m hm
    have hlt := (ha.written m hm).1
    rw [post_postings_of_ne _ _ _ _ _ _ (by omega)]
    exact h.parts m hm
  alone := by
    intro n n' hn hn' hturn
    by_cases heq : n = o.posted
    · by_cases heq' : n' = o.posted
      · rw [heq, heq']
      · rw [heq, post_postings_self, post_postings_of_ne _ _ _ _ _ _ heq'] at hturn
        rw [post_postings_of_ne _ _ _ _ _ _ heq'] at hn'
        exact absurd (hready.quiet n' hturn.symm) hn'
    · rw [post_postings_of_ne _ _ _ _ _ _ heq] at hn hturn
      by_cases heq' : n' = o.posted
      · rw [heq', post_postings_self] at hturn
        exact absurd (hready.quiet n hturn) hn
      · rw [post_postings_of_ne _ _ _ _ _ _ heq'] at hn' hturn
        exact h.alone n n' hn hn' hturn
  nextEdit := by
    intro n r rest k hpending htarget j m hm hturn
    by_cases heq : n = o.posted
    · rw [heq, post_postings_self] at hpending hturn
      obtain ⟨_, hfirst, _, _⟩ := requests_eq_cons hpending
      obtain ⟨hne, hj⟩ := hready.only j m hm hturn
      rw [if_neg hne, htarget] at hfirst
      cases hfirst
      exact hj
    · rw [post_postings_of_ne _ _ _ _ _ _ heq] at hpending hturn
      exact h.nextEdit n r rest k hpending htarget j m hm hturn
  nextSend := by
    intro n r rest hpending htarget m hm hturn
    by_cases heq : n = o.posted
    · rw [heq, post_postings_self] at hpending hturn
      obtain ⟨_, hfirst, _, _⟩ := requests_eq_cons hpending
      obtain ⟨j, hj⟩ := List.mem_iff_getElem?.mp hm
      obtain ⟨hne, _⟩ := hready.only j m hj hturn
      rw [if_neg hne, htarget] at hfirst
      cases hfirst
    · rw [post_postings_of_ne _ _ _ _ _ _ heq] at hpending hturn
      exact h.nextSend n r rest hpending htarget m hm hturn
  shape := by
    intro n r rest hpending
    by_cases heq : n = o.posted
    · rw [heq, post_postings_self] at hpending ⊢
      exact (requests_eq_cons hpending).2.2
    · rw [post_postings_of_ne _ _ _ _ _ _ heq] at hpending ⊢
      exact h.shape n r rest hpending
  sorted := by
    intro n
    by_cases heq : n = o.posted
    · rw [heq, post_postings_self]
      exact pairwise_requests msgId parts
    · rw [post_postings_of_ne _ _ _ _ _ _ heq]
      exact h.sorted n

theorem cutWhere (h : Single o) (P : Nat → Prop) [DecidablePred P] :
    Single (o.cutWhere P) where
  once := h.once
  parts := by
    intro m hm
    rw [(cutWhere_fields o P m.posting).2.2.1]
    exact h.parts m hm
  alone := by
    intro n n' hn hn' hturn
    rw [(cutWhere_fields o P n).1, (cutWhere_fields o P n').1] at hturn
    exact h.alone n n' (cutWhere_ne_nil hn) (cutWhere_ne_nil hn') hturn
  nextEdit := by
    intro n r rest k hpending htarget j m hm hturn
    obtain ⟨rest₀, hpending₀, _⟩ := cutWhere_cons hpending
    rw [(cutWhere_fields o P n).1] at hturn
    exact h.nextEdit n r rest₀ k hpending₀ htarget j m hm hturn
  nextSend := by
    intro n r rest hpending htarget m hm hturn
    obtain ⟨rest₀, hpending₀, _⟩ := cutWhere_cons hpending
    rw [(cutWhere_fields o P n).1] at hturn
    exact h.nextSend n r rest₀ hpending₀ htarget m hm hturn
  shape := by
    intro n r rest hpending
    obtain ⟨rest₀, hpending₀, hsub⟩ := cutWhere_cons hpending
    rw [(cutWhere_fields o P n).2.2.1]
    obtain ⟨hlt, hrest⟩ := h.shape n r rest₀ hpending₀
    exact ⟨hlt, fun r' hr' => hrest r' (hsub r' hr')⟩
  sorted := by
    intro n
    rcases cutWhere_pending o P n with heq | heq
    · rw [heq]
      exact h.sorted n
    · rw [heq]
      exact (h.sorted n).sublist (List.filter_sublist.trans (List.take_sublist 1 _))

section Land

variable {n : Nat} {r : Request} {rest next : List Request} {answered : Bool}

/-- What is left of a posting after its first request has taken effect. -/
theorem rest_of_land (h : Single o) (hpending : (o.postings n).pending = r :: rest)
    {r' : Request} {rest' : List Request} (hrest : rest = r' :: rest') :
    r'.target = none ∧ r.part < r'.part ∧ r'.part < (o.postings n).parts.length ∧
      ∀ r'' ∈ rest', r'.part < r''.part ∧ r''.target = none ∧
        r''.part < (o.postings n).parts.length := by
  obtain ⟨_, htail⟩ := h.shape n r rest hpending
  have hsorted := h.sorted n
  rw [hpending, hrest, List.pairwise_cons, List.pairwise_cons] at hsorted
  rw [hrest] at htail
  obtain ⟨hlt, htarget, hlen⟩ := htail r' List.mem_cons_self
  refine ⟨htarget, hlt, hlen, ?_⟩
  intro r'' hr''
  obtain ⟨_, htarget'', hlen''⟩ := htail r'' (List.mem_cons_of_mem r' hr'')
  exact ⟨hsorted.2.1 r'' hr'', htarget'', hlen''⟩

section Continues

variable {o' : Outbox}

/-- Another posting with something to come is for another turn. -/
theorem turn_ne (h : Single o) (hcont : o'.Continues o n next)
    (hpending : (o.postings n).pending = r :: rest) {j : Nat} (hj : j ≠ n)
    (hne : (o'.postings j).pending ≠ []) : (o.postings j).turn ≠ (o.postings n).turn := by
  rw [hcont.others j hj] at hne
  intro heq
  exact hj (h.alone j n hne (by rw [hpending]; exact List.cons_ne_nil r rest) heq)

theorem alone_next (h : Single o) (hcont : o'.Continues o n next)
    (hpending : (o.postings n).pending = r :: rest) :
    ∀ j j', (o'.postings j).pending ≠ [] → (o'.postings j').pending ≠ [] →
      (o'.postings j).turn = (o'.postings j').turn → j = j' := by
  have hpos : (o.postings n).pending ≠ [] := by
    rw [hpending]
    exact List.cons_ne_nil r rest
  intro j j' hj hj' hturn
  rw [hcont.turn, hcont.turn] at hturn
  exact h.alone j j' (hcont.came hpos hj) (hcont.came hpos hj') hturn

/-- Each request that is still to come is for a later part than the one before it. -/
theorem shape_next (h : Single o) (hcont : o'.Continues o n next)
    (hpending : (o.postings n).pending = r :: rest) (hnext : r.Resumes rest next) :
    ∀ j r' rest', (o'.postings j).pending = r' :: rest' →
      r'.part < (o'.postings j).parts.length ∧
        ∀ r'' ∈ rest', r'.part < r''.part ∧ r''.target = none ∧
          r''.part < (o'.postings j).parts.length := by
  intro j r' rest' hj
  rw [hcont.parts]
  by_cases heq : j = n
  · rw [heq, hcont.pending] at hj
    rw [heq]
    rcases hnext with hrest | ⟨r₀, hagain, hpart, _⟩
    · exact (h.rest_of_land hpending (hrest.symm.trans hj)).2.2
    · cases hagain.symm.trans hj
      rw [hpart]
      exact h.shape n r rest hpending
  · rw [hcont.others j heq] at hj
    exact h.shape j r' rest' hj

theorem sorted_next (h : Single o) (hcont : o'.Continues o n next)
    (hpending : (o.postings n).pending = r :: rest) (hnext : r.Resumes rest next) :
    ∀ j, (o'.postings j).pending.Pairwise fun r r' => r.part < r'.part := by
  intro j
  by_cases heq : j = n
  · have hsorted := h.sorted n
    rw [hpending, List.pairwise_cons] at hsorted
    obtain ⟨hfirst, hrest⟩ := hsorted
    rw [heq, hcont.pending]
    rcases hnext with hsame | ⟨r', hagain, hpart, _⟩
    · rw [hsame]
      exact hrest
    · rw [hagain, List.pairwise_cons, hpart]
      exact ⟨hfirst, hrest⟩
  · rw [hcont.others j heq]
    exact h.sorted j

end Continues

theorem getElem?_send {i : Nat} {m : Message}
    (h : (o.send n r next answered).shown[i]? = some m) :
    o.shown[i]? = some m ∨ i = o.shown.length ∧ m = ⟨(o.postings n).turn, n, r.part, r.text⟩ := by
  have happ : (o.shown ++ [⟨(o.postings n).turn, n, r.part, r.text⟩])[i]? = some m := h
  by_cases hi : i < o.shown.length
  · rw [List.getElem?_append_left hi] at happ
    exact .inl happ
  · rw [List.getElem?_append_right (Nat.not_lt.mp hi)] at happ
    have hlt := (List.getElem?_eq_some_iff.mp happ).1
    rw [List.length_singleton] at hlt
    have hzero : i - o.shown.length = 0 := by omega
    rw [hzero] at happ
    cases happ
    exact .inr ⟨by omega, rfl⟩

theorem send (h : Single o) (hpending : (o.postings n).pending = r :: rest)
    (htarget : r.target = none) : Single (o.send n r rest answered) := by
  have hcont : (o.send n r rest answered).Continues o n rest := continues_send
  have hnext := h.nextSend n r rest hpending htarget
  exact {
    once := by
      intro i j m m' hij hm hm' hturn
      rcases getElem?_send hm with hold | ⟨hi, hnew⟩
      · rcases getElem?_send hm' with hold' | ⟨hj, hnew'⟩
        · exact h.once i j m m' hij hold hold' hturn
        · rw [hnew'] at hturn ⊢
          obtain ⟨hposting, hlt⟩ := hnext m (List.mem_of_getElem? hold) hturn
          exact ⟨hposting, Nat.ne_of_lt hlt⟩
      · rcases getElem?_send hm' with hold' | ⟨hj, _⟩
        · rw [hnew] at hturn ⊢
          obtain ⟨hposting, hlt⟩ := hnext m' (List.mem_of_getElem? hold') hturn.symm
          exact ⟨hposting.symm, Nat.ne_of_gt hlt⟩
        · exact absurd (hi.trans hj.symm) hij
    parts := by
      intro m hm
      rw [hcont.parts]
      rcases List.mem_append.mp hm with hm | hm
      · exact h.parts m hm
      · rw [List.mem_singleton.mp hm]
        exact (h.shape n r rest hpending).1
    alone := h.alone_next hcont hpending
    nextEdit := by
      intro j r' rest' k hj htarget' i m hm hturn
      rw [hcont.turn] at hturn
      by_cases heq : j = n
      · rw [heq, hcont.pending] at hj
        rw [(h.rest_of_land hpending hj).1] at htarget'
        cases htarget'
      · have hne := h.turn_ne hcont hpending heq (by rw [hj]; exact List.cons_ne_nil r' rest')
        rw [hcont.others j heq] at hj
        rcases getElem?_send hm with hold | ⟨_, hnew⟩
        · exact h.nextEdit j r' rest' k hj htarget' i m hold hturn
        · rw [hnew] at hturn
          exact absurd hturn.symm hne
    nextSend := by
      intro j r' rest' hj htarget' m hm hturn
      rw [hcont.turn] at hturn
      rcases List.mem_append.mp hm with hm | hm
      · by_cases heq : j = n
        · rw [heq] at hturn
          rw [heq, hcont.pending] at hj
          obtain ⟨hposting, hlt⟩ := hnext m hm hturn
          exact ⟨hposting.trans heq.symm, Nat.lt_trans hlt (h.rest_of_land hpending hj).2.1⟩
        · rw [hcont.others j heq] at hj
          exact h.nextSend j r' rest' hj htarget' m hm hturn
      · rw [List.mem_singleton.mp hm] at hturn ⊢
        by_cases heq : j = n
        · rw [heq, hcont.pending] at hj
          exact ⟨heq.symm, (h.rest_of_land hpending hj).2.1⟩
        · have hne := h.turn_ne hcont hpending heq (by rw [hj]; exact List.cons_ne_nil r' rest')
          exact absurd hturn.symm hne
    shape := h.shape_next hcont hpending (.inl rfl)
    sorted := h.sorted_next hcont hpending (.inl rfl) }

theorem getElem?_replace {i k : Nat} {m : Message}
    (h : (o.replace n k r next).shown[i]? = some m) :
    i ≠ k - 1 ∧ o.shown[i]? = some m ∨
      i = k - 1 ∧ m = ⟨(o.postings n).turn, n, r.part, r.text⟩ := by
  have hset : (o.shown.set (k - 1) ⟨(o.postings n).turn, n, r.part, r.text⟩)[i]? = some m := h
  by_cases hi : i = k - 1
  · rw [hi] at hset
    obtain ⟨hlt, hget⟩ := List.getElem?_eq_some_iff.mp hset
    rw [List.getElem_set_self] at hget
    exact .inr ⟨hi, hget.symm⟩
  · rw [List.getElem?_set_ne (Ne.symm hi)] at hset
    exact .inl ⟨hi, hset⟩

theorem replace (h : Single o) {k : Nat}
    (hpending : (o.postings n).pending = r :: rest) (htarget : r.target = some k)
    (hnext : r.Resumes rest next) : Single (o.replace n k r next) := by
  have hcont : (o.replace n k r next).Continues o n next := continues_replace
  have honly := h.nextEdit n r rest k hpending htarget
  exact {
    once := by
      intro i j m m' hij hm hm' hturn
      rcases getElem?_replace hm with ⟨hi, hold⟩ | ⟨hi, hnew⟩
      · rcases getElem?_replace hm' with ⟨_, hold'⟩ | ⟨_, hnew'⟩
        · exact h.once i j m m' hij hold hold' hturn
        · rw [hnew'] at hturn
          exact absurd (honly i m hold hturn) hi
      · rcases getElem?_replace hm' with ⟨hj, hold'⟩ | ⟨hj, _⟩
        · rw [hnew] at hturn
          exact absurd (honly j m' hold' hturn.symm) hj
        · exact absurd (hi.trans hj.symm) hij
    parts := by
      intro m hm
      rw [hcont.parts]
      rcases List.mem_or_eq_of_mem_set hm with hm | rfl
      · exact h.parts m hm
      · exact (h.shape n r rest hpending).1
    alone := h.alone_next hcont hpending
    nextEdit := by
      intro j r' rest' k' hj htarget' i m hm hturn
      rw [hcont.turn] at hturn
      by_cases heq : j = n
      · rw [heq, hcont.pending] at hj
        have hsame : r'.target = r.target := by
          rcases hnext with hrest | ⟨r₀, hagain, _, htarget₀⟩
          · rw [(h.rest_of_land hpending (hrest.symm.trans hj)).1] at htarget'
            cases htarget'
          · cases hagain.symm.trans hj
            exact htarget₀
        cases (hsame.symm.trans htarget').symm.trans htarget
        rw [heq] at hturn
        rcases getElem?_replace hm with ⟨_, hold⟩ | ⟨hi, _⟩
        · exact honly i m hold hturn
        · exact hi
      · have hne := h.turn_ne hcont hpending heq (by rw [hj]; exact List.cons_ne_nil r' rest')
        rw [hcont.others j heq] at hj
        rcases getElem?_replace hm with ⟨_, hold⟩ | ⟨_, hnew⟩
        · exact h.nextEdit j r' rest' k' hj htarget' i m hold hturn
        · rw [hnew] at hturn
          exact absurd hturn.symm hne
    nextSend := by
      intro j r' rest' hj htarget' m hm hturn
      rw [hcont.turn] at hturn
      obtain ⟨i, hi⟩ := List.mem_iff_getElem?.mp hm
      rcases getElem?_replace hi with ⟨hik, hold⟩ | ⟨_, hnew⟩
      · by_cases heq : j = n
        · rw [heq] at hturn
          exact absurd (honly i m hold hturn) hik
        · rw [hcont.others j heq] at hj
          exact h.nextSend j r' rest' hj htarget' m (List.mem_of_getElem? hold) hturn
      · rw [hnew] at hturn ⊢
        by_cases heq : j = n
        · rw [heq, hcont.pending] at hj
          rcases hnext with hrest | ⟨r₀, hagain, _, htarget₀⟩
          · exact ⟨heq.symm, (h.rest_of_land hpending (hrest.symm.trans hj)).2.1⟩
          · cases hagain.symm.trans hj
            rw [htarget₀, htarget] at htarget'
            cases htarget'
        · have hne := h.turn_ne hcont hpending heq (by rw [hj]; exact List.cons_ne_nil r' rest')
          exact absurd hturn.symm hne
    shape := h.shape_next hcont hpending hnext
    sorted := h.sorted_next hcont hpending hnext }

/-- Nothing takes effect: the request is made again, or a new message, or the last request, is
    given up. -/
theorem keep (h : Single o) (hpending : (o.postings n).pending = r :: rest)
    (hnext : r.Resumes rest next) (hgiven : next = rest → r.target = none ∨ rest = []) :
    Single (o.keep n next) := by
  have hcont : (o.keep n next).Continues o n next := continues_keep
  exact {
    once := h.once
    parts := by
      intro m hm
      rw [hcont.parts]
      exact h.parts m hm
    alone := h.alone_next hcont hpending
    nextEdit := by
      intro j r' rest' k hj htarget' i m hm hturn
      rw [hcont.turn] at hturn
      by_cases heq : j = n
      · rw [heq, hcont.pending] at hj
        rw [heq] at hturn
        rcases hnext with hrest | ⟨r₀, hagain, _, htarget₀⟩
        · rw [(h.rest_of_land hpending (hrest.symm.trans hj)).1] at htarget'
          cases htarget'
        · cases hagain.symm.trans hj
          exact h.nextEdit n r rest k hpending (htarget₀.symm.trans htarget') i m hm hturn
      · rw [hcont.others j heq] at hj
        exact h.nextEdit j r' rest' k hj htarget' i m hm hturn
    nextSend := by
      intro j r' rest' hj htarget' m hm hturn
      rw [hcont.turn] at hturn
      by_cases heq : j = n
      · rw [heq, hcont.pending] at hj
        rw [heq] at hturn ⊢
        rcases hnext with hrest | ⟨r₀, hagain, hpart₀, htarget₀⟩
        · have hcons := hrest.symm.trans hj
          rcases hgiven hrest with hnone | hnil
          · obtain ⟨hposting, hlt⟩ := h.nextSend n r rest hpending hnone m hm hturn
            exact ⟨hposting, Nat.lt_trans hlt (h.rest_of_land hpending hcons).2.1⟩
          · cases hnil.symm.trans hcons
        · cases hagain.symm.trans hj
          rw [hpart₀]
          exact h.nextSend n r rest hpending (htarget₀.symm.trans htarget') m hm hturn
      · rw [hcont.others j heq] at hj
        exact h.nextSend j r' rest' hj htarget' m hm hturn
    shape := h.shape_next hcont hpending hnext
    sorted := h.sorted_next hcont hpending hnext }

end Land

end Single

end Outbox

end Anyclaw.Telegram
