import Mathlib.Data.List.DropRight
import Anyclaw.Library.Transition
import Anyclaw.Channels.Admission
import Anyclaw.Channels.Run

/-!
# The context of a group

Messages of a group in which the bot is not mentioned are buffered, and the next message
that mentions it brings them to the agent.  The machine below collects messages of any
groups one after the other; each finds the manager in any state and brings the options of
its channel, so that limits may change.

The history numbers the skipped messages and keeps those that no accepted prompt has
brought to the agent (`pending`), the limit that the last message of a group came with, and
the context blocks of the accepted prompts.

The buffering is in `collect_send_message` (`crates/anyclaw-channels/src/manager.rs`), the
store in `crates/anyclaw-core/src/context_store.rs`.
-/

namespace Anyclaw

/-- A message that is collected, with the state of the manager that takes it and everything
    that is answered meanwhile. -/
structure CollectedMessage (c : Nat) where
  manager : ChannelsManager c
  slot : Fin c
  options : ChannelOptions
  message : SentMessage
  store : StoreAnswers
  answers : ChannelAnswers

namespace CollectedMessage

variable {c : Nat} (cfg : ChannelsManagerConfig c) (l : CollectedMessage c)

def group : String := l.message.peerInfo.peerId

def limit : Nat := l.options.contextHistoryLimit

/-- The bot is not mentioned, and the message is kept from the agent. -/
def skipped : Bool :=
  l.options.accessControl.any fun access => l.message.decision access == .skipNoMention

/-- A message of a group that mentions the bot and is let through. -/
def mentions : Bool :=
  l.message.isGroup && l.message.botMentioned &&
    l.options.accessControl.all fun access => l.message.decision access == .allow

def sessionKey : SessionKey := ChannelsManager.buildSessionKey l.message.toChannelSendMessage

def ensured : Bool × ChannelsManager c :=
  ChannelsManager.ensureSessionCreated cfg l.manager l.slot l.sessionKey l.message.peerInfo
    l.answers

/-- There is an agents manager, and a session for the message. -/
def handedOver : Bool := l.manager.agentsHandle && (l.ensured cfg).1

def accepted : Bool := l.handedOver cfg && l.answers.enqueued == .replied ()

/-- What is left of a message becomes a prompt when it is handed over. -/
theorem collectSendMessage_eq (h : l.handedOver cfg = true) (content : List ContentPart)
    (metadata : Option MessageMetadata) :
    ChannelsManager.collectSendMessage cfg l.manager l.slot l.message.toChannelSendMessage
        { l.answers with admitted := some (content, metadata) } =
      (l.ensured cfg).2.enqueueToAgent l.sessionKey content metadata (cfg.channels l.slot).agent
        l.answers := by
  unfold handedOver at h
  rw [Bool.and_eq_true] at h
  obtain ⟨hhandle, hready⟩ := h
  have hensured : ChannelsManager.ensureSessionCreated cfg l.manager l.slot
      (ChannelsManager.buildSessionKey l.message.toChannelSendMessage)
      l.message.toChannelSendMessage.peerInfo
      { l.answers with admitted := some (content, metadata) } =
    l.ensured cfg := rfl
  rw [ChannelsManager.collectSendMessage]
  dsimp only
  rw [if_pos hhandle, hensured]
  rcases hpair : l.ensured cfg with ⟨_ | _, ch⟩
  · rw [hpair] at hready
    cases hready
  · rfl

end CollectedMessage

abbrev SkippedMessage := Nat × ContextMessage

structure GroupContexts where
  store : ContextStore
  nextNo : Nat
  /-- The skipped messages of a group that no accepted prompt has brought to the agent. -/
  pending : String → List SkippedMessage
  /-- The limit that the last message of the group came with. -/
  limit : String → Nat
  /-- The contexts of the accepted prompts. -/
  prompts : List (List SkippedMessage)

namespace GroupContexts

variable {c : Nat} (cfg : ChannelsManagerConfig c) (x : GroupContexts) (l : CollectedMessage c)

def empty : GroupContexts := ⟨.empty, 0, fun _ => [], fun _ => 0, []⟩

/-- The last messages of the group that are pending, as many as the limit says. -/
def lastPending : List SkippedMessage := (x.pending l.group).rtake l.limit

def collected : ChannelsManager c × ContextStore :=
  ChannelsManager.collectSentMessage cfg l.manager l.options x.store l.slot l.message l.store
    l.answers

def after : GroupContexts :=
  let store := (x.collected cfg l).2
  if l.skipped then
    { x with
      store := store
      nextNo := x.nextNo + 1
      pending := Function.update x.pending l.group
        (x.pending l.group ++ [(x.nextNo, l.message.asContext l.store.now)])
      limit := Function.update x.limit l.group l.limit }
  else if l.mentions then
    let next := { x with store := store, limit := Function.update x.limit l.group l.limit }
    if l.accepted cfg then
      { next with
        pending := Function.update x.pending l.group []
        prompts := x.prompts ++ [x.lastPending l] }
    else next
  else { x with store := store }

def life : Machine GroupContexts (CollectedMessage c) where
  init x := x = empty
  step x l := some (x.after cfg l)

/-- What is to hold when a message is collected. -/
structure DeliversContext : Prop where
  /-- The prompt of a message that mentions the bot starts with the last pending messages. -/
  block : l.mentions = true → l.handedOver cfg = true → ∃ metadata,
    (x.collected cfg l).1 =
      (l.ensured cfg).2.enqueueToAgent l.sessionKey
        (withContext ((x.lastPending l).map Prod.snd) l.message.content) metadata
        (cfg.channels l.slot).agent l.answers
  /-- They stay buffered when its prompt is not accepted. -/
  kept : l.mentions = true → l.accepted cfg = false →
    (x.after cfg l).store.buffered l.group = x.store.buffered l.group

/-- No message is in two accepted prompts, or twice in one. -/
def Once : Prop := (x.prompts.flatten.map Prod.fst).Nodup

/-- The limit of the group is the one it had, or neither leaves a pending message out. -/
def LimitFits : Prop :=
  l.limit = x.limit l.group ∨
    ((x.pending l.group).length ≤ l.limit ∧ (x.pending l.group).length ≤ x.limit l.group)

/-- The statements of the database are executed, limits change only where it does not matter,
    and a message that takes a context from the buffer is accepted. -/
structure InTurn : Prop where
  executed : l.store.inserted = true ∧ l.store.trimmed = true ∧ l.store.taken = true
  /-- The limit rises by one at most while messages are skipped, and does not fall to 0. -/
  skipped : l.skipped = true → x.LimitFits l ∨ (0 < l.limit ∧ l.limit ≤ x.limit l.group + 1)
  mentions : l.mentions = true → x.LimitFits l
  /-- A channel without access control does not look into the buffer. -/
  controlled : l.mentions = true → x.store.buffered l.group ≠ [] →
    l.options.accessControl.isSome = true
  accepted : l.mentions = true → x.store.buffered l.group ≠ [] → l.accepted cfg = true

instance : Decidable (x.LimitFits l) := inferInstanceAs (Decidable (_ ∨ _))

instance : Decidable (InTurn cfg x l) :=
  decidable_of_iff
    ((l.store.inserted = true ∧ l.store.trimmed = true ∧ l.store.taken = true) ∧
      (l.skipped = true → x.LimitFits l ∨ (0 < l.limit ∧ l.limit ≤ x.limit l.group + 1)) ∧
      (l.mentions = true → x.LimitFits l) ∧
      (l.mentions = true → x.store.buffered l.group ≠ [] →
        l.options.accessControl.isSome = true) ∧
      (l.mentions = true → x.store.buffered l.group ≠ [] → l.accepted cfg = true))
    ⟨fun ⟨h₁, h₂, h₃, h₄, h₅⟩ => ⟨h₁, h₂, h₃, h₄, h₅⟩,
      fun h => ⟨h.executed, h.skipped, h.mentions, h.controlled, h.accepted⟩⟩

/-! ### The store -/

section Store

variable {store : ContextStore} {g g' : String}

theorem buffered_storeContext (store : ContextStore) (msg : ContextMessage) (limit : Nat)
    (g : String) :
    (store.storeContext msg limit true true).buffered g =
      if g = msg.groupKey ∧ limit ≠ 0 then (store.buffered msg.groupKey ++ [msg]).rtake limit
      else store.buffered g := by
  unfold ContextStore.storeContext
  by_cases hlimit : limit = 0
  · simp [hlimit]
  · by_cases hg : g = msg.groupKey
    · simp [hlimit, hg, ContextStore.buffered, ContextStore.inserting, List.rtake]
    · simp [hlimit, hg, ContextStore.buffered]

end Store

/-! ### What is collected -/

section Collected

variable {cfg x l}

theorem not_mentions_of_skipped (h : l.skipped = true) : l.mentions = false := by
  unfold CollectedMessage.skipped at h
  unfold CollectedMessage.mentions
  cases haccess : l.options.accessControl with
  | none =>
      rw [haccess] at h
      cases h
  | some access =>
      rw [haccess, Option.any_some, beq_iff_eq] at h
      rw [Option.all_some, h]
      exact Bool.and_false _

theorem collected_skipped (h : l.skipped = true) :
    (x.collected cfg l).2 =
      x.store.storeContext (l.message.asContext l.store.now) l.limit l.store.inserted
        l.store.trimmed := by
  unfold CollectedMessage.skipped at h
  change (admitMessage l.options x.store l.message l.store).2 = _
  unfold admitMessage
  cases haccess : l.options.accessControl with
  | none =>
      rw [haccess] at h
      cases h
  | some access =>
      rw [haccess, Option.any_some, beq_iff_eq] at h
      simp only [h]
      rfl

/-- A message that mentions the bot takes what is buffered for its group. -/
theorem admit_mentions (h : l.mentions = true)
    (hcontrolled : x.store.buffered l.group ≠ [] → l.options.accessControl.isSome = true)
    (htaken : l.store.taken = true) : ∃ metadata store,
    admitMessage l.options x.store l.message l.store =
        (some (withContext (x.store.buffered l.group) l.message.content, metadata), store) ∧
      ∀ g, store.buffered g = if g = l.group then [] else x.store.buffered g := by
  unfold CollectedMessage.mentions at h
  rw [Bool.and_eq_true] at h
  obtain ⟨hmention, hallow⟩ := h
  unfold admitMessage
  cases haccess : l.options.accessControl with
  | none =>
      have hnone : x.store.buffered l.group = [] := by
        by_contra hne
        have hsome := hcontrolled hne
        rw [haccess] at hsome
        cases hsome
      refine ⟨l.message.metadata, x.store, ?_, ?_⟩
      · rw [hnone]
        rfl
      · intro g
        by_cases hg : g = l.group
        · rw [if_pos hg, hg, hnone]
        · rw [if_neg hg]
  | some access =>
      rw [haccess, Option.all_some, beq_iff_eq] at hallow
      refine ⟨keptMetadata access l.message, (x.store.takeContext l.group true).2, ?_, ?_⟩
      · simp only [hallow, takenContext, hmention, htaken, if_true]
        rfl
      · intro g
        exact x.store.buffered_takeContext l.group g

theorem collected_other (hskipped : l.skipped = false) (hmentions : l.mentions = false) :
    (x.collected cfg l).2 = x.store := by
  unfold CollectedMessage.skipped at hskipped
  unfold CollectedMessage.mentions at hmentions
  change (admitMessage l.options x.store l.message l.store).2 = _
  unfold admitMessage
  cases haccess : l.options.accessControl with
  | none => rfl
  | some access =>
      rw [haccess, Option.any_some, beq_eq_false_iff_ne] at hskipped
      rw [haccess, Option.all_some] at hmentions
      cases hdecision : l.message.decision access with
      | allow =>
          have hnot : (l.message.isGroup && l.message.botMentioned) = false := by
            rw [hdecision] at hmentions
            simpa using hmentions
          simp [hdecision, takenContext, hnot]
      | deny reason => simp [hdecision]
      | skipNoMention => exact absurd hdecision hskipped

end Collected

/-! ### The buffer holds the last pending messages -/

theorem rtake_rtake {α : Type} (l : List α) (a b : Nat) :
    (l.rtake a).rtake b = l.rtake (min a b) := by
  rw [List.rtake_eq_reverse_take_reverse, List.rtake_eq_reverse_take_reverse,
    List.rtake_eq_reverse_take_reverse, List.reverse_reverse, List.take_take, Nat.min_comm]

theorem rtake_of_length_le {α : Type} {l : List α} {a : Nat} (h : l.length ≤ a) :
    l.rtake a = l := by
  rw [List.rtake, Nat.sub_eq_zero_of_le h, List.drop_zero]

theorem map_rtake {α β : Type} (f : α → β) (l : List α) (a : Nat) :
    (l.rtake a).map f = (l.map f).rtake a := by
  rw [List.rtake, List.rtake, List.map_drop, List.length_map]

/-- A new message joins the last ones: what older ones were trimmed away does not matter
    when the limit rises by one at most, or when none were. -/
theorem rtake_append_trimmed {α : Type} (l : List α) (m : α) {a b : Nat} (hb : 0 < b)
    (h : b ≤ a + 1 ∨ l.length ≤ a) : (l.rtake a ++ [m]).rtake b = (l ++ [m]).rtake b := by
  obtain ⟨n, rfl⟩ := Nat.exists_eq_succ_of_ne_zero (Nat.pos_iff_ne_zero.mp hb)
  rw [Nat.succ_eq_add_one, List.rtake_concat_succ, List.rtake_concat_succ]
  rcases h with hle | hshort
  · rw [rtake_rtake, Nat.min_eq_right (by omega)]
  · rw [rtake_of_length_le hshort]

/-- The buffer of a group is what its limit leaves of the pending messages. -/
def Buffered (x : GroupContexts) : Prop :=
  ∀ g, x.store.buffered g = ((x.pending g).rtake (x.limit g)).map Prod.snd

section Steps

variable {cfg x l}

theorem LimitFits.last_eq (h : x.LimitFits l) :
    x.lastPending l = (x.pending l.group).rtake (x.limit l.group) := by
  unfold lastPending
  rcases h with heq | ⟨hlimit, hold⟩
  · rw [heq]
  · rw [rtake_of_length_le hlimit, rtake_of_length_le hold]

theorem buffered_after_skipped (hx : x.Buffered) (hin : x.InTurn cfg l)
    (hskipped : l.skipped = true) : (x.after cfg l).Buffered := by
  obtain ⟨hinserted, htrimmed, _⟩ := hin.executed
  intro g
  unfold after
  rw [if_pos hskipped, collected_skipped hskipped, hinserted, htrimmed]
  dsimp only
  rw [buffered_storeContext]
  have hkey : (l.message.asContext l.store.now).groupKey = l.group := rfl
  rw [hkey]
  by_cases hg : g = l.group
  · subst hg
    rw [Function.update_self, Function.update_self, hx l.group]
    by_cases hzero : l.limit = 0
    · -- nothing is stored, and nothing was
      have hnone : (x.pending l.group).rtake (x.limit l.group) = [] := by
        rcases hin.skipped hskipped with (heq | ⟨hshort, _⟩) | ⟨hpos, _⟩
        · rw [← heq, hzero, List.rtake_zero]
        · rw [hzero, Nat.le_zero, List.length_eq_zero_iff] at hshort
          rw [hshort, List.rtake_nil]
        · omega
      simp [hzero, hnone]
    · have hfits : l.limit ≤ x.limit l.group + 1 ∨
          (x.pending l.group).length ≤ x.limit l.group := by
        rcases hin.skipped hskipped with (heq | ⟨_, hold⟩) | ⟨_, hle⟩
        · exact Or.inl (by omega)
        · exact Or.inr hold
        · exact Or.inl hle
      rw [if_pos ⟨rfl, hzero⟩, ← rtake_append_trimmed _ _ (Nat.pos_of_ne_zero hzero) hfits]
      simp only [map_rtake, List.map_append, List.map_cons, List.map_nil]
  · rw [Function.update_of_ne hg, Function.update_of_ne hg, if_neg fun h => hg h.1]
    exact hx g

theorem buffered_after_mentions (hx : x.Buffered) (hin : x.InTurn cfg l)
    (hmentions : l.mentions = true) : (x.after cfg l).Buffered := by
  obtain ⟨metadata, store, hleft, hstore⟩ :=
    admit_mentions hmentions (hin.controlled hmentions) hin.executed.2.2
  have hcollected : (x.collected cfg l).2 = store := by
    change (admitMessage l.options x.store l.message l.store).2 = store
    rw [hleft]
  have hskipped : ¬ l.skipped = true := by
    intro hskipped
    rw [not_mentions_of_skipped hskipped] at hmentions
    cases hmentions
  intro g
  unfold after
  rw [if_neg hskipped, if_pos hmentions, hcollected]
  dsimp only
  by_cases hacc : l.accepted cfg = true
  · rw [if_pos hacc]
    dsimp only
    rw [hstore]
    by_cases hg : g = l.group
    · subst hg
      rw [Function.update_self, if_pos rfl, List.rtake_nil]
      rfl
    · rw [Function.update_of_ne hg, Function.update_of_ne hg, if_neg hg]
      exact hx g
  · rw [if_neg hacc]
    dsimp only
    rw [hstore]
    by_cases hg : g = l.group
    · subst hg
      have hnone : x.store.buffered l.group = [] := by
        by_contra hne
        exact hacc (hin.accepted hmentions hne)
      have heq := hx l.group
      rw [hnone, ← (hin.mentions hmentions).last_eq] at heq
      rw [Function.update_self, if_pos rfl]
      exact heq
    · rw [Function.update_of_ne hg, if_neg hg]
      exact hx g

theorem buffered_after (hx : x.Buffered) (hin : x.InTurn cfg l) : (x.after cfg l).Buffered := by
  cases hskipped : l.skipped with
  | true => exact buffered_after_skipped hx hin hskipped
  | false =>
      cases hmentions : l.mentions with
      | true => exact buffered_after_mentions hx hin hmentions
      | false =>
          intro g
          unfold after
          rw [if_neg (by rw [hskipped]; simp), if_neg (by rw [hmentions]; simp),
            collected_other hskipped hmentions]
          exact hx g

theorem buffered_of_reachable (h : (life cfg).ReachableUnder (InTurn cfg) x) : x.Buffered := by
  refine h.invariant (I := Buffered) ?_ ?_
  · rintro y rfl g
    rfl
  · intro y l y' _ hy hin hstep
    cases hstep
    exact buffered_after hy hin

end Steps

/-! ### No message is brought twice -/

structure Numbered (x : GroupContexts) : Prop where
  pending_lt : ∀ g, ∀ p ∈ x.pending g, p.1 < x.nextNo
  prompts_lt : ∀ p ∈ x.prompts.flatten, p.1 < x.nextNo
  pending_nodup : ∀ g, ((x.pending g).map Prod.fst).Nodup
  groups : ∀ g g', g ≠ g' → ∀ p ∈ x.pending g, ∀ q ∈ x.pending g', p.1 ≠ q.1
  apart : ∀ g, ∀ p ∈ x.pending g, ∀ q ∈ x.prompts.flatten, p.1 ≠ q.1
  once : x.Once

section Numbers

variable {cfg x l}

theorem numbered_after_skipped (hx : x.Numbered) (hskipped : l.skipped = true) :
    (x.after cfg l).Numbered := by
  unfold after
  rw [if_pos hskipped]
  have hmem : ∀ g, ∀ p ∈ Function.update x.pending l.group
      (x.pending l.group ++ [(x.nextNo, l.message.asContext l.store.now)]) g,
      p ∈ x.pending g ∨ (g = l.group ∧ p.1 = x.nextNo) := by
    intro g p hp
    by_cases hg : g = l.group
    · subst hg
      rw [Function.update_self, List.mem_append, List.mem_singleton] at hp
      rcases hp with hp | rfl
      · exact Or.inl hp
      · exact Or.inr ⟨rfl, rfl⟩
    · rw [Function.update_of_ne hg] at hp
      exact Or.inl hp
  constructor
  · intro g p hp
    dsimp only
    rcases hmem g p hp with hold | ⟨_, hnew⟩
    · have hlt := hx.pending_lt g p hold
      omega
    · omega
  · intro p hp
    have hlt := hx.prompts_lt p hp
    dsimp only
    omega
  · intro g
    dsimp only
    by_cases hg : g = l.group
    · subst hg
      rw [Function.update_self, List.map_append, List.nodup_append]
      refine ⟨hx.pending_nodup l.group, by simp, ?_⟩
      intro a ha b hb
      obtain ⟨p, hp, rfl⟩ := List.mem_map.mp ha
      rw [List.map_cons, List.map_nil, List.mem_singleton] at hb
      have hlt := hx.pending_lt l.group p hp
      dsimp only at hb
      omega
    · rw [Function.update_of_ne hg]
      exact hx.pending_nodup g
  · intro g g' hne p hp q hq
    rcases hmem g p hp with hold | ⟨hg, hnew⟩
    · rcases hmem g' q hq with hold' | ⟨_, hnew'⟩
      · exact hx.groups g g' hne p hold q hold'
      · have hlt := hx.pending_lt g p hold
        omega
    · rcases hmem g' q hq with hold' | ⟨hg', _⟩
      · have hlt := hx.pending_lt g' q hold'
        omega
      · exact absurd (hg.trans hg'.symm) hne
  · intro g p hp q hq
    rcases hmem g p hp with hold | ⟨_, hnew⟩
    · exact hx.apart g p hold q hq
    · have hlt := hx.prompts_lt q hq
      omega
  · exact hx.once

theorem mem_lastPending {p : SkippedMessage} (h : p ∈ x.lastPending l) : p ∈ x.pending l.group :=
  List.mem_of_mem_drop h

/-- The last pending messages become a prompt. -/
theorem numbered_after_accepted (hx : x.Numbered) (store : ContextStore) (limit : String → Nat) :
    Numbered { x with
      store := store
      limit := limit
      pending := Function.update x.pending l.group []
      prompts := x.prompts ++ [x.lastPending l] } := by
  have hpending : ∀ g, ∀ p ∈ Function.update x.pending l.group [] g,
      g ≠ l.group ∧ p ∈ x.pending g := by
    intro g p hp
    by_cases hg : g = l.group
    · subst hg
      rw [Function.update_self] at hp
      cases hp
    · rw [Function.update_of_ne hg] at hp
      exact ⟨hg, hp⟩
  have hprompts : ∀ p ∈ (x.prompts ++ [x.lastPending l]).flatten,
      p ∈ x.prompts.flatten ∨ p ∈ x.pending l.group := by
    intro p hp
    rw [List.flatten_append, List.flatten_singleton, List.mem_append] at hp
    exact hp.imp_right mem_lastPending
  constructor
  · intro g p hp
    exact hx.pending_lt g p (hpending g p hp).2
  · intro p hp
    rcases hprompts p hp with hold | hnew
    · exact hx.prompts_lt p hold
    · exact hx.pending_lt l.group p hnew
  · intro g
    dsimp only
    by_cases hg : g = l.group
    · subst hg
      rw [Function.update_self]
      exact List.nodup_nil
    · rw [Function.update_of_ne hg]
      exact hx.pending_nodup g
  · intro g g' hne p hp q hq
    exact hx.groups g g' hne p (hpending g p hp).2 q (hpending g' q hq).2
  · intro g p hp q hq
    obtain ⟨hg, hp⟩ := hpending g p hp
    rcases hprompts q hq with hold | hnew
    · exact hx.apart g p hp q hold
    · exact hx.groups g l.group hg p hp q hnew
  · unfold Once
    rw [List.flatten_append, List.flatten_singleton, List.map_append, List.nodup_append]
    refine ⟨hx.once, ?_, ?_⟩
    · have hsub : (x.lastPending l).Sublist (x.pending l.group) := List.drop_sublist _ _
      exact (hx.pending_nodup l.group).sublist (hsub.map Prod.fst)
    · intro a ha b hb
      obtain ⟨p, hp, rfl⟩ := List.mem_map.mp ha
      obtain ⟨q, hq, rfl⟩ := List.mem_map.mp hb
      exact (hx.apart l.group q (mem_lastPending hq) p hp).symm

theorem numbered_after (hx : x.Numbered) : (x.after cfg l).Numbered := by
  by_cases hskipped : l.skipped = true
  · exact numbered_after_skipped hx hskipped
  · unfold after
    rw [if_neg hskipped]
    dsimp only
    split
    · split
      · exact numbered_after_accepted hx _ _
      · exact ⟨hx.pending_lt, hx.prompts_lt, hx.pending_nodup, hx.groups, hx.apart, hx.once⟩
    · exact ⟨hx.pending_lt, hx.prompts_lt, hx.pending_nodup, hx.groups, hx.apart, hx.once⟩

theorem numbered_of_reachable (h : (life cfg).ReachableUnder (InTurn cfg) x) : x.Numbered := by
  refine h.invariant (I := Numbered) ?_ ?_
  · rintro y rfl
    constructor
    · intro g p hp
      cases hp
    · intro p hp
      cases hp
    · intro g
      exact List.nodup_nil
    · intro g g' _ p hp
      cases hp
    · intro g p hp
      cases hp
    · exact List.nodup_nil
  · intro y l y' _ hy _ hstep
    cases hstep
    exact numbered_after hy

end Numbers

/-! ### Every context is delivered once -/

variable {cfg x l}

/-- **The context of a group is delivered once**: in runs whose messages come in turn, the
    prompt of a message that mentions the bot starts with the last messages of the group that no
    accepted prompt has brought, these stay buffered otherwise, and none is brought twice. -/
theorem delivers_once (h : (life cfg).ReachableUnder (InTurn cfg) x) (hin : x.InTurn cfg l) :
    DeliversContext cfg x l ∧ (x.after cfg l).Once := by
  have hbuffered := buffered_of_reachable h
  refine ⟨⟨?_, ?_⟩, (numbered_after (numbered_of_reachable h)).once⟩
  · intro hmentions hhanded
    obtain ⟨metadata, store, hleft, _⟩ :=
      admit_mentions hmentions (hin.controlled hmentions) hin.executed.2.2
    have hblock : x.store.buffered l.group = (x.lastPending l).map Prod.snd := by
      rw [(hin.mentions hmentions).last_eq]
      exact hbuffered l.group
    refine ⟨metadata, ?_⟩
    rw [← hblock, ← l.collectSendMessage_eq cfg hhanded]
    unfold collected ChannelsManager.collectSentMessage
    rw [hleft]
  · intro hmentions hacc
    -- only an empty buffer is taken
    have hnone : x.store.buffered l.group = [] := by
      by_contra hne
      rw [hin.accepted hmentions hne] at hacc
      cases hacc
    obtain ⟨metadata, store, hleft, hstore⟩ :=
      admit_mentions hmentions (hin.controlled hmentions) hin.executed.2.2
    have hskipped : ¬ l.skipped = true := by
      intro hskipped
      rw [not_mentions_of_skipped hskipped] at hmentions
      cases hmentions
    unfold after collected ChannelsManager.collectSentMessage
    rw [if_neg hskipped, if_pos hmentions, if_neg (by rw [hacc]; simp), hleft]
    dsimp only
    rw [hstore, if_pos rfl, hnone]

end GroupContexts

namespace Sample

/-- A message of a group in which the bot has to be mentioned, and what the agents manager
    answers to its prompt. -/
def sentToGroup (mentioned : Bool) (text : String) (enqueued : AgentsReply Unit) :
    CollectedMessage 1 where
  manager := ChannelsManager.fresh channels true
  slot := Fin.last 0
  options := ⟨some ⟨.open, [], ∅, true⟩, 50⟩
  message := ⟨⟨⟨"chat", "chat:7", "group"⟩, [.text text], none⟩, none, some mentioned⟩
  store := storeAnswers
  answers := { channelAnswers "s" with enqueued := enqueued }

def skippedMessage : CollectedMessage 1 := sentToGroup false "hello" (.replied ())

def mentioningMessage (enqueued : AgentsReply Unit) : CollectedMessage 1 :=
  sentToGroup true "bot?" enqueued

end Sample

namespace GroupContexts

/-- A message is skipped, and the next one mentions the bot and brings it to the agent. -/
theorem delivers_once_hello :
    ∃ x, x = empty.after Sample.channels Sample.skippedMessage ∧
      (Sample.mentioningMessage (.replied ())).mentions = true ∧
      x.store.buffered "chat:7" ≠ [] ∧
      DeliversContext Sample.channels x (Sample.mentioningMessage (.replied ())) ∧
      (x.after Sample.channels (Sample.mentioningMessage (.replied ()))).Once := by
  have hskipped : InTurn Sample.channels empty Sample.skippedMessage := by decide +kernel
  have hmentioned : InTurn Sample.channels (empty.after Sample.channels Sample.skippedMessage)
      (Sample.mentioningMessage (.replied ())) := by decide +kernel
  have hreachable : (life Sample.channels).ReachableUnder (InTurn Sample.channels)
      (empty.after Sample.channels Sample.skippedMessage) :=
    Machine.ReachableUnder.step (Machine.ReachableUnder.init rfl) hskipped rfl
  exact ⟨_, rfl, by decide +kernel, by decide +kernel, delivers_once hreachable hmentioned⟩

/-- The agent is not ready, and the context that the message took is gone. -/
theorem context_lost_when_refused :
    ∃ x, (life Sample.channels).Reachable x ∧
      ∃ l : CollectedMessage 1, ¬ DeliversContext Sample.channels x l := by
  refine ⟨empty.after Sample.channels Sample.skippedMessage,
    Machine.ReachableUnder.step (Machine.ReachableUnder.init rfl) trivial rfl,
    Sample.mentioningMessage (.failed "not ready"), ?_⟩
  intro h
  have hkept := h.kept (by decide +kernel) (by decide +kernel)
  revert hkept
  decide +kernel

end GroupContexts

end Anyclaw
