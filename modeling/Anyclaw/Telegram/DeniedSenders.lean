import Anyclaw.Library.Erasure
import Anyclaw.Telegram.Permissions
import Anyclaw.Telegram.ReplyContext

/-!
# Denied senders have no influence

Two runs that differ in the actions of denied senders only send the same commands to the
agents manager: their messages are dropped by the access control of the manager.  Their
button presses are dropped by nobody; they have no influence as long as they answer no
request that is pending.

Messages go through `collect_send_message` (`crates/anyclaw-channels/src/manager.rs`), presses
through `handle_callback_query` (`ext/channels/telegram/src/dispatcher.rs`).
-/

namespace Anyclaw

variable {c : Nat}

/-! ### Who is denied -/

def AccessDecision.denies : AccessDecision → Bool
  | .deny _ => true
  | _ => false

def ChatType.isGroup (chatType : ChatType) : Bool := chatType == .group || chatType == .supergroup

def TelegramUser.senderIdentity (sender : Option TelegramUser) : SenderIdentity where
  userId := (sender.map TelegramUser.idString).bind readInt64
  username := sender.bind TelegramUser.username

/-- Access control denies the user in the chat, whether the bot is mentioned or not. -/
def deniedIn (options : ChannelOptions) (chatId : Int64) (chatType : ChatType)
    (user : Option TelegramUser) : Bool :=
  options.accessControl.any fun cfg =>
    (evaluateAccess cfg chatId (TelegramUser.senderIdentity user) chatType.isGroup false).denies

def TelegramMessage.denied (options : ChannelOptions) (m : TelegramMessage) : Bool :=
  deniedIn options m.chatId m.chatType m.sender

def CallbackQuery.denied (options : ChannelOptions) (q : CallbackQuery) : Bool :=
  deniedIn options q.chatId q.chatType (some q.sender)

def SentMessage.denied (options : ChannelOptions) (m : SentMessage) : Bool :=
  options.accessControl.any fun cfg => (m.decision cfg).denies

theorem denies_iff {d : AccessDecision} : d.denies = true ↔ ∃ reason, d = .deny reason := by
  cases d with
  | deny reason => exact iff_of_true rfl ⟨reason, rfl⟩
  | allow => exact iff_of_false (fun h => (nomatch h)) (fun ⟨_, h⟩ => (nomatch h))
  | skipNoMention => exact iff_of_false (fun h => (nomatch h)) (fun ⟨_, h⟩ => (nomatch h))

/-- The manager denies exactly the messages of the denied. -/
theorem denied_toSent {m : TelegramMessage} {sent : SentMessage} (options : ChannelOptions)
    (h : m.toSent = some sent) : sent.denied options = m.denied options := by
  have hgroup : sent.isGroup = m.chatType.isGroup := by
    unfold TelegramMessage.toSent at h
    split at h
    · cases h
    · cases h
      unfold SentMessage.isGroup peerInfoFromChat
      cases m.chatType <;> rfl
  have hsender : sent.sender = TelegramUser.senderIdentity m.sender := by
    unfold TelegramMessage.toSent at h
    split at h
    · cases h
    · cases h
      unfold SentMessage.sender TelegramMessage.senderInfoFromMessage
      cases m.sender <;> rfl
  have hdecision : ∀ cfg, (sent.decision cfg).denies = (evaluateAccess cfg m.chatId
      (TelegramUser.senderIdentity m.sender) m.chatType.isGroup false).denies := by
    intro cfg
    unfold SentMessage.decision
    rw [TelegramMessage.toSent_chatId h, hgroup, hsender, Bool.eq_iff_iff, denies_iff, denies_iff]
    exact exists_congr fun reason => denied_iff cfg m.chatId _ _ _ _ reason
  unfold SentMessage.denied TelegramMessage.denied deniedIn
  congr 1
  funext cfg
  exact hdecision cfg

theorem filter_toSent (options : ChannelOptions) (m : TelegramMessage) :
    m.toSent.toList.filter (fun sent => !sent.denied options) =
      if m.denied options then [] else m.toSent.toList := by
  have hsent : ∀ sent ∈ m.toSent.toList, sent.denied options = m.denied options := by
    intro sent hsent
    exact denied_toSent options (Option.mem_toList.mp hsent)
  split
  · rename_i hdenied
    rw [List.filter_eq_nil_iff]
    intro sent hmem
    rw [hsent sent hmem, hdenied]
    simp
  · rename_i hdenied
    rw [List.filter_eq_self]
    intro sent hmem
    rw [hsent sent hmem, Bool.eq_false_iff.mpr hdenied]
    rfl

theorem filter_pressed (options : ChannelOptions) (q : CallbackQuery) :
    q.pressed.filter (fun r => !r.2.denied options) =
      if q.denied options then [] else q.pressed := by
  have hpressed : ∀ r ∈ q.pressed, r.2 = q := by
    intro r hr
    obtain ⟨response, -, rfl⟩ := Option.map_eq_some_iff.mp (Option.mem_toList.mp hr)
    rfl
  split
  · rename_i hdenied
    rw [List.filter_eq_nil_iff]
    intro r hr
    rw [hpressed r hr, hdenied]
    simp
  · rename_i hdenied
    rw [List.filter_eq_self]
    intro r hr
    rw [hpressed r hr, Bool.eq_false_iff.mpr hdenied]
    rfl

/-- Nothing is left of a denied message. -/
theorem admit_of_denied {options : ChannelOptions} {m : SentMessage} (h : m.denied options = true)
    (store : ContextStore) (sa : StoreAnswers) : admitMessage options store m sa = (none, store) := by
  unfold SentMessage.denied at h
  unfold admitMessage
  cases haccess : options.accessControl with
  | none =>
      rw [haccess] at h
      cases h
  | some cfg =>
      rw [haccess, Option.any_some] at h
      obtain ⟨reason, hreason⟩ := denies_iff.mp h
      dsimp only
      rw [hreason]

namespace ChannelsManager

def commands (ch : ChannelsManager c) : List AgentsCommand :=
  ch.trace.filterMap fun o =>
    match o with
    | .command command => some command
    | _ => none

theorem collectSentMessage_of_denied {cfg : ChannelsManagerConfig c} {ch : ChannelsManager c}
    {options : ChannelOptions} {m : SentMessage} (h : m.denied options = true)
    (store : ContextStore) (s : Fin c) (sa : StoreAnswers) (a : ChannelAnswers) :
    collectSentMessage cfg ch options store s m sa a = (ch, store) := by
  unfold collectSentMessage
  rw [admit_of_denied h]
  rfl

end ChannelsManager

namespace TelegramInbox

variable (cfg : ChannelsManagerConfig c) (options : Fin c → ChannelOptions) (t : Fin c)
  (x : TelegramInbox c)

/-! ### The actions of the denied -/

/-- The label is an action of a denied user, or a step in which one is taken up. -/
def ByDenied : TelegramLabel c → Bool
  | .message m => m.denied (options t)
  | .callbackQuery q => q.denied (options t)
  | .flushPermission => x.responses.head?.any fun r => r.2.denied (options t)
  | .respond j => x.written[j]?.any fun p => p.query.denied (options t)
  | .collect _ _ => x.queue.head?.any fun m => m.denied (options t)
  | .showPermissionPrompt => false
  | .channels _ => false

/-- The process does not take up a press of a denied user while the request that it names is
    pending. -/
def NoDeniedAnswer : TelegramLabel c → Prop
  | .flushPermission => ∀ r ∈ x.responses.head?, r.2.denied (options t) = true →
      x.pendingPermissions.get? r.1.requestId = none
  | _ => True

instance : DecidablePred (x.NoDeniedAnswer options t) := by
  intro l
  unfold NoDeniedAnswer
  split <;> infer_instance

/-- The state without what the denied have put there. -/
def withoutDenied : TelegramInbox c :=
  { x with
    queue := x.queue.filter fun m => !m.denied (options t)
    responses := x.responses.filter fun r => !r.2.denied (options t) }

section Steps

variable {cfg options t x} {x' : TelegramInbox c} {l : TelegramLabel c}

/-- No press of a denied user is answered with. -/
theorem written_not_denied
    (h : (life cfg options t).ReachableUnder (fun x l => NoDeniedAnswer options t x l) x) :
    ∀ p ∈ x.written, p.query.denied (options t) = false := by
  refine h.invariant (I := fun x => ∀ p ∈ x.written, p.query.denied (options t) = false) ?_ ?_
  · rintro x ⟨ch, contexts, -, rfl⟩ p hp
    cases hp
  · intro x l x' _ hx hguard hstep p hp
    cases l with
    | message m | callbackQuery q =>
        obtain ⟨-, heq⟩ := Option.ite_none_right_eq_some.mp hstep
        cases heq
        exact hx p hp
    | showPermissionPrompt =>
        obtain ⟨-, hshow⟩ := Option.ite_none_right_eq_some.mp hstep
        unfold showPermissionPrompt at hshow
        split at hshow
        · cases hshow
        · cases hshow
          exact hx p hp
    | flushPermission =>
        obtain ⟨-, hflush⟩ := Option.ite_none_right_eq_some.mp hstep
        unfold flushPermission at hflush
        split at hflush
        · cases hflush
        · rename_i response q rest hresponses
          split at hflush
          · cases hflush
            exact hx p hp
          · rename_i w hpending
            cases hflush
            rcases List.mem_append.mp hp with hold | hnew
            · exact hx p hold
            · cases List.mem_singleton.mp hnew
              rw [← Bool.not_eq_true]
              intro hdenied
              have hnone := hguard (response, q) (by rw [hresponses]; rfl) hdenied
              rw [hpending] at hnone
              cases hnone
    | respond j =>
        have hrespond : respond cfg x j = some x' := hstep
        unfold respond at hrespond
        split at hrespond
        · cases hrespond
        · split at hrespond
          · cases hrespond
            exact hx p (List.mem_of_mem_eraseIdx hp)
          · obtain ⟨manager, -, rfl⟩ := Option.map_eq_some_iff.mp hrespond
            exact hx p (List.mem_of_mem_eraseIdx hp)
    | collect sa a =>
        have hcollect : collect cfg options t x sa a = some x' := hstep
        unfold collect at hcollect
        split at hcollect
        · cases hcollect
        · obtain ⟨-, heq⟩ := Option.ite_none_right_eq_some.mp hcollect
          cases heq
          exact hx p hp
    | channels l =>
        obtain ⟨-, hmap⟩ := Option.ite_none_right_eq_some.mp hstep
        obtain ⟨y, -, rfl⟩ := Option.map_eq_some_iff.mp hmap
        unfold afterChannels at hp
        split at hp
        · cases hp
        · exact hx p hp

/-! ### One step -/

/-- A step of a denied user changes nothing else. -/
theorem withoutDenied_of_byDenied (hguard : x.NoDeniedAnswer options t l)
    (hwritten : ∀ p ∈ x.written, p.query.denied (options t) = false)
    (hdenied : x.ByDenied options t l = true) (h : step cfg options t x l = some x') :
    x'.withoutDenied options t = x.withoutDenied options t := by
  cases l with
  | message m =>
      obtain ⟨-, heq⟩ := Option.ite_none_right_eq_some.mp h
      cases heq
      have hm : m.denied (options t) = true := hdenied
      unfold withoutDenied handleTextMessage
      dsimp only
      rw [List.filter_append, filter_toSent, if_pos hm, List.append_nil]
  | callbackQuery q =>
      obtain ⟨-, heq⟩ := Option.ite_none_right_eq_some.mp h
      cases heq
      have hq : q.denied (options t) = true := hdenied
      unfold withoutDenied handleCallbackQuery
      dsimp only
      rw [List.filter_append, filter_pressed, if_pos hq, List.append_nil]
  | flushPermission =>
      obtain ⟨-, hflush⟩ := Option.ite_none_right_eq_some.mp h
      unfold flushPermission at hflush
      unfold ByDenied at hdenied
      split at hflush
      · cases hflush
      · rename_i response q rest hresponses
        rw [hresponses] at hdenied
        have hq : q.denied (options t) = true := hdenied
        rw [hguard (response, q) (by rw [hresponses]; rfl) hq] at hflush
        cases hflush
        unfold withoutDenied
        dsimp only
        rw [hresponses, List.filter_cons_of_neg (by simp [hq])]
  | respond j =>
      unfold ByDenied at hdenied
      dsimp only at hdenied
      cases hj : x.written[j]? with
      | none =>
          rw [hj] at hdenied
          cases hdenied
      | some p =>
          rw [hj, Option.any_some, hwritten p (List.mem_of_getElem? hj)] at hdenied
          cases hdenied
  | collect sa a =>
      have hcollect : collect cfg options t x sa a = some x' := h
      unfold collect at hcollect
      unfold ByDenied at hdenied
      split at hcollect
      · cases hcollect
      · rename_i m rest hqueue
        obtain ⟨-, heq⟩ := Option.ite_none_right_eq_some.mp hcollect
        rw [hqueue] at hdenied
        have hm : m.denied (options t) = true := hdenied
        rw [ChannelsManager.collectSentMessage_of_denied hm] at heq
        cases heq
        unfold withoutDenied
        dsimp only
        rw [hqueue, List.filter_cons_of_neg (by simp [hm])]
  | showPermissionPrompt => cases hdenied
  | channels l => cases hdenied

/-- Any other step does not depend on the denied. -/
theorem step_withoutDenied (hdenied : ¬ x.ByDenied options t l = true)
    (h : step cfg options t x l = some x') :
    step cfg options t (x.withoutDenied options t) l = some (x'.withoutDenied options t) := by
  cases l with
  | message m =>
      obtain ⟨halive, heq⟩ := Option.ite_none_right_eq_some.mp h
      cases heq
      refine Option.ite_none_right_eq_some.mpr ⟨halive, ?_⟩
      have hm : ¬ m.denied (options t) = true := hdenied
      unfold withoutDenied handleTextMessage
      dsimp only
      rw [List.filter_append, filter_toSent, if_neg hm]
  | callbackQuery q =>
      obtain ⟨halive, heq⟩ := Option.ite_none_right_eq_some.mp h
      cases heq
      refine Option.ite_none_right_eq_some.mpr ⟨halive, ?_⟩
      have hq : ¬ q.denied (options t) = true := hdenied
      unfold withoutDenied handleCallbackQuery
      dsimp only
      rw [List.filter_append, filter_pressed, if_neg hq]
  | showPermissionPrompt =>
      obtain ⟨halive, hshow⟩ := Option.ite_none_right_eq_some.mp h
      refine Option.ite_none_right_eq_some.mpr ⟨halive, ?_⟩
      unfold showPermissionPrompt at hshow ⊢
      cases hrequests : x.requests with
      | nil =>
          rw [hrequests] at hshow
          cases hshow
      | cons w rest =>
          rw [hrequests] at hshow
          cases hshow
          unfold withoutDenied
          dsimp only
          rw [hrequests]
  | flushPermission =>
      obtain ⟨halive, hflush⟩ := Option.ite_none_right_eq_some.mp h
      refine Option.ite_none_right_eq_some.mpr ⟨halive, ?_⟩
      unfold ByDenied at hdenied
      unfold flushPermission at hflush ⊢
      cases hresponses : x.responses with
      | nil =>
          rw [hresponses] at hflush
          cases hflush
      | cons r rest =>
          obtain ⟨response, q⟩ := r
          rw [hresponses] at hflush hdenied
          have hq : q.denied (options t) = false := Bool.eq_false_iff.mpr hdenied
          have hhead : (x.withoutDenied options t).responses =
              (response, q) :: rest.filter fun r => !r.2.denied (options t) := by
            unfold withoutDenied
            dsimp only
            rw [hresponses, List.filter_cons_of_pos (by simp [hq])]
          rw [hhead]
          dsimp only at hflush ⊢
          cases hpending : x.pendingPermissions.get? response.requestId with
          | none =>
              rw [hpending] at hflush
              cases hflush
              have hpending' : (x.withoutDenied options t).pendingPermissions.get?
                  response.requestId = none := hpending
              rw [hpending']
              rfl
          | some w =>
              rw [hpending] at hflush
              cases hflush
              have hpending' : (x.withoutDenied options t).pendingPermissions.get?
                  response.requestId = some w := hpending
              rw [hpending']
              rfl
  | respond j =>
      have hrespond : respond cfg x j = some x' := h
      have hgoal : respond cfg (x.withoutDenied options t) j =
          some (x'.withoutDenied options t) := by
        unfold respond at hrespond ⊢
        unfold withoutDenied
        dsimp only
        split at hrespond
        · cases hrespond
        · split at hrespond
          · cases hrespond
            rfl
          · obtain ⟨manager, hmanager, rfl⟩ := Option.map_eq_some_iff.mp hrespond
            rw [hmanager]
            rfl
      exact hgoal
  | collect sa a =>
      have hcollect : collect cfg options t x sa a = some x' := h
      have hgoal : collect cfg options t (x.withoutDenied options t) sa a =
          some (x'.withoutDenied options t) := by
        unfold ByDenied at hdenied
        unfold collect at hcollect ⊢
        cases hqueue : x.queue with
        | nil =>
            rw [hqueue] at hcollect
            cases hcollect
        | cons m rest =>
            rw [hqueue] at hcollect hdenied
            have hm : m.denied (options t) = false := Bool.eq_false_iff.mpr hdenied
            have hhead : (x.withoutDenied options t).queue =
                m :: rest.filter fun m => !m.denied (options t) := by
              unfold withoutDenied
              dsimp only
              rw [hqueue, List.filter_cons_of_pos (by simp [hm])]
            obtain ⟨hidle, heq⟩ := Option.ite_none_right_eq_some.mp hcollect
            cases heq
            rw [hhead]
            exact Option.ite_none_right_eq_some.mpr ⟨hidle, rfl⟩
      exact hgoal
  | channels l =>
      obtain ⟨helsewhere, hmap⟩ := Option.ite_none_right_eq_some.mp h
      obtain ⟨y, hy, rfl⟩ := Option.map_eq_some_iff.mp hmap
      have helsewhere' : (x.withoutDenied options t).Elsewhere t l := by
        unfold Elsewhere at helsewhere ⊢
        split
        · exact helsewhere
        · exact helsewhere
        · intro hs
          unfold withoutDenied
          dsimp only
          rw [helsewhere hs]
          rfl
        · exact helsewhere
        · trivial
      refine Option.ite_none_right_eq_some.mpr ⟨helsewhere', ?_⟩
      refine Option.map_eq_some_iff.mpr ⟨y, hy, ?_⟩
      unfold afterChannels
      split
      · rfl
      · rfl

/-! ### Runs -/

variable (cfg options t) in
theorem erases_withoutDenied :
    Machine.Erases (life cfg options t) (fun x l => NoDeniedAnswer options t x l)
      (fun x l => ByDenied options t x l = true) (withoutDenied options t) where
  of_hidden := by
    intro x l x' hreach hguard hdenied hstep
    exact withoutDenied_of_byDenied hguard (written_not_denied hreach) hdenied hstep
  of_shown := by
    intro x l x' _ _ hdenied hstep
    exact step_withoutDenied hdenied hstep

/-- **Denied senders have no influence**, in two runs that differ in their actions only and in
    which no press of theirs answers a pending request: the same commands reach the agents
    manager, and the same context is buffered. -/
theorem commands_eq_of_visible_eq {x₀ : TelegramInbox c} (hinit : (life cfg options t).init x₀)
    {x y : List (Machine.Taken (TelegramInbox c) (TelegramLabel c)) × TelegramInbox c}
    (hx : (life cfg options t).recorded.RunUnder (fun x l => NoDeniedAnswer options t x.2 l)
      ([], x₀) x)
    (hy : (life cfg options t).recorded.RunUnder (fun x l => NoDeniedAnswer options t x.2 l)
      ([], x₀) y)
    (hvisible : Machine.visible (fun x l => ByDenied options t x l = true) x.1 =
      Machine.visible (fun x l => ByDenied options t x l = true) y.1) :
    x.2.manager.commands = y.2.manager.commands ∧ x.2.contexts = y.2.contexts := by
  have hsame : x.2.withoutDenied options t = y.2.withoutDenied options t :=
    (erases_withoutDenied cfg options t).agree hinit hx hy hvisible
  have hmanager : (x.2.withoutDenied options t).manager = y.2.manager := by
    rw [hsame]
    rfl
  have hcontexts : (x.2.withoutDenied options t).contexts = y.2.contexts := by
    rw [hsame]
    rfl
  exact ⟨congrArg ChannelsManager.commands hmanager, hcontexts⟩

end Steps

end TelegramInbox

/-! ### Samples -/

namespace Sample

/-- The channel of slot 0 lets `alice` write in groups. -/
def aliceOptions : Fin 1 → ChannelOptions := fun _ => ⟨some aliceOnly, 50⟩

def groupMessage (sender : TelegramUser) : TelegramMessage where
  chatId := -100
  chatType := .group
  sender := some sender
  body := .text "hello"
  reply := none
  quote := none
  threadId := none
  mentioned := false

def press (sender : TelegramUser) (data : String) : TelegramLabel 1 :=
  .callbackQuery ⟨sender, -100, .group, some data⟩

/-- A user writes in the group, and the run loop takes the message. -/
def writeInGroup (sender : TelegramUser) : List (TelegramLabel 1) :=
  [.message (groupMessage sender), .collect storeAnswers (channelAnswers "s")]

/-- `alice` writes, and the agent asks for a permission, which is shown in the group. -/
def promptInGroup : List (TelegramLabel 1) :=
  .channels (.channels (.start fun _ => channelAnswers "s")) ::
    (writeInGroup ⟨1, some "alice", "Alice"⟩ ++
      [.channels (.channels (.recvEvent 0
          (.routePermission (SessionKey.new "telegram" "group" "telegram:-100") "7"
            "run a command" [⟨"allow", "Allow"⟩]) (channelAnswers "s"))),
        .showPermissionPrompt])

def eve : TelegramUser := ⟨2, some "eve", "Eve"⟩

end Sample

namespace TelegramInbox

/-- `eve` writes in the group, and presses a button of a request that is not pending. -/
theorem commands_eq_of_visible_eq_eve :
    ∃ x y : List (Machine.Taken (TelegramInbox 1) (TelegramLabel 1)) × TelegramInbox 1,
      x.1.length + 4 = y.1.length ∧ y.2.manager.commands.length = 2 ∧
        x.2.manager.commands = y.2.manager.commands ∧ x.2.contexts = y.2.contexts := by
  have hrun : ∃ x ∈ (life Sample.channels Sample.aliceOptions 0).recorded.run
      (fun x l => NoDeniedAnswer Sample.aliceOptions 0 x.2 l)
      ([], fresh (ChannelsManager.fresh Sample.channels true) .empty) Sample.promptInGroup,
      ∃ y ∈ (life Sample.channels Sample.aliceOptions 0).recorded.run
        (fun x l => NoDeniedAnswer Sample.aliceOptions 0 x.2 l) x
        (Sample.writeInGroup Sample.eve ++ [Sample.press Sample.eve "8:allow", .flushPermission]),
        x.1.length + 4 = y.1.length ∧ y.2.manager.commands.length = 2 ∧
          ∀ t ∈ y.1.drop x.1.length,
            ByDenied Sample.aliceOptions 0 t.before t.label = true := by
    decide
  obtain ⟨x, hx, y, hy, htaken, hcommands, hhidden⟩ := hrun
  have hrunX := Machine.runUnder_of_run _ _ hx
  have hrunXY := Machine.runUnder_of_run _ _ hy
  refine ⟨x, y, htaken, hcommands, ?_⟩
  exact commands_eq_of_visible_eq ⟨_, _, ⟨true, rfl⟩, rfl⟩ hrunX (hrunX.trans hrunXY)
    (Machine.visible_eq_of_hidden hrunXY hhidden).symm

/-- `eve` presses a button of the request that is shown to `alice`, and thereby allows it. -/
theorem denied_press_answers :
    ¬ ∀ (c : Nat) (cfg : ChannelsManagerConfig c) (options : Fin c → ChannelOptions) (t : Fin c)
        (x₀ : TelegramInbox c)
        (x y : List (Machine.Taken (TelegramInbox c) (TelegramLabel c)) × TelegramInbox c),
      (life cfg options t).init x₀ →
      (life cfg options t).recorded.RunUnder (fun _ _ => True) ([], x₀) x →
      (life cfg options t).recorded.RunUnder (fun _ _ => True) ([], x₀) y →
      Machine.visible (fun x l => ByDenied options t x l = true) x.1 =
        Machine.visible (fun x l => ByDenied options t x l = true) y.1 →
      x.2.manager.commands = y.2.manager.commands ∧ x.2.contexts = y.2.contexts := by
  intro hall
  have hrun : ∃ x ∈ (life Sample.channels Sample.aliceOptions 0).recorded.run (fun _ _ => True)
      ([], fresh (ChannelsManager.fresh Sample.channels true) .empty) Sample.promptInGroup,
      ∃ y ∈ (life Sample.channels Sample.aliceOptions 0).recorded.run (fun _ _ => True) x
        [Sample.press Sample.eve "7:allow", .flushPermission, .respond 0],
        x.2.manager.commands.length = 2 ∧ y.2.manager.commands.length = 3 ∧
          ∀ t ∈ y.1.drop x.1.length,
            ByDenied Sample.aliceOptions 0 t.before t.label = true := by
    decide
  obtain ⟨x, hx, y, hy, hbefore, hafter, hhidden⟩ := hrun
  have hrunX := Machine.runUnder_of_run _ _ hx
  have hrunXY := Machine.runUnder_of_run _ _ hy
  have hsame := hall 1 Sample.channels Sample.aliceOptions 0 _ x y ⟨_, _, ⟨true, rfl⟩, rfl⟩ hrunX
    (hrunX.trans hrunXY) (Machine.visible_eq_of_hidden hrunXY hhidden).symm
  rw [hsame.1, hafter] at hbefore
  cases hbefore

end TelegramInbox

end Anyclaw
