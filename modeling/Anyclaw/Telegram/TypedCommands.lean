import Anyclaw.Agents.ExecutedCommands
import Anyclaw.Channels.Emissions
import Anyclaw.Channels.GroupContext
import Anyclaw.Telegram.Dispatcher

/-!
# Commands that users type

A command is recognised in the content that reaches the agents manager, not in what the user
has typed.  The channel may put a photo before the text and the channels manager the context
of the group; then the content has two parts, and the command goes to the agent as a prompt.

The content is made by `handle_text_message` (`ext/channels/telegram/src/dispatcher.rs`) and
`collect_send_message` (`crates/anyclaw-channels/src/manager.rs`); `extract_command_text`
(`crates/anyclaw-agents/src/commands.rs`) looks for the command.
-/

namespace Anyclaw

variable {n c : Nat}

/-! ### Messages of users -/

/-- The text of a message, or the caption of its medium. -/
def TelegramMessage.userText (m : TelegramMessage) : Option String :=
  match m.body with
  | .text text => some text
  | .media _ caption _ => caption
  | .other => none

theorem TelegramMessage.ownContent_ne_nil {body : TelegramBody} (h : body ≠ .other) :
    ownContent body ≠ [] := by
  unfold ownContent
  split
  · exact List.cons_ne_nil _ _
  · split
    · exact List.cons_ne_nil _ _
    · split <;> exact List.cons_ne_nil _ _
  · exact absurd rfl h

/-- `handle_message` of the debug channel. -/
def debugHttpSent (message : String) : SentMessage where
  peerInfo := { channelName := "debug-http", peerId := "local", kind := "local" }
  content := [.text message]
  metadata := none
  senderInfo := none
  wasMentioned := none

inductive TypedMessage where
  | telegram (m : TelegramMessage)
  | debugHttp (message : String)

namespace TypedMessage

def userText : TypedMessage → Option String
  | telegram m => m.userText
  | debugHttp message => some message

def toSent : TypedMessage → Option SentMessage
  | telegram m => m.toSent
  | debugHttp message => some (debugHttpSent message)

/-- The channel sends the text and nothing else. -/
def Bare : TypedMessage → Prop
  | telegram m => m.replyPhoto = none ∧ ∃ text, m.body = .text text
  | debugHttp _ => True

variable {typed : TypedMessage} {sent : SentMessage} {command : PlatformCommand}

theorem content_ne_nil (hsent : typed.toSent = some sent) : sent.content ≠ [] := by
  cases typed with
  | telegram m =>
      obtain ⟨hbody, heq⟩ := Option.ite_none_left_eq_some.mp hsent
      cases heq
      exact List.append_ne_nil_of_right_ne_nil _ (TelegramMessage.ownContent_ne_nil hbody)
  | debugHttp message =>
      cases hsent
      exact List.cons_ne_nil _ _

/-- A bare command is recognised. -/
theorem platformCommandOf_sent (hsent : typed.toSent = some sent)
    (htyped : typed.userText.bind matchPlatformCommand = some command) (hbare : typed.Bare) :
    platformCommandOf sent.content = some command := by
  cases typed with
  | telegram m =>
      obtain ⟨hphoto, text, hbody⟩ := hbare
      obtain ⟨-, heq⟩ := Option.ite_none_left_eq_some.mp hsent
      cases heq
      have htext : matchPlatformCommand text = some command := by
        simpa [userText, TelegramMessage.userText, hbody] using htyped
      dsimp only
      rw [hphoto, hbody]
      exact htext
  | debugHttp message =>
      cases hsent
      exact htyped

theorem isPlain_of_two (x y : ContentPart) (rest : List ContentPart) :
    IsPlain (x :: y :: rest) := by
  cases x <;> rfl

/-- The caption of a medium stands behind the label of the medium. -/
theorem isPlain_label (media : TelegramMedia) (caption : String) :
    IsPlain [.text ("[" ++ media.label ++ "] " ++ caption)] := by
  have hhead : ("[" ++ media.label ++ "] " ++ caption).toList =
      '[' :: (media.label ++ "] " ++ caption).toList := by
    simp [String.toList_append]
  change matchPlatformCommand ("[" ++ media.label ++ "] " ++ caption) = none
  unfold matchPlatformCommand
  rw [hhead, List.takeWhile_cons_of_pos (by decide)]
  rfl

/-- Nothing else is recognised, whatever the user has typed. -/
theorem isPlain_sent (hsent : typed.toSent = some sent) (htyped : typed.userText.isSome)
    (hbare : ¬ typed.Bare) : IsPlain sent.content := by
  cases typed with
  | telegram m =>
      obtain ⟨hbody, heq⟩ := Option.ite_none_left_eq_some.mp hsent
      cases heq
      dsimp only
      cases hphoto : m.replyPhoto with
      | some url =>
          -- the photo of the other message comes first
          obtain ⟨x, rest, hx⟩ := List.exists_cons_of_ne_nil
            (TelegramMessage.ownContent_ne_nil hbody)
          rw [hx]
          exact isPlain_of_two _ _ _
      | none =>
          cases hkind : m.body with
          | text text => exact absurd ⟨hphoto, text, hkind⟩ hbare
          | other =>
              exact absurd hkind hbody
          | media media caption image =>
              obtain ⟨text, rfl⟩ : ∃ text, caption = some text := by
                simpa [userText, TelegramMessage.userText, hkind, Option.isSome_iff_exists]
                  using htyped
              change IsPlain (TelegramMessage.ownContent (.media media (some text) image))
              unfold TelegramMessage.ownContent
              dsimp only
              split
              · exact isPlain_of_two _ _ _
              · exact isPlain_label media text
  | debugHttp message => exact absurd trivial hbare

end TypedMessage

/-! ### From the channels manager to the agents manager -/

namespace CollectedMessage

variable (cfg : ChannelsManagerConfig c) (l : CollectedMessage c) (store : ContextStore)

/-- The context of the group that is put before the message. -/
def broughtContext : List ContextMessage :=
  if l.options.accessControl.isSome then (takenContext store l.message l.store).1 else []

/-- The command that the message becomes when `content` and `metadata` are left of it. -/
def enqueues (content : List ContentPart) (metadata : Option MessageMetadata) : AgentsCommand :=
  .enqueueMessage (cfg.channels l.slot).agent l.sessionKey content metadata

def emitted : List (ChannelOutput c) :=
  (ChannelsManager.collectSentMessage cfg l.manager l.options store l.slot l.message l.store
    l.answers).1.trace.drop l.manager.trace.length

/-- The message has a session, and the agents manager takes its command. -/
def Arrives : Prop := l.handedOver cfg = true ∧ l.answers.enqueued ≠ .unsent

instance : Decidable (l.Arrives cfg) := inferInstanceAs (Decidable (_ ∧ _))

variable {cfg l store} {content : List ContentPart} {metadata : Option MessageMetadata}

/-- The context comes first, when there is one. -/
theorem admitted_content
    (h : (admitMessage l.options store l.message l.store).1 = some (content, metadata)) :
    content = withContext (l.broughtContext store) l.message.content := by
  unfold broughtContext
  unfold admitMessage at h
  cases haccess : l.options.accessControl with
  | none =>
      rw [haccess] at h
      cases h
      rfl
  | some access =>
      rw [haccess] at h
      dsimp only at h
      split at h
      · cases h
      · cases h
      · cases h
        rfl

/-- The session is ensured without asking for the message. -/
theorem ensured_emits (cfg : ChannelsManagerConfig c) (l : CollectedMessage c)
    (content : List ContentPart) (metadata : Option MessageMetadata) :
    ChannelsManager.Emits (fun o => o ≠ .command (l.enqueues cfg content metadata)) l.manager
      (l.ensured cfg).2 := by
  refine ChannelsManager.ensureSessionCreated_emits l.manager l.slot l.sessionKey
    l.message.peerInfo l.answers ?_ ?_
  · intro h
    cases h
  · intro no message h
    cases h

/-- The command comes first of what is emitted when the agents manager takes it. -/
theorem enqueueToAgent_trace (ch : ChannelsManager c) (k : SessionKey)
    (content : List ContentPart) (metadata : Option MessageMetadata) (name : String)
    (a : ChannelAnswers) (h : a.enqueued ≠ .unsent) : ∃ os,
    (ch.enqueueToAgent k content metadata name a).trace =
      ch.trace ++ .command (.enqueueMessage name k content metadata) :: os := by
  unfold ChannelsManager.enqueueToAgent
  dsimp only
  split
  · rename_i hunsent
    exact absurd hunsent h
  · split
    · rename_i entry hget
      obtain ⟨os, htrace, -⟩ := ChannelsManager.write_emits (P := fun _ => True)
        (ch.emit (.command (.enqueueMessage name k content metadata))) entry.slotIndex a.sent
        (.deliverMessage entry.acpSessionId (.errorResult _)) fun _ => trivial
      exact ⟨os, htrace.trans (List.append_cons _ _ _).symm⟩
    · exact ⟨[], rfl⟩
  · exact ⟨[], rfl⟩

theorem collectSendMessage_of_not (h : l.handedOver cfg = false)
    (admitted : Option (List ContentPart × Option MessageMetadata)) :
    ChannelsManager.collectSendMessage cfg l.manager l.slot l.message.toChannelSendMessage
        { l.answers with admitted := admitted } = l.manager ∨
      ChannelsManager.collectSendMessage cfg l.manager l.slot l.message.toChannelSendMessage
        { l.answers with admitted := admitted } = (l.ensured cfg).2 := by
  have hensured : ChannelsManager.ensureSessionCreated cfg l.manager l.slot
      (ChannelsManager.buildSessionKey l.message.toChannelSendMessage)
      l.message.peerInfo { l.answers with admitted := admitted } = l.ensured cfg := rfl
  unfold handedOver at h
  unfold ChannelsManager.collectSendMessage
  dsimp only
  split
  · exact Or.inl rfl
  · rw [hensured]
    split
    · rename_i hhandle
      rw [hhandle, Bool.true_and] at h
      rcases hpair : l.ensured cfg with ⟨_ | _, ch⟩
      · exact Or.inr rfl
      · rw [hpair] at h
        cases h
    · exact Or.inl rfl

/-- What is left of a message goes to the agents manager exactly when it arrives. -/
theorem enqueues_mem_emitted
    (h : (admitMessage l.options store l.message l.store).1 = some (content, metadata)) :
    .command (l.enqueues cfg content metadata) ∈ l.emitted cfg store ↔ l.Arrives cfg := by
  have hcollected : (ChannelsManager.collectSentMessage cfg l.manager l.options store l.slot
      l.message l.store l.answers).1 =
        ChannelsManager.collectSendMessage cfg l.manager l.slot l.message.toChannelSendMessage
          { l.answers with admitted := some (content, metadata) } := by
    rw [← h]
    rfl
  have hensured := ensured_emits cfg l content metadata
  unfold emitted Arrives
  rw [hcollected]
  cases hover : l.handedOver cfg with
  | false =>
      refine iff_of_false (fun hmem => ?_) (fun harrives => (nomatch harrives.1))
      rcases collectSendMessage_of_not hover (some (content, metadata)) with hsame | hpassed
      · rw [hsame] at hmem
        exact (ChannelsManager.Emits.refl (P := fun o =>
          o ≠ .command (l.enqueues cfg content metadata)) l.manager).of_mem_drop hmem rfl
      · rw [hpassed] at hmem
        exact hensured.of_mem_drop hmem rfl
  | true =>
      rw [collectSendMessage_eq cfg l hover]
      by_cases hunsent : l.answers.enqueued = .unsent
      · refine iff_of_false (fun hmem => ?_) (fun harrives => harrives.2 hunsent)
        unfold ChannelsManager.enqueueToAgent at hmem
        rw [hunsent] at hmem
        exact hensured.of_mem_drop hmem rfl
      · refine iff_of_true ?_ ⟨rfl, hunsent⟩
        obtain ⟨os, htrace, -⟩ := hensured
        obtain ⟨os', htrace'⟩ := enqueueToAgent_trace (l.ensured cfg).2 l.sessionKey content
          metadata (cfg.channels l.slot).agent l.answers hunsent
        rw [htrace', htrace, List.append_assoc, List.drop_left]
        exact List.mem_append_right os List.mem_cons_self

end CollectedMessage

theorem isPlain_withContext {context : List ContextMessage} {content : List ContentPart}
    (hcontent : content ≠ []) (hcontext : context ≠ []) :
    IsPlain (withContext context content) := by
  obtain ⟨x, rest, rfl⟩ := List.exists_cons_of_ne_nil hcontent
  unfold withContext
  rw [if_neg (by simpa using hcontext)]
  exact TypedMessage.isPlain_of_two _ x rest

open AgentsManager in
/-- **A typed command is executed when it stands alone.**  What a user types as a command, and
    access control lets through, is handed over, executed and never forwarded exactly when
    the message arrives at a manager that has the agent, the channel sends nothing but the
    text, and no context is put before it. -/
theorem typed_command_executed {cfg : AgentsManagerConfig n} {channels : ChannelsManagerConfig c}
    {typed : TypedMessage} {command : PlatformCommand} {l : CollectedMessage c}
    {store : ContextStore} {content : List ContentPart} {metadata : Option MessageMetadata}
    {m m' : AgentsManager n} {a : Answers} (hsent : typed.toSent = some l.message)
    (htyped : typed.userText.bind matchPlatformCommand = some command)
    (hadmitted : (admitMessage l.options store l.message l.store).1 = some (content, metadata))
    (hreach : (life cfg).Reachable m)
    (hstep : (life cfg).step m (.command (l.enqueues channels content metadata) a) = some m') :
    (.command (l.enqueues channels content metadata) ∈ l.emitted channels store ∧
        Executed cfg m command (channels.channels l.slot).agent l.sessionKey a m' ∧
        NeverHanded cfg m' m.nextMessage) ↔
      l.Arrives channels ∧ (findSlotByName cfg (channels.channels l.slot).agent).isSome ∧
        typed.Bare ∧ l.broughtContext store = [] := by
  have hcontent := CollectedMessage.admitted_content hadmitted
  have htext : typed.userText.isSome := by
    cases huser : typed.userText with
    | none =>
        rw [huser] at htyped
        cases htyped
    | some text => rfl
  rw [CollectedMessage.enqueues_mem_emitted hadmitted]
  constructor
  · rintro ⟨harrives, hexecuted, -⟩
    -- a plain message would have been queued or dispatched
    have hnot : ¬ IsPlain content := fun hplain => not_executed_of_plain hplain hstep hexecuted
    have hcontext : l.broughtContext store = [] := by
      by_contra hne
      refine hnot ?_
      rw [hcontent]
      exact isPlain_withContext (TypedMessage.content_ne_nil hsent) hne
    have hown : content = l.message.content := by
      rw [hcontent, hcontext]
      rfl
    have hbare : typed.Bare := by
      by_contra hne
      refine hnot ?_
      rw [hown]
      exact TypedMessage.isPlain_sent hsent htext hne
    have hcommand : platformCommandOf content = some command := by
      rw [hown]
      exact TypedMessage.platformCommandOf_sent hsent htyped hbare
    exact ⟨harrives, (executed_iff hcommand hstep).mp hexecuted, hbare, hcontext⟩
  · rintro ⟨harrives, hagent, hbare, hcontext⟩
    have hcommand : platformCommandOf content = some command := by
      rw [hcontent, hcontext]
      exact TypedMessage.platformCommandOf_sent hsent htyped hbare
    exact ⟨harrives, (executed_iff hcommand hstep).mpr hagent,
      neverHanded_of_command hcommand hreach hstep⟩

namespace Sample

/-- A text that mentions the bot or replies to it. -/
def typed (chatType : ChatType) (text : String) : TelegramMessage :=
  ⟨-7, chatType, none, .text text, none, none, none, true⟩

/-- The message is collected under access control. -/
def collecting (message : SentMessage) : CollectedMessage 1 :=
  { sentToGroup true "" (.replied ()) with message := message }

def chatStore : ContextStore :=
  (ContextStore.empty.storeContext ⟨"telegram:-7", "alice", "hello", 0⟩ 50 true true)

end Sample

open AgentsManager in
/-- `/new` is executed in a group in which nothing is buffered. -/
theorem typed_command_executed_new :
    ∃ sent ∈ (TypedMessage.telegram (Sample.typed .group "/new@bot")).toSent, ∃ m m',
      (life Sample.cfg).Reachable m ∧
        Executed Sample.cfg m .new "a" (Sample.collecting sent).sessionKey (Sample.answers "s") m' ∧
        NeverHanded Sample.cfg m' m.nextMessage := by
  have hrun : ∃ sent ∈ (TypedMessage.telegram (Sample.typed .group "/new@bot")).toSent,
      ∃ left ∈ (admitMessage (Sample.collecting sent).options .empty sent Sample.storeAnswers).1,
        ∃ m ∈ execute Sample.cfg (fun _ _ => True) true ∅ Sample.boot [],
          ((life Sample.cfg).step m (.command ((Sample.collecting sent).enqueues Sample.channels
            left.1 left.2) (Sample.answers "s"))).isSome ∧
          (Sample.collecting sent).Arrives Sample.channels ∧
          (Sample.collecting sent).broughtContext .empty = [] := by
    decide +kernel
  obtain ⟨sent, hsent, left, hleft, m, hm, hstep, harrives, hcontext⟩ := hrun
  obtain ⟨m', hm'⟩ := Option.isSome_iff_exists.mp hstep
  have htyped : (TypedMessage.telegram (Sample.typed .group "/new@bot")).userText.bind
      matchPlatformCommand = some .new := by decide
  have hagent : (findSlotByName Sample.cfg "a").isSome := by decide
  have hreach := reachable_of_execute Sample.cfg hm
  have hexecuted := (typed_command_executed hsent htyped hleft hreach hm').mpr
    ⟨harrives, hagent, ⟨rfl, _, rfl⟩, hcontext⟩
  exact ⟨sent, hsent, m, m', hreach, hexecuted.2⟩

open AgentsManager in
/-- After one message of the group that does not mention the bot, the same text goes to the
    agent. -/
theorem new_forwarded :
    ∃ sent ∈ (TypedMessage.telegram (Sample.typed .group "/new@bot")).toSent,
      matchPlatformCommand "/new@bot" = some .new ∧
      ∃ left ∈ (admitMessage (Sample.collecting sent).options Sample.chatStore sent
          Sample.storeAnswers).1,
        .command ((Sample.collecting sent).enqueues Sample.channels left.1 left.2) ∈
          (Sample.collecting sent).emitted Sample.channels Sample.chatStore ∧
        ∃ m m', (life Sample.cfg).Reachable m ∧
          (life Sample.cfg).step m (.command ((Sample.collecting sent).enqueues Sample.channels
            left.1 left.2) (Sample.answers "s")) = some m' ∧
          ∃ e ∈ m'.trace.filterMap Output.handed, m.nextMessage ∈ e.2 := by
  have hrun : ∃ sent ∈ (TypedMessage.telegram (Sample.typed .group "/new@bot")).toSent,
      ∃ left ∈ (admitMessage (Sample.collecting sent).options Sample.chatStore sent
          Sample.storeAnswers).1,
        (Sample.collecting sent).Arrives Sample.channels ∧
        ∃ m ∈ execute Sample.cfg (fun _ _ => True) true ∅ Sample.boot
            [.command (.createSession "a" (Sample.collecting sent).sessionKey)
              (Sample.answers "s")],
          ∃ m' ∈ (life Sample.cfg).step m (.command ((Sample.collecting sent).enqueues
              Sample.channels left.1 left.2) (Sample.answers "s")),
            ∃ e ∈ m'.trace.filterMap Output.handed, m.nextMessage ∈ e.2 := by
    decide +kernel
  obtain ⟨sent, hsent, left, hleft, harrives, m, hm, m', hstep, hforwarded⟩ := hrun
  exact ⟨sent, hsent, by decide, left, hleft,
    (CollectedMessage.enqueues_mem_emitted hleft).mpr harrives, m, m',
    reachable_of_execute Sample.cfg hm, hstep, hforwarded⟩

end Anyclaw
