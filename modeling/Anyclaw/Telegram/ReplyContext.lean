import Anyclaw.Channels.Emissions
import Anyclaw.Library.Delimited
import Anyclaw.Telegram.Dispatcher

/-!
# Reply context of a group with an allowlist

What a message replies to is kept from the agent when its author is not on the effective
allowlist of the group.  The author is known to the manager by user id and by one name: the
username or, when there is none, the display name, which an allowlisted username may equal.
What is dropped then is the metadata; a photo of the message replied to is a part of the
content and stays.

The decision is `should_suppress_reply_context` of
`crates/anyclaw-channels/src/access_control.rs`, acted on in `collect_send_message`
(`manager.rs`); the photo comes from `resolve_reply_photo` of
`ext/channels/telegram/src/dispatcher.rs`.
-/

namespace Anyclaw

/-! ### Authors -/

/-- The user is matched by user id or by username. -/
def TelegramUser.matchesEntry (u : TelegramUser) : AllowlistEntry → Bool
  | .wildcard => true
  | .userId id => (u.id.toNat : Int) == id.toInt
  | .username name => u.username.any fun username => eqIgnoreAsciiCase username name

/-- The author is on the allowlist; one that is not known is only on an open list. -/
def authorAllowed (author : Option TelegramUser) (entries : List AllowlistEntry) : Bool :=
  entries.any fun e => e == .wildcard || author.any fun u => u.matchesEntry e

def AllowlistEntry.isNamed (name : String) : AllowlistEntry → Bool
  | .username allowed => eqIgnoreAsciiCase name allowed
  | _ => false

/-- The author has no username, and his display name is that of an entry. -/
def namesake (author : Option TelegramUser) (entries : List AllowlistEntry) : Bool :=
  author.any fun u => u.username.isNone && entries.any (AllowlistEntry.isNamed u.firstName)

def TelegramUser.identity (author : Option TelegramUser) : SenderIdentity where
  userId := (author.map TelegramUser.idString).bind readInt64
  username := author.map TelegramUser.replyName

theorem identity_matchesEntry (u : TelegramUser) (e : AllowlistEntry) :
    (TelegramUser.identity (some u)).matchesEntry e =
      (u.matchesEntry e || u.username.isNone && e.isNamed u.firstName) := by
  cases e with
  | wildcard => rfl
  | userId id =>
      simp only [SenderIdentity.matchesEntry, TelegramUser.identity, Option.map_some,
        Option.bind_some, TelegramUser.idString, readInt64_repr, TelegramUser.matchesEntry,
        AllowlistEntry.isNamed, Bool.and_false, Bool.or_false]
      rw [Bool.eq_iff_iff, beq_iff_eq, beq_iff_eq, int64OfInt?_eq_some]
  | username name =>
      simp only [SenderIdentity.matchesEntry, TelegramUser.identity, Option.map_some,
        Option.any_some, TelegramUser.replyName, TelegramUser.matchesEntry,
        AllowlistEntry.isNamed]
      cases u.username with
      | none => simp
      | some username => simp

/-- **Whom the manager takes for allowlisted**: the allowlisted and their namesakes. -/
theorem identity_matchesAny (author : Option TelegramUser) (entries : List AllowlistEntry) :
    (TelegramUser.identity author).matchesAny entries =
      (authorAllowed author entries || namesake author entries) := by
  rw [Bool.eq_iff_iff, Bool.or_eq_true]
  unfold SenderIdentity.matchesAny authorAllowed namesake
  cases author with
  | none =>
      have hentry : ∀ e, (TelegramUser.identity none).matchesEntry e = (e == .wildcard) := by
        intro e
        cases e <;> rfl
      simp only [List.any_eq_true, hentry, Option.any_none, Bool.or_false, Bool.false_eq_true,
        or_false]
  | some u =>
      have hwild : ∀ e, (e == .wildcard || u.matchesEntry e) = u.matchesEntry e := by
        intro e
        cases e <;> rfl
      simp only [List.any_eq_true, identity_matchesEntry, Option.any_some, hwild,
        Bool.or_eq_true, Bool.and_eq_true]
      constructor
      · rintro ⟨e, he, hallowed | ⟨hnone, hnamed⟩⟩
        · exact .inl ⟨e, he, hallowed⟩
        · exact .inr ⟨hnone, e, he, hnamed⟩
      · rintro (⟨e, he, hallowed⟩ | ⟨hnone, e, he, hnamed⟩)
        · exact ⟨e, he, .inl hallowed⟩
        · exact ⟨e, he, .inr ⟨hnone, hnamed⟩⟩

/-! ### What the manager reads of a Telegram message -/

namespace TelegramMessage

variable {m : TelegramMessage} {sent : SentMessage} {cfg : AccessConfig}

theorem afterColon_append {s : String} (rest : String) (h : ':' ∉ s.toList) :
    afterColon (s ++ ":" ++ rest) = some rest := by
  have htext : (s ++ ":" ++ rest).toList = s.toList ++ ':' :: rest.toList := by
    rw [String.toList_append, String.toList_append, List.append_assoc]
    rfl
  have hcolon : ':' ∈ s.toList ++ ':' :: rest.toList :=
    List.mem_append_right _ List.mem_cons_self
  unfold afterColon
  rw [htext, if_pos hcolon, Delimited.dropWhile_join h, List.tail_cons, String.ofList_toList]

theorem toSent_chatId (h : m.toSent = some sent) : sent.chatId = m.chatId := by
  unfold toSent at h
  split at h
  · cases h
  · cases h
    have hcolon : afterColon ("telegram" ++ ":" ++ toString m.chatId.toInt) =
        some (toString m.chatId.toInt) := afterColon_append _ (by decide)
    have hpeer : "telegram:" ++ toString m.chatId.toInt =
        "telegram" ++ ":" ++ toString m.chatId.toInt := rfl
    unfold SentMessage.chatId peerInfoFromChat
    dsimp only
    rw [hpeer, hcolon, Option.bind_some, readInt64_toString, Option.getD_some]

theorem toSent_isGroup (h : m.toSent = some sent)
    (hgroup : m.chatType = .group ∨ m.chatType = .supergroup) : sent.isGroup = true := by
  unfold toSent at h
  split at h
  · cases h
  · cases h
    unfold SentMessage.isGroup peerInfoFromChat
    rcases hgroup with htype | htype
    · rw [htype]
      rfl
    · rw [htype]
      rfl

/-- The reply context is made of one author, the manager reads his identity off it. -/
theorem replySender_of_metadata {metadata : MessageMetadata}
    (h : m.replyMetadataFromMessage = some metadata) :
    metadata.replySender = TelegramUser.identity m.replyAuthor := by
  unfold replyMetadataFromMessage at h
  split at h
  · cases h
  · cases h
    rfl

/-! ### What is passed on -/

variable (m) in
/-- What is left of the message for the agents manager. -/
def passedOn (options : ChannelOptions) (store : ContextStore) (a : StoreAnswers) :
    Option (List ContentPart × Option MessageMetadata) :=
  m.toSent.bind fun sent => (admitMessage options store sent a).1

variable (m) in
def LetThrough (cfg : AccessConfig) : Prop := ∃ sent ∈ m.toSent, sent.decision cfg = .allow

variable (m) in
/-- Content of the message replied to is passed on: its text or the quote, or its photo. -/
def Carries (out : List ContentPart × Option MessageMetadata) : Prop :=
  (∃ metadata ∈ out.2, ∃ text ∈ m.replyText, metadata.replyToText = some text) ∨
    ∃ url ∈ m.replyPhoto, .image url ∈ out.1

theorem image_mem_withContext {context : List ContextMessage} {content : List ContentPart}
    {url : String} : .image url ∈ withContext context content ↔ .image url ∈ content := by
  unfold withContext
  split
  · exact Iff.rfl
  · simp

theorem replyPhoto_mem_content {url : String} (h : m.toSent = some sent)
    (hphoto : m.replyPhoto = some url) : .image url ∈ sent.content := by
  unfold toSent at h
  split at h
  · cases h
  · cases h
    dsimp only
    rw [hphoto]
    exact List.mem_append_left _ (List.mem_singleton.mpr rfl)

theorem toSent_metadata (h : m.toSent = some sent) :
    sent.metadata = m.replyMetadataFromMessage := by
  unfold toSent at h
  split at h
  · cases h
  · cases h
    rfl

/-- The metadata is kept for the allowlisted authors and their namesakes. -/
theorem keptMetadata_eq_some {metadata : MessageMetadata} (h : m.toSent = some sent)
    (hgroup : m.chatType = .group ∨ m.chatType = .supergroup)
    (hpolicy : cfg.effectivePolicy m.chatId = .allowlist) :
    keptMetadata cfg sent = some metadata ↔ m.replyMetadataFromMessage = some metadata ∧
      (authorAllowed m.replyAuthor (cfg.effectiveAllowlist m.chatId) ||
        namesake m.replyAuthor (cfg.effectiveAllowlist m.chatId)) = true := by
  unfold keptMetadata
  rw [toSent_isGroup h hgroup, toSent_metadata h, Bool.true_and]
  cases hmetadata : m.replyMetadataFromMessage with
  | none => simp
  | some kept =>
      have hsuppress : shouldSuppressReplyContext cfg sent.chatId kept.replySender true =
          !(authorAllowed m.replyAuthor (cfg.effectiveAllowlist m.chatId) ||
            namesake m.replyAuthor (cfg.effectiveAllowlist m.chatId)) := by
        unfold shouldSuppressReplyContext
        rw [replySender_of_metadata hmetadata, toSent_chatId h, hpolicy, identity_matchesAny]
        rfl
      rw [Option.any_some, hsuppress]
      split
      · rename_i hsuppressed
        rw [Bool.not_eq_true'] at hsuppressed
        simp [hsuppressed]
      · rename_i hkept
        rw [Bool.not_eq_true', Bool.not_eq_false] at hkept
        simp [hkept]

/-- **What is passed on of a message that access control lets through.** -/
theorem mem_passedOn {limit : Nat} {store : ContextStore} {a : StoreAnswers}
    {out : List ContentPart × Option MessageMetadata} :
    out ∈ m.passedOn ⟨some cfg, limit⟩ store a ↔
      ∃ sent ∈ m.toSent, sent.decision cfg = .allow ∧
        out = (withContext (takenContext store sent a).1 sent.content, keptMetadata cfg sent) := by
  unfold passedOn
  rw [Option.mem_def, Option.bind_eq_some_iff]
  refine exists_congr fun sent => and_congr_right fun _ => ?_
  unfold admitMessage
  dsimp only
  cases sent.decision cfg with
  | deny reason => simp
  | skipNoMention => simp
  | allow => simp [eq_comm]

/-- What is enqueued for the agent is what is passed on. -/
theorem passedOn_of_enqueued {c : Nat} {chCfg : ChannelsManagerConfig c} {ch : ChannelsManager c}
    {options : ChannelOptions} {store : ContextStore} {s : Fin c} {sa : StoreAnswers}
    {a : ChannelAnswers} {agent : String} {k : SessionKey} {content : List ContentPart}
    {metadata : Option MessageMetadata} (h : m.toSent = some sent)
    (hmem : .command (.enqueueMessage agent k content metadata) ∈
      (ChannelsManager.collectSentMessage chCfg ch options store s sent sa a).1.trace.drop
        ch.trace.length) :
    (content, metadata) ∈ m.passedOn options store sa := by
  unfold passedOn
  rw [h, Option.bind_some]
  have hemits : ChannelsManager.Emits
      (fun o => o = .command (.enqueueMessage agent k content metadata) →
        (content, metadata) ∈ (admitMessage options store sent sa).1) ch
      (ChannelsManager.collectSentMessage chCfg ch options store s sent sa a).1 := by
    refine ChannelsManager.collectSendMessage_emits ch s sent.toChannelSendMessage _ ?_ ?_ ?_ ?_
    · intro heq
      cases heq
    · intro content' metadata' hadmitted heq
      cases heq
      exact hadmitted
    · intro no message heq
      cases heq
    · intro entry _ no message heq
      cases heq
  exact hemits.of_mem_drop hmem rfl

/-- A message that replies to a known author has metadata, with the text replied to. -/
theorem metadata_of_namesake {entries : List AllowlistEntry}
    (h : namesake m.replyAuthor entries = true) :
    ∃ metadata, m.replyMetadataFromMessage = some metadata ∧
      metadata.replyToText = m.replyText := by
  have hreply : m.reply.isNone = false := by
    cases hreply : m.reply with
    | none =>
        unfold replyAuthor at h
        rw [hreply] at h
        cases h
    | some r => rfl
  unfold replyMetadataFromMessage
  rw [hreply, Bool.false_and]
  exact ⟨_, rfl, rfl⟩

/-- **Reply context is kept from the agent exactly when** the author is on the allowlist, or
    there is no photo of his and he is no namesake of an allowlisted user. -/
theorem repliesSuppressed_iff (hgroup : m.chatType = .group ∨ m.chatType = .supergroup)
    (hpolicy : cfg.effectivePolicy m.chatId = .allowlist) (limit : Nat) (store : ContextStore)
    (a : StoreAnswers) :
    (∀ out ∈ m.passedOn ⟨some cfg, limit⟩ store a, m.Carries out →
      authorAllowed m.replyAuthor (cfg.effectiveAllowlist m.chatId) = true) ↔
    (m.LetThrough cfg → authorAllowed m.replyAuthor (cfg.effectiveAllowlist m.chatId) = true ∨
      m.replyPhoto = none ∧
        (m.replyText = none ∨ namesake m.replyAuthor (cfg.effectiveAllowlist m.chatId) = false)) := by
  constructor
  · rintro hall ⟨sent, hsent, hallow⟩
    rw [or_iff_not_imp_left]
    intro hforbidden
    have hout := hall _ (mem_passedOn.mpr ⟨sent, hsent, hallow, rfl⟩)
    constructor
    · cases hphoto : m.replyPhoto with
      | none => rfl
      | some url =>
          have himage : .image url ∈ withContext (takenContext store sent a).1 sent.content :=
            image_mem_withContext.mpr (replyPhoto_mem_content hsent hphoto)
          exact absurd (hout (.inr ⟨url, hphoto, himage⟩)) hforbidden
    · rw [or_iff_not_imp_left]
      intro htext
      obtain ⟨text, htext⟩ := Option.ne_none_iff_exists'.mp htext
      rw [← Bool.not_eq_true]
      intro hnamesake
      obtain ⟨metadata, hmetadata, hreplied⟩ := metadata_of_namesake hnamesake
      have hkept : keptMetadata cfg sent = some metadata := by
        rw [keptMetadata_eq_some hsent hgroup hpolicy, hnamesake, Bool.or_true]
        exact ⟨hmetadata, rfl⟩
      refine hforbidden (hout (.inl ⟨metadata, hkept, text, htext, ?_⟩))
      rw [hreplied, htext]
  · intro hcondition out hout hcarries
    obtain ⟨sent, hsent, hallow, rfl⟩ := mem_passedOn.mp hout
    rcases hcondition ⟨sent, hsent, hallow⟩ with hallowed | ⟨hphoto, htext⟩
    · exact hallowed
    · rcases hcarries with ⟨metadata, hkept, text, hreplied, -⟩ | ⟨url, hurl, -⟩
      · obtain ⟨-, hauthor⟩ := (keptMetadata_eq_some hsent hgroup hpolicy).mp hkept
        rcases htext with hnone | hnamesake
        · rw [hnone] at hreplied
          cases hreplied
        · rw [hnamesake, Bool.or_false] at hauthor
          exact hauthor
      · rw [hphoto] at hurl
        cases hurl

end TelegramMessage

/-! ### Samples -/

namespace Sample

def aliceOnly : AccessConfig where
  groupPolicy := .allowlist
  allowedUsers := [.username "alice"]
  groups := ∅
  defaultRequireMention := false

def replyTo (author : TelegramUser) (photo : Option String) : TelegramMessage where
  chatId := -100
  chatType := .group
  sender := some ⟨1, some "alice", "Alice"⟩
  body := .text "look"
  reply := some {
    id := 7
    sender := some author
    text := some "secret"
    caption := none
    media := none
    photo := photo }
  quote := none
  threadId := none
  mentioned := false

end Sample

namespace TelegramMessage

/-- A text of `eve` is kept from the agent. -/
theorem repliesSuppressed_iff_eve :
    (Sample.replyTo ⟨2, some "eve", "Eve"⟩ none).LetThrough Sample.aliceOnly ∧
    ∀ out ∈ (Sample.replyTo ⟨2, some "eve", "Eve"⟩ none).passedOn ⟨some Sample.aliceOnly, 50⟩ .empty
        Sample.storeAnswers,
      (Sample.replyTo ⟨2, some "eve", "Eve"⟩ none).Carries out →
        authorAllowed (some ⟨2, some "eve", "Eve"⟩) [.username "alice"] = true := by
  refine ⟨⟨_, rfl, by decide⟩, ?_⟩
  refine (repliesSuppressed_iff (.inl rfl) rfl 50 .empty Sample.storeAnswers).mpr ?_
  intro _
  exact .inr ⟨rfl, .inr (by decide)⟩

/-- The text of a user who has no username and calls himself `Alice` is passed on. -/
theorem reply_passed_on :
    ¬ ∀ (m : TelegramMessage) (cfg : AccessConfig),
      m.chatType = .group ∨ m.chatType = .supergroup →
      cfg.effectivePolicy m.chatId = .allowlist →
      ∀ (limit : Nat) (store : ContextStore) (a : StoreAnswers),
        ∀ out ∈ m.passedOn ⟨some cfg, limit⟩ store a, m.Carries out →
          authorAllowed m.replyAuthor (cfg.effectiveAllowlist m.chatId) = true := by
  intro hall
  have hout : ∃ out ∈ (Sample.replyTo ⟨2, none, "Alice"⟩ none).passedOn
      ⟨some Sample.aliceOnly, 50⟩ .empty Sample.storeAnswers,
      ∃ metadata ∈ out.2, metadata.replyToText = some "secret" := by
    decide
  obtain ⟨out, hout, metadata, hmetadata, htext⟩ := hout
  have hallowed := hall (Sample.replyTo ⟨2, none, "Alice"⟩ none) Sample.aliceOnly (.inl rfl) rfl 50
    .empty Sample.storeAnswers out hout (.inl ⟨metadata, hmetadata, "secret", rfl, htext⟩)
  exact absurd hallowed (by decide)

end TelegramMessage

end Anyclaw
