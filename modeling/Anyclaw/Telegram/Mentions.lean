import Anyclaw.Library.LowerCase
import Anyclaw.Library.Slices
import Anyclaw.Telegram.Dispatcher

/-!
# Mentions of the bot

In a group the bot is mentioned by an entity of the message, by its name anywhere in the
text, or by a reply to one of its messages.  The name is searched for in the lower case of
the text, whatever stands behind it: the name of another user that begins with the bot's is
taken for the bot's.

The function is `bot_mentioned` of `ext/channels/telegram/src/dispatcher.rs`, with
`entity_mentions_bot`, `text_mentions_bot` and `is_reply_to_bot`.
-/

namespace Anyclaw

open Slices LowerCase

/-! ### Slices by UTF-16 units -/

/-- `char::len_utf16`. -/
def lenUtf16 (c : Char) : Nat := if c.toNat < 0x10000 then 1 else 2

/-- `Some(&text[byte_start?..stop])`; the outer `none` is a slice that is not at boundaries. -/
def sliceFrom (text : List Char) (byteStart : Option Nat) (stop : Nat) :
    Option (Option (List Char)) :=
  match byteStart with
  | some start => (slice text start stop).map some
  | none => some none

/-- The loop of `slice_utf16`: the rest of the text, its byte index, its position in UTF-16
    units and the start of the slice. -/
def sliceUtf16Loop (text : List Char) (utf16Offset utf16Length : Nat) :
    List Char → Nat → Nat → Option Nat → Option (Option (List Char))
  | [], byteIdx, utf16Pos, byteStart =>
      if utf16Pos = utf16Offset + utf16Length then sliceFrom text byteStart byteIdx else some none
  | ch :: rest, byteIdx, utf16Pos, byteStart =>
      let byteStart := if utf16Pos = utf16Offset then some byteIdx else byteStart
      if utf16Pos = utf16Offset + utf16Length then sliceFrom text byteStart byteIdx
      else
        sliceUtf16Loop text utf16Offset utf16Length rest (byteIdx + ch.utf8Size)
          (utf16Pos + lenUtf16 ch) byteStart

/-- The slice begins where a part of what was read so far ends. -/
def StartsWithin (before : List Char) (byteStart : Option Nat) : Prop :=
  ∀ start, byteStart = some start → ∃ a b, before = a ++ b ∧ byteLen a = start

theorem StartsWithin.snoc {before : List Char} {byteStart : Option Nat}
    (h : StartsWithin before byteStart) (c : Char) : StartsWithin (before ++ [c]) byteStart := by
  intro start hstart
  obtain ⟨a, b, rfl, hlen⟩ := h start hstart
  exact ⟨a, b ++ [c], List.append_assoc a b [c], hlen⟩

theorem sliceFrom_isSome {before rest : List Char} {byteStart : Option Nat}
    (h : StartsWithin before byteStart) :
    (sliceFrom (before ++ rest) byteStart (byteLen before)).isSome = true := by
  cases byteStart with
  | none => rfl
  | some start =>
      obtain ⟨a, b, rfl, rfl⟩ := h start rfl
      rw [sliceFrom, slice_append]
      rfl

theorem sliceUtf16Loop_isSome {text before rest : List Char} (htext : text = before ++ rest)
    (utf16Offset utf16Length utf16Pos : Nat) {byteStart : Option Nat}
    (hstart : StartsWithin before byteStart) :
    (sliceUtf16Loop text utf16Offset utf16Length rest (byteLen before) utf16Pos
      byteStart).isSome = true := by
  induction rest generalizing before utf16Pos byteStart with
  | nil =>
      rw [sliceUtf16Loop]
      split
      · rw [htext]
        exact sliceFrom_isSome hstart
      · rfl
  | cons c rest ih =>
      rw [sliceUtf16Loop]
      have hnext : StartsWithin before
          (if utf16Pos = utf16Offset then some (byteLen before) else byteStart) := by
        split
        · intro start heq
          cases heq
          exact ⟨before, [], (List.append_nil before).symm, rfl⟩
        · exact hstart
      split
      · rw [htext]
        exact sliceFrom_isSome hnext
      · have hlen : byteLen before + c.utf8Size = byteLen (before ++ [c]) := by simp
        rw [hlen]
        exact ih (by rw [htext, List.append_assoc]; rfl) _ (hnext.snoc c)

/-- No slice is cut inside a character. -/
theorem sliceUtf16_isSome (text : List Char) (utf16Offset utf16Length : Nat) :
    (sliceUtf16Loop text utf16Offset utf16Length text 0 0 none).isSome = true :=
  @sliceUtf16Loop_isSome text [] text rfl utf16Offset utf16Length 0 none
    fun _ h => (nomatch h)

def sliceUtf16 (text : List Char) (utf16Offset utf16Length : Nat) : Option (List Char) :=
  (sliceUtf16Loop text utf16Offset utf16Length text 0 0 none).get
    (sliceUtf16_isSome text utf16Offset utf16Length)

theorem infix_of_sliceFrom {text m : List Char} {byteStart : Option Nat} {stop : Nat}
    (h : sliceFrom text byteStart stop = some (some m)) : m <:+: text := by
  cases byteStart with
  | none => cases h
  | some start =>
      obtain ⟨m', hm, heq⟩ := Option.map_eq_some_iff.mp h
      cases heq
      exact infix_of_slice hm

theorem infix_of_sliceUtf16Loop {text rest m : List Char}
    {utf16Offset utf16Length byteIdx utf16Pos : Nat} {byteStart : Option Nat}
    (h : sliceUtf16Loop text utf16Offset utf16Length rest byteIdx utf16Pos byteStart =
      some (some m)) : m <:+: text := by
  induction rest generalizing byteIdx utf16Pos byteStart with
  | nil =>
      rw [sliceUtf16Loop] at h
      split at h
      · exact infix_of_sliceFrom h
      · cases h
  | cons c rest ih =>
      rw [sliceUtf16Loop] at h
      split at h
      · exact infix_of_sliceFrom h
      · exact ih h

theorem infix_of_sliceUtf16 {text m : List Char} {utf16Offset utf16Length : Nat}
    (h : sliceUtf16 text utf16Offset utf16Length = some m) : m <:+: text := by
  apply infix_of_sliceUtf16Loop
  rw [← h, sliceUtf16, Option.some_get]

/-! ### Detection -/

inductive MessageEntityKind where
  | mention
  | other
deriving DecidableEq

/-- A part of a text, in UTF-16 units. -/
structure MessageEntity where
  kind : MessageEntityKind
  offset : Nat
  length : Nat

def TelegramBody.textOrCaption : TelegramBody → Option String
  | .text t => some t
  | .media _ caption _ => caption
  | .other => none

def isGroupChat : ChatType → Bool
  | .private => false
  | .group | .supergroup | .channel => true

section Detection

variable (T : Tables)

def textMentionsBot (text botUsername : String) : Bool :=
  '@' :: (toLowercase T botUsername).toList <:+: (toLowercase T text).toList

/-- The entities are those of the text, or of the caption. -/
def entityMentionsBot (body : TelegramBody) (entities : List MessageEntity)
    (botUsername : String) : Bool :=
  match body.textOrCaption with
  | none => false
  | some text =>
      entities.any fun entity =>
        entity.kind = .mention &&
          (sliceUtf16 text.toList entity.offset entity.length).any fun s =>
            toLowercase T (String.ofList s) == "@" ++ toLowercase T botUsername

def isReplyToBot (m : TelegramMessage) (botId : Option UInt64) : Bool :=
  botId.any fun id => (m.reply.bind RepliedMessage.sender).any fun user => user.id = id

def botMentioned (botUsername : Option String) (botId : Option UInt64) (m : TelegramMessage)
    (entities : List MessageEntity) : Bool :=
  if isGroupChat m.chatType then
    (botUsername.any fun username =>
      entityMentionsBot T m.body entities username ||
        textMentionsBot T (m.body.textOrCaption.getD "") username) ||
      isReplyToBot m botId
  else false

end Detection

/-! ### Mention tokens -/

def isUsernameChar (c : Char) : Bool := c.isAlphanum || c == '_'

theorem isUsernameChar_ascii {c : Char} (h : isUsernameChar c = true) : c.toNat < 128 := by
  rw [isUsernameChar, Bool.or_eq_true, isAlphanum_iff, beq_iff_eq] at h
  rcases h with h | rfl
  · omega
  · decide

def afterMarks : List Char → List (List Char)
  | [] => []
  | c :: cs => if c = '@' then cs :: afterMarks cs else afterMarks cs

theorem mem_afterMarks {text r : List Char} :
    r ∈ afterMarks text ↔ ∃ a, text = a ++ '@' :: r := by
  induction text with
  | nil => simp [afterMarks]
  | cons c cs ih =>
      rw [afterMarks]
      constructor
      · intro h
        split at h
        · rename_i hc
          rcases List.mem_cons.mp h with rfl | h
          · exact ⟨[], by rw [hc]; rfl⟩
          · obtain ⟨a, rfl⟩ := ih.mp h
            exact ⟨c :: a, rfl⟩
        · obtain ⟨a, rfl⟩ := ih.mp h
          exact ⟨c :: a, rfl⟩
      · rintro ⟨a, heq⟩
        cases a with
        | nil =>
            cases heq
            rw [if_pos rfl]
            exact List.mem_cons_self ..
        | cons d a =>
            cases heq
            have hmem : r ∈ afterMarks (a ++ '@' :: r) := ih.mpr ⟨a, rfl⟩
            split
            · exact List.mem_cons_of_mem _ hmem
            · exact hmem

/-- The maximal run of username characters. -/
def mentionToken (r : List Char) : List Char := r.takeWhile isUsernameChar

structure Username where
  name : String
  valid : name.toList.all isUsernameChar = true

namespace Username

variable (u : Username) (text : List Char)

def folded : List Char := u.name.toList.map Char.toLower

/-- A token of the text is the name, ignoring case. -/
def MentionedIn : Prop := ∃ r ∈ afterMarks text, (mentionToken r).map Char.toLower = u.folded

/-- Behind an `@` the name is read, but it is not the token: another username character
    follows, or U+212A stands for a `k` of it or U+0130 for a final `i`. -/
def ImitatedIn : Prop :=
  ∃ r ∈ afterMarks text, spells u.folded r = true ∧ (mentionToken r).map Char.toLower ≠ u.folded

instance : Decidable (u.MentionedIn text) := by
  unfold MentionedIn
  infer_instance

theorem ascii {c : Char} (h : c ∈ u.name.toList) : c.toNat < 128 :=
  isUsernameChar_ascii (List.all_eq_true.mp u.valid c h)

theorem folded_ascii : ∀ c ∈ u.folded, c.toNat < 128 := by
  intro c hc
  obtain ⟨d, hd, rfl⟩ := List.mem_map.mp hc
  have hlt := u.ascii hd
  rw [toNat_toLower]
  split
  · omega
  · exact hlt

variable {u text}

/-- The token of the name spells the name. -/
theorem MentionedIn.spelled (h : u.MentionedIn text) :
    ∃ r ∈ afterMarks text, spells u.folded r = true := by
  obtain ⟨r, hr, htoken⟩ := h
  have hspells : spells ((mentionToken r).map Char.toLower)
      (mentionToken r ++ r.dropWhile isUsernameChar) = true := by
    apply spells_append
    intro c hc
    exact isUsernameChar_ascii (List.mem_takeWhile_imp hc)
  rw [htoken, mentionToken, List.takeWhile_append_dropWhile] at hspells
  exact ⟨r, hr, hspells⟩

theorem spelled_iff (u : Username) (text : List Char) :
    (∃ r ∈ afterMarks text, spells u.folded r = true) ↔
      u.MentionedIn text ∨ u.ImitatedIn text := by
  constructor
  · rintro ⟨r, hr, hspells⟩
    by_cases htoken : (mentionToken r).map Char.toLower = u.folded
    · exact .inl ⟨r, hr, htoken⟩
    · exact .inr ⟨r, hr, hspells, htoken⟩
  · rintro (h | ⟨r, hr, hspells, _⟩)
    · exact h.spelled
    · exact ⟨r, hr, hspells⟩

end Username

/-! ### What the detection finds -/

section Found

variable {T : Tables} (hT : T.Standard) (u : Username)

include hT

theorem toList_toLowercase_name : (toLowercase T u.name).toList = u.folded := by
  rw [toLowercase, String.toList_ofList, lowerFrom_ascii hT fun c => u.ascii]
  rfl

theorem infix_toLowercase_iff (text : List Char) :
    '@' :: u.folded <:+: lowerFrom T [] text ↔
      ∃ r ∈ afterMarks text, spells u.folded r = true := by
  rw [infix_lowerFrom_iff hT (by decide) u.folded_ascii]
  constructor
  · rintro ⟨a, r, heq, h⟩
    exact ⟨r, mem_afterMarks.mpr ⟨a, heq⟩, h⟩
  · rintro ⟨r, hr, h⟩
    obtain ⟨a, heq⟩ := mem_afterMarks.mp hr
    exact ⟨a, r, heq, h⟩

/-- The search in the lower case finds the name and its imitations. -/
theorem textMentionsBot_iff (text : String) :
    textMentionsBot T text u.name = true ↔
      u.MentionedIn text.toList ∨ u.ImitatedIn text.toList := by
  rw [textMentionsBot, decide_eq_true_iff, toList_toLowercase_name hT, toLowercase,
    String.toList_ofList, infix_toLowercase_iff hT, Username.spelled_iff]

/-- An entity finds nothing that the search does not find. -/
theorem textMentionsBot_of_entity {body : TelegramBody} {entities : List MessageEntity}
    (h : entityMentionsBot T body entities u.name = true) :
    textMentionsBot T (body.textOrCaption.getD "") u.name = true := by
  rw [entityMentionsBot] at h
  split at h
  · cases h
  · rename_i text htext
    obtain ⟨entity, _, hentity⟩ := List.any_eq_true.mp h
    obtain ⟨_, hslice⟩ := Bool.and_eq_true_iff.mp hentity
    obtain ⟨s, hs, hlower⟩ : ∃ s, sliceUtf16 text.toList entity.offset entity.length = some s ∧
        (toLowercase T (String.ofList s) == "@" ++ toLowercase T u.name) = true := by
      cases hs : sliceUtf16 text.toList entity.offset entity.length with
      | none =>
          rw [hs] at hslice
          cases hslice
      | some s =>
          rw [hs, Option.any_some] at hslice
          exact ⟨s, rfl, hslice⟩
    obtain ⟨a, b, hcut⟩ := infix_of_sliceUtf16 hs
    have hword : lowerFrom T [] s = '@' :: u.folded := by
      have hlist := congrArg String.toList (beq_iff_eq.mp hlower)
      rw [String.toList_append, toList_toLowercase_name hT] at hlist
      simpa [toLowercase] using hlist
    have hinfix : '@' :: u.folded <:+: lowerFrom T [] s := by
      rw [hword]
    obtain ⟨r, hr, hspells⟩ := (infix_toLowercase_iff hT u s).mp hinfix
    obtain ⟨a', rfl⟩ := mem_afterMarks.mp hr
    rw [htext, Option.getD_some, textMentionsBot_iff hT, ← Username.spelled_iff]
    refine ⟨r ++ b, mem_afterMarks.mpr ⟨a ++ a', ?_⟩, spells_append_right hspells b⟩
    rw [← hcut]
    simp

/-- **The bot counts as mentioned** by a reply, by its name and by an imitation of its name. -/
theorem botMentioned_iff (botId : Option UInt64) {m : TelegramMessage}
    (hgroup : isGroupChat m.chatType = true) (entities : List MessageEntity) :
    botMentioned T (some u.name) botId m entities = true ↔
      isReplyToBot m botId = true ∨ u.MentionedIn (m.body.textOrCaption.getD "").toList ∨
        u.ImitatedIn (m.body.textOrCaption.getD "").toList := by
  rw [botMentioned, if_pos hgroup, ← textMentionsBot_iff hT, Option.any_some, Bool.or_eq_true,
    Bool.or_eq_true]
  constructor
  · rintro ((hentity | htext) | hreply)
    · exact .inr (textMentionsBot_of_entity hT u hentity)
    · exact .inr htext
    · exact .inl hreply
  · rintro (hreply | htext)
    · exact .inr hreply
    · exact .inl (.inr htext)

/-- **Mention detection is exact** for a message that replies to the bot, that has its name as
    a mention token, or in which nothing imitates its name, and for no other. -/
theorem mention_exact_iff (botId : Option UInt64) {m : TelegramMessage}
    (hgroup : isGroupChat m.chatType = true) (entities : List MessageEntity) :
    (botMentioned T (some u.name) botId m entities = true ↔
      isReplyToBot m botId = true ∨ u.MentionedIn (m.body.textOrCaption.getD "").toList) ↔
    (isReplyToBot m botId = true ∨ u.MentionedIn (m.body.textOrCaption.getD "").toList ∨
      ¬u.ImitatedIn (m.body.textOrCaption.getD "").toList) := by
  rw [botMentioned_iff hT u botId hgroup entities]
  tauto

end Found

/-! ### A longer name -/

/-- The tables for ASCII texts. -/
def asciiTables : Tables where
  lower c := if c = KELVIN then ['k'] else if c = DOTTED_I then ['i', '\u0307'] else [c.toLower]
  finalSigma _ _ := false

theorem standard_asciiTables : asciiTables.Standard where
  ascii := by
    intro c hc
    have hk : c ≠ KELVIN := by
      rintro rfl
      exact absurd hc (by decide)
    have hi : c ≠ DOTTED_I := by
      rintro rfl
      exact absurd hc (by decide)
    simp only [asciiTables, if_neg hk, if_neg hi]
  kelvin := rfl
  dotted := rfl
  other := by
    intro c hc hk hi
    simp only [asciiTables, if_neg hk, if_neg hi]
    refine ⟨List.cons_ne_nil _ _, ?_⟩
    intro d hd
    rw [List.mem_singleton.mp hd, toNat_toLower]
    split
    · omega
    · exact hc

def mybot : Username := ⟨"mybot", by decide⟩

def toMybotany : TelegramMessage where
  chatId := 7
  chatType := .supergroup
  sender := none
  body := .text "hi @mybotany"
  reply := none
  quote := none
  threadId := none
  mentioned := true

/-- **A user whose name begins with the bot's** is taken for the bot. -/
theorem longer_name_mentions :
    ¬(botMentioned asciiTables (some mybot.name) (some 1) toMybotany [⟨.mention, 3, 9⟩] = true ↔
      isReplyToBot toMybotany (some 1) = true ∨
        mybot.MentionedIn (toMybotany.body.textOrCaption.getD "").toList) := by
  decide +kernel

/-- A message to the bot itself. -/
theorem mention_exact_iff_mybot :
    isGroupChat ChatType.supergroup = true ∧
      (botMentioned asciiTables (some mybot.name) (some 1)
        { toMybotany with body := .text "hi @MyBot!" } [] = true ↔
        isReplyToBot { toMybotany with body := .text "hi @MyBot!" } (some 1) = true ∨
          mybot.MentionedIn "hi @MyBot!".toList) := by
  refine ⟨rfl, ?_⟩
  have hexact := mention_exact_iff standard_asciiTables mybot (some 1)
    (show isGroupChat ({ toMybotany with body := .text "hi @MyBot!" }).chatType = true from rfl) []
  exact hexact.mpr (.inr (.inl (by decide +kernel)))

end Anyclaw
