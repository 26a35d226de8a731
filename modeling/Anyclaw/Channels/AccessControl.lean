import Anyclaw.Library.KeyedMap

/-!
# Access control

A channel may be given an allowlist for direct messages and a policy for groups, with
overrides for single groups.  `evaluateAccess` decides about a message, and
`shouldSuppressReplyContext` about the message that it replies to.

Both are in `crates/anyclaw-channels/src/access_control.rs`, with `evaluate_dm`,
`evaluate_group` and `SenderIdentity::matches` below them.
-/

namespace Anyclaw

inductive AllowlistEntry where
  | wildcard
  | userId (id : Int64)
  | username (name : String)
deriving DecidableEq

structure SenderIdentity where
  userId : Option Int64
  username : Option String
deriving DecidableEq

/-- `str::eq_ignore_ascii_case`. -/
def eqIgnoreAsciiCase (s t : String) : Bool := s.toList.map Char.toLower == t.toList.map Char.toLower

namespace SenderIdentity

def default : SenderIdentity := ⟨none, none⟩

def matchesEntry (sender : SenderIdentity) : AllowlistEntry → Bool
  | .wildcard => true
  | .userId id => sender.userId == some id
  | .username name => sender.username.any fun u => eqIgnoreAsciiCase u name

def matchesAny (sender : SenderIdentity) (entries : List AllowlistEntry) : Bool :=
  entries.any sender.matchesEntry

end SenderIdentity

inductive GroupPolicy where
  | «open»
  | allowlist
  | disabled
deriving DecidableEq

structure GroupConfig where
  enabled : Bool
  groupPolicy : Option GroupPolicy
  allowedUsers : List AllowlistEntry
  requireMention : Bool

structure AccessConfig where
  groupPolicy : GroupPolicy
  allowedUsers : List AllowlistEntry
  groups : KeyedMap Int64 GroupConfig
  defaultRequireMention : Bool

inductive DenyReason where
  | groupDisabled
  | groupPolicyDisabled
  | groupSenderNotAllowed
  | dmSenderNotAllowed
deriving DecidableEq

inductive AccessDecision where
  | allow
  | deny (reason : DenyReason)
  | skipNoMention
deriving DecidableEq

namespace AccessConfig

variable (cfg : AccessConfig)

def effectivePolicy (chatId : Int64) : GroupPolicy :=
  ((cfg.groups.get? chatId).bind GroupConfig.groupPolicy).getD cfg.groupPolicy

/-- The allowlist of the group, or the global one when it is empty. -/
def effectiveAllowlist (chatId : Int64) : List AllowlistEntry :=
  (((cfg.groups.get? chatId).map GroupConfig.allowedUsers).filter fun users => !users.isEmpty).getD
    cfg.allowedUsers

def requiresMention (chatId : Int64) : Bool :=
  ((cfg.groups.get? chatId).map GroupConfig.requireMention).getD cfg.defaultRequireMention

end AccessConfig

variable (cfg : AccessConfig) (chatId : Int64) (sender : SenderIdentity)

def evaluateDm : AccessDecision :=
  if sender.matchesAny cfg.allowedUsers then .allow else .deny .dmSenderNotAllowed

def mentionDecision (botMentioned : Bool) : AccessDecision :=
  if cfg.requiresMention chatId && !botMentioned then .skipNoMention else .allow

def evaluateGroup (botMentioned : Bool) : AccessDecision :=
  if (cfg.groups.get? chatId).any fun gc => !gc.enabled then .deny .groupDisabled
  else
    match cfg.effectivePolicy chatId with
    | .disabled => .deny .groupPolicyDisabled
    | .allowlist =>
        if sender.matchesAny (cfg.effectiveAllowlist chatId) then
          mentionDecision cfg chatId botMentioned
        else .deny .groupSenderNotAllowed
    | .open => mentionDecision cfg chatId botMentioned

def evaluateAccess (isGroup botMentioned : Bool) : AccessDecision :=
  if isGroup then evaluateGroup cfg chatId sender botMentioned else evaluateDm cfg sender

/-- Whether what a message replies to is kept from the agent; `sender` has sent that. -/
def shouldSuppressReplyContext (isGroup : Bool) : Bool :=
  isGroup && cfg.effectivePolicy chatId == .allowlist &&
    !sender.matchesAny (cfg.effectiveAllowlist chatId)

/-! ### Who is denied -/

/-- The bot's being mentioned decides between a message and a skipped one, not about denial. -/
theorem denied_iff (isGroup botMentioned botMentioned' : Bool) (reason : DenyReason) :
    evaluateAccess cfg chatId sender isGroup botMentioned = .deny reason ↔
      evaluateAccess cfg chatId sender isGroup botMentioned' = .deny reason := by
  have hmention : ∀ b, mentionDecision cfg chatId b ≠ .deny reason := by
    intro b
    unfold mentionDecision
    split <;> exact fun h => nomatch h
  unfold evaluateAccess evaluateGroup
  split
  · split
    · exact Iff.rfl
    · split
      · exact Iff.rfl
      · split
        · exact iff_of_false (hmention _) (hmention _)
        · exact Iff.rfl
      · exact iff_of_false (hmention _) (hmention _)
  · exact Iff.rfl

end Anyclaw
