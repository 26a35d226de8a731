import Anyclaw.Channels.AccessControl
import Anyclaw.Library.Decimal
import Anyclaw.Library.Json

/-!
# Access control as it is configured

`AccessConfig.fromOptions` reads the access configuration out of the options of a channel.
Each setting has its own fallback for a value that is missing or malformed: a policy that is
none counts as missing, and an allowlist counts as its valid entries.

What a chat's settings are is also said of the options themselves (`documentedSettings`), and
compared with what is read and evaluated.

The reader is `AccessConfig::from_options` of `crates/anyclaw-channels/src/access_control.rs`,
with `parse_group_policy`, `parse_allowlist` and `parse_allowlist_entry`; what the options are
documented to mean is in `crates/anyclaw-config/src/schema_overlays.rs`.

* `access_documented`: the decision is the documented one, and which invalid values fail
  closed.
-/

namespace Anyclaw

/-! ### Parsing -/

def parseGroupPolicy : String → Option GroupPolicy
  | "open" => some .open
  | "allowlist" => some .allowlist
  | "disabled" => some .disabled
  | _ => none

def stripAt (s : String) : String :=
  match s.toList with
  | '@' :: name => String.ofList name
  | _ => s

section

-- `str::to_lowercase`
variable (toLowercase : String → String)

def parseAllowlistEntry (value : Json) : Option AllowlistEntry :=
  match value.asInt64 with
  | some n => some (.userId n)
  | none =>
      value.asStr.bind fun s =>
        if s = "*" then some .wildcard
        else
          match readInt64 s with
          | some n => some (.userId n)
          | none =>
              if stripAt s = "" then none else some (.username (toLowercase (stripAt s)))

def parseAllowlist (value : Json) : List AllowlistEntry :=
  (value.asArray.map fun items => items.filterMap (parseAllowlistEntry toLowercase)).getD []

def GroupConfig.fromJson (val : Json) : GroupConfig where
  enabled := ((val.get? "enabled").bind Json.asBool).getD true
  groupPolicy := ((val.get? "group_policy").bind Json.asStr).bind parseGroupPolicy
  allowedUsers := ((val.get? "allowed_users").map (parseAllowlist toLowercase)).getD []
  requireMention := ((val.get? "require_mention").bind Json.asBool).getD false

/-- The groups of an object: keys that are no chat ids are left out, and of several keys for
    one chat the last counts. -/
def collectGroups (fields : List (String × Json)) : KeyedMap Int64 GroupConfig :=
  fields.foldl
    (fun groups e =>
      match readInt64 e.1 with
      | none => groups
      | some chatId => groups.set chatId (.fromJson toLowercase e.2))
    ∅

namespace AccessConfig

def default : AccessConfig where
  groupPolicy := .open
  allowedUsers := [.wildcard]
  groups := ∅
  defaultRequireMention := false

def fromAccessControl (ac : Json) : AccessConfig where
  groupPolicy := (((ac.get? "group_policy").bind Json.asStr).bind parseGroupPolicy).getD .open
  allowedUsers := ((ac.get? "allowed_users").map (parseAllowlist toLowercase)).getD [.wildcard]
  groups := (((ac.get? "groups").bind Json.asObject).map (collectGroups toLowercase)).getD ∅
  defaultRequireMention := ((ac.get? "require_mention").bind Json.asBool).getD false

def fromOptions (options : JsonValue) : AccessConfig :=
  match options.doc.get? "access_control" with
  | none => .default
  | some ac => fromAccessControl toLowercase ac

end AccessConfig

def accessDecision (options : JsonValue) (chatId : Int64) (sender : SenderIdentity)
    (isGroup botMentioned : Bool) : AccessDecision :=
  evaluateAccess (.fromOptions toLowercase options) chatId sender isGroup botMentioned

end

/-! ### Settings of a chat -/

structure ChatSettings where
  enabled : Bool
  policy : GroupPolicy
  allowedUsers : List AllowlistEntry
  requireMention : Bool

def ChatSettings.decision (settings : ChatSettings) (sender : SenderIdentity)
    (botMentioned : Bool) : AccessDecision :=
  if settings.enabled = false then .deny .groupDisabled
  else if settings.policy = .disabled then .deny .groupPolicyDisabled
  else if settings.policy = .allowlist ∧ sender.matchesAny settings.allowedUsers = false then
    .deny .groupSenderNotAllowed
  else if settings.requireMention && !botMentioned then .skipNoMention
  else .allow

def accessControl (options : JsonValue) : Json :=
  (options.doc.get? "access_control").getD .null

def lastEntry (chatId : Int64) : List (String × Json) → Option Json
  | [] => none
  | e :: rest =>
      (lastEntry chatId rest).or (if readInt64 e.1 = some chatId then some e.2 else none)

def groupEntry (ac : Json) (chatId : Int64) : Option Json :=
  ((ac.get? "groups").bind Json.asObject).bind (lastEntry chatId)

def policyOf (j : Json) : Option GroupPolicy :=
  ((j.get? "group_policy").bind Json.asStr).bind parseGroupPolicy

def flag (key : String) (j : Json) : Option Bool := (j.get? key).bind Json.asBool

section

variable (toLowercase : String → String)

def defaultAllowlist (ac : Json) : List AllowlistEntry :=
  ((ac.get? "allowed_users").map (parseAllowlist toLowercase)).getD [.wildcard]

def entryAllowlist (entry : Json) : List AllowlistEntry :=
  ((entry.get? "allowed_users").map (parseAllowlist toLowercase)).getD []

/-- A chat has the default settings.  Its entry overrides the policy when it has a valid one,
    and the allowlist when it has one with a valid entry; whether the chat is enabled and
    whether a mention is required are for the entry alone to say. -/
def documentedSettings (ac : Json) (chatId : Int64) : ChatSettings :=
  match groupEntry ac chatId with
  | none =>
      { enabled := true
        policy := (policyOf ac).getD .open
        allowedUsers := defaultAllowlist toLowercase ac
        requireMention := (flag "require_mention" ac).getD false }
  | some entry =>
      { enabled := (flag "enabled" entry).getD true
        policy := ((policyOf entry).or (policyOf ac)).getD .open
        allowedUsers :=
          if entryAllowlist toLowercase entry = [] then defaultAllowlist toLowercase ac
          else entryAllowlist toLowercase entry
        requireMention := (flag "require_mention" entry).getD false }

/-- The decision under the settings of the chat; a direct message is for the default
    allowlist. -/
def decisionUnder (settings : Json → Int64 → ChatSettings) (ac : Json) (chatId : Int64)
    (sender : SenderIdentity) (isGroup botMentioned : Bool) : AccessDecision :=
  if isGroup then (settings ac chatId).decision sender botMentioned
  else if sender.matchesAny (defaultAllowlist toLowercase ac) then .allow
  else .deny .dmSenderNotAllowed

/-! ### What is read is what is documented -/

theorem get?_collectGroups_go (chatId : Int64) (fields : List (String × Json))
    (groups : KeyedMap Int64 GroupConfig) :
    (fields.foldl
      (fun groups e =>
        match readInt64 e.1 with
        | none => groups
        | some chatId => groups.set chatId (.fromJson toLowercase e.2))
      groups).get? chatId
      = ((lastEntry chatId fields).map (GroupConfig.fromJson toLowercase)).or
          (groups.get? chatId) := by
  induction fields generalizing groups with
  | nil => rfl
  | cons e rest ih =>
      rw [List.foldl_cons, ih, lastEntry]
      cases hlast : lastEntry chatId rest with
      | some entry => rfl
      | none =>
          cases hread : readInt64 e.1 with
          | none => rfl
          | some chat =>
              by_cases hchat : chat = chatId
              · simp [hchat]
              · have hne : chatId ≠ chat := Ne.symm hchat
                simp [hchat, hne]

theorem get?_groups (ac : Json) (chatId : Int64) :
    (AccessConfig.fromAccessControl toLowercase ac).groups.get? chatId
      = (groupEntry ac chatId).map (GroupConfig.fromJson toLowercase) := by
  rw [AccessConfig.fromAccessControl, groupEntry]
  cases (ac.get? "groups").bind Json.asObject with
  | none => rfl
  | some fields =>
      refine (get?_collectGroups_go toLowercase chatId fields ∅).trans ?_
      rw [KeyedMap.get?_empty, Option.or_none]
      rfl

/-- Options without an access configuration are those with an empty one. -/
theorem fromOptions_eq (options : JsonValue) :
    AccessConfig.fromOptions toLowercase options
      = .fromAccessControl toLowercase (accessControl options) := by
  rw [AccessConfig.fromOptions, accessControl]
  cases options.doc.get? "access_control" with
  | none => rfl
  | some ac => rfl

def AccessConfig.settings (cfg : AccessConfig) (chatId : Int64) : ChatSettings where
  enabled := !(cfg.groups.get? chatId).any fun gc => !gc.enabled
  policy := cfg.effectivePolicy chatId
  allowedUsers := cfg.effectiveAllowlist chatId
  requireMention := cfg.requiresMention chatId

theorem evaluateGroup_eq (cfg : AccessConfig) (chatId : Int64) (sender : SenderIdentity)
    (botMentioned : Bool) :
    evaluateGroup cfg chatId sender botMentioned
      = (cfg.settings chatId).decision sender botMentioned := by
  rw [evaluateGroup, ChatSettings.decision, mentionDecision]
  simp only [AccessConfig.settings, Bool.not_eq_false']
  split
  · rfl
  · split
    · rename_i hpolicy
      simp [hpolicy]
    · rename_i hpolicy
      by_cases hmatches : sender.matchesAny (cfg.effectiveAllowlist chatId) = true
      · simp [hpolicy, hmatches]
      · simp [hpolicy, hmatches]
    · rename_i hpolicy
      simp [hpolicy]

/-- The settings that are read are the documented ones. -/
theorem settings_fromAccessControl (ac : Json) (chatId : Int64) :
    (AccessConfig.fromAccessControl toLowercase ac).settings chatId
      = documentedSettings toLowercase ac chatId := by
  have hget := get?_groups toLowercase ac chatId
  rw [AccessConfig.settings, AccessConfig.effectivePolicy, AccessConfig.effectiveAllowlist,
    AccessConfig.requiresMention, documentedSettings, hget]
  cases groupEntry ac chatId with
  | none => rfl
  | some entry =>
      have hpolicy : (GroupConfig.fromJson toLowercase entry).groupPolicy = policyOf entry := rfl
      have hallowlist : (GroupConfig.fromJson toLowercase entry).allowedUsers
          = entryAllowlist toLowercase entry := rfl
      have hdefault : (AccessConfig.fromAccessControl toLowercase ac).groupPolicy
          = (policyOf ac).getD .open := rfl
      have henabled : (GroupConfig.fromJson toLowercase entry).enabled
          = (flag "enabled" entry).getD true := rfl
      simp only [Option.map_some, Option.bind_some, Option.any_some, Option.getD_some, hpolicy,
        hallowlist, hdefault, henabled, Bool.not_not, ChatSettings.mk.injEq, true_and]
      refine ⟨?_, ?_, rfl⟩
      · cases policyOf entry with
        | none => rfl
        | some policy => rfl
      · cases entryAllowlist toLowercase entry with
        | nil => rfl
        | cons user users => rfl

/-- **The decision is the documented one.** -/
theorem accessDecision_eq (options : JsonValue) (chatId : Int64) (sender : SenderIdentity)
    (isGroup botMentioned : Bool) :
    accessDecision toLowercase options chatId sender isGroup botMentioned
      = decisionUnder toLowercase (documentedSettings toLowercase) (accessControl options) chatId
          sender isGroup botMentioned := by
  rw [accessDecision, fromOptions_eq, evaluateAccess, decisionUnder, evaluateGroup_eq,
    settings_fromAccessControl]
  rfl

/-! ### Invalid values -/

def SameExcept (key : String) (a b : Json) : Prop := ∀ k, k ≠ key → b.get? k = a.get? k

/-- One configuration has `v` where the other has `bad`: under a key of its own, or under a
    key of the entry of the chat. -/
inductive Replaced (chatId : Int64) (key : String) (bad v ac ac' : Json) : Prop
  | default (before : ac.get? key = some bad) (now : ac'.get? key = some v)
      (same : SameExcept key ac ac')
  | group {entry entry' : Json} (entryBefore : groupEntry ac chatId = some entry)
      (entryNow : groupEntry ac' chatId = some entry') (before : entry.get? key = some bad)
      (now : entry'.get? key = some v) (sameEntry : SameExcept key entry entry')
      (same : SameExcept "groups" ac ac')

def ValidPolicy (v : Json) : Prop := ∃ policy, v.asStr.bind parseGroupPolicy = some policy

def ValidAllowlist (v : Json) : Prop :=
  ∃ items, v = .array items ∧ ∀ item ∈ items, (parseAllowlistEntry toLowercase item).isSome

def validEntries (v : Json) : Json :=
  .array ((v.asArray.getD []).filter fun item => (parseAllowlistEntry toLowercase item).isSome)

theorem parseAllowlist_validEntries (v : Json) :
    parseAllowlist toLowercase (validEntries toLowercase v) = parseAllowlist toLowercase v := by
  have hfilter : ∀ items : List Json,
      (items.filter fun item => (parseAllowlistEntry toLowercase item).isSome).filterMap
          (parseAllowlistEntry toLowercase)
        = items.filterMap (parseAllowlistEntry toLowercase) := by
    intro items
    rw [List.filterMap_filter]
    congr
    funext item
    cases parseAllowlistEntry toLowercase item with
    | none => rfl
    | some entry => rfl
  rw [parseAllowlist, parseAllowlist, validEntries]
  cases v.asArray with
  | none => rfl
  | some items => exact hfilter items

/-- A value lets nobody in whom some valid value in its place would keep out, together with
    everyone else: no sender of a message that the valid value drops whoever sends it. -/
def FailsClosed (key : String) (Invalid Valid : Json → Prop) (options : JsonValue) : Prop :=
  ∀ options' chatId bad v isGroup botMentioned, Invalid bad → Valid v →
    Replaced chatId key bad v (accessControl options) (accessControl options') →
    (∀ sender, accessDecision toLowercase options' chatId sender isGroup botMentioned ≠ .allow) →
    ∀ sender, accessDecision toLowercase options chatId sender isGroup botMentioned ≠ .allow

/-! ### An allowlist in another's place -/

theorem ChatSettings.decision_eq_allow_iff {settings : ChatSettings} {sender : SenderIdentity}
    {botMentioned : Bool} :
    settings.decision sender botMentioned = .allow ↔
      settings.enabled = true ∧ settings.policy ≠ .disabled ∧
        (settings.policy = .allowlist → sender.matchesAny settings.allowedUsers = true) ∧
        (settings.requireMention && !botMentioned) = false := by
  rw [decision]
  split
  · rename_i henabled
    simp [henabled]
  · split
    · rename_i hpolicy
      simp [hpolicy]
    · split
      · rename_i hdenied
        simp [hdenied.1, hdenied.2]
      · split
        · rename_i hmention
          simp [hmention]
        · rename_i henabled hpolicy hdenied hmention
          rw [not_and, Bool.not_eq_false] at hdenied
          simp only [true_iff]
          exact ⟨Bool.not_eq_false _ ▸ henabled, hpolicy, hdenied, Bool.not_eq_true _ ▸ hmention⟩

variable {chatId : Int64} {bad v ac ac' : Json}

theorem groupEntry_congr (h : ac'.get? "groups" = ac.get? "groups") :
    groupEntry ac' chatId = groupEntry ac chatId := by
  rw [groupEntry, groupEntry, h]

theorem policyOf_congr {j j' : Json} (h : j'.get? "group_policy" = j.get? "group_policy") :
    policyOf j' = policyOf j := by
  rw [policyOf, policyOf, h]

theorem flag_congr {key : String} {j j' : Json} (h : j'.get? key = j.get? key) :
    flag key j' = flag key j := by
  rw [flag, flag, h]

theorem defaultAllowlist_of_get? (h : ac.get? "allowed_users" = some v) :
    defaultAllowlist toLowercase ac = parseAllowlist toLowercase v := by
  rw [defaultAllowlist, h]
  rfl

theorem defaultAllowlist_congr (h : ac'.get? "allowed_users" = ac.get? "allowed_users") :
    defaultAllowlist toLowercase ac' = defaultAllowlist toLowercase ac := by
  rw [defaultAllowlist, defaultAllowlist, h]

theorem entryAllowlist_of_get? (h : ac.get? "allowed_users" = some v) :
    entryAllowlist toLowercase ac = parseAllowlist toLowercase v := by
  rw [entryAllowlist, h]
  rfl

def ChatSettings.withUsers (settings : ChatSettings) (users : List AllowlistEntry) : ChatSettings :=
  { settings with allowedUsers := users }

/-- The allowlist of an entry that has none with a valid entry is the default one. -/
def allowlistOr (users default : List AllowlistEntry) : List AllowlistEntry :=
  if users = [] then default else users

/-- What one allowlist in another's place changes: the allowlist of the chat, or nothing; and
    the default one, when it is the one replaced. -/
theorem settings_of_replaced (h : Replaced chatId "allowed_users" bad v ac ac') :
    (defaultAllowlist toLowercase ac = parseAllowlist toLowercase bad ∧
      defaultAllowlist toLowercase ac' = parseAllowlist toLowercase v ∧
      ∃ settings : ChatSettings, ∃ users,
        documentedSettings toLowercase ac chatId
          = settings.withUsers (allowlistOr users (parseAllowlist toLowercase bad)) ∧
        documentedSettings toLowercase ac' chatId
          = settings.withUsers (allowlistOr users (parseAllowlist toLowercase v))) ∨
    (defaultAllowlist toLowercase ac' = defaultAllowlist toLowercase ac ∧
      ∃ settings : ChatSettings, ∃ users,
        documentedSettings toLowercase ac chatId
          = settings.withUsers (allowlistOr (parseAllowlist toLowercase bad) users) ∧
        documentedSettings toLowercase ac' chatId
          = settings.withUsers (allowlistOr (parseAllowlist toLowercase v) users)) := by
  cases h with
  | default hbefore hnow hsame =>
      have hbad := defaultAllowlist_of_get? toLowercase hbefore
      have hv := defaultAllowlist_of_get? toLowercase hnow
      have hentry : groupEntry ac' chatId = groupEntry ac chatId :=
        groupEntry_congr (hsame _ (by decide))
      have hpolicy := policyOf_congr (hsame "group_policy" (by decide))
      have hflag := flag_congr (hsame "require_mention" (by decide))
      refine Or.inl ⟨hbad, hv, ?_⟩
      rw [documentedSettings, documentedSettings, hentry, hpolicy, hflag, hbad, hv]
      cases groupEntry ac chatId with
      | none => exact ⟨⟨_, _, [], _⟩, [], rfl, rfl⟩
      | some entry => exact ⟨⟨_, _, [], _⟩, entryAllowlist toLowercase entry, rfl, rfl⟩
  | group hentry hentry' hbefore hnow hsameEntry hsame =>
      rename_i entry entry'
      have hbad := entryAllowlist_of_get? toLowercase hbefore
      have hv := entryAllowlist_of_get? toLowercase hnow
      have hdefault := defaultAllowlist_congr toLowercase (hsame "allowed_users" (by decide))
      have hpolicy := policyOf_congr (hsame "group_policy" (by decide))
      have hpolicy' := policyOf_congr (hsameEntry "group_policy" (by decide))
      have henabled := flag_congr (hsameEntry "enabled" (by decide))
      have hflag := flag_congr (hsameEntry "require_mention" (by decide))
      refine Or.inr ⟨hdefault, ?_⟩
      rw [documentedSettings, documentedSettings, hentry, hentry']
      dsimp only
      rw [hpolicy, hpolicy', henabled, hflag, hdefault, hbad, hv]
      exact ⟨⟨_, _, [], _⟩, defaultAllowlist toLowercase ac, rfl, rfl⟩

/-- An allowlist counts as its valid entries. -/
theorem accessDecision_validEntries {options options' : JsonValue}
    (h : Replaced chatId "allowed_users" bad (validEntries toLowercase bad)
      (accessControl options) (accessControl options'))
    (sender : SenderIdentity) (isGroup botMentioned : Bool) :
    accessDecision toLowercase options' chatId sender isGroup botMentioned
      = accessDecision toLowercase options chatId sender isGroup botMentioned := by
  have hparse := parseAllowlist_validEntries toLowercase bad
  rw [accessDecision_eq, accessDecision_eq, decisionUnder, decisionUnder]
  rcases settings_of_replaced toLowercase h with
    ⟨hdefault, hdefault', settings, users, hsettings, hsettings'⟩ |
    ⟨hdefault, settings, users, hsettings, hsettings'⟩
  · rw [hdefault, hdefault', hsettings, hsettings', hparse]
  · rw [hdefault, hsettings, hsettings', hparse]

theorem eqIgnoreAsciiCase_refl (s : String) : eqIgnoreAsciiCase s s = true := beq_self_eq_true _

/-- An allowlist with an entry is for somebody. -/
theorem exists_matchesAny {users : List AllowlistEntry} (h : users ≠ []) :
    ∃ sender : SenderIdentity, sender.matchesAny users = true := by
  obtain ⟨entry, rest, rfl⟩ := List.exists_cons_of_ne_nil h
  have hmatches : ∃ sender : SenderIdentity, sender.matchesEntry entry = true := by
    cases entry with
    | wildcard => exact ⟨.default, rfl⟩
    | userId id => exact ⟨⟨some id, none⟩, beq_self_eq_true _⟩
    | username name => exact ⟨⟨none, some name⟩, eqIgnoreAsciiCase_refl name⟩
  obtain ⟨sender, hsender⟩ := hmatches
  refine ⟨sender, ?_⟩
  rw [SenderIdentity.matchesAny, List.any_cons, hsender, Bool.true_or]

/-- Whoever some settings let in, others with the same policy let somebody in when their
    allowlist is for somebody. -/
theorem exists_allowed {settings : ChatSettings} {users users' : List AllowlistEntry}
    {sender sender' : SenderIdentity} {botMentioned : Bool}
    (h : (settings.withUsers users).decision sender botMentioned = .allow)
    (hmatches : settings.policy = .allowlist → sender'.matchesAny users' = true) :
    (settings.withUsers users').decision sender' botMentioned = .allow := by
  obtain ⟨henabled, hpolicy, -, hmention⟩ := ChatSettings.decision_eq_allow_iff.mp h
  exact ChatSettings.decision_eq_allow_iff.mpr ⟨henabled, hpolicy, hmatches, hmention⟩

theorem failsClosed_allowlist (options : JsonValue) :
    FailsClosed toLowercase "allowed_users" (fun bad => parseAllowlist toLowercase bad = [])
      (ValidAllowlist toLowercase) options := by
  intro options' chatId bad v isGroup botMentioned hnone _ hreplaced hall sender hallow
  simp only [accessDecision_eq, decisionUnder] at hall hallow
  cases isGroup with
  | false =>
      rcases settings_of_replaced toLowercase hreplaced with ⟨hdefault, -⟩ | ⟨hdefault, -⟩
      · rw [hdefault, hnone] at hallow
        cases hallow
      · rw [hdefault] at hall
        exact hall sender hallow
  | true =>
      simp only [if_true] at hall hallow
      rcases settings_of_replaced toLowercase hreplaced with
        ⟨-, -, settings, users, hsettings, hsettings'⟩ | ⟨-, settings, users, hsettings, hsettings'⟩
      · rw [hsettings, hnone] at hallow
        rw [hsettings'] at hall
        by_cases hempty : users = []
        · -- nobody is on the allowlist of the chat, so the policy is another
          obtain ⟨-, -, hmatches, -⟩ := ChatSettings.decision_eq_allow_iff.mp hallow
          rw [hempty] at hmatches
          exact hall sender (exists_allowed hallow fun hpolicy => nomatch hmatches hpolicy)
        · rw [allowlistOr, if_neg hempty] at hallow hall
          exact hall sender hallow
      · rw [hsettings, hnone] at hallow
        rw [hsettings'] at hall
        by_cases hempty : parseAllowlist toLowercase v = []
        · rw [hempty] at hall
          exact hall sender hallow
        · rw [allowlistOr, if_neg hempty] at hall
          obtain ⟨somebody, hsomebody⟩ := exists_matchesAny hempty
          exact hall somebody (exists_allowed hallow fun _ => hsomebody)

end

/-! ### What is documented, and what is not -/

/-- The decision is the documented one, an allowlist counts as its valid entries, and one
    without any fails closed. -/
structure AccessDocumented (toLowercase : String → String) (options : JsonValue) : Prop where
  decision : ∀ chatId sender isGroup botMentioned,
    accessDecision toLowercase options chatId sender isGroup botMentioned
      = decisionUnder toLowercase (documentedSettings toLowercase) (accessControl options) chatId
          sender isGroup botMentioned
  validEntries : ∀ options' chatId bad,
    Replaced chatId "allowed_users" bad (validEntries toLowercase bad) (accessControl options)
      (accessControl options') →
    ∀ sender isGroup botMentioned,
      accessDecision toLowercase options' chatId sender isGroup botMentioned
        = accessDecision toLowercase options chatId sender isGroup botMentioned
  failsClosed : FailsClosed toLowercase "allowed_users"
    (fun bad => parseAllowlist toLowercase bad = []) (ValidAllowlist toLowercase) options

/-- **Access control does what is documented of its options.** -/
theorem access_documented (toLowercase : String → String) (options : JsonValue) :
    AccessDocumented toLowercase options where
  decision := accessDecision_eq toLowercase options
  validEntries _ _ _ hreplaced := accessDecision_validEntries toLowercase hreplaced
  failsClosed := failsClosed_allowlist toLowercase options

/-- Every setting that the entry of a chat has overrides the default, and every other is
    inherited. -/
def inheritedSettings (toLowercase : String → String) (ac : Json) (chatId : Int64) :
    ChatSettings :=
  let setting := fun key => ((groupEntry ac chatId).bind (Json.get? key)).or (ac.get? key)
  { enabled := ((setting "enabled").bind Json.asBool).getD true
    policy := (((setting "group_policy").bind Json.asStr).bind parseGroupPolicy).getD .open
    allowedUsers := ((setting "allowed_users").map (parseAllowlist toLowercase)).getD [.wildcard]
    requireMention := ((setting "require_mention").bind Json.asBool).getD false }

/-- All settings are inherited, and all invalid policies and allowlists fail closed. -/
structure AccessInherited (toLowercase : String → String) (options : JsonValue) : Prop where
  decision : ∀ chatId sender isGroup botMentioned,
    accessDecision toLowercase options chatId sender isGroup botMentioned
      = decisionUnder toLowercase (inheritedSettings toLowercase) (accessControl options) chatId
          sender isGroup botMentioned
  policy : FailsClosed toLowercase "group_policy" (fun bad => ¬ValidPolicy bad) ValidPolicy options
  allowlist : FailsClosed toLowercase "allowed_users"
    (fun bad => ¬ValidAllowlist toLowercase bad) (ValidAllowlist toLowercase) options

namespace Sample

def accessOptions (fields : List (String × Json)) : JsonValue :=
  .ofDoc (.object [("access_control", .object fields)])

def misspelt : JsonValue := accessOptions [("group_policy", .string "disable")]

def emptyAllowlist : JsonValue :=
  accessOptions
    [("group_policy", .string "allowlist"),
     ("groups", .object [("7", .object [("allowed_users", .array [])])])]

/-- A group with an entry that does not say whether a mention is required. -/
def silentEntry : JsonValue :=
  accessOptions [("require_mention", .bool true), ("groups", .object [("7", .object [])])]

/-- An allowlist with an entry that is read and one that is not. -/
def partlyValid : JsonValue := accessOptions [("allowed_users", .array [.string "*", .null])]

end Sample

/-- An empty allowlist of a group does not override the default one, a group with an entry does
    not inherit that a mention is required, a misspelt policy opens the groups, and an
    allowlist lets in the senders of its valid entries. -/
theorem access_not_inherited :
    ¬AccessInherited id Sample.emptyAllowlist ∧ ¬AccessInherited id Sample.silentEntry ∧
      ¬AccessInherited id Sample.misspelt ∧ ¬AccessInherited id Sample.partlyValid := by
  refine ⟨?_, ?_, ?_, ?_⟩
  · intro h
    have hdecision := h.decision 7 .default true false
    revert hdecision
    decide
  · intro h
    have hdecision := h.decision 7 .default true false
    revert hdecision
    decide
  · intro h
    have hvalid : ValidPolicy (.string "disabled") := ⟨.disabled, rfl⟩
    have hinvalid : ¬ValidPolicy (.string "disable") := by
      rintro ⟨policy, hpolicy⟩
      revert hpolicy
      cases policy <;> decide
    have hclosed := h.policy (Sample.accessOptions [("group_policy", .string "disabled")]) 7
      (.string "disable") (.string "disabled") true false hinvalid hvalid
    refine hclosed (.default (by decide) (by decide) ?_) ?_ .default (by decide)
    · intro k hk
      have hmisspelt : accessControl Sample.misspelt
          = .object [("group_policy", .string "disable")] := by decide
      have hdisabled : accessControl (Sample.accessOptions [("group_policy", .string "disabled")])
          = .object [("group_policy", .string "disabled")] := by decide
      have hother : (k == "group_policy") = false := beq_eq_false_iff_ne.mpr hk
      rw [hmisspelt, hdisabled]
      simp [Json.get?, List.lookup_cons, hother]
    · intro sender hallow
      have hdisabled : accessDecision id
          (Sample.accessOptions [("group_policy", .string "disabled")]) 7 sender true false
          = .deny .groupPolicyDisabled := rfl
      rw [hdisabled] at hallow
      cases hallow
  · intro h
    have hvalid : ValidAllowlist id (.array []) := ⟨[], rfl, fun item hitem => by cases hitem⟩
    have hinvalid : ¬ValidAllowlist id (.array [.string "*", .null]) := by
      rintro ⟨items, hitems, hread⟩
      cases hitems
      have hnull := hread .null (by simp)
      revert hnull
      decide
    have hclosed := h.allowlist (Sample.accessOptions [("allowed_users", .array [])]) 7
      (.array [.string "*", .null]) (.array []) false false hinvalid hvalid
    refine hclosed (.default (by decide) (by decide) ?_) ?_ .default (by decide)
    · intro k hk
      have hpartly : accessControl Sample.partlyValid
          = .object [("allowed_users", .array [.string "*", .null])] := by decide
      have hempty : accessControl (Sample.accessOptions [("allowed_users", .array [])])
          = .object [("allowed_users", .array [])] := by decide
      have hother : (k == "allowed_users") = false := beq_eq_false_iff_ne.mpr hk
      rw [hpartly, hempty]
      simp [Json.get?, List.lookup_cons, hother]
    · intro sender hallow
      have hnobody : accessDecision id
          (Sample.accessOptions [("allowed_users", .array [])]) 7 sender false false
          = .deny .dmSenderNotAllowed := rfl
      rw [hnobody] at hallow
      cases hallow

end Anyclaw
