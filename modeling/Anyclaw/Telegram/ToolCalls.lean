import Mathlib.Data.List.Induction
import Anyclaw.Library.Json
import Anyclaw.Library.KeyedMap
import Anyclaw.Telegram.Formatting
import Anyclaw.Telegram.Turn

/-!
# The tool calls of a turn

A turn keeps the tool calls of the agent in a map, the order in which they are shown in a
list, and shows them together in one message.  A `ToolCall` starts a call and a
`ToolCallUpdate` gives it a new status, unless the status is a terminal one.  Only updates
are checked: a call that is started again is listed again and forgets that it was over.

The map is `tool_calls` of `ChatTurn` (`ext/channels/telegram/src/turn.rs`); `deliver_to_chat`
(`deliver.rs`) changes it and `render_tools_text` shows it.
-/

namespace Anyclaw.Telegram

/-! ### Calls -/

inductive ToolCallStatus where
  | started
  | inProgress
  | completed
  | failed (output : Option String)
deriving DecidableEq

def ToolCallStatus.isTerminal : ToolCallStatus → Bool
  | .completed | .failed _ => true
  | .started | .inProgress => false

structure ToolCallTrack where
  name : String
  status : ToolCallStatus
  input : Option Json
deriving DecidableEq

/-! ### Arguments -/

def COLLAPSED_MAX_LEN : Nat := 60

def LARGE_VALUE_THRESHOLD : Nat := 200

inductive ArgsSummary where
  | none
  | collapsed (summary : String)
  | expanded (summary : String)

/-- `format!("({kb:.1}kb)")` with `kb` the length over 1024, which is exact: the nearest
    tenth, and the even one of two. -/
def formatKb (len : Nat) : String :=
  let tenths := len * 10 / 1024
  let rest := len * 10 % 1024
  let tenths := if 512 < rest ∨ rest = 512 ∧ tenths % 2 = 1 then tenths + 1 else tenths
  "(" ++ toString (tenths / 10) ++ "." ++ toString (tenths % 10) ++ "kb)"

/-- The text of a number is that of `serde_json`. -/
def formatArgValue (numberText : JsonNumber → String) : Json → String
  | .string s => if s.utf8ByteSize > LARGE_VALUE_THRESHOLD then formatKb s.utf8ByteSize else s
  | .null => "null"
  | .bool b => toString b
  | .number n => numberText n
  | .array items => "[" ++ toString items.length ++ " items]"
  | .object fields => "\x7b" ++ toString fields.length ++ " keys\x7d"

def formatToolArgs (numberText : JsonNumber → String) : Option Json → ArgsSummary
  | some (.object fields) =>
      let pairs := fields.map fun e => e.1 ++ ": " ++ formatArgValue numberText e.2
      match pairs with
      | [] => .none
      | [summary] =>
          if summary.utf8ByteSize ≤ COLLAPSED_MAX_LEN then .collapsed summary
          else .expanded summary
      | pairs => .expanded (", ".intercalate pairs)
  | _ => .none

/-! ### The turn -/

/-- A turn with its tool calls.  `toolsMsgId` is 0 until their message has been sent. -/
structure ToolTurn extends ChatTurn where
  toolCalls : KeyedMap String ToolCallTrack
  toolsMsgId : Nat
  /-- In the order of insertion. -/
  toolCallOrder : List String
  renderTick : UInt32
  lastToolsEdit : Nat

namespace ToolTurn

def new (messageId : String) (now : Nat) : ToolTurn where
  toChatTurn := ChatTurn.new messageId
  toolCalls := ∅
  toolsMsgId := 0
  toolCallOrder := []
  renderTick := 0
  lastToolsEdit := now - 60000

variable (numberText : JsonNumber → String) (t : ToolTurn)

/-- The dots of the calls that are not over yet. -/
def dots (tick : UInt32) : String :=
  match (tick % 3).toNat with
  | 0 => "."
  | 1 => ".."
  | _ => "..."

def argsDetail (input : Option Json) : String :=
  match formatToolArgs numberText input with
  | .none => ""
  | .collapsed s | .expanded s => "\n   " ++ escapeHtml s

def statusSuffix (tick : UInt32) : ToolCallStatus → String
  | .started | .inProgress => dots tick
  | .completed => "✅"
  | .failed _ => "❌"

def detailLine (track : ToolCallTrack) : String :=
  match track.status with
  | .started | .inProgress | .completed => argsDetail numberText track.input
  | .failed (some err) => "\n   <pre>" ++ escapeHtml err ++ "</pre>"
  | .failed none => ""

def block (tick : UInt32) (track : ToolCallTrack) : String :=
  "🔧 <code>" ++ escapeHtml track.name ++ "</code> " ++ statusSuffix tick track.status ++
    detailLine numberText track

def renderToolsText : String × ToolTurn :=
  let tick := t.renderTick + 1
  ("\n".intercalate ((t.toolCallOrder.filterMap t.toolCalls.get?).map (block numberText tick)),
    { t with renderTick := tick })

def canEditTools (cooldown now : Nat) : Bool × ToolTurn :=
  if now - t.lastToolsEdit < cooldown then (false, t)
  else (true, { t with lastToolsEdit := now })

/-! ### Events -/

/-- A call is put at the end of the list, and into the map in the place of one with its id. -/
def track (name toolCallId : String) (input : Option Json) : ToolTurn :=
  { t with
    toolCallOrder := t.toolCallOrder ++ [toolCallId]
    toolCalls := t.toolCalls.set toolCallId ⟨name, .started, input⟩ }

/-- What is sent: the text, and the message that it replaces, 0 for a new one. -/
abbrev Shown := Option (String × Nat)

def toolCall (name toolCallId : String) (input : Option Json) (messageId : Option String) :
    ToolTurn × Shown :=
  if t.isFinalizing then (t, none)
  else
    let t := { t with toChatTurn := (t.rename (messageId.getD "")).unsuppress }
    let displayName := if name = "" then "tool" else name
    let t := if toolCallId ≠ "" then t.track displayName toolCallId input else t
    let (text, t) := t.renderToolsText numberText
    (t, if text = "" then none else some (text, t.toolsMsgId))

def newStatus (status : String) (output : Option String) (exitCode : Option Int64) :
    ToolCallStatus :=
  if status = "completed" ∧ exitCode.any (· ≠ 0) then .failed output
  else if status = "in_progress" then .inProgress
  else if status = "completed" then .completed
  else if status = "failed" then .failed output
  else .inProgress

/-- The call after an update: its input, if it came late, and its status. -/
def updated (track : ToolCallTrack) (status : String) (output : Option String)
    (input : Option Json) (exitCode : Option Int64) : ToolCallTrack :=
  { track with
    input := if track.input.isNone ∧ input.isSome then input else track.input
    status := newStatus status output exitCode }

def toolCallUpdate (toolCallId status : String) (output : Option String) (input : Option Json)
    (exitCode : Option Int64) (cooldown now : Nat) : ToolTurn × Shown :=
  if t.isFinalizing then (t, none)
  else
    match t.toolCalls.get? toolCallId with
    | none => (t, none)
    | some track =>
        if track.status.isTerminal then (t, none)
        else
          let track := updated track status output input exitCode
          let t := { t with toolCalls := t.toolCalls.set toolCallId track }
          let (canEdit, t) :=
            if track.status.isTerminal then (true, t) else t.canEditTools cooldown now
          if canEdit then
            let (text, t) := t.renderToolsText numberText
            (t, if t.toolsMsgId ≠ 0 ∧ text ≠ "" then some (text, t.toolsMsgId) else none)
          else (t, none)

/-- What happens to a turn.  Thoughts, the answer and the timers change the rest of it only. -/
inductive Event where
  | toolCall (name toolCallId : String) (input : Option Json) (messageId : Option String)
  | toolCallUpdate (toolCallId status : String) (output : Option String) (input : Option Json)
      (exitCode : Option Int64) (cooldown now : Nat)
  | sent (msgId : Nat)
  | other (turn : ChatTurn)

def step : Event → ToolTurn × Shown
  | .toolCall name toolCallId input messageId =>
      t.toolCall numberText name toolCallId input messageId
  | .toolCallUpdate toolCallId status output input exitCode cooldown now =>
      t.toolCallUpdate numberText toolCallId status output input exitCode cooldown now
  | .sent msgId => ({ t with toolsMsgId := msgId }, none)
  | .other turn => ({ t with toChatTurn := turn }, none)

def after (events : List Event) : ToolTurn :=
  events.foldl (fun t e => (t.step numberText e).1) t

/-! ### What a step does to the calls -/

def starts : Event → Option String
  | .toolCall _ toolCallId _ _ =>
      if t.isFinalizing ∨ toolCallId = "" then none else some toolCallId
  | _ => none

def startedCalls : ToolTurn → List Event → List String
  | _, [] => []
  | t, e :: events => (t.starts e).toList ++ startedCalls (t.step numberText e).1 events

variable {numberText t} {e : Event} {events : List Event}

/-- The list and the map stay as they are, or a call is started, or one that is not over gets
    a new status. -/
theorem step_cases (numberText : JsonNumber → String) (t : ToolTurn) (e : Event) :
    (t.starts e = none ∧ (t.step numberText e).1.toolCallOrder = t.toolCallOrder ∧
      (t.step numberText e).1.toolCalls = t.toolCalls) ∨
    (∃ id track, t.starts e = some id ∧
      (t.step numberText e).1.toolCallOrder = t.toolCallOrder ++ [id] ∧
      (t.step numberText e).1.toolCalls = t.toolCalls.set id track) ∨
    (∃ id track track', t.starts e = none ∧ t.toolCalls.get? id = some track ∧
      track.status.isTerminal = false ∧
      (t.step numberText e).1.toolCallOrder = t.toolCallOrder ∧
      (t.step numberText e).1.toolCalls = t.toolCalls.set id track') := by
  cases e with
  | toolCall name toolCallId input messageId =>
      simp only [step, toolCall, starts]
      by_cases hfinal : t.isFinalizing = true
      · left
        simp [hfinal]
      · by_cases hid : toolCallId = ""
        · left
          simp [hfinal, hid, renderToolsText]
        · right
          left
          refine ⟨toolCallId, ⟨if name = "" then "tool" else name, .started, input⟩, ?_⟩
          simp [hfinal, hid, renderToolsText, track]
  | toolCallUpdate toolCallId status output input exitCode cooldown now =>
      simp only [step, toolCallUpdate, starts]
      by_cases hfinal : t.isFinalizing = true
      · left
        simp [hfinal]
      · rw [if_neg hfinal]
        cases htrack : t.toolCalls.get? toolCallId with
        | none =>
            left
            simp
        | some track =>
            by_cases hover : track.status.isTerminal = true
            · left
              simp [hover]
            · right
              right
              refine ⟨toolCallId, track, updated track status output input exitCode, trivial, htrack,
                by simpa using hover, ?_⟩
              simp only [hover, Bool.false_eq_true, if_false]
              -- whether the message is edited changes neither the list nor the map
              split
              · constructor
                · rfl
                · rfl
              · simp only [canEditTools]
                split
                · constructor
                  · rfl
                  · rfl
                · constructor
                  · rfl
                  · rfl
  | sent msgId =>
      left
      exact ⟨rfl, rfl, rfl⟩
  | other turn =>
      left
      exact ⟨rfl, rfl, rfl⟩

@[simp] theorem after_nil : t.after numberText [] = t := rfl

theorem after_concat (events : List Event) (e : Event) :
    t.after numberText (events ++ [e]) = ((t.after numberText events).step numberText e).1 := by
  rw [after, List.foldl_append]
  rfl

theorem startedCalls_concat (events : List Event) (e : Event) :
    t.startedCalls numberText (events ++ [e]) =
      t.startedCalls numberText events ++ ((t.after numberText events).starts e).toList := by
  induction events generalizing t with
  | nil => simp [startedCalls]
  | cons first events ih =>
      rw [List.cons_append, startedCalls, startedCalls, ih, List.append_assoc]
      rfl

/-! ### What the message of a turn shows -/

/-- The list and the map hold the same calls, and the text has one block for each call with
    one of the given ids, in their order. -/
structure ShowsCalls (numberText : JsonNumber → String) (t : ToolTurn) (ids : List String) :
    Prop where
  nodup : t.toolCallOrder.Nodup
  keys : ∀ id, id ∈ t.toolCallOrder ↔ (t.toolCalls.get? id).isSome = true
  shown : ∃ tracks : List ToolCallTrack, ids.map t.toolCalls.get? = tracks.map some ∧
    (t.renderToolsText numberText).1 =
      "\n".intercalate (tracks.map (block numberText (t.renderTick + 1)))

/-- A call that is over is still over later. -/
def StaysOver (t t' : ToolTurn) : Prop :=
  ∀ id track, t.toolCalls.get? id = some track → track.status.isTerminal = true →
    ∃ track', t'.toolCalls.get? id = some track' ∧ track'.status.isTerminal = true

/-- **The tracking of a turn is right** when after all events so far the message shows each
    call once, in the order of first appearance, and no call that was over is shown as
    running. -/
structure TracksCalls (numberText : JsonNumber → String) (t : ToolTurn) (events : List Event) :
    Prop where
  shows : ∀ p, p <+: events → ShowsCalls numberText (t.after numberText p)
    (t.startedCalls numberText p).eraseDups
  staysOver : ∀ p q, p ++ q <+: events →
    StaysOver (t.after numberText p) (t.after numberText (p ++ q))

/-- No `ToolCall` that is taken has the id of a call of the turn. -/
def NoRestart (numberText : JsonNumber → String) (t : ToolTurn) (events : List Event) : Prop :=
  ∀ p e, p ++ [e] <+: events → ∀ id, (t.after numberText p).starts e = some id →
    (t.after numberText p).toolCalls.get? id = none

/-- The list has the calls that were started, none twice, and so has the map. -/
structure Listed (numberText : JsonNumber → String) (t : ToolTurn) (events : List Event) :
    Prop where
  order : (t.after numberText events).toolCallOrder = t.startedCalls numberText events
  nodup : (t.after numberText events).toolCallOrder.Nodup
  keys : ∀ id, id ∈ (t.after numberText events).toolCallOrder ↔
    ((t.after numberText events).toolCalls.get? id).isSome = true

theorem listed_new (numberText : JsonNumber → String) (messageId : String) (now : Nat) :
    Listed numberText (new messageId now) [] where
  order := rfl
  nodup := List.nodup_nil
  keys := by
    intro id
    simp [new]

theorem Listed.step (h : Listed numberText t events)
    (hnew : ∀ id, (t.after numberText events).starts e = some id →
      (t.after numberText events).toolCalls.get? id = none) :
    Listed numberText t (events ++ [e]) := by
  have hstart : t.startedCalls numberText (events ++ [e]) =
      t.startedCalls numberText events ++ ((t.after numberText events).starts e).toList :=
    startedCalls_concat events e
  rcases step_cases numberText (t.after numberText events) e with
    ⟨hno, horder, hcalls⟩ | ⟨id, track, hid, horder, hcalls⟩ |
    ⟨id, track, track', hno, htrack, _, horder, hcalls⟩
  · constructor
    · rw [after_concat, horder, hstart, hno, h.order]
      simp
    · rw [after_concat, horder]
      exact h.nodup
    · rw [after_concat, horder, hcalls]
      exact h.keys
  · have hfresh := hnew id hid
    have hnot : id ∉ (t.after numberText events).toolCallOrder := by
      rw [h.keys, hfresh]
      simp
    constructor
    · rw [after_concat, horder, hstart, hid, h.order]
      rfl
    · rw [after_concat, horder]
      exact List.nodup_append.mpr ⟨h.nodup, List.nodup_singleton id, by
        intro a ha b hb heq
        rw [List.mem_singleton.mp hb] at heq
        rw [heq] at ha
        exact hnot ha⟩
    · intro other
      rw [after_concat, horder, hcalls, KeyedMap.get?_set, List.mem_append, List.mem_singleton]
      by_cases heq : other = id
      · simp [heq]
      · simp [heq, h.keys other]
  · constructor
    · rw [after_concat, horder, hstart, hno, h.order]
      simp
    · rw [after_concat, horder]
      exact h.nodup
    · intro other
      rw [after_concat, horder, hcalls, KeyedMap.get?_set, h.keys other]
      by_cases heq : other = id
      · simp [heq, htrack]
      · simp [heq]

theorem NoRestart.upTo {p : List Event} (h : NoRestart numberText t events)
    (hp : p <+: events) : NoRestart numberText t p := by
  intro q e hq
  exact h q e (hq.trans hp)

theorem Listed.run {messageId : String} {now : Nat}
    (h : NoRestart numberText (new messageId now) events) :
    Listed numberText (new messageId now) events := by
  induction events using List.reverseRecOn with
  | nil => exact listed_new numberText messageId now
  | append_singleton events e ih =>
      exact (ih (h.upTo (List.prefix_append events [e]))).step (h events e (List.prefix_refl _))

theorem eraseDups_of_nodup {ids : List String} (h : ids.Nodup) : ids.eraseDups = ids := by
  induction ids with
  | nil => rfl
  | cons id ids ih =>
      obtain ⟨hnot, hnodup⟩ := List.nodup_cons.mp h
      have hfilter : ids.filter (fun other => !other == id) = ids := by
        apply List.filter_eq_self.mpr
        intro other hother
        have hne : other ≠ id := by
          rintro rfl
          exact hnot hother
        simpa using hne
      rw [List.eraseDups_cons, hfilter, ih hnodup]

theorem Listed.showsCalls (h : Listed numberText t events) :
    ShowsCalls numberText (t.after numberText events)
      (t.startedCalls numberText events).eraseDups where
  nodup := h.nodup
  keys := h.keys
  shown := by
    rw [← h.order, eraseDups_of_nodup h.nodup]
    refine ⟨(t.after numberText events).toolCallOrder.filterMap
      (t.after numberText events).toolCalls.get?, ?_, rfl⟩
    have hall : ∀ id ∈ (t.after numberText events).toolCallOrder,
        ((t.after numberText events).toolCalls.get? id).isSome = true := by
      intro id hid
      exact (h.keys id).mp hid
    revert hall
    generalize (t.after numberText events).toolCallOrder = ids
    intro hall
    induction ids with
    | nil => rfl
    | cons id ids ih =>
        obtain ⟨track, htrack⟩ := Option.isSome_iff_exists.mp (hall id (List.mem_cons_self ..))
        rw [List.filterMap_cons, htrack, List.map_cons, List.map_cons, htrack, ih]
        intro other hother
        exact hall other (List.mem_cons_of_mem id hother)

theorem StaysOver.refl (t : ToolTurn) : StaysOver t t := fun _ track h hover => ⟨track, h, hover⟩

theorem StaysOver.trans {t t' t'' : ToolTurn} (h : StaysOver t t') (h' : StaysOver t' t'') :
    StaysOver t t'' := by
  intro id track htrack hover
  obtain ⟨track', htrack', hover'⟩ := h id track htrack hover
  exact h' id track' htrack' hover'

/-- An event that starts no call of the turn again leaves the calls that are over alone. -/
theorem staysOver_step (hnew : ∀ id, t.starts e = some id → t.toolCalls.get? id = none) :
    StaysOver t (t.step numberText e).1 := by
  intro id track htrack hover
  rcases step_cases numberText t e with
    ⟨_, _, hcalls⟩ | ⟨other, track', hid, _, hcalls⟩ |
    ⟨other, running, track', _, hrunning, hnot, _, hcalls⟩
  · rw [hcalls]
    exact ⟨track, htrack, hover⟩
  · have hne : id ≠ other := by
      rintro rfl
      rw [hnew id hid] at htrack
      cases htrack
    rw [hcalls, KeyedMap.get?_set, if_neg hne]
    exact ⟨track, htrack, hover⟩
  · have hne : id ≠ other := by
      rintro rfl
      rw [htrack] at hrunning
      cases hrunning
      rw [hover] at hnot
      cases hnot
    rw [hcalls, KeyedMap.get?_set, if_neg hne]
    exact ⟨track, htrack, hover⟩

theorem NoRestart.staysOver {p q : List Event} (h : NoRestart numberText t (p ++ q)) :
    StaysOver (t.after numberText p) (t.after numberText (p ++ q)) := by
  induction q using List.reverseRecOn with
  | nil =>
      rw [List.append_nil]
      exact StaysOver.refl _
  | append_singleton q e ih =>
      rw [← List.append_assoc] at h ⊢
      have hbefore := ih (h.upTo (List.prefix_append (p ++ q) [e]))
      rw [after_concat]
      exact hbefore.trans (staysOver_step (h (p ++ q) e (List.prefix_refl _)))

/-- **The tracking of a turn is right** exactly when no call of the turn is started again. -/
theorem tracksCalls_iff (numberText : JsonNumber → String) (messageId : String) (now : Nat)
    (events : List Event) :
    TracksCalls numberText (new messageId now) events ↔
      NoRestart numberText (new messageId now) events := by
  constructor
  · intro h p e hp id hid
    -- a call that is started again is listed twice
    have hnow := h.shows p ((List.prefix_append p [e]).trans hp)
    have hnext := (h.shows (p ++ [e]) hp).nodup
    rw [after_concat] at hnext
    by_contra hsome
    have hmem : id ∈ ((new messageId now).after numberText p).toolCallOrder := by
      rw [hnow.keys]
      exact Option.isSome_iff_ne_none.mpr hsome
    rcases step_cases numberText ((new messageId now).after numberText p) e with
      ⟨hno, _⟩ | ⟨other, _, hother, horder, _⟩ | ⟨_, _, _, hno, _⟩
    · rw [hid] at hno
      cases hno
    · rw [hid] at hother
      cases hother
      rw [horder] at hnext
      exact (List.nodup_append.mp hnext).2.2 id hmem id (List.mem_singleton_self id) rfl
    · rw [hid] at hno
      cases hno
  · intro h
    constructor
    · intro p hp
      exact (Listed.run (h.upTo hp)).showsCalls
    · intro p q hpq
      exact (h.upTo hpq).staysOver

/-- A call that is over, and is started again with its input. -/
def restartedCall : List Event :=
  [.toolCall "read" "c1" none none, .toolCallUpdate "c1" "completed" none none none 0 0,
    .toolCall "read" "c1" (some (.object [])) none]

/-- It is listed twice, and shown as running. -/
theorem call_restarted :
    ¬TracksCalls (fun _ => "0") (new "m" 0) restartedCall ∧
      (((new "m" 0).after (fun _ => "0") restartedCall).toolCalls.get? "c1").map
        ToolCallTrack.status = some .started := by
  constructor
  · intro h
    have hnodup := (h.shows _ (List.prefix_refl _)).nodup
    exact absurd hnodup (by decide)
  · rfl

end ToolTurn

end Anyclaw.Telegram
