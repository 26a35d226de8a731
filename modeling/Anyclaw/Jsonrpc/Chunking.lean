import Anyclaw.Jsonrpc.Codec
import Anyclaw.Library.Decimal
import Mathlib.Data.List.TakeWhile
import Mathlib.Data.List.Infix

/-!
# A stream that comes in chunks

The decoder is called after each chunk, until it finds no further message in the buffer.  The
limit is applied to a line without its carriage return when the line is complete, and to all
that is in the buffer when it is not.  So a line of exactly the limit is an error when the
stream is cut between its carriage return and its newline, and a message otherwise; and the
text of the error for a longer line tells how much of it has come.

The decoder is `NdJsonCodec::decode` of `crates/anyclaw-jsonrpc/src/codec.rs`, its limit is
`MAX_LINE_SIZE` there.

* `decodeChunks_iff`: when the messages and the first error are those of the whole stream.
-/

namespace Anyclaw

namespace NdJsonCodec

/-! ### Lines -/

/-- The complete lines of a stream, and the line that is not finished. -/
def lines : List UInt8 → List (List UInt8) × List UInt8
  | [] => ([], [])
  | b :: src =>
      if b = newline then ([] :: (lines src).1, (lines src).2)
      else
        match (lines src).1 with
        | [] => ([], b :: (lines src).2)
        | line :: rest => ((b :: line) :: rest, (lines src).2)

theorem lines_of_not_mem {src : List UInt8} (h : newline ∉ src) : lines src = ([], src) := by
  induction src with
  | nil => rfl
  | cons b src ih =>
      rw [List.mem_cons, not_or] at h
      rw [lines, if_neg (Ne.symm h.1), ih h.2]

theorem lines_line {line rest : List UInt8} (h : newline ∉ line) :
    lines (line ++ newline :: rest) = (line :: (lines rest).1, (lines rest).2) := by
  induction line with
  | nil => rw [List.nil_append, lines, if_pos rfl]
  | cons b line ih =>
      rw [List.mem_cons, not_or] at h
      rw [List.cons_append, lines, if_neg (Ne.symm h.1), ih h.2]

/-- What comes later continues the unfinished line. -/
theorem lines_append (a b : List UInt8) :
    lines (a ++ b)
      = ((lines a).1 ++ (lines ((lines a).2 ++ b)).1, (lines ((lines a).2 ++ b)).2) := by
  induction a with
  | nil => rfl
  | cons x a ih =>
      rw [List.cons_append, lines, lines, ih]
      by_cases hx : x = newline
      · rw [if_pos hx, if_pos hx]
        rfl
      · rw [if_neg hx, if_neg hx]
        cases hlines : (lines a).1 with
        | nil =>
            simp only [List.nil_append, List.cons_append, lines, if_neg hx]
        | cons line rest => rfl

theorem newline_not_mem_unfinished (src : List UInt8) : newline ∉ (lines src).2 := by
  induction src with
  | nil => exact List.not_mem_nil
  | cons b src ih =>
      rw [lines]
      by_cases hb : b = newline
      · rw [if_pos hb]
        exact ih
      · rw [if_neg hb]
        cases (lines src).1 with
        | nil =>
            rw [List.mem_cons, not_or]
            exact ⟨Ne.symm hb, ih⟩
        | cons line rest => exact ih

/-! ### Reading lines -/

/-- The line without its carriage return exceeds the limit. -/
def TooLong (line : List UInt8) : Prop := maxLineSize < (trim line).length

instance (line : List UInt8) : Decidable (TooLong line) :=
  inferInstanceAs (Decidable (_ < _))

def lineMessage (serde : SerdeJson) (line : List UInt8) : Option JsonRpcMessage :=
  if trim line = [] then none else (serde.fromSlice (trim line)).bind readJsonRpcMessage

def lineError (line : List UInt8) : String :=
  s!"line of {(trim line).length} bytes exceeds {maxLineSize} byte limit"

def bufferError (length : Nat) : String :=
  s!"accumulated {length} bytes without newline, exceeds {maxLineSize} byte limit"

theorem decodeLine_eq (serde : SerdeJson) (line : List UInt8) :
    decodeLine serde (trim line)
      = if TooLong line then .error (lineError line) else .ok (lineMessage serde line) := by
  rw [decodeLine, lineMessage]
  by_cases hempty : trim line = []
  · have hshort : ¬TooLong line := by simp [TooLong, hempty]
    rw [if_pos hempty, if_neg hshort, if_pos hempty]
  · rw [if_neg hempty, if_neg hempty]
    rfl

/-- What is decoded: the messages up to the first error, and the error. -/
abbrev Decoded := List JsonRpcMessage × Except String Unit

/-- Some messages come before. -/
def Decoded.after (ms : List JsonRpcMessage) (r : Decoded) : Decoded := (ms ++ r.1, r.2)

def readLines (serde : SerdeJson) : List (List UInt8) → List UInt8 → Decoded
  | [], tail => ([], if maxLineSize < tail.length then .error (bufferError tail.length) else .ok ())
  | line :: rest, tail =>
      if TooLong line then ([], .error (lineError line))
      else (readLines serde rest tail).after (lineMessage serde line).toList

variable {serde : SerdeJson}

theorem decodeAll_of_error {src rest : List UInt8} {e : String}
    (h : decode serde src = (.error e, rest)) : decodeAll serde src = ([], .error e, rest) := by
  rw [decodeAll]
  split <;> rename_i hdecode <;> cases h.symm.trans hdecode
  rfl

theorem decodeAll_of_none {src rest : List UInt8}
    (h : decode serde src = (.ok none, rest)) : decodeAll serde src = ([], .ok (), rest) := by
  rw [decodeAll]
  split <;> rename_i hdecode <;> cases h.symm.trans hdecode
  rfl

theorem decodeAll_congr {src src' : List UInt8} (h : decode serde src = decode serde src') :
    decodeAll serde src = decodeAll serde src' := by
  rcases hdecode : decode serde src' with ⟨result, rest⟩
  cases result with
  | error e => rw [decodeAll_of_error (h.trans hdecode), decodeAll_of_error hdecode]
  | ok found =>
      cases found with
      | none => rw [decodeAll_of_none (h.trans hdecode), decodeAll_of_none hdecode]
      | some m => rw [decodeAll_of_message (h.trans hdecode), decodeAll_of_message hdecode]

/-- What `decodeAll` returns beside the buffer. -/
def decoded (serde : SerdeJson) (src : List UInt8) : Decoded :=
  ((decodeAll serde src).1, (decodeAll serde src).2.1)

/-- **The decoder reads lines**, and keeps the unfinished one when there is no error. -/
theorem decoded_eq (src : List UInt8) :
    decoded serde src = readLines serde (lines src).1 (lines src).2 ∧
      ((decodeAll serde src).2.1 = .ok () → (decodeAll serde src).2.2 = (lines src).2) := by
  induction hn : src.length using Nat.strongRecOn generalizing src with
  | ind n ih =>
      by_cases hmem : newline ∈ src
      · obtain ⟨line, rest, rfl, hline⟩ := List.eq_append_cons_of_mem hmem
        have hshort : rest.length < n := by
          rw [← hn]
          simp
          omega
        have hdecode := @decode_line serde line rest hline
        rw [decodeLine_eq] at hdecode
        rw [lines_line hline, readLines]
        by_cases hlong : TooLong line
        · rw [if_pos hlong] at hdecode ⊢
          rw [decoded, decodeAll_of_error hdecode]
          exact ⟨rfl, fun h => (nomatch h)⟩
        · rw [if_neg hlong] at hdecode ⊢
          obtain ⟨hread, hrest⟩ := ih rest.length hshort rest rfl
          cases hmessage : lineMessage serde line with
          | none =>
              rw [hmessage] at hdecode
              rw [decoded, decodeAll_congr hdecode]
              exact ⟨hread, hrest⟩
          | some m =>
              rw [hmessage] at hdecode
              rw [decoded, decodeAll_of_message hdecode, ← hread]
              exact ⟨rfl, hrest⟩
      · have hdrop : src.dropWhile (· != newline) = [] := by
          rw [List.dropWhile_eq_nil_iff]
          intro b hb
          have hne : b ≠ newline := fun heq => hmem (heq ▸ hb)
          simpa using hne
        have hdecode : decode serde src = if src.length > maxLineSize then
            (.error (bufferError src.length), src) else (.ok none, src) := by
          rw [decode]
          split
          · rfl
          · rename_i hcons
            rw [hdrop] at hcons
            cases hcons
        rw [lines_of_not_mem hmem, readLines]
        by_cases hlong : maxLineSize < src.length
        · rw [if_pos hlong] at hdecode ⊢
          rw [decoded, decodeAll_of_error hdecode]
          exact ⟨rfl, fun h => (nomatch h)⟩
        · rw [if_neg hlong] at hdecode ⊢
          rw [decoded, decodeAll_of_none hdecode]
          exact ⟨rfl, fun _ => rfl⟩

/-! ### Lines that come later -/

def messages (serde : SerdeJson) (ls : List (List UInt8)) : List JsonRpcMessage :=
  ls.filterMap (lineMessage serde)

theorem Decoded.after_nil (r : Decoded) : r.after [] = r := rfl

theorem Decoded.after_after (ms ms' : List JsonRpcMessage) (r : Decoded) :
    (r.after ms').after ms = r.after (ms ++ ms') := by
  rw [Decoded.after, Decoded.after, Decoded.after, List.append_assoc]

theorem messages_cons (line : List UInt8) (ls : List (List UInt8)) :
    messages serde (line :: ls) = (lineMessage serde line).toList ++ messages serde ls := by
  rw [messages, List.filterMap_cons]
  cases lineMessage serde line with
  | none => rfl
  | some m => rfl

/-- Lines within the limit give their messages. -/
theorem readLines_append {ls ls' : List (List UInt8)} {tail : List UInt8}
    (h : ∀ line ∈ ls, ¬TooLong line) :
    readLines serde (ls ++ ls') tail = (readLines serde ls' tail).after (messages serde ls) := by
  induction ls with
  | nil => rfl
  | cons line ls ih =>
      rw [List.cons_append, readLines, if_neg (h line List.mem_cons_self),
        ih fun line' hline' => h line' (List.mem_cons_of_mem line hline'),
        Decoded.after_after, messages_cons]

theorem readLines_within {ls : List (List UInt8)} {tail : List UInt8}
    (h : ∀ line ∈ ls, ¬TooLong line) :
    readLines serde ls tail = (readLines serde [] tail).after (messages serde ls) := by
  have happend : readLines serde (ls ++ []) tail = _ := readLines_append h
  rwa [List.append_nil] at happend

/-- A line beyond the limit ends the stream: nothing after it is read. -/
theorem readLines_of_tooLong (serde : SerdeJson) {ls : List (List UInt8)} {line : List UInt8}
    (hline : line ∈ ls) (hlong : TooLong line) (ls' : List (List UInt8)) (tail tail' : List UInt8) :
    readLines serde (ls ++ ls') tail' = readLines serde ls tail ∧
      ∃ e, (readLines serde ls tail).2 = .error e := by
  induction ls with
  | nil => cases hline
  | cons first ls ih =>
      rw [List.cons_append, readLines, readLines]
      by_cases hfirst : TooLong first
      · rw [if_pos hfirst, if_pos hfirst]
        exact ⟨rfl, _, rfl⟩
      · have hmem : line ∈ ls := by
          rcases List.mem_cons.mp hline with rfl | hmem
          · exact absurd hlong hfirst
          · exact hmem
        obtain ⟨hsame, e, he⟩ := ih hmem
        rw [if_neg hfirst, if_neg hfirst, hsame]
        exact ⟨rfl, e, he⟩

/-! ### Chunks -/

/-- Each chunk is put at the end of the buffer, and the decoder is called until it finds no
    further message. -/
def decodeChunks (serde : SerdeJson) : List UInt8 → List (List UInt8) → Decoded
  | _, [] => ([], .ok ())
  | buffer, chunk :: chunks =>
      match decodeAll serde (buffer ++ chunk) with
      | (ms, .ok (), rest) => (decodeChunks serde rest chunks).after ms
      | (ms, .error e, _) => (ms, .error e)

theorem decodeChunks_of_error {buffer chunk : List UInt8} {e : String}
    (h : (decoded serde (buffer ++ chunk)).2 = .error e) (chunks : List (List UInt8)) :
    decodeChunks serde buffer (chunk :: chunks) = decoded serde (buffer ++ chunk) := by
  rw [decodeChunks, decoded]
  rw [decoded] at h
  rcases hdecode : decodeAll serde (buffer ++ chunk) with ⟨ms, result, rest⟩
  rw [hdecode] at h
  cases h
  rfl

theorem decodeChunks_of_ok {buffer chunk : List UInt8}
    (h : (decoded serde (buffer ++ chunk)).2 = .ok ()) (chunks : List (List UInt8)) :
    decodeChunks serde buffer (chunk :: chunks)
      = (decodeChunks serde (lines (buffer ++ chunk)).2 chunks).after
          (decoded serde (buffer ++ chunk)).1 := by
  have hkept : (decodeAll serde (buffer ++ chunk)).2.2 = (lines (buffer ++ chunk)).2 :=
    (decoded_eq _).2 h
  rw [decodeChunks, decoded]
  rw [decoded] at h
  rcases hdecode : decodeAll serde (buffer ++ chunk) with ⟨ms, result, rest⟩
  rw [hdecode] at h hkept
  cases h
  cases hkept
  rfl

/-- After these chunks the line that is not finished exceeds the limit for the first time,
    and no complete line does. -/
structure Overruns (buffer : List UInt8) (chunks : List (List UInt8)) : Prop where
  within : ∀ line ∈ (lines (buffer ++ chunks.flatten)).1, ¬TooLong line
  exceeds : maxLineSize < (lines (buffer ++ chunks.flatten)).2.length
  first : ∀ earlier, earlier <+: chunks → earlier ≠ chunks →
    (lines (buffer ++ earlier.flatten)).2.length ≤ maxLineSize

/-- Nothing exceeds the limit before the first chunk. -/
theorem not_overruns_nil {buffer : List UInt8} (hline : newline ∉ buffer)
    (hfits : buffer.length ≤ maxLineSize) : ¬Overruns buffer [] := by
  intro h
  have hexceeds := h.exceeds
  rw [List.flatten_nil, List.append_nil, lines_of_not_mem hline] at hexceeds
  exact absurd hexceeds (not_lt.mpr hfits)

theorem lines_chunk (buffer chunk : List UInt8) (chunks : List (List UInt8)) :
    lines (buffer ++ (chunk :: chunks).flatten)
      = ((lines (buffer ++ chunk)).1 ++ (lines ((lines (buffer ++ chunk)).2 ++ chunks.flatten)).1,
        (lines ((lines (buffer ++ chunk)).2 ++ chunks.flatten)).2) := by
  rw [List.flatten_cons, ← List.append_assoc, lines_append]

/-- The first chunk is decoded: what it leaves unfinished is the buffer of the others. -/
theorem overruns_cons_iff {buffer chunk : List UInt8} {chunks : List (List UInt8)}
    (hline : newline ∉ buffer) (hfits : buffer.length ≤ maxLineSize)
    (hwithin : ∀ line ∈ (lines (buffer ++ chunk)).1, ¬TooLong line)
    (hrest : (lines (buffer ++ chunk)).2.length ≤ maxLineSize) :
    Overruns buffer (chunk :: chunks) ↔ Overruns (lines (buffer ++ chunk)).2 chunks := by
  constructor
  · intro h
    refine ⟨?_, ?_, ?_⟩
    · intro line hmem
      apply h.within
      rw [lines_chunk]
      exact List.mem_append_right _ hmem
    · have hexceeds := h.exceeds
      rw [lines_chunk] at hexceeds
      exact hexceeds
    · intro earlier hprefix hne
      have hfirst := h.first (chunk :: earlier) (List.cons_prefix_cons.mpr ⟨rfl, hprefix⟩)
        (fun heq => hne (List.cons.inj heq).2)
      rw [lines_chunk] at hfirst
      exact hfirst
  · intro h
    refine ⟨?_, ?_, ?_⟩
    · intro line hmem
      rw [lines_chunk] at hmem
      rcases List.mem_append.mp hmem with hmem | hmem
      · exact hwithin line hmem
      · exact h.within line hmem
    · rw [lines_chunk]
      exact h.exceeds
    · intro earlier hprefix hne
      cases earlier with
      | nil =>
          rw [List.flatten_nil, List.append_nil, lines_of_not_mem hline]
          exact hfits
      | cons chunk' earlier =>
          obtain ⟨rfl, hearlier⟩ := List.cons_prefix_cons.mp hprefix
          rw [lines_chunk]
          apply h.first earlier hearlier
          intro heq
          exact hne (heq ▸ rfl)

/-- What chunks decode to and what the whole stream decodes to differ only at a cut of a line
    that exceeds the limit there: the error for the cut line stands against what the line and
    the lines after it decode to. -/
theorem decodeChunks_related {Same : Decoded → Decoded → Prop} (refl : ∀ r, Same r r)
    (after : ∀ ms r r', Same (r.after ms) (r'.after ms) ↔ Same r r') {buffer : List UInt8}
    (hline : newline ∉ buffer) (hfits : buffer.length ≤ maxLineSize)
    (chunks : List (List UInt8)) :
    Same (decodeChunks serde buffer chunks) (decoded serde (buffer ++ chunks.flatten)) ↔
      ∀ before later, chunks = before ++ later → Overruns buffer before →
        Same ([], .error (bufferError (lines (buffer ++ before.flatten)).2.length))
          (decoded serde ((lines (buffer ++ before.flatten)).2 ++ later.flatten)) := by
  induction chunks generalizing buffer with
  | nil =>
      have hdecoded : decoded serde (buffer ++ [].flatten) = ([], .ok ()) := by
        rw [List.flatten_nil, List.append_nil, (decoded_eq buffer).1, lines_of_not_mem hline,
          readLines, if_neg (not_lt.mpr hfits)]
      rw [hdecoded, decodeChunks]
      constructor
      · intro _ before later hsplit hover
        obtain ⟨rfl, _⟩ := List.append_eq_nil_iff.mp hsplit.symm
        exact absurd hover (not_overruns_nil hline hfits)
      · intro _
        exact refl _
  | cons chunk chunks ih =>
      have hwhole : decoded serde (buffer ++ (chunk :: chunks).flatten) = _ := (decoded_eq _).1
      have hchunk : decoded serde (buffer ++ chunk) = _ := (decoded_eq _).1
      have hnext := newline_not_mem_unfinished (buffer ++ chunk)
      rw [lines_chunk] at hwhole
      by_cases hwithin : ∀ line ∈ (lines (buffer ++ chunk)).1, ¬TooLong line
      · rw [readLines_append hwithin, ← (decoded_eq _).1] at hwhole
        rw [readLines_within hwithin, readLines] at hchunk
        by_cases hover : maxLineSize < (lines (buffer ++ chunk)).2.length
        · -- the limit is exceeded at the end of this chunk
          rw [if_pos hover] at hchunk
          rw [decodeChunks_of_error (congrArg Prod.snd hchunk), hchunk, hwhole, after]
          constructor
          · intro hsame before later hsplit hoverruns
            cases before with
            | nil => exact absurd hoverruns (not_overruns_nil hline hfits)
            | cons chunk' before =>
                obtain ⟨rfl, hlater⟩ := List.cons.inj hsplit
                cases before with
                | nil =>
                    rw [List.flatten_singleton, ← show chunks = later from hlater]
                    exact hsame
                | cons chunk'' before =>
                    have hfirst := hoverruns.first [chunk]
                      (List.cons_prefix_cons.mpr ⟨rfl, List.nil_prefix⟩) nofun
                    rw [List.flatten_singleton] at hfirst
                    exact absurd hover (not_lt.mpr hfirst)
          · intro hall
            have hcut := hall [chunk] chunks rfl
            rw [List.flatten_singleton] at hcut
            refine hcut ⟨?_, ?_, ?_⟩
            · rw [List.flatten_singleton]
              exact hwithin
            · rw [List.flatten_singleton]
              exact hover
            · intro earlier hprefix hne
              cases earlier with
              | nil =>
                  rw [List.flatten_nil, List.append_nil, lines_of_not_mem hline]
                  exact hfits
              | cons chunk' earlier =>
                  obtain ⟨rfl, hearlier⟩ := List.cons_prefix_cons.mp hprefix
                  rw [List.prefix_nil.mp hearlier] at hne
                  exact absurd rfl hne
        · -- the chunk is read, and its unfinished line stays in the buffer
          rw [if_neg hover] at hchunk
          have hrest := not_lt.mp hover
          have hmessages : (decoded serde (buffer ++ chunk)).1
              = messages serde (lines (buffer ++ chunk)).1 := by
            rw [hchunk, Decoded.after, List.append_nil]
          rw [decodeChunks_of_ok (congrArg Prod.snd hchunk), hmessages, hwhole, after,
            ih hnext hrest]
          constructor
          · intro hall before later hsplit hoverruns
            cases before with
            | nil => exact absurd hoverruns (not_overruns_nil hline hfits)
            | cons chunk' before =>
                obtain ⟨rfl, hlater⟩ := List.cons.inj hsplit
                rw [lines_chunk]
                exact hall before later hlater
                  ((overruns_cons_iff hline hfits hwithin hrest).mp hoverruns)
          · intro hall before later hsplit hoverruns
            have hcut := hall (chunk :: before) later (congrArg (chunk :: ·) hsplit)
              ((overruns_cons_iff hline hfits hwithin hrest).mpr hoverruns)
            rw [lines_chunk] at hcut
            exact hcut
      · -- a complete line exceeds the limit
        push Not at hwithin
        obtain ⟨line, hmem, hlong⟩ := hwithin
        obtain ⟨hsame, e, he⟩ := readLines_of_tooLong serde hmem hlong
          (lines ((lines (buffer ++ chunk)).2 ++ chunks.flatten)).1
          (lines (buffer ++ chunk)).2 (lines ((lines (buffer ++ chunk)).2 ++ chunks.flatten)).2
        rw [hsame, ← hchunk] at hwhole
        rw [← hchunk] at he
        rw [decodeChunks_of_error he, hwhole]
        constructor
        · intro _ before later hsplit hoverruns
          cases before with
          | nil => exact absurd hoverruns (not_overruns_nil hline hfits)
          | cons chunk' before =>
              obtain ⟨rfl, hlater⟩ := List.cons.inj hsplit
              have hshort := hoverruns.within line (by
                rw [lines_chunk]
                exact List.mem_append_left _ hmem)
              exact absurd hlong hshort
        · intro _
          exact refl _

/-! ### The cut line -/

/-- The same messages, and an error on both sides or on neither. -/
def Decoded.SameCourse (r r' : Decoded) : Prop := r.1 = r'.1 ∧ (r.2 = .ok () ↔ r'.2 = .ok ())

theorem Decoded.SameCourse.refl (r : Decoded) : r.SameCourse r := ⟨rfl, Iff.rfl⟩

theorem Decoded.sameCourse_after (ms : List JsonRpcMessage) (r r' : Decoded) :
    (r.after ms).SameCourse (r'.after ms) ↔ r.SameCourse r' :=
  and_congr_left' (List.append_right_inj ms)

theorem Decoded.after_inj (ms : List JsonRpcMessage) (r r' : Decoded) :
    r.after ms = r'.after ms ↔ r = r' := by
  rw [Prod.ext_iff, Prod.ext_iff]
  exact and_congr_left' (List.append_right_inj ms)

/-- The stream is at an end before it gives a message: a line exceeds the limit, and those
    before it are no messages. -/
def Rejected (serde : SerdeJson) : List (List UInt8) → List UInt8 → Prop
  | [], tail => maxLineSize < tail.length
  | line :: rest, tail => TooLong line ∨ lineMessage serde line = none ∧ Rejected serde rest tail

theorem sameCourse_readLines_iff (e : String) (ls : List (List UInt8)) (tail : List UInt8) :
    Decoded.SameCourse ([], .error e) (readLines serde ls tail) ↔ Rejected serde ls tail := by
  induction ls with
  | nil =>
      rw [readLines, Rejected]
      by_cases hlong : maxLineSize < tail.length
      · simp [Decoded.SameCourse, hlong]
      · simp [Decoded.SameCourse, hlong]
  | cons line rest ih =>
      rw [readLines, Rejected]
      by_cases hlong : TooLong line
      · simp [Decoded.SameCourse, hlong]
      · rw [if_neg hlong, or_iff_right hlong, ← ih]
        cases lineMessage serde line with
        | none => simp [Decoded.after]
        | some m => simp [Decoded.SameCourse, Decoded.after]

/-- The line is cut between its carriage return and its newline, and without them it has
    exactly the size of the limit. -/
structure CutEnding (line : List UInt8) : Prop where
  length : line.length = maxLineSize + 1
  carriageReturn : line.getLast? = some carriageReturn

theorem length_trim_le (line : List UInt8) : line.length ≤ (trim line).length + 1 := by
  rw [trim]
  split
  · rw [List.length_dropLast]
    omega
  · omega

/-- Of the lines beyond the limit, the decoder accepts those that end with a carriage return
    at the limit. -/
theorem not_tooLong_iff {line : List UInt8} (h : maxLineSize < line.length) :
    ¬TooLong line ↔ CutEnding line := by
  rw [TooLong, trim]
  by_cases hreturn : line.getLast? = some Anyclaw.carriageReturn
  · rw [if_pos hreturn, List.length_dropLast]
    constructor
    · intro hshort
      exact ⟨by omega, hreturn⟩
    · intro hcut
      have hlength := hcut.length
      omega
  · rw [if_neg hreturn]
    constructor
    · intro hshort
      exact absurd h hshort
    · intro hcut
      exact absurd hcut.carriageReturn hreturn

/-- A line beyond the limit at a cut, and what comes after the cut: the line goes on, or it
    ends there. -/
theorem tooLong_of_goes_on {line more : List UInt8} (h : maxLineSize < line.length)
    (hmore : more ≠ []) : TooLong (line ++ more) := by
  have hlength := length_trim_le (line ++ more)
  have hpos := List.length_pos_of_ne_nil hmore
  rw [List.length_append] at hlength
  rw [TooLong]
  omega

/-- What the rest of a stream can be: nothing, the end of the line, or more of it. -/
theorem stream_cases (stream : List UInt8) :
    newline ∉ stream ∨ (∃ rest, stream = newline :: rest) ∨
      ∃ more rest, stream = more ++ newline :: rest ∧ more ≠ [] ∧ newline ∉ more := by
  by_cases hmem : newline ∈ stream
  · obtain ⟨more, rest, rfl, hmore⟩ := List.eq_append_cons_of_mem hmem
    rcases more with _ | ⟨b, more⟩
    · exact Or.inr (Or.inl ⟨rest, rfl⟩)
    · exact Or.inr (Or.inr ⟨b :: more, rest, rfl, nofun, hmore⟩)
  · exact Or.inl hmem

theorem lines_of_goes_on {line more rest : List UInt8} (hline : newline ∉ line)
    (hmore : newline ∉ more) :
    lines (line ++ (more ++ newline :: rest)) = ((line ++ more) :: (lines rest).1, (lines rest).2) := by
  have hnone : newline ∉ line ++ more := by
    rw [List.mem_append, not_or]
    exact ⟨hline, hmore⟩
  rw [← List.append_assoc, lines_line hnone]

/-- A stream that goes on with a line beyond the limit is rejected, unless the line ends
    there and the decoder accepts it. -/
theorem rejected_cut_iff {line stream : List UInt8} (hline : newline ∉ line)
    (hlong : maxLineSize < line.length) :
    Rejected serde (lines (line ++ stream)).1 (lines (line ++ stream)).2 ↔
      ∀ rest, stream = newline :: rest → CutEnding line →
        lineMessage serde line = none ∧ Rejected serde (lines rest).1 (lines rest).2 := by
  rcases stream_cases stream with hnone | ⟨rest, rfl⟩ | ⟨more, rest, rfl, hmore, hnone⟩
  · have hall : newline ∉ line ++ stream := by
      rw [List.mem_append, not_or]
      exact ⟨hline, hnone⟩
    rw [lines_of_not_mem hall, Rejected, List.length_append]
    constructor
    · intro _ rest hrest
      rw [hrest] at hnone
      exact absurd List.mem_cons_self hnone
    · intro _
      omega
  · rw [lines_line hline, Rejected]
    constructor
    · intro hrejected rest' hrest hcut
      cases hrest
      exact hrejected.resolve_left ((not_tooLong_iff hlong).mpr hcut)
    · intro hall
      by_cases hcut : CutEnding line
      · exact Or.inr (hall rest rfl hcut)
      · exact Or.inl (not_not.mp ((not_congr (not_tooLong_iff hlong)).mpr hcut))
  · rw [lines_of_goes_on hline hnone, Rejected]
    constructor
    · intro _ rest' hrest
      rcases more with _ | ⟨b, more⟩
      · exact absurd rfl hmore
      · cases (List.cons.inj hrest).1
        exact absurd List.mem_cons_self hnone
    · intro _
      exact Or.inl (tooLong_of_goes_on hlong hmore)

/-! ### The text of the error -/

/-- The text of the error of the buffer. -/
theorem bufferError_eq (n : Nat) :
    bufferError n = "accumulated " ++ (toString n ++ (" bytes without newline, exceeds " ++
      toString maxLineSize ++ " byte limit")) := by
  rw [← String.append_assoc, ← String.append_assoc, ← String.append_assoc]
  rfl

/-- The text of the error of a line. -/
theorem lineError_eq (line : List UInt8) :
    lineError line = "line of " ++ (toString (trim line).length ++ (" bytes exceeds " ++
      toString maxLineSize ++ " byte limit")) := by
  rw [← String.append_assoc, ← String.append_assoc, ← String.append_assoc]
  rfl

theorem bufferError_inj {m n : Nat} (h : bufferError m = bufferError n) : m = n := by
  rw [bufferError_eq, bufferError_eq, String.append_right_inj, String.append_left_inj] at h
  have hdigits : Nat.toDigits 10 m = Nat.toDigits 10 n := by
    simpa using congrArg String.toList h
  have hread := congrArg readDigits hdigits
  rw [readDigits_toDigits, readDigits_toDigits] at hread
  exact Option.some.inj hread

theorem lineError_ne_bufferError (line : List UInt8) (n : Nat) :
    lineError line ≠ bufferError n := by
  intro h
  have hfirst := congrArg (fun text => text.toList.head?) h
  have hline : "line of ".toList.head? = some 'l' := by decide
  have hbuffer : "accumulated ".toList.head? = some 'a' := by decide
  rw [lineError_eq, bufferError_eq] at hfirst
  simp only [String.toList_append, List.head?_append, hline, hbuffer, Option.some_or] at hfirst
  cases hfirst

/-- Nothing but the unfinished line of this length is left. -/
theorem readLines_eq_bufferError_iff {n : Nat} (hn : maxLineSize < n) (ls : List (List UInt8))
    (tail : List UInt8) :
    readLines serde ls tail = ([], .error (bufferError n)) ↔
      (∀ line ∈ ls, ¬TooLong line ∧ lineMessage serde line = none) ∧ tail.length = n := by
  induction ls with
  | nil =>
      rw [readLines]
      constructor
      · intro h
        have herror := congrArg Prod.snd h
        by_cases hlong : maxLineSize < tail.length
        · rw [if_pos hlong] at herror
          exact ⟨nofun, bufferError_inj (Except.error.inj herror)⟩
        · rw [if_neg hlong] at herror
          cases herror
      · rintro ⟨-, rfl⟩
        rw [if_pos hn]
  | cons line rest ih =>
      rw [readLines, List.forall_mem_cons]
      by_cases hlong : TooLong line
      · rw [if_pos hlong]
        constructor
        · intro h
          have herror := congrArg Prod.snd h
          exact absurd (Except.error.inj herror) (lineError_ne_bufferError line n)
        · rintro ⟨⟨⟨hshort, -⟩, -⟩, -⟩
          exact absurd hlong hshort
      · rw [if_neg hlong]
        cases hmessage : lineMessage serde line with
        | none =>
            rw [Option.toList_none, Decoded.after_nil, ih]
            simp [hlong]
        | some m => simp [Decoded.after]

/-- A stream that goes on with a line beyond the limit gives the error for this line and this
    cut when nothing follows, or when the line ends there and the stream ends with another
    unfinished line of the same length. -/
theorem decoded_cut_iff {line stream : List UInt8} (hline : newline ∉ line)
    (hlong : maxLineSize < line.length) :
    decoded serde (line ++ stream) = ([], .error (bufferError line.length)) ↔
      stream = [] ∨ ∃ rest, stream = newline :: rest ∧ CutEnding line ∧
        lineMessage serde line = none ∧
        (∀ line' ∈ (lines rest).1, ¬TooLong line' ∧ lineMessage serde line' = none) ∧
        (lines rest).2.length = line.length := by
  rw [(decoded_eq _).1, readLines_eq_bufferError_iff hlong]
  rcases stream_cases stream with hnone | ⟨rest, rfl⟩ | ⟨more, rest, rfl, hmore, hnone⟩
  · have hall : newline ∉ line ++ stream := by
      rw [List.mem_append, not_or]
      exact ⟨hline, hnone⟩
    rw [lines_of_not_mem hall, List.length_append]
    constructor
    · rintro ⟨-, hlength⟩
      exact Or.inl (List.eq_nil_of_length_eq_zero (by omega))
    · rintro (rfl | ⟨rest, rfl, -⟩)
      · exact ⟨nofun, rfl⟩
      · exact absurd List.mem_cons_self hnone
  · rw [lines_line hline, List.forall_mem_cons, not_tooLong_iff hlong]
    constructor
    · rintro ⟨⟨⟨hcut, hmessage⟩, hrest⟩, hlength⟩
      exact Or.inr ⟨rest, rfl, hcut, hmessage, hrest, hlength⟩
    · rintro (hnil | ⟨rest', hrest', hcut, hmessage, hrest, hlength⟩)
      · cases hnil
      · cases hrest'
        exact ⟨⟨⟨hcut, hmessage⟩, hrest⟩, hlength⟩
  · rw [lines_of_goes_on hline hnone, List.forall_mem_cons]
    constructor
    · rintro ⟨⟨⟨hshort, -⟩, -⟩, -⟩
      exact absurd (tooLong_of_goes_on hlong hmore) hshort
    · rintro (hnil | ⟨rest', hrest', -⟩)
      · rw [List.append_eq_nil_iff] at hnil
        exact absurd hnil.1 hmore
      · rcases more with _ | ⟨b, more⟩
        · exact absurd rfl hmore
        · cases (List.cons.inj hrest').1
          exact absurd List.mem_cons_self hnone

/-! ### All chunks of a stream -/

/-- The chunks of a stream, from an empty buffer. -/
theorem chunks_related {Same : Decoded → Decoded → Prop} (refl : ∀ r, Same r r)
    (after : ∀ ms r r', Same (r.after ms) (r'.after ms) ↔ Same r r')
    (chunks : List (List UInt8)) :
    Same (decodeChunks serde [] chunks) (decoded serde chunks.flatten) ↔
      ∀ before later, chunks = before ++ later → Overruns [] before →
        Same ([], .error (bufferError (lines before.flatten).2.length))
          (decoded serde ((lines before.flatten).2 ++ later.flatten)) :=
  decodeChunks_related refl after List.not_mem_nil (Nat.zero_le _) chunks

theorem sameCourse_chunks_iff (serde : SerdeJson) (chunks : List (List UInt8)) :
    (decodeChunks serde [] chunks).SameCourse (decoded serde chunks.flatten) ↔
      ∀ before later, chunks = before ++ later → Overruns [] before →
        ∀ rest, later.flatten = newline :: rest → CutEnding (lines before.flatten).2 →
          lineMessage serde (lines before.flatten).2 = none ∧
            Rejected serde (lines rest).1 (lines rest).2 := by
  rw [chunks_related Decoded.SameCourse.refl Decoded.sameCourse_after]
  refine forall₄_congr fun before later hsplit hover => ?_
  have hexceeds : maxLineSize < (lines before.flatten).2.length := hover.exceeds
  rw [(decoded_eq _).1, sameCourse_readLines_iff,
    rejected_cut_iff (newline_not_mem_unfinished _) hexceeds]

theorem decodeChunks_eq_iff (serde : SerdeJson) (chunks : List (List UInt8)) :
    decodeChunks serde [] chunks = decoded serde chunks.flatten ↔
      ∀ before later, chunks = before ++ later → Overruns [] before →
        later.flatten = [] ∨ ∃ rest, later.flatten = newline :: rest ∧
          CutEnding (lines before.flatten).2 ∧ lineMessage serde (lines before.flatten).2 = none ∧
          (∀ line ∈ (lines rest).1, ¬TooLong line ∧ lineMessage serde line = none) ∧
          (lines rest).2.length = (lines before.flatten).2.length := by
  rw [chunks_related (fun _ => rfl) Decoded.after_inj]
  refine forall₄_congr fun before later hsplit hover => ?_
  have hexceeds : maxLineSize < (lines before.flatten).2.length := hover.exceeds
  rw [eq_comm, decoded_cut_iff (newline_not_mem_unfinished _) hexceeds]

/-- **Chunks decode to what the whole stream decodes to**: to the same messages, with an error
    for both or for neither, exactly when no line of the size of the limit is cut between its
    carriage return and its newline, or such a line is rejected all the same; and with the
    same text of the error exactly when a line that exceeds the limit at a cut is all that is
    left of the stream, or another unfinished line of its length is. -/
theorem decodeChunks_iff (serde : SerdeJson) (chunks : List (List UInt8)) :
    ((decodeChunks serde [] chunks).SameCourse (decoded serde chunks.flatten) ↔
      ∀ before later, chunks = before ++ later → Overruns [] before →
        ∀ rest, later.flatten = newline :: rest → CutEnding (lines before.flatten).2 →
          lineMessage serde (lines before.flatten).2 = none ∧
            Rejected serde (lines rest).1 (lines rest).2) ∧
    (decodeChunks serde [] chunks = decoded serde chunks.flatten ↔
      ∀ before later, chunks = before ++ later → Overruns [] before →
        later.flatten = [] ∨ ∃ rest, later.flatten = newline :: rest ∧
          CutEnding (lines before.flatten).2 ∧ lineMessage serde (lines before.flatten).2 = none ∧
          (∀ line ∈ (lines rest).1, ¬TooLong line ∧ lineMessage serde line = none) ∧
          (lines rest).2.length = (lines before.flatten).2.length) :=
  ⟨sameCourse_chunks_iff serde chunks, decodeChunks_eq_iff serde chunks⟩

end NdJsonCodec

namespace Sample

/-- A line of exactly the size of the limit, up to its carriage return. -/
def fullLine : List UInt8 := List.replicate maxLineSize closingBrace ++ [carriageReturn]

end Sample

/-- The line is cut between its carriage return and its newline: an error, and no error when
    it comes as a whole. -/
theorem cut_before_newline :
    ¬(NdJsonCodec.decodeChunks Sample.messages [] [Sample.fullLine, [newline]]).SameCourse
      (NdJsonCodec.decoded Sample.messages [Sample.fullLine, [newline]].flatten) := by
  have hnone : newline ∉ Sample.fullLine := by
    simp [Sample.fullLine, List.mem_replicate, newline, closingBrace, carriageReturn]
  have hlength : Sample.fullLine.length = maxLineSize + 1 := by simp [Sample.fullLine]
  have hunfinished : NdJsonCodec.lines Sample.fullLine = ([], Sample.fullLine) :=
    NdJsonCodec.lines_of_not_mem hnone
  have hlast : Sample.fullLine.getLast? = some carriageReturn := List.getLast?_concat
  rw [NdJsonCodec.sameCourse_chunks_iff]
  intro h
  have hover : NdJsonCodec.Overruns [] [Sample.fullLine] := by
    refine ⟨?_, ?_, ?_⟩
    · rw [List.nil_append, List.flatten_singleton, hunfinished]
      intro line hline
      cases hline
    · rw [List.nil_append, List.flatten_singleton, hunfinished]
      exact Nat.lt_of_succ_le hlength.ge
    · intro earlier hprefix hne
      rcases List.prefix_cons_iff.mp hprefix with rfl | ⟨more, rfl, hmore⟩
      · exact Nat.zero_le _
      · rw [List.prefix_nil.mp hmore] at hne
        exact absurd rfl hne
  have hcut := h [Sample.fullLine] [[newline]] rfl hover [] rfl
  rw [List.flatten_singleton, hunfinished] at hcut
  exact absurd (hcut ⟨hlength, hlast⟩).2 (Nat.not_lt_zero _)

end Anyclaw
