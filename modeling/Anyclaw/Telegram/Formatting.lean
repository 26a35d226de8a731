import Anyclaw.Library.Slices

/-!
# Formatting for Telegram

`close_open_tags` completes the HTML of an unfinished answer and `split_message` cuts it
into messages of at most 4096 bytes, at a paragraph, a line or a sentence where it can and
never inside a `<pre>` block.  The cuts are at byte offsets: a cut that is not at a character
boundary would panic, and `splitMessage_isSome` says that there is none.

`close_open_tags` is in `ext/channels/telegram/src/formatting.rs` and `split_message` in
`deliver.rs`.
-/

namespace Anyclaw.Telegram

open Slices

/-! ### Escaping -/

/-- `str::replace` of a character. -/
def replaceChar (c : Char) (text : String) (cs : List Char) : List Char :=
  cs.flatMap fun d => if d = c then text.toList else [d]

def escapeHtml (s : String) : String :=
  String.ofList (replaceChar '>' "&gt;" (replaceChar '<' "&lt;" (replaceChar '&' "&amp;" s.toList)))

/-! ### Closing tags -/

def closableTags : List String := ["b", "i", "s", "u", "code", "pre", "blockquote", "a"]

/-- `split_whitespace().next().unwrap_or("")`. -/
def firstWord (cs : List Char) : String :=
  String.ofList ((cs.dropWhile isWhitespace).takeWhile fun c => !isWhitespace c)

/-- The stack after a tag: a closing tag takes away the last one of its name. -/
def applyTag (stack : List String) : List Char → List String
  | '/' :: closing => stack.erase (firstWord closing)
  | tagContent =>
      if firstWord tagContent ∈ closableTags then firstWord tagContent :: stack else stack

/-- The tags that are open at the end, the last one first.  The fuel is the length. -/
def openTags : Nat → List Char → List String → List String
  | 0, _, stack => stack
  | _, [], stack => stack
  | n + 1, '<' :: cs, stack =>
      openTags n ((cs.dropWhile (· ≠ '>')).drop 1) (applyTag stack (cs.takeWhile (· ≠ '>')))
  | n + 1, _ :: cs, stack => openTags n cs stack

def closeOpenTags (html : String) : String :=
  html ++ String.join
    ((openTags html.toList.length html.toList []).map fun tag => "</" ++ tag ++ ">")

/-! ### Splitting -/

/-- Where the next chunk ends; `none` when a slice on the way is not at a boundary. -/
def chunkEnd (remaining : List Char) (maxLen : Nat) : Option Nat := do
  let floor := floorBoundary remaining maxLen
  let boundary := if floor = 0 then maxLen else floor
  let (candidate, _) ← splitAtByte remaining boundary
  let openCount := countMatches "<pre>".toList candidate + countMatches "<pre ".toList candidate
  let closeCount := countMatches "</pre>".toList candidate
  let boundary :=
    if openCount > closeCount then
      match find "</pre>".toList remaining with
      | some closePos =>
          if closePos + byteLen "</pre>".toList ≤ byteLen remaining then
            closePos + byteLen "</pre>".toList
          else boundary
      | none => boundary
    else boundary
  if boundary ≤ maxLen then
    let (candidate, _) ← splitAtByte remaining boundary
    match rfind "\n\n".toList candidate with
    | some pos => some (pos + 2)
    | none =>
        match rfind "\n".toList candidate with
        | some pos => some (pos + 1)
        | none =>
            match rfind ". ".toList candidate with
            | some pos => some (pos + 2)
            | none => some boundary
  else some boundary

/-- The loop of `split_message`.  Each round takes a character away, so that the length is
    fuel enough. -/
def splitRemaining (maxLen : Nat) : Nat → List Char → Option (List (List Char))
  | _, [] => some []
  | 0, _ :: _ => none
  | fuel + 1, c :: cs =>
      if byteLen (c :: cs) ≤ maxLen then some [c :: cs]
      else do
        let boundary ← chunkEnd (c :: cs) maxLen
        let (chunk, rest) ← splitAtByte (c :: cs) boundary
        let chunks ← splitRemaining maxLen fuel rest
        some (chunk :: chunks)

def splitMessage (text : String) (maxLen : Nat) : Option (List String) :=
  if byteLen text.toList ≤ maxLen then some [text]
  else (splitRemaining maxLen text.toList.length text.toList).map (List.map String.ofList)

/-! ### What splitting keeps -/

theorem flatten_splitRemaining {maxLen fuel : Nat} {cs : List Char} {chunks : List (List Char)}
    (h : splitRemaining maxLen fuel cs = some chunks) : chunks.flatten = cs := by
  induction fuel generalizing cs chunks with
  | zero =>
      cases cs with
      | nil =>
          cases h
          rfl
      | cons c cs => cases h
  | succ fuel ih =>
      cases cs with
      | nil =>
          cases h
          rfl
      | cons c cs =>
          rw [splitRemaining] at h
          split at h
          · cases h
            simp
          · obtain ⟨boundary, _, h⟩ := Option.bind_eq_some_iff.mp h
            obtain ⟨⟨chunk, rest⟩, hcut, h⟩ := Option.bind_eq_some_iff.mp h
            obtain ⟨chunks', hrest, h⟩ := Option.bind_eq_some_iff.mp h
            cases h
            rw [List.flatten_cons, ih hrest, (of_splitAtByte hcut).1]

/-- The chunks, one after the other, are the text. -/
theorem join_splitMessage {text : String} {maxLen : Nat} {parts : List String}
    (h : splitMessage text maxLen = some parts) : String.join parts = text := by
  rw [splitMessage] at h
  split at h
  · cases h
    simp
  · obtain ⟨chunks, hchunks, rfl⟩ := Option.map_eq_some_iff.mp h
    apply String.toList_inj.mp
    rw [String.toList_join, List.flatMap_map]
    simp only [String.toList_ofList, List.flatMap_id']
    exact flatten_splitRemaining hchunks

/-! ### Every cut is at a boundary -/

/-- A cut that leaves something before it. -/
def Cuts (cs : List Char) (b : Nat) : Prop := ∃ a r, cs = a ++ r ∧ byteLen a = b ∧ a ≠ []

theorem Cuts.append {cs ds : List Char} {b : Nat} (h : Cuts cs b) : Cuts (cs ++ ds) b := by
  obtain ⟨a, r, rfl, hlen, hne⟩ := h
  exact ⟨a, r ++ ds, List.append_assoc a r ds, hlen, hne⟩

theorem cuts_rfind {pat cs : List Char} {p : Nat} (hpat : pat ≠ [])
    (h : rfind pat cs = some p) : Cuts cs (p + byteLen pat) := by
  obtain ⟨a, r, happ, hlen⟩ := splitAtByte_rfind h
  exact ⟨a ++ pat, r, happ, hlen, by simp [hpat]⟩

theorem cuts_find {pat cs : List Char} {p : Nat} (hpat : pat ≠ [])
    (h : find pat cs = some p) : Cuts cs (p + byteLen pat) := by
  obtain ⟨a, r, happ, hlen⟩ := of_find h
  exact ⟨a ++ pat, r, by rw [happ, List.append_assoc], by rw [byteLen_append, hlen],
    by simp [hpat]⟩

theorem cuts_floorBoundary {cs : List Char} {b : Nat} (hne : cs ≠ []) (hb : 4 ≤ b) :
    Cuts cs (floorBoundary cs b) := by
  obtain ⟨a, r, happ, hlen⟩ := floorBoundary_spec cs b
  refine ⟨a, r, happ, hlen, ?_⟩
  rintro rfl
  have hpos := floorBoundary_pos hne hb
  rw [← hlen] at hpos
  exact absurd hpos (by simp)

theorem Cuts.splitAtByte {cs : List Char} {b : Nat} (h : Cuts cs b) :
    ∃ a r, Slices.splitAtByte cs b = some (a, r) ∧ cs = a ++ r ∧ a ≠ [] := by
  obtain ⟨a, r, rfl, rfl, hne⟩ := h
  exact ⟨a, r, splitAtByte_append a r, rfl, hne⟩

/-- The end of a chunk is found, behind its first character. -/
theorem cuts_chunkEnd {cs : List Char} {maxLen : Nat} (hne : cs ≠ []) (hmax : 4 ≤ maxLen) :
    ∃ b, chunkEnd cs maxLen = some b ∧ Cuts cs b := by
  have hfloor := cuts_floorBoundary hne hmax
  have hpos := floorBoundary_pos hne hmax
  obtain ⟨candidate, r, hcut, happ, hnonempty⟩ := hfloor.splitAtByte
  simp only [chunkEnd, if_neg (show ¬floorBoundary cs maxLen = 0 by omega), hcut,
    Option.bind_eq_bind, Option.bind_some]
  -- the boundary, moved behind the `</pre>` of an open block
  generalize hmoved : (if countMatches _ candidate + countMatches _ candidate
    > countMatches _ candidate then _ else floorBoundary cs maxLen) = boundary
  have hboundary : Cuts cs boundary := by
    rw [← hmoved]
    split
    · split
      · rename_i closePos hfind
        split
        · exact cuts_find (by decide) hfind
        · exact hfloor
      · exact hfloor
    · exact hfloor
  split
  · obtain ⟨shown, r', hshown, happ', _⟩ := hboundary.splitAtByte
    rw [hshown]
    simp only [Option.bind_some]
    have hback : ∀ {pat : List Char} {p : Nat}, pat ≠ [] → rfind pat shown = some p →
        Cuts cs (p + byteLen pat) := by
      intro pat p hpat hp
      rw [happ']
      exact (cuts_rfind hpat hp).append
    split
    · rename_i pos hpos
      exact ⟨pos + 2, rfl, hback (by decide) hpos⟩
    · split
      · rename_i pos hpos
        exact ⟨pos + 1, rfl, hback (by decide) hpos⟩
      · split
        · rename_i pos hpos
          exact ⟨pos + 2, rfl, hback (by decide) hpos⟩
        · exact ⟨boundary, rfl, hboundary⟩
  · exact ⟨boundary, rfl, hboundary⟩

theorem splitRemaining_isSome {maxLen : Nat} (hmax : 4 ≤ maxLen) {fuel : Nat} {cs : List Char}
    (hfuel : cs.length ≤ fuel) : (splitRemaining maxLen fuel cs).isSome := by
  induction fuel generalizing cs with
  | zero =>
      cases cs with
      | nil => rfl
      | cons c cs => exact absurd hfuel (by simp)
  | succ fuel ih =>
      cases cs with
      | nil => rfl
      | cons c cs =>
          rw [splitRemaining]
          split
          · rfl
          · obtain ⟨b, hb, hcuts⟩ := cuts_chunkEnd (List.cons_ne_nil c cs) hmax
            obtain ⟨a, r, hcut, happ, hne⟩ := hcuts.splitAtByte
            have hlen : (c :: cs).length = a.length + r.length := by rw [happ, List.length_append]
            have ha := List.length_pos_of_ne_nil hne
            have hrest : (splitRemaining maxLen fuel r).isSome := ih (by omega)
            obtain ⟨chunks, hchunks⟩ := Option.isSome_iff_exists.mp hrest
            rw [hb]
            simp [hcut, hchunks]

/-- **`split_message` never panics and comes to an end.** -/
theorem splitMessage_isSome (text : String) {maxLen : Nat} (hmax : 4 ≤ maxLen) :
    (splitMessage text maxLen).isSome := by
  rw [splitMessage]
  split
  · rfl
  · rw [Option.isSome_map]
    exact splitRemaining_isSome hmax (Nat.le_refl _)

theorem ne_nil_of_mem_splitRemaining {maxLen : Nat} (hmax : 4 ≤ maxLen) {fuel : Nat}
    {cs : List Char} {chunks : List (List Char)}
    (h : splitRemaining maxLen fuel cs = some chunks) : ∀ chunk ∈ chunks, chunk ≠ [] := by
  induction fuel generalizing cs chunks with
  | zero =>
      cases cs with
      | nil =>
          cases h
          simp
      | cons c cs => cases h
  | succ fuel ih =>
      cases cs with
      | nil =>
          cases h
          simp
      | cons c cs =>
          rw [splitRemaining] at h
          split at h
          · cases h
            simp
          · obtain ⟨b, hb, hcuts⟩ := cuts_chunkEnd (List.cons_ne_nil c cs) hmax
            obtain ⟨a, r, hcut, _, hne⟩ := hcuts.splitAtByte
            simp only [hb, hcut, Option.bind_eq_bind, Option.bind_some] at h
            obtain ⟨chunks', hrest, h⟩ := Option.bind_eq_some_iff.mp h
            cases h
            intro chunk hmem
            rcases List.mem_cons.mp hmem with rfl | hmem
            · exact hne
            · exact ih hrest chunk hmem

/-- **`split_message` loses nothing.**  It comes to an end without a cut inside a character,
    and its chunks, of which there is at least one and of a text none is empty, are the text. -/
theorem splitMessage_lossless (text : String) {maxLen : Nat} (hmax : 4 ≤ maxLen) :
    ∃ chunks, splitMessage text maxLen = some chunks ∧ chunks ≠ [] ∧
      (text ≠ "" → ∀ chunk ∈ chunks, chunk ≠ "") ∧ String.join chunks = text := by
  obtain ⟨chunks, hchunks⟩ := Option.isSome_iff_exists.mp (splitMessage_isSome text hmax)
  have hjoin : String.join chunks = text := join_splitMessage hchunks
  refine ⟨chunks, hchunks, ?_, ?_, hjoin⟩
  · rintro rfl
    have hempty : text = "" := hjoin.symm
    rw [hempty, splitMessage, if_pos (by simp)] at hchunks
    cases hchunks
  · intro htext
    rw [splitMessage] at hchunks
    split at hchunks
    · cases hchunks
      simpa using htext
    · obtain ⟨parts, hparts, rfl⟩ := Option.map_eq_some_iff.mp hchunks
      intro chunk hmem
      obtain ⟨part, hpart, rfl⟩ := List.mem_map.mp hmem
      have hne : part ≠ [] := ne_nil_of_mem_splitRemaining hmax hparts part hpart
      intro hnil
      exact hne (String.ofList_eq_empty_iff.mp hnil)

/-- A text of four-byte characters in chunks of one character. -/
theorem splitMessage_lossless_emoji :
    4 ≤ 4 ∧ ∃ chunks, splitMessage "😀😀" 4 = some chunks ∧ chunks ≠ [] ∧
      ("😀😀" ≠ "" → ∀ chunk ∈ chunks, chunk ≠ "") ∧ String.join chunks = "😀😀" :=
  ⟨Nat.le_refl 4, splitMessage_lossless "😀😀" (Nat.le_refl 4)⟩

/-! ### The parts of an answer -/

def TELEGRAM_MAX_MESSAGE_LEN : Nat := 4096

/-- `split_message` with the limit of Telegram. -/
def messageParts (html : String) : List String :=
  (splitMessage html TELEGRAM_MAX_MESSAGE_LEN).get (splitMessage_isSome html (by decide))

theorem join_messageParts (html : String) : String.join (messageParts html) = html :=
  join_splitMessage (Option.some_get _).symm

/-- When one message holds everything, it begins with the text that was completed. -/
theorem join_take_messageParts {html : String}
    (h : (messageParts html).length ≤ 1) : String.join ((messageParts html).take 1) = html := by
  rw [List.take_of_length_le h, join_messageParts]

end Anyclaw.Telegram
