import Anyclaw.Telegram.Deliver
import Anyclaw.Telegram.FormatHtml
import Anyclaw.Telegram.OpenTags

/-!
# Messages that Telegram takes

A message has at most 4096 bytes and is well-nested HTML on its own.  The formatted answer is
cut where a paragraph, a line or a sentence ends, or at the limit; a `<pre>` that is open at
the limit moves the cut behind the next `</pre>`.  The tags are closed before the text is cut
and not after it, so that a message is well-nested only when its cut is at top level.

The formatted answer is that of `format_telegram_html`
(`ext/channels/telegram/src/formatting.rs`), and `split_message` (`deliver.rs`) cuts it.
-/

namespace Anyclaw.Telegram

open Slices Markup

/-! ### Where a text is cut -/

/-- More `<pre>` are opened than closed. -/
def OpensPre (cs : List Char) : Prop :=
  countMatches "</pre>".toList cs <
    countMatches "<pre>".toList cs + countMatches "<pre ".toList cs

/-- What is looked at for the next cut: what is in reach, or all up to the first `</pre>` when
    a `<pre>` is open in that. -/
inductive IsWindow (limit : Nat) (cs : List Char) : List Char → Prop
  | longest {v : List Char} : IsLongestWithin limit cs v →
      (OpensPre v → ¬"</pre>".toList <:+: cs) → IsWindow limit cs v
  | block {v w : List Char} : IsLongestWithin limit cs v → OpensPre v →
      EndsWithFirst "</pre>".toList cs w → IsWindow limit cs w

/-- The cut is behind the last paragraph, else the last line, else the last sentence of the
    window, else at its end. -/
inductive IsCut (w : List Char) : List Char → Prop
  | paragraph {p : List Char} : EndsWithLast "\n\n".toList w p → IsCut w p
  | line {p : List Char} : ¬"\n\n".toList <:+: w → EndsWithLast "\n".toList w p → IsCut w p
  | sentence {p : List Char} : ¬"\n\n".toList <:+: w → ¬"\n".toList <:+: w →
      EndsWithLast ". ".toList w p → IsCut w p
  | limit : ¬"\n\n".toList <:+: w → ¬"\n".toList <:+: w → ¬". ".toList <:+: w → IsCut w w

/-- No tag and no element is open at the end. -/
def AtTopLevel (p : List Char) : Prop := endsInsideTag p = false ∧ stackAfter p [] = []

/-- Every window is in reach, and every cut at top level. -/
inductive CutsAtTopLevel (limit : Nat) : List Char → Prop
  | fits {cs : List Char} : byteLen cs ≤ limit → CutsAtTopLevel limit cs
  | cut {w p r : List Char} : limit < byteLen (p ++ r) → IsWindow limit (p ++ r) w →
      byteLen w ≤ limit → IsCut w p → AtTopLevel p → CutsAtTopLevel limit r →
      CutsAtTopLevel limit (p ++ r)

variable {limit : Nat} {cs p w w' p' : List Char}

theorem IsWindow.unique (h : IsWindow limit cs w) (h' : IsWindow limit cs w') : w = w' := by
  cases h with
  | longest hv hnone =>
      cases h' with
      | longest hv' _ => exact hv.unique hv'
      | block hv' hopens hw' =>
          rw [← hv.unique hv'] at hopens
          exact absurd hw'.occurs (hnone hopens)
  | block hv hopens hw =>
      cases h' with
      | longest hv' hnone =>
          rw [hv.unique hv'] at hopens
          exact absurd hw.occurs (hnone hopens)
      | block _ _ hw' => exact hw.unique hw'

theorem IsCut.unique (h : IsCut w p) (h' : IsCut w p') : p = p' := by
  cases h with
  | paragraph hp =>
      cases h' with
      | paragraph hp' => exact hp.unique hp'
      | line hno _ | sentence hno _ _ | limit hno _ _ => exact absurd hp.occurs hno
  | line hno hp =>
      cases h' with
      | paragraph hp' => exact absurd hp'.occurs hno
      | line _ hp' => exact hp.unique hp'
      | sentence _ hno' _ | limit _ hno' _ => exact absurd hp.occurs hno'
  | sentence hno hno' hp =>
      cases h' with
      | paragraph hp' => exact absurd hp'.occurs hno
      | line _ hp' => exact absurd hp'.occurs hno'
      | sentence _ _ hp' => exact hp.unique hp'
      | limit _ _ hno'' => exact absurd hp.occurs hno''
  | limit hno hno' hno'' =>
      cases h' with
      | paragraph hp' => exact absurd hp'.occurs hno
      | line _ hp' => exact absurd hp'.occurs hno'
      | sentence _ _ hp' => exact absurd hp'.occurs hno''
      | limit => rfl

theorem IsCut.pre (h : IsCut w p) : p <+: w := by
  cases h with
  | paragraph hp | line _ hp | sentence _ _ hp => exact hp.pre
  | limit => exact List.prefix_rfl

/-! ### What the splitter does -/

/-- The last boundary in a window is its cut. -/
theorem isCut_boundary (w : List Char) : ∃ p r, w = p ++ r ∧ IsCut w p ∧
    (match rfind "\n\n".toList w with
      | some pos => some (pos + 2)
      | none =>
          match rfind "\n".toList w with
          | some pos => some (pos + 1)
          | none =>
              match rfind ". ".toList w with
              | some pos => some (pos + 2)
              | none => some (byteLen w)) = some (byteLen p) := by
  split
  · rename_i pos hpos
    obtain ⟨p, r, happ, hlen, hp⟩ := endsWithLast_rfind (by decide) hpos
    exact ⟨p, r, happ, .paragraph hp, by rw [hlen]; rfl⟩
  · rename_i hno
    rw [rfind_eq_none_iff (by decide)] at hno
    split
    · rename_i pos hpos
      obtain ⟨p, r, happ, hlen, hp⟩ := endsWithLast_rfind (by decide) hpos
      exact ⟨p, r, happ, .line hno hp, by rw [hlen]; rfl⟩
    · rename_i hno'
      rw [rfind_eq_none_iff (by decide)] at hno'
      split
      · rename_i pos hpos
        obtain ⟨p, r, happ, hlen, hp⟩ := endsWithLast_rfind (by decide) hpos
        exact ⟨p, r, happ, .sentence hno hno' hp, by rw [hlen]; rfl⟩
      · rename_i hno''
        rw [rfind_eq_none_iff (by decide)] at hno''
        exact ⟨w, [], (List.append_nil w).symm, .limit hno hno' hno'', rfl⟩

/-- The boundary, moved behind the `</pre>` of an open block, is the end of a window. -/
theorem isWindow_boundary {v : List Char} (hv : IsLongestWithin limit cs v) :
    ∃ w r, cs = w ++ r ∧ IsWindow limit cs w ∧
      (if countMatches "<pre>".toList v + countMatches "<pre ".toList v >
          countMatches "</pre>".toList v then
        match find "</pre>".toList cs with
        | some closePos =>
            if closePos + byteLen "</pre>".toList ≤ byteLen cs then
              closePos + byteLen "</pre>".toList
            else byteLen v
        | none => byteLen v
      else byteLen v) = byteLen w := by
  obtain ⟨r, happ⟩ := hv.pre
  split
  · rename_i hopens
    split
    · rename_i closePos hfind
      obtain ⟨w, r', happ', hlen, hw⟩ := endsWithFirst_find (by decide) hfind
      have hwithin : closePos + byteLen "</pre>".toList ≤ byteLen cs := by
        rw [← hlen]
        exact byteLen_le_of_prefix hw.pre
      refine ⟨w, r', happ', .block hv hopens hw, ?_⟩
      rw [if_pos hwithin, hlen]
    · rename_i hnone
      rw [find_eq_none_iff (by decide)] at hnone
      exact ⟨v, r, happ.symm, .longest hv fun _ => hnone, rfl⟩
  · rename_i hopens
    exact ⟨v, r, happ.symm, .longest hv fun h => absurd h hopens, rfl⟩

/-- **The end of a chunk** is the end of the window, when that is out of reach, and else the
    cut in it. -/
theorem chunkEnd_spec (hne : cs ≠ []) (hlimit : 4 ≤ limit) :
    ∃ w p r, IsWindow limit cs w ∧ cs = p ++ r ∧ chunkEnd cs limit = some (byteLen p) ∧
      (limit < byteLen w ∧ p = w ∨ byteLen w ≤ limit ∧ IsCut w p) := by
  obtain ⟨v, rest, hv, hlen, hlongest⟩ := isLongestWithin_floorBoundary cs limit
  have hpos := floorBoundary_pos hne hlimit
  have hnonzero : ¬byteLen v = 0 := by omega
  obtain ⟨w, r, hw, hwindow, hboundary⟩ := isWindow_boundary hlongest
  have hcandidate : splitAtByte cs (byteLen v) = some (v, rest) := by
    rw [hv]
    exact splitAtByte_append v rest
  have hwcut : splitAtByte cs (byteLen w) = some (w, r) := by
    rw [hw]
    exact splitAtByte_append w r
  simp only [chunkEnd, ← hlen, if_neg hnonzero, hcandidate, Option.bind_eq_bind,
    Option.bind_some]
  generalize hmoved : (if countMatches _ v + countMatches _ v > countMatches _ v then _
    else byteLen v) = boundary
  obtain rfl : boundary = byteLen w := hmoved.symm.trans hboundary
  rw [hwcut, Option.bind_some]
  split
  · rename_i hfits
    obtain ⟨p, r', hp, hcut, hend⟩ := isCut_boundary w
    refine ⟨w, p, r' ++ r, hwindow, ?_, hend, .inr ⟨hfits, hcut⟩⟩
    rw [hw, hp, List.append_assoc]
  · rename_i hlong
    exact ⟨w, w, r, hwindow, hw, rfl, .inl ⟨Nat.lt_of_not_le hlong, rfl⟩⟩

/-! ### Which messages are right -/

/-- What is in front of a cut is well-nested exactly when the cut is at top level. -/
theorem atTopLevel_iff (hcs : WellNested IsHtmlTag cs) (hp : p <+: cs) :
    AtTopLevel p ↔ WellNested IsHtmlTag p := by
  constructor
  · rintro ⟨hout, hstack⟩
    obtain ⟨unfinished, hopened⟩ := hcs.opened (fun _ => IsHtmlTag.isTagName) hp hout
    rw [stackAfter_opened hopened, List.append_nil] at hstack
    subst hstack
    exact hopened.wellNested
  · intro h
    exact ⟨h.endsInsideTag_eq fun _ => IsHtmlTag.isTagName, stackAfter_wellNested h []⟩

/-- A message that Telegram takes. -/
def TakenByTelegram (limit : Nat) (chunk : List Char) : Prop :=
  byteLen chunk ≤ limit ∧ WellNested IsHtmlTag chunk

theorem takenByTelegram_splitRemaining {fuel : Nat} {chunks : List (List Char)}
    (hlimit : 4 ≤ limit) (hcs : WellNested IsHtmlTag cs)
    (h : splitRemaining limit fuel cs = some chunks) :
    (∀ chunk ∈ chunks, TakenByTelegram limit chunk) ↔ CutsAtTopLevel limit cs := by
  induction fuel generalizing cs chunks with
  | zero =>
      cases cs with
      | nil =>
          cases h
          exact iff_of_true (by simp) (.fits (by simp))
      | cons c cs => cases h
  | succ fuel ih =>
      cases cs with
      | nil =>
          cases h
          exact iff_of_true (by simp) (.fits (by simp))
      | cons c cs =>
          rw [splitRemaining] at h
          split at h
          · rename_i hfits
            cases h
            refine iff_of_true ?_ (.fits hfits)
            intro chunk hchunk
            rw [List.mem_singleton.mp hchunk]
            exact ⟨hfits, hcs⟩
          · rename_i hlong
            obtain ⟨w, p, r, hwindow, happ, hend, hcase⟩ :=
              chunkEnd_spec (List.cons_ne_nil c cs) hlimit
            rw [happ] at h hend hcs hwindow hlong ⊢
            simp only [hend, splitAtByte_append, Option.bind_eq_bind, Option.bind_some] at h
            obtain ⟨chunks', hrest, h⟩ := Option.bind_eq_some_iff.mp h
            cases h
            have hp : p <+: p ++ r := List.prefix_append p r
            rw [List.forall_mem_cons]
            constructor
            · rintro ⟨⟨hfits, hnested⟩, hall⟩
              have hr := hnested.of_append (fun _ => IsHtmlTag.isTagName) hcs
              rcases hcase with ⟨hout, rfl⟩ | ⟨hreach, hcut⟩
              · exact absurd hfits (Nat.not_le_of_lt hout)
              · exact .cut (Nat.lt_of_not_le hlong) hwindow hreach hcut
                  ((atTopLevel_iff hcs hp).mpr hnested) ((ih hr hrest).mp hall)
            · generalize htext : p ++ r = text at hcs hwindow hlong hp
              intro hcuts
              cases hcuts with
              | fits hfits => exact absurd hfits hlong
              | @cut w' p' r' _ hwindow' hreach hcut htop hrestcuts =>
                  have hw := hwindow.unique hwindow'
                  subst hw
                  rcases hcase with ⟨hout, _⟩ | ⟨_, hcut'⟩
                  · exact absurd hreach (Nat.not_le_of_lt hout)
                  · have hpp := hcut'.unique hcut
                    subst hpp
                    have hrr := List.append_cancel_left htext
                    subst hrr
                    have hnested := (atTopLevel_iff hcs hp).mp htop
                    have hr := hnested.of_append (fun _ => IsHtmlTag.isTagName) hcs
                    have hfits := byteLen_le_of_prefix hcut.pre
                    exact ⟨⟨Nat.le_trans hfits hreach, hnested⟩, (ih hr hrest).mpr hrestcuts⟩

/-! ### The messages of a text -/

/-- A message for a text: a part that is posted when the text is whole, or the part that is
    posted while it is streamed. -/
inductive SentFor (tg : Settings) (text part : String) : Prop
  | whole (s : Chat) (msgId n : Nat) : (s.postWhole tg text msgId).2 = some n →
      part ∈ ((s.postWhole tg text msgId).1.outbox.postings n).parts → SentFor tg text part
  | streamed (s : Chat) (turn msgId : Nat) :
      part ∈ ((s.postFirst tg turn text msgId).outbox.postings s.outbox.posted).parts →
      SentFor tg text part

theorem parts_postFirst (tg : Settings) (s : Chat) (turn : Nat) (text : String) (msgId : Nat) :
    ((s.postFirst tg turn text msgId).outbox.postings s.outbox.posted).parts =
      (messageParts (closeOpenTags (tg.formatTelegramHtml text))).take 1 := by
  rw [Chat.postFirst, Outbox.post_postings_self]

theorem sentFor_iff {tg : Settings} {text part : String} (htext : text ≠ "") :
    SentFor tg text part ↔ part ∈ messageParts (tg.formatTelegramHtml text) ∨
      part ∈ (messageParts (closeOpenTags (tg.formatTelegramHtml text))).take 1 := by
  constructor
  · intro h
    cases h with
    | whole s msgId n hn hpart =>
        rw [Chat.postWhole, if_neg htext] at hn hpart
        cases hn
        rw [Outbox.post_postings_self] at hpart
        exact .inl hpart
    | streamed s turn msgId hpart =>
        rw [parts_postFirst] at hpart
        exact .inr hpart
  · rintro (hpart | hpart)
    · refine .whole .initial 0 0 ?_ ?_
      · rw [Chat.postWhole, if_neg htext]
        rfl
      · rw [Chat.postWhole, if_neg htext]
        exact hpart
    · refine .streamed .initial 0 0 ?_
      rw [parts_postFirst]
      exact hpart

theorem toList_join_wellNested {parts : List String}
    (h : ∀ part ∈ parts, WellNested IsHtmlTag part.toList) :
    WellNested IsHtmlTag (String.join parts).toList := by
  rw [String.toList_join]
  induction parts with
  | nil => exact .nil
  | cons part parts ih =>
      rw [List.flatMap_cons]
      apply WellNested.append (h part List.mem_cons_self)
      exact ih fun other hother => h other (List.mem_cons_of_mem part hother)

theorem takenByTelegram_messageParts {html : String} (hhtml : WellNested IsHtmlTag html.toList) :
    (∀ part ∈ messageParts html, TakenByTelegram TELEGRAM_MAX_MESSAGE_LEN part.toList) ↔
      CutsAtTopLevel TELEGRAM_MAX_MESSAGE_LEN html.toList := by
  have hparts : splitMessage html TELEGRAM_MAX_MESSAGE_LEN = some (messageParts html) :=
    (Option.some_get _).symm
  rw [splitMessage] at hparts
  split at hparts
  · rename_i hfits
    rw [← Option.some.inj hparts]
    refine iff_of_true ?_ (.fits hfits)
    intro part hpart
    rw [List.mem_singleton.mp hpart]
    exact ⟨hfits, hhtml⟩
  · obtain ⟨chunks, hchunks, heq⟩ := Option.map_eq_some_iff.mp hparts
    rw [← heq, ← takenByTelegram_splitRemaining (by decide) hhtml hchunks]
    simp

/-- **The messages of a text are right exactly when** the HTML of the text is well-nested and
    cut in reach and at top level. -/
theorem sentFor_taken_iff (isWord : Char → Bool) (responseEditCooldownMs : Nat) (text : String) :
    (∀ part, SentFor ⟨formatTelegramHtml isWord, responseEditCooldownMs⟩ text part →
      TakenByTelegram TELEGRAM_MAX_MESSAGE_LEN part.toList) ↔
    WellNested IsHtmlTag (formatTelegramHtml isWord text).toList ∧
      CutsAtTopLevel TELEGRAM_MAX_MESSAGE_LEN (formatTelegramHtml isWord text).toList := by
  by_cases htext : text = ""
  · have hempty : formatTelegramHtml isWord text = "" := by
      rw [htext]
      exact formatTelegramHtml_empty isWord
    refine iff_of_true ?_ ?_
    · intro part hpart
      cases hpart with
      | whole s msgId n hn _ =>
          rw [Chat.postWhole, if_pos htext] at hn
          cases hn
      | streamed s turn msgId hpart =>
          have hone : messageParts (closeOpenTags "") = [""] := Option.get_of_eq_some _ rfl
          rw [parts_postFirst] at hpart
          simp only [hempty, hone] at hpart
          rw [List.mem_singleton.mp hpart]
          exact ⟨by decide, .nil⟩
    · rw [hempty]
      exact ⟨.nil, .fits (by decide)⟩
  · simp only [sentFor_iff htext]
    constructor
    · intro h
      have hparts := fun part hpart => h part (.inl hpart)
      have hhtml : WellNested IsHtmlTag (formatTelegramHtml isWord text).toList := by
        rw [← join_messageParts (formatTelegramHtml isWord text)]
        exact toList_join_wellNested fun part hpart => (hparts part hpart).2
      exact ⟨hhtml, (takenByTelegram_messageParts hhtml).mp hparts⟩
    · rintro ⟨hhtml, hcuts⟩ part hpart
      have hparts := (takenByTelegram_messageParts hhtml).mpr hcuts
      rcases hpart with hpart | hpart
      · exact hparts part hpart
      · rw [closeOpenTags_of_wellNested hhtml] at hpart
        exact hparts part (List.mem_of_mem_take hpart)

/-! ### A tag cut in two -/

/-- A bold letter behind a long row of letters. -/
theorem formatTelegramHtml_bold (n : Nat) :
    formatTelegramHtml asciiWord
        (String.ofList (List.replicate (n + 1) 'x' ++ "**b**".toList)) =
      String.ofList (List.replicate (n + 1) 'x' ++ "<b>b</b>".toList) := by
  have hword : ∀ prev rest, Regex.matchAt (ITALIC_UNDERSCORE_RE asciiWord) prev ('x' :: rest) =
      none := by
    intro prev rest
    simp [Regex.matchAt, ITALIC_UNDERSCORE_RE, Regex.seqs, Regex.run, wordBoundary, Regex.lit]
  have hquote : ∀ prev rest, Regex.matchAt BLOCKQUOTE_RE prev ('x' :: rest) = none := by
    intro prev rest
    simp [Regex.matchAt, BLOCKQUOTE_RE, Regex.seqs, Regex.run, lineStart, Regex.lit, Regex.plus]
  have hheader : ∀ prev rest, Regex.matchAt HEADER_RE prev ('x' :: rest) = none := by
    intro prev rest
    simp [Regex.matchAt, HEADER_RE, Regex.seqs, Regex.run, lineStart, Regex.lit, Regex.plus]
  generalize htext : List.replicate (n + 1) 'x' ++ "**b**".toList = text
  generalize hhtml : List.replicate (n + 1) 'x' ++ "<b>b</b>".toList = html
  have hblocks : Regex.findAll (FENCED_CODE_RE asciiWord) text = [] := by
    rw [← htext, Regex.findAll_replicate fun _ _ => rfl]
    rfl
  have hextracted : extractAll (FENCED_CODE_RE asciiWord) "CODEBLOCK" text = text := by
    rw [← htext]
    exact Regex.replaceAll_replicate (fun _ _ => rfl) n (by decide +kernel)
  have hcodes : Regex.findAll INLINE_CODE_RE text = [] := by
    rw [← htext, Regex.findAll_replicate fun _ _ => rfl]
    rfl
  have hextracted' : extractAll INLINE_CODE_RE "INLINE" text = text := by
    rw [← htext]
    exact Regex.replaceAll_replicate (fun _ _ => rfl) n (by decide +kernel)
  have hquotes : Regex.findAll BLOCKQUOTE_RE text = [] := by
    rw [← htext, Regex.findAll_replicate hquote]
    rfl
  have hextracted'' : extractAll BLOCKQUOTE_RE "BLOCKQUOTE" text = text := by
    rw [← htext]
    exact Regex.replaceAll_replicate hquote n (by decide +kernel)
  have hplain : escaped text = text := by
    apply escaped_of_plain
    rw [← htext]
    simp
  have hheaders : wrapAll HEADER_RE "b" text = text := by
    rw [← htext]
    exact Regex.replaceAll_replicate hheader n (by decide +kernel)
  have hlinks : linkAll text = text := by
    rw [← htext]
    exact Regex.replaceAll_replicate (fun _ _ => rfl) n (by decide +kernel)
  have hbold : wrapAll BOLD_RE "b" text = html := by
    rw [← htext, ← hhtml]
    exact Regex.replaceAll_replicate (fun _ _ => rfl) n (by decide +kernel)
  have hstrike : wrapAll STRIKE_RE "s" html = html := by
    rw [← hhtml]
    exact Regex.replaceAll_replicate (fun _ _ => rfl) n (by decide +kernel)
  have hunderscore : wrapAll (ITALIC_UNDERSCORE_RE asciiWord) "i" html = html := by
    rw [← hhtml]
    exact Regex.replaceAll_replicate hword n (by decide +kernel)
  have hstar : wrapAll ITALIC_STAR_RE "i" html = html := by
    rw [← hhtml]
    exact Regex.replaceAll_replicate (fun _ _ => rfl) n (by decide +kernel)
  rw [formatTelegramHtml]
  simp only [String.toList_ofList, hblocks, hextracted, hcodes, hextracted', hquotes,
    hextracted'', hplain, hheaders, hlinks, hbold, hstrike, hunderscore, hstar, List.map_nil,
    restore_nil]

/-- The limit is behind the `<b` of the bold letter. -/
theorem not_cutsAtTopLevel_bold (n : Nat) :
    ¬CutsAtTopLevel (n + 2) (List.replicate n 'x' ++ "<b>b</b>".toList) := by
  have hletters : WellNested IsHtmlTag (List.replicate n 'x') :=
    .of_plain fun c hc => by
      rw [List.eq_of_mem_replicate hc]
      decide
  have hlen : byteLen (List.replicate n 'x') = n := by
    rw [byteLen, List.map_replicate, List.sum_replicate_nat]
    exact Nat.mul_one n
  have hreachable : List.replicate n 'x' ++ "<b".toList <+:
      List.replicate n 'x' ++ "<b>b</b>".toList :=
    (List.prefix_append_right_inj _).mpr ⟨">b</b>".toList, rfl⟩
  have hreachableLen : byteLen (List.replicate n 'x' ++ "<b".toList) = n + 2 := by
    rw [byteLen_append, hlen]
    rfl
  generalize htext : List.replicate n 'x' ++ "<b>b</b>".toList = text at hreachable
  intro hcuts
  cases hcuts with
  | fits hfits =>
      rw [← htext, byteLen_append, hlen] at hfits
      have htag : byteLen "<b>b</b>".toList = 8 := rfl
      omega
  | @cut w p r _ hwindow hreach hcut htop _ =>
      have hw : List.replicate n 'x' ++ "<b".toList = w := by
        cases hwindow with
        | longest hlongest _ =>
            have hprefix := hlongest.longest _ hreachable (Nat.le_of_eq hreachableLen)
            apply hprefix.eq_of_length_le
            have hbytes := length_le_byteLen w
            rw [List.length_append, List.length_replicate]
            exact Nat.le_trans hbytes hreach
        | block _ _ hblock =>
            have hp : 'p' ∈ p ++ r := hblock.occurs.subset (by decide)
            rw [← htext] at hp
            exact absurd hp (by simp)
      have hplain : ∀ c ∈ w, c ≠ '\n' ∧ c ≠ '.' := by
        intro c hc
        rw [← hw] at hc
        constructor
        · rintro rfl
          exact absurd hc (by simp)
        · rintro rfl
          exact absurd hc (by simp)
      have hp : p = w := by
        cases hcut with
        | paragraph hp | line _ hp =>
            exact absurd rfl (hplain '\n' (hp.occurs.subset (by decide))).1
        | sentence _ _ hp => exact absurd rfl (hplain '.' (hp.occurs.subset (by decide))).2
        | limit => rfl
      have hinside := htop.1
      rw [hp, ← hw, endsInsideTag_append
        (hletters.endsInsideTag_eq fun _ => IsHtmlTag.isTagName)] at hinside
      exact absurd hinside (by decide)

/-- With 4094 letters in front of it, the tag `<b>` is cut in two: the first message ends
    with `<b`. -/
theorem tag_cut_in_two :
    ¬∀ part, SentFor ⟨formatTelegramHtml asciiWord, 0⟩
        (String.ofList (List.replicate 4094 'x' ++ "**b**".toList)) part →
      TakenByTelegram TELEGRAM_MAX_MESSAGE_LEN part.toList := by
  intro h
  have htext : String.ofList (List.replicate 4094 'x' ++ "**b**".toList) ≠ "" := by
    intro hempty
    have hnil := String.ofList_eq_empty_iff.mp hempty
    exact absurd (List.append_eq_nil_iff.mp hnil).2 (by decide)
  simp only [sentFor_iff htext, formatTelegramHtml_bold 4093] at h
  have hhtml : WellNested IsHtmlTag
      (String.ofList (List.replicate 4094 'x' ++ "<b>b</b>".toList)).toList := by
    rw [String.toList_ofList]
    have hbold : WellNested IsHtmlTag "<b>b</b>".toList :=
      @WellNested.wrap IsHtmlTag ['b'] [] "b" (by decide) .nil (.of_plain (by simp))
    refine WellNested.append (.of_plain fun c hc => ?_) hbold
    rw [List.eq_of_mem_replicate hc]
    decide
  have hcuts := (takenByTelegram_messageParts hhtml).mp fun part hpart => h part (.inl hpart)
  rw [String.toList_ofList] at hcuts
  exact not_cutsAtTopLevel_bold 4094 hcuts

end Anyclaw.Telegram
