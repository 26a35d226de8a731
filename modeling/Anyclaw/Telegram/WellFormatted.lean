import Anyclaw.Telegram.MarkPasses

/-!
# Putting blocks back

At the end each placeholder gives way to its block.  A placeholder that is in the text at one
place only is the item that stands for the block, and when every block has been put back the
items are the pieces of well-formatted text.

This is step 6 of `format_telegram_html` (`ext/channels/telegram/src/formatting.rs`).
-/

namespace Anyclaw.Telegram

open Delimited Slices Markup Regex

/-! ### Replacing one placeholder -/

section Replacing

variable {pat block p q : List Char}

theorem replaceFrom_skip (a r : List Char) :
    replaceFrom pat block a.length (a ++ r) = replaceFrom pat block 0 r := by
  induction a with
  | nil => rfl
  | cons c a ih =>
      rw [List.length_cons, List.cons_append, replaceFrom, ih]

theorem replaceFrom_of_none (h : ¬pat <:+: q) : replaceFrom pat block 0 q = q := by
  induction q with
  | nil => rfl
  | cons c q ih =>
      rw [List.infix_cons_iff, not_or] at h
      rw [replaceFrom, if_neg h.1, ih h.2]

theorem replaceFrom_first (hne : pat ≠ []) (r : List Char) :
    replaceFrom pat block 0 (pat ++ r) = block ++ replaceFrom pat block 0 r := by
  obtain ⟨c, a, rfl⟩ := List.exists_cons_of_ne_nil hne
  have hprefix : c :: a <+: c :: (a ++ r) := List.prefix_append (c :: a) r
  rw [List.cons_append, replaceFrom, if_pos hprefix, List.length_cons, Nat.add_sub_cancel,
    replaceFrom_skip]

/-- **A pattern that occurs once** is replaced there, and nothing else is changed. -/
theorem replaceFrom_of_once (hne : pat ≠ []) (h : OccursAtMostOnce pat (p ++ (pat ++ q))) :
    replaceFrom pat block 0 (p ++ (pat ++ q)) = p ++ (block ++ q) := by
  induction p with
  | nil =>
      rw [List.nil_append, List.nil_append, replaceFrom_first hne, replaceFrom_of_none]
      rintro ⟨x, y, rfl⟩
      have hsame := h [] (x ++ pat ++ y) (pat ++ x) y rfl (by simp)
      exact hne (List.append_eq_nil_iff.mp hsame.symm).1
  | cons c p ih =>
      have hno : ¬pat <+: c :: (p ++ (pat ++ q)) := by
        rintro ⟨y, hy⟩
        exact absurd (h (c :: p) q [] y rfl hy.symm) (List.cons_ne_nil c p)
      rw [List.cons_append, replaceFrom, if_neg hno, ih, List.cons_append]
      intro x y x' y' hx hx'
      have hsame := h (c :: x) y (c :: x') y' (congrArg (c :: ·) hx) (congrArg (c :: ·) hx')
      exact (List.cons.inj hsame).2

end Replacing

/-! ### Restoring -/

def restoreAll : List (List Char × List Char) → List Char → List Char
  | [], text => text
  | e :: es, text => restoreAll es (replaceFrom e.1 e.2 0 text)

def RestoredOnce : List (List Char × List Char) → List Char → Prop
  | [], _ => True
  | e :: es, text => OccursAtMostOnce e.1 text ∧ RestoredOnce es (replaceFrom e.1 e.2 0 text)

theorem restore_eq (kind : BlockKind) (i : Nat) (blocks : List (List Char)) (text : List Char) :
    restore kind.word i blocks text = restoreAll (entries kind i blocks) text := by
  induction blocks generalizing i text with
  | nil => rfl
  | cons block blocks ih => exact ih ..

theorem restoreAll_append (es es' : List (List Char × List Char)) (text : List Char) :
    restoreAll (es ++ es') text = restoreAll es' (restoreAll es text) := by
  induction es generalizing text with
  | nil => rfl
  | cons e es ih => exact ih _

section Restoring

variable {isWord : Char → Bool} {source text : List Char} {bs : List TakenBlock}
  {b : TakenBlock} {items : List Item}

/-- **Putting one block back**: its items take the place of the placeholder. -/
theorem Rendered.restore (h : Rendered isWord source (b :: bs) items text)
    (hword : ExtendsAscii isWord) (hb : b.Valid isWord)
    (honce : OccursAtMostOnce b.label.placeholder text) :
    ∃ items', Rendered isWord source bs items' (replaceFrom b.label.placeholder b.html 0 text) := by
  obtain ⟨hstands, horder⟩ := h.order
  obtain ⟨xs, ys, rfl⟩ := List.append_of_mem (mem_blocks.mp hstands)
  have htext : text = xs.flatMap Item.html ++ (b.label.placeholder ++ ys.flatMap Item.html) := by
    rw [← h.html_eq, List.flatMap_append, List.flatMap_cons]
    rfl
  have hne : b.label.placeholder ≠ [] := List.cons_ne_nil _ _
  rw [htext] at honce ⊢
  -- no other item has the label, because its placeholder is there once
  have hothers : ∀ e ∈ blocks (xs ++ ys), e.1 ≠ b.label := by
    rintro ⟨_, marks⟩ he rfl
    rcases List.mem_append.mp (mem_blocks.mp he) with hmem | hmem
    · obtain ⟨us, vs, rfl⟩ := List.append_of_mem hmem
      have hsame := honce _ _ (us.flatMap Item.html) (vs.flatMap Item.html ++
        (b.label.placeholder ++ ys.flatMap Item.html)) rfl (by simp [Item.html])
      rw [List.flatMap_append, List.flatMap_cons, List.append_right_eq_self,
        List.append_eq_nil_iff] at hsame
      exact hne hsame.1
    · obtain ⟨us, vs, rfl⟩ := List.append_of_mem hmem
      have hsame := honce _ _ (xs.flatMap Item.html ++ (b.label.placeholder ++
        us.flatMap Item.html)) (vs.flatMap Item.html) rfl (by simp [Item.html])
      rw [List.self_eq_append_right, List.append_eq_nil_iff] at hsame
      exact hne hsame.1
  rw [replaceFrom_of_once hne honce]
  refine ⟨xs ++ (b.content ++ ys), ?_, ?_, ?_, ?_, ?_⟩
  · simp [TakenBlock.html]
  · intro x hx
    rcases List.mem_append.mp hx with hx | hx
    · exact h.valid x (by simp [hx])
    · rcases List.mem_append.mp hx with hx | hx
      · exact hb.items x hx
      · exact h.valid x (by simp [hx])
  · rw [← h.source_eq]
    simp [Item.source, TakenBlock.source]
  · convert horder using 1
    ext e
    simp only [blocks_append, List.mem_append] at hothers
    simp only [standing, blocks_append, blocks_block, List.mem_append, List.mem_cons,
      Set.mem_union, Set.mem_ofPred_eq]
    constructor
    · rintro (hmem | hmem | hmem)
      · exact .inl ⟨.inl hmem, hothers e (.inl hmem)⟩
      · exact .inr hmem
      · exact .inl ⟨.inr (.inr hmem), hothers e (.inr hmem)⟩
    · rintro (⟨hmem | rfl | hmem, hlabel⟩ | hmem)
      · exact .inl hmem
      · exact absurd rfl hlabel
      · exact .inr (.inr hmem)
      · exact .inr (.inl hmem)
  · have hxs : endsInsideTag (xs.flatMap Item.html) = false :=
      endsInsideTag_html hword fun x hx => h.valid x (by simp [hx])
    have hnested := h.nested
    rw [htext] at hnested
    exact WellNested.exchange (fun _ => IsHtmlTag.isTagName) hxs
      (.of_plain (placeholder_plain b.label)) hb.nested hnested

/-- **Putting all blocks back** leaves the pieces of formatted text. -/
theorem Rendered.restoreAll (h : Rendered isWord source bs items text)
    (hword : ExtendsAscii isWord) (hbs : ∀ b ∈ bs, b.Valid isWord)
    (honce : RestoredOnce (bs.map TakenBlock.entry) text) :
    ∃ items', Rendered isWord source [] items' (restoreAll (bs.map TakenBlock.entry) text) := by
  induction bs generalizing items text with
  | nil => exact ⟨items, h⟩
  | cons b bs ih =>
      rw [List.forall_mem_cons] at hbs
      obtain ⟨hfirst, hrest⟩ := honce
      obtain ⟨items', h'⟩ := h.restore hword hbs.1 hfirst
      exact ih h' hbs.2 hrest

theorem Rendered.pieces (h : Rendered isWord source [] items text) :
    ∃ pieces : List Piece, items = pieces.map Item.piece := by
  have hnone : blocks items = [] := by
    apply List.eq_nil_iff_forall_not_mem.mpr
    intro e he
    have hstanding : e ∈ standing items := he
    rw [show standing items = ∅ from h.order] at hstanding
    exact hstanding
  clear h
  induction items with
  | nil => exact ⟨[], rfl⟩
  | cons x xs ih =>
      cases x with
      | block l marks => cases hnone
      | piece x =>
          obtain ⟨pieces, rfl⟩ := ih hnone
          exact ⟨x :: pieces, rfl⟩

end Restoring

/-! ### What the reader sees -/

section Visible

variable {isWord : Char → Bool}

theorem untag_plain {a : List Char} (ha : ∀ c ∈ a, c ≠ '<') (r : List Char) :
    untag (a ++ r) = a ++ untag r := by
  induction a with
  | nil => rfl
  | cons c a ih =>
      rw [List.forall_mem_cons] at ha
      change untag.go false (c :: (a ++ r)) = c :: (a ++ untag r)
      rw [untag.go, if_neg ha.1]
      exact congrArg (c :: ·) (ih ha.2)

theorem untag_tag {content : List Char} (hcontent : ∀ c ∈ content, c ≠ '>') (r : List Char) :
    untag ('<' :: (content ++ ['>']) ++ r) = untag r := by
  have hinside : ∀ content : List Char, (∀ c ∈ content, c ≠ '>') →
      untag.go true (content ++ '>' :: r) = untag r := by
    intro content hcontent
    induction content with
    | nil => rfl
    | cons c content ih =>
        rw [List.forall_mem_cons] at hcontent
        have hc : (c != '>') = true := by simpa using hcontent.1
        rw [List.cons_append, untag.go, hc]
        exact ih hcontent.2
  rw [List.cons_append, List.append_assoc]
  exact hinside content hcontent

theorem unescape_cons {c : Char} (hc : c ≠ '&') (r : List Char) :
    unescape (c :: r) = c :: unescape r := by
  rw [unescape.eq_def]
  split
  · rename_i heq
    exact absurd (List.cons.inj heq).1 hc
  · rename_i heq
    exact absurd (List.cons.inj heq).1 hc
  · rename_i heq
    exact absurd (List.cons.inj heq).1 hc
  · rename_i heq
    obtain ⟨rfl, rfl⟩ := List.cons.inj heq
    rfl
  · rename_i heq
    cases heq

theorem unescape_escapeChar (c : Char) (r : List Char) :
    unescape (escapeChar c ++ r) = c :: unescape r := by
  rw [escapeChar]
  split
  · rename_i hc
    rw [hc]
    rfl
  · split
    · rename_i hc
      rw [hc]
      rfl
    · split
      · rename_i hc
        rw [hc]
        rfl
      · rename_i hamp _ _
        exact unescape_cons hamp r

/-- **Without its tags, and unescaped**, the HTML is what the pieces show. -/
theorem unescape_untag (hword : ExtendsAscii isWord) {pieces : List Piece}
    (hvalid : ∀ x ∈ pieces, x.Valid isWord) :
    unescape (untag (pieces.flatMap Piece.html)) = pieces.flatMap Piece.visible := by
  induction pieces with
  | nil => rfl
  | cons x pieces ih =>
      rw [List.forall_mem_cons] at hvalid
      rw [List.flatMap_cons, List.flatMap_cons, ← ih hvalid.2]
      cases x with
      | shown c =>
          rw [Piece.html, untag_plain fun d hd => (escapeChar_plain c d hd).1, unescape_escapeChar]
          rfl
      | lineBreak marks =>
          rw [Piece.html, untag_plain (forall_of_all (by decide)), List.singleton_append, unescape_cons (by decide)]
          rfl
      | tag html marks =>
          obtain ⟨content, rfl, hcontent⟩ := StandsFor.exists_content hword hvalid.1
          rw [Piece.html, untag_tag hcontent]
          rfl

end Visible

/-! ### The text that each pass is given -/

section Passes

variable (isWord : Char → Bool) (text : List Char)

def afterCodeBlocks : List Char := extractAll (FENCED_CODE_RE isWord) "CODEBLOCK" text

def afterInlineCode : List Char := extractAll INLINE_CODE_RE "INLINE" (afterCodeBlocks isWord text)

def afterBlockquotes : List Char :=
  extractAll BLOCKQUOTE_RE "BLOCKQUOTE" (afterInlineCode isWord text)

/-- The placeholders and their blocks, in the order in which they are put back. -/
def takenOut : List (List Char × List Char) :=
  entries .blockquote 0 ((findAll BLOCKQUOTE_RE (afterInlineCode isWord text)).map blockquote) ++
    (entries .inline 0 ((findAll INLINE_CODE_RE (afterCodeBlocks isWord text)).map inlineCode) ++
      entries .codeBlock 0 ((findAll (FENCED_CODE_RE isWord) text).map codeBlock))

def afterHeaders : List Char := wrapAll HEADER_RE "b" (escaped (afterBlockquotes isWord text))

def afterLinks : List Char := linkAll (afterHeaders isWord text)

def afterBold : List Char := wrapAll BOLD_RE "b" (afterLinks isWord text)

def afterStrike : List Char := wrapAll STRIKE_RE "s" (afterBold isWord text)

def afterUnderscores : List Char :=
  wrapAll (ITALIC_UNDERSCORE_RE isWord) "i" (afterStrike isWord text)

def afterStars : List Char := wrapAll ITALIC_STAR_RE "i" (afterUnderscores isWord text)

/-- **No pass meets what an earlier one has made**: no match begins in a tag, the tags between
    its marks are paired, no URL has a quotation mark, a tag or a placeholder in it, and nothing
    looks like the placeholder that is replaced. -/
structure CleanPasses : Prop where
  links : CleanLinks (takenOut isWord text) (afterHeaders isWord text)
  bold : CleanMatches BOLD_RE (afterLinks isWord text)
  strike : CleanMatches STRIKE_RE (afterBold isWord text)
  underscores : CleanMatches (ITALIC_UNDERSCORE_RE isWord) (afterStrike isWord text)
  stars : CleanMatches ITALIC_STAR_RE (afterUnderscores isWord text)
  restored : RestoredOnce (takenOut isWord text) (afterStars isWord text)

end Passes

section Result

variable {isWord : Char → Bool}

theorem toList_formatTelegramHtml (isWord : Char → Bool) (text : String) :
    (formatTelegramHtml isWord text).toList =
      restoreAll (takenOut isWord text.toList) (afterStars isWord text.toList) := by
  rw [takenOut, restoreAll_append, restoreAll_append, ← restore_eq, ← restore_eq, ← restore_eq]
  unfold formatTelegramHtml
  rw [String.toList_ofList]
  rfl

theorem outline_afterBlockquotes (hword : ExtendsAscii isWord) (text : List Char) :
    ∃ used, Outline isWord text used (takenOut isWord text) (afterBlockquotes isWord text) := by
  have hstart : Outline isWord text (fun _ => False) [] text :=
    ⟨shownItems text, [], by simp, isRaw_shownItems text, by simp, by simp,
      by simp [Restorable, standing], rfl⟩
  have hcode := hstart.extractAll (takesOut_fenced hword) fun _ h => h
  have hinline := hcode.extractAll takesOut_inline fun _ h => by
    rcases h with h | h
    · exact h
    · cases h
  have hquotes := hinline.extractAll takesOut_blockquote fun _ h => by
    rcases h with (h | h) | h
    · exact h
    · cases h
    · cases h
  rw [List.append_nil] at hquotes
  exact ⟨_, hquotes⟩

/-- **Text is formatted well when no pass meets what an earlier one has made.** -/
theorem wellFormatted_of_cleanPasses (hword : ExtendsAscii isWord) (text : String)
    (h : CleanPasses isWord text.toList) :
    WellFormatted isWord text.toList (formatTelegramHtml isWord text).toList := by
  rw [toList_formatTelegramHtml]
  generalize text.toList = source at h
  obtain ⟨used, items, bs, htext, hraw, hsource, hbs, horder, htaken⟩ :=
    outline_afterBlockquotes hword source
  have hbsvalid : ∀ b ∈ bs, b.Valid isWord := fun b hb => (hbs b hb).1
  have hescaped : items.flatMap Item.html = escaped (afterBlockquotes isWord source) := by
    rw [html_of_raw hraw, htext]
  have hplain : ∀ c ∈ escaped (afterBlockquotes isWord source), c ≠ '<' := fun c hc =>
    (escaped_plain _ c hc).1
  have hunbroken : ∀ marks, .piece (.lineBreak marks) ∉ items := fun marks hmem => hraw _ hmem
  have hlayout : ∃ items, Layout isWord source bs items (escaped (afterBlockquotes isWord source)) :=
    ⟨items, ⟨hescaped, fun x hx => (hraw x hx).valid, hsource, horder, .of_plain hplain⟩, hunbroken⟩
  have hheaders := layout_headers hword hplain hlayout
  have hlinks := layout_links hword htaken h.links hheaders
  have hb : IsHtmlTag "b" := by decide
  have hs : IsHtmlTag "s" := by decide
  have hi : IsHtmlTag "i" := by decide
  have hbold := layout_marks (by decide) (forall_of_all (by decide)) hword hb .boldStart .boldEnd
    h.bold hlinks
  have hstrike := layout_marks (by decide) (forall_of_all (by decide)) hword hs .strikeStart
    .strikeEnd h.strike hbold
  have hunderscores := layout_underscore hword h.underscores hstrike
  obtain ⟨items', hstars⟩ :=
    layout_marks (by decide) (forall_of_all (by decide)) hword hi .starStart .starEnd h.stars
      hunderscores
  have honce := h.restored
  rw [← htaken] at honce ⊢
  obtain ⟨restored, hrestored⟩ := hstars.toRendered.restoreAll hword hbsvalid honce
  obtain ⟨pieces, rfl⟩ := hrestored.pieces
  have hvalid : ∀ x ∈ pieces, x.Valid isWord := fun x hx =>
    hrestored.valid (.piece x) (List.mem_map_of_mem hx)
  have hhtml := hrestored.html_eq
  have hsame := hrestored.source_eq
  rw [List.flatMap_map] at hhtml hsame
  refine ⟨hrestored.nested, pieces, hvalid, hsame.symm, hhtml.symm, ?_⟩
  rw [← unescape_untag hword hvalid]
  exact congrArg (fun html => unescape (untag html)) hhtml.symm

end Result

/-! ### Clean and unclean texts -/

section Clean

variable {r : Regex} {text : List Char} {c : Char}

/-- Without the character that a match begins with there are no matches. -/
theorem not_found_of_unmarked {p rest : List Char} {i : Nat} {m : Match}
    (hfirst : ∀ s t, Reads r s t → s.rest.head? = some c) (hc : c ∉ text) :
    ¬Found r text i p m rest := by
  intro hfound
  obtain ⟨t, ht, _⟩ := hfound.reads
  apply hc
  rw [hfound.text_eq]
  exact List.mem_append_right p (List.mem_of_mem_head? (hfirst _ t ht))

theorem cleanMatches_of_unmarked (hfirst : ∀ s t, Reads r s t → s.rest.head? = some c)
    (hc : c ∉ text) : CleanMatches r text :=
  fun _ _ _ _ hfound => absurd hfound (not_found_of_unmarked hfirst hc)

theorem head_of_reads_between {marks : List Char} {q : Char → Bool} {s t : Cursor}
    (h : Reads (seqs [lit (c :: marks), .group 1 (plus false (.char q)), lit (c :: marks)]) s t) :
    s.rest.head? = some c := by
  obtain ⟨g, _, _, heq, _⟩ := reads_between h
  rw [heq]
  rfl

/-- Without tags all matches are clean. -/
theorem cleanMatches_of_untagged {marks : List Char} {q : Char → Bool} (h : ∀ c ∈ text, c ≠ '<') :
    CleanMatches (seqs [lit marks, .group 1 (plus false (.char q)), lit marks]) text := by
  intro i p m rest hfound
  obtain ⟨t, ht, _, hgroups⟩ := hfound.reads
  obtain ⟨g, _, _, heq, hone⟩ := reads_between ht
  have htext : text = p ++ (marks ++ (g ++ (marks ++ t.rest))) := by
    rw [hfound.text_eq]
    exact congrArg (p ++ ·) heq
  rw [hgroups, hone]
  refine ⟨endsInsideTag_of_plain fun c hc => ?_, .of_plain fun c hc => ?_⟩
  · apply h
    rw [htext]
    exact List.mem_append_left _ hc
  · apply h
    rw [htext]
    simp [hc]

end Clean

theorem wellFormatted_bold :
    WellFormatted asciiWord "**b**".toList (formatTelegramHtml asciiWord "**b**").toList := by
  have htaken : takenOut asciiWord "**b**".toList = [] := rfl
  have hlinks : afterHeaders asciiWord "**b**".toList = "**b**".toList := by decide +kernel
  have hbold : afterLinks asciiWord "**b**".toList = "**b**".toList := by decide +kernel
  have hstrike : afterBold asciiWord "**b**".toList = "<b>b</b>".toList := by decide +kernel
  have hunder : afterStrike asciiWord "**b**".toList = "<b>b</b>".toList := by decide +kernel
  have hstars : afterUnderscores asciiWord "**b**".toList = "<b>b</b>".toList := by decide +kernel
  have hlink : ∀ s t, Reads LINK_RE s t → s.rest.head? = some '[' := by
    intro s t h
    obtain ⟨g, url, heq, _⟩ := reads_link h
    rw [heq]
    rfl
  have hunderscore : ∀ s t, Reads (ITALIC_UNDERSCORE_RE asciiWord) s t →
      s.rest.head? = some '_' := by
    intro s t h
    obtain ⟨g, heq, _⟩ := reads_underscore h
    rw [heq]
    rfl
  apply wellFormatted_of_cleanPasses extendsAscii_asciiWord
  constructor
  · rw [hlinks]
    refine ⟨cleanMatches_of_unmarked hlink (by decide), ?_⟩
    intro i p m rest hfound
    exact absurd hfound (not_found_of_unmarked hlink (by decide))
  · rw [hbold]
    exact cleanMatches_of_untagged (forall_of_all (by decide))
  · rw [hstrike]
    exact cleanMatches_of_unmarked (fun _ _ => head_of_reads_between) (by decide)
  · rw [hunder]
    exact cleanMatches_of_unmarked hunderscore (by decide)
  · rw [hstars]
    exact cleanMatches_of_unmarked (fun _ _ => head_of_reads_between) (by decide)
  · rw [htaken]
    exact trivial

/-- Two elements that cross each other. -/
theorem not_wellNested_crossing : ¬WellNested IsHtmlTag (openTag "b" [] ++ (openTag "i" [] ++
    (['b'] ++ (closeTag "b" ++ closeTag "i")))) := by
  intro h
  have hb : IsTagName "b" := IsHtmlTag.isTagName (by decide)
  have hi : IsTagName "i" := IsHtmlTag.isTagName (by decide)
  obtain ⟨body, rest, hbody, _, heq⟩ := h.exists_of_openTag (fun _ => IsHtmlTag.isTagName) hb .nil
  cases body with
  | nil => exact openTag_ne_closeTag hi heq
  | cons c body =>
      obtain ⟨rfl, _⟩ := List.cons.inj heq
      obtain ⟨name, attrs, inner, rest', hname, hattrs, _, _, hinner⟩ := hbody.exists_element
      rw [hinner] at heq
      simp only [List.append_assoc] at heq
      obtain ⟨rfl, rfl, htail⟩ := openTag_inj hi hname.isTagName .nil hattrs heq
      -- two closing tags and at most one character are left
      have hlength := congrArg List.length htail
      simp only [List.length_append, List.length_cons, List.length_nil] at hlength
      match inner with
      | [] => exact absurd (List.cons.inj htail).1 (by decide)
      | [d] => exact absurd htail (by simp [closeTag])
      | d :: e :: inner =>
          simp only [List.length_cons] at hlength
          omega

/-- Bold letters between stars: the star that is left over becomes italic across the bold. -/
theorem crossing_marks :
    ¬WellFormatted asciiWord "***b***".toList (formatTelegramHtml asciiWord "***b***").toList := by
  rintro ⟨hnested, _⟩
  have hhtml : (formatTelegramHtml asciiWord "***b***").toList = openTag "b" [] ++
      (openTag "i" [] ++ (['b'] ++ (closeTag "b" ++ closeTag "i"))) := by decide +kernel
  rw [hhtml] at hnested
  exact not_wellNested_crossing hnested

end Anyclaw.Telegram
