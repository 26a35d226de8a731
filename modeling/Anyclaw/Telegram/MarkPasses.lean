import Anyclaw.Telegram.Extraction

/-!
# The other marks

Headers, links and emphasis become tags in the escaped text.  A pass keeps the text
well-nested when its matches begin outside tags and what stands between the marks is
well-nested, and no tag and no placeholder gets into an attribute.

This is step 5 of `format_telegram_html` (`ext/channels/telegram/src/formatting.rs`).
-/

namespace Anyclaw.Telegram

open Slices Markup Regex

/-! ### The text between the passes -/

/-- **The items of the escaped text**, with the blocks that have to be put back. -/
structure Rendered (isWord : Char → Bool) (source : List Char) (bs : List TakenBlock)
    (items : List Item) (text : List Char) : Prop where
  html_eq : items.flatMap Item.html = text
  valid : ∀ x ∈ items, x.Valid isWord
  source_eq : items.flatMap Item.source = source
  order : Restorable (standing items) bs
  nested : WellNested IsHtmlTag text

/-- As long as no quote has been put back, a line break is a character. -/
structure Layout (isWord : Char → Bool) (source : List Char) (bs : List TakenBlock)
    (items : List Item) (text : List Char) : Prop extends Rendered isWord source bs items text where
  unbroken : ∀ marks, .piece (.lineBreak marks) ∉ items

section Steps

variable {isWord : Char → Bool} {source text : List Char} {bs : List TakenBlock}
  {xs gs ys items : List Item} {p s : List Char}

/-- **Two marks become an element.** -/
theorem Layout.element {name : String} {attrs front back : List Char}
    (h : Layout isWord source bs
      (xs ++ (shownItems front ++ (gs ++ (shownItems back ++ ys)))) text)
    (hword : ExtendsAscii isWord) (hgs : WellNested IsHtmlTag (gs.flatMap Item.html))
    (hname : IsHtmlTag name) (hattrs : IsAttributes attrs)
    (hfront : StandsFor isWord (openTag name attrs) front)
    (hback : StandsFor isWord (closeTag name) back) :
    Layout isWord source bs
      (xs ++ .piece (.tag (openTag name attrs) front) ::
        (gs ++ .piece (.tag (closeTag name) back) :: ys))
      (xs.flatMap Item.html ++ ((openTag name attrs ++ (gs.flatMap Item.html ++ closeTag name)) ++
        ys.flatMap Item.html)) := by
  refine ⟨⟨?_, ?_, ?_, ?_, ?_⟩, ?_⟩
  · simp [Item.html, Piece.html]
  · intro x hx
    simp only [List.mem_append, List.mem_cons] at hx
    rcases hx with hx | rfl | hx | rfl | hx
    · exact h.valid x (by simp [hx])
    · exact hfront
    · exact h.valid x (by simp [hx])
    · exact hback
    · exact h.valid x (by simp [hx])
  · rw [← h.source_eq]
    simp [Item.source, Piece.source]
  · have horder := h.order
    simpa [standing] using horder
  · have hxs : endsInsideTag (xs.flatMap Item.html) = false :=
      endsInsideTag_html hword fun x hx => h.valid x (by simp [hx])
    have hplain : ∀ cs, WellNested IsHtmlTag (escaped cs) := fun cs =>
      .of_plain fun c hc => (escaped_plain cs c hc).1
    have hmarks : WellNested IsHtmlTag
        (escaped front ++ (gs.flatMap Item.html ++ escaped back)) :=
      (hplain front).append (hgs.append (hplain back))
    have hnested := h.nested
    rw [← h.html_eq] at hnested
    simp only [List.flatMap_append, html_shownItems] at hnested
    refine WellNested.exchange (fun _ => IsHtmlTag.isTagName) hxs hmarks
      (hgs.wrap hname hattrs) ?_
    simpa only [List.append_assoc] using hnested
  · intro marks hmem
    apply h.unbroken marks
    simp only [List.mem_append, List.mem_cons, Item.piece.injEq, reduceCtorEq, false_or] at hmem ⊢
    rcases hmem with hmem | hmem | hmem
    · exact .inl hmem
    · exact .inr (.inr (.inl hmem))
    · exact .inr (.inr (.inr (.inr hmem)))

/-- A row of marks outside a tag is a row of items. -/
theorem Layout.exists_marks (h : Layout isWord source bs items text)
    (hword : ExtendsAscii isWord) {marks : List Char} (hne : marks ≠ [])
    (hmarks : ∀ c ∈ marks, IsMark c ∧ IsSolid c) (hp : endsInsideTag p = false)
    (htext : text = p ++ (marks ++ s)) :
    ∃ xs ys, items = xs ++ (shownItems marks ++ ys) ∧ xs.flatMap Item.html = p ∧
      ys.flatMap Item.html = s :=
  exists_html_shownItems hword h.valid hne hmarks
    (fun marks hmem => absurd hmem (h.unbroken marks)) hp (h.html_eq.trans htext)

/-- What stands between two rows of marks is a row of items too. -/
theorem Layout.exists_between (h : Layout isWord source bs items text)
    (hword : ExtendsAscii isWord) {front back g : List Char} (hfront : front ≠ [])
    (hfrontMarks : ∀ c ∈ front, IsMark c ∧ IsSolid c) (hback : back ≠ [])
    (hbackMarks : ∀ c ∈ back, IsMark c ∧ IsSolid c) (hp : endsInsideTag p = false)
    (hg : endsInsideTag g = false) (htext : text = p ++ (front ++ (g ++ (back ++ s)))) :
    ∃ xs gs ys, items = xs ++ (shownItems front ++ (gs ++ (shownItems back ++ ys))) ∧
      xs.flatMap Item.html = p ∧ gs.flatMap Item.html = g ∧ ys.flatMap Item.html = s := by
  obtain ⟨xs, zs, rfl, hxs, hzs⟩ := h.exists_marks hword hfront hfrontMarks hp htext
  have hzsvalid : ∀ x ∈ zs, x.Valid isWord := fun x hx => h.valid x (by simp [hx])
  obtain ⟨gs, ys, rfl, hgs, hys⟩ := exists_html_shownItems hword hzsvalid hback hbackMarks
    (fun marks hmem => absurd (by simp [hmem]) (h.unbroken marks)) hg hzs
  exact ⟨xs, gs, ys, rfl, hxs, hgs, hys⟩

end Steps

/-! ### Emphasis -/

/-- The matches begin outside tags, and what stands between their marks is well-nested. -/
def CleanMatches (r : Regex) (text : List Char) : Prop :=
  ∀ (i : Nat) (p : List Char) (m : Match) (rest : List Char), Found r text i p m rest →
    endsInsideTag p = false ∧ WellNested IsHtmlTag (m.groups 1)

section Emphasis

variable {isWord : Char → Bool} {source text : List Char} {bs : List TakenBlock}

theorem wrap_eq (tag : String) (g : List Char) :
    ("<" ++ tag ++ ">").toList ++ g ++ ("</" ++ tag ++ ">").toList =
      openTag tag [] ++ (g ++ closeTag tag) := by
  simp [openTag, closeTag]

/-- **Emphasis between two equal marks** keeps the layout when the matches are clean. -/
theorem layout_marks {marks : List Char} {q : Char → Bool} {tag : String} (hne : marks ≠ [])
    (hmarks : ∀ c ∈ marks, IsMark c ∧ IsSolid c) (hword : ExtendsAscii isWord)
    (htag : IsHtmlTag tag) (hstart : StandsFor isWord (openTag tag []) marks)
    (hend : StandsFor isWord (closeTag tag) marks)
    (hclean : CleanMatches (seqs [lit marks, .group 1 (plus false (.char q)), lit marks]) text)
    (h : ∃ items, Layout isWord source bs items text) :
    ∃ items, Layout isWord source bs items
      (wrapAll (seqs [lit marks, .group 1 (plus false (.char q)), lit marks]) tag text) := by
  refine @replaceAll_induction _ _ _ (fun _ text => ∃ items, Layout isWord source bs items text) h ?_
  rintro i p m rest s hfound - ⟨items, hlayout⟩
  obtain ⟨hp, hg⟩ := hclean i p m rest hfound
  obtain ⟨t, ht, hrest, hgroups⟩ := hfound.reads
  obtain ⟨g, _, _, heq, hone⟩ := reads_between ht
  rw [← hgroups] at hone
  rw [hone] at hg
  have hwhole : m.whole ++ rest = marks ++ (g ++ marks) ++ rest := by
    rw [hrest] at heq
    simpa using heq
  rw [List.append_cancel_right hwhole, List.append_assoc, List.append_assoc] at hlayout
  have hgout := hg.endsInsideTag_eq fun _ => IsHtmlTag.isTagName
  obtain ⟨xs, gs, ys, rfl, rfl, rfl, rfl⟩ :=
    hlayout.exists_between hword hne hmarks hne hmarks hp hgout rfl
  rw [wrap_eq, hone]
  exact ⟨_, hlayout.element hword hg htag .nil hstart hend⟩

/-- An underscore in a placeholder stands between a word and a number. -/
theorem placeholder_underscore {l : Label} {u v : List Char} (h : l.placeholder = u ++ '_' :: v) :
    u = '\x00' :: l.kind.word.toList ∧ v = (toString l.number).toList ++ ['\x00'] := by
  have hword : '_' ∉ '\x00' :: l.kind.word.toList := by
    intro hmem
    rcases List.mem_cons.mp hmem with hmem | hmem
    · exact absurd hmem (by decide)
    · exact absurd (kind_word_alphanum l.kind '_' hmem) (by decide)
  have hnumber : '_' ∉ (toString l.number).toList ++ ['\x00'] := by
    intro hmem
    rcases List.mem_append.mp hmem with hmem | hmem
    · exact absurd (placeholder_digits hmem) (by decide)
    · exact absurd hmem (by decide)
  have heq : '\x00' :: l.kind.word.toList ++ '_' :: ((toString l.number).toList ++ ['\x00']) =
      u ++ '_' :: v := h
  rcases List.append_eq_append_iff.mp heq with ⟨z, hu, hz⟩ | ⟨z, hu, hz⟩
  · cases z with
    | nil =>
        rw [List.append_nil] at hu
        exact ⟨hu, (List.cons.inj hz).2.symm⟩
    | cons c z =>
        have hmem : '_' ∈ (toString l.number).toList ++ ['\x00'] := by
          rw [(List.cons.inj hz).2]
          simp
        exact absurd hmem hnumber
  · cases z with
    | nil =>
        rw [List.append_nil] at hu
        exact ⟨hu.symm, (List.cons.inj hz).2⟩
    | cons c z =>
        rw [(List.cons.inj hz).1.symm] at hu
        have hmem : '_' ∈ '\x00' :: l.kind.word.toList := by
          rw [hu]
          simp
        exact absurd hmem hword

/-- Behind a word character there is no underscore that begins italics, and before one there is
    none that ends them. -/
theorem not_placeholder_underscore (hword : ExtendsAscii isWord) {l : Label} {p s u v : List Char}
    (hu : u <:+ p) (hv : v <+: s)
    (hbound : p.getLast?.any isWord = false ∨ s.head?.any isWord = false) :
    l.placeholder ≠ u ++ '_' :: v := by
  intro h
  obtain ⟨rfl, rfl⟩ := placeholder_underscore h
  rcases hbound with hbound | hbound
  · have hlast : ∀ kind : BlockKind, ∃ z c, '\x00' :: kind.word.toList = z ++ [c] ∧
        c.toNat < 128 ∧ asciiWord c = true := by
      intro kind
      cases kind with
      | codeBlock => exact ⟨'\x00' :: "CODEBLOC".toList, 'K', rfl, by decide, by decide⟩
      | inline => exact ⟨'\x00' :: "INLIN".toList, 'E', rfl, by decide, by decide⟩
      | blockquote => exact ⟨'\x00' :: "BLOCKQUOT".toList, 'E', rfl, by decide, by decide⟩
    obtain ⟨z, c, hz, hascii, hc⟩ := hlast l.kind
    obtain ⟨q, rfl⟩ := hu
    rw [hz, ← List.append_assoc, List.getLast?_concat, Option.any_some, hword c hascii, hc] at hbound
    cases hbound
  · obtain ⟨q, rfl⟩ := hv
    cases hdigits : (toString l.number).toList with
    | nil =>
        have hnil : Nat.toDigits 10 l.number = [] := Nat.toList_repr.symm.trans hdigits
        exact absurd hnil Nat.toDigits_ne_nil
    | cons d ds =>
        have hd : d.isDigit = true := placeholder_digits (n := l.number) (by rw [hdigits]; simp)
        have hascii : d.toNat < 128 := by
          have hrange := Char.isDigit_iff_toNat.mp hd
          have hnine : '9'.toNat = 57 := rfl
          omega
        rw [hdigits, List.cons_append, List.cons_append, List.head?_cons, Option.any_some,
          hword d hascii, asciiWord, Char.isAlphanum, hd, Bool.or_true, Bool.true_or] at hbound
        cases hbound

theorem reads_underscore {s t : Cursor} (h : Reads (ITALIC_UNDERSCORE_RE isWord) s t) :
    ∃ g, s.rest = '_' :: (g ++ '_' :: t.rest) ∧ t.groups 1 = g ∧
      (s.prev.any isWord != isWord '_') = true ∧
      (isWord '_' != t.rest.head?.any isWord) = true := by
  obtain ⟨u, ⟨hfront, rfl⟩, v, hv, w, hw, x, hx, hback, rfl⟩ := h
  obtain ⟨cs, hstart, rfl⟩ := reads_lit_singleton.mp hv
  obtain ⟨g, _, hg, _, hgroups⟩ := reads_group_plus hw
  obtain ⟨cs', hend, rfl⟩ := reads_lit_singleton.mp hx
  rw [Cursor.skip_rest] at hg
  refine ⟨g, ?_, ?_, ?_, ?_⟩
  · rw [hstart, hg, hend]
    rfl
  · rw [Cursor.skip_groups, hgroups]
    rfl
  · rw [hstart] at hfront
    exact hfront
  · exact hback

theorem layout_underscore (hword : ExtendsAscii isWord)
    (hclean : CleanMatches (ITALIC_UNDERSCORE_RE isWord) text)
    (h : ∃ items, Layout isWord source bs items text) :
    ∃ items, Layout isWord source bs items (wrapAll (ITALIC_UNDERSCORE_RE isWord) "i" text) := by
  have hunder : isWord '_' = true := hword '_' (by decide)
  refine @replaceAll_induction _ _ _ (fun _ text => ∃ items, Layout isWord source bs items text) h ?_
  rintro i p m rest s hfound hs ⟨items, hlayout⟩
  obtain ⟨hp, hg⟩ := hclean i p m rest hfound
  obtain ⟨t, ht, hrest, hgroups⟩ := hfound.reads
  obtain ⟨g, heq, hone, hfront, hback⟩ := reads_underscore ht
  rw [← hgroups] at hone
  rw [hone] at hg
  rw [hrest, hunder, Bool.true_bne, Bool.not_eq_true'] at hback
  rw [hunder, Bool.bne_true, Bool.not_eq_true'] at hfront
  -- the character behind the match stays where it is
  have hback' : s.head?.any isWord = false := by
    cases rest with
    | nil =>
        rw [segmentsFrom, replaceSegments] at hs
        rw [hs]
        rfl
    | cons c cs =>
        rw [List.head?_cons, Option.any_some] at hback
        have hnone : matchAt (ITALIC_UNDERSCORE_RE isWord) (p ++ m.whole).getLast? (c :: cs) =
            none := by
          have hc : c ≠ '_' := by
            rintro rfl
            rw [hunder] at hback
            cases hback
          simp [matchAt, ITALIC_UNDERSCORE_RE, seqs, run, wordBoundary, lit, hc]
        obtain ⟨s', hs'⟩ := @exists_replaceSegments_cons _
          (fun _ m => ("<" ++ "i" ++ ">").toList ++ m.groups 1 ++ ("</" ++ "i" ++ ">").toList) (i + 1)
          _ _ _ hnone
        rw [hs, hs', List.head?_cons, Option.any_some, hback]
  have hwhole : m.whole ++ rest = '_' :: (g ++ ['_']) ++ rest := by
    rw [hrest] at heq
    simpa using heq
  rw [List.append_cancel_right hwhole, List.cons_append, List.append_assoc] at hlayout
  have hgout := hg.endsInsideTag_eq fun _ => IsHtmlTag.isTagName
  obtain ⟨xs, zs, rfl, rfl, hzs⟩ := exists_html_shown hword hlayout.valid (by decide)
    (fun l u v hu hv => not_placeholder_underscore hword hu hv (.inl hfront))
    (fun marks hmem => absurd hmem (hlayout.unbroken marks)) hp hlayout.html_eq
  have hzsvalid : ∀ x ∈ zs, x.Valid isWord := fun x hx => hlayout.valid x (by simp [hx])
  obtain ⟨gs, ys, rfl, rfl, rfl⟩ := exists_html_shown hword hzsvalid (by decide)
    (fun l u v hu hv => not_placeholder_underscore hword hu hv (.inr hback'))
    (fun marks hmem => absurd (by simp [hmem]) (hlayout.unbroken marks)) hgout hzs
  rw [wrap_eq, hone]
  have htag : IsHtmlTag "i" := by decide
  have hstart : StandsFor isWord (openTag "i" []) ['_'] := .underscoreStart
  have hend : StandsFor isWord (closeTag "i") ['_'] := .underscoreEnd
  exact ⟨_, hlayout.element hword hg htag .nil hstart hend⟩

end Emphasis

/-! ### Headers -/

section Headers

variable {isWord : Char → Bool} {source text : List Char} {bs : List TakenBlock} {s t : Cursor}

theorem reads_upTo {c : Char} {n : Nat} (h : Reads (upTo n (lit [c])) s t) :
    ∃ cs, s.rest = cs ++ t.rest ∧ (∀ d ∈ cs, d = c) ∧ t.groups = s.groups := by
  induction n generalizing s with
  | zero =>
      cases h
      exact ⟨[], rfl, by simp, rfl⟩
  | succ n ih =>
      rcases h with ⟨u, hu, hmore⟩ | h
      · obtain ⟨hstart, hgroups⟩ := reads_lit hu
        obtain ⟨cs, hrest, hall, hgroups'⟩ := ih hmore
        refine ⟨c :: cs, by rw [hstart, hrest]; rfl, ?_, hgroups'.trans hgroups⟩
        intro d hd
        rcases List.mem_cons.mp hd with rfl | hd
        · rfl
        · exact hall d hd
      · cases h
        exact ⟨[], rfl, by simp, rfl⟩

theorem reads_header (h : Reads HEADER_RE s t) :
    ∃ marks space g, marks ≠ [] ∧ (∀ c ∈ marks, c = '#') ∧ space ≠ [] ∧
      (∀ c ∈ space, isWhitespace c = true) ∧ s.rest = marks ++ (space ++ (g ++ t.rest)) ∧
      t.groups 1 = g ∧ (t.rest = [] ∨ ∃ cs, t.rest = '\n' :: cs) := by
  obtain ⟨u, ⟨_, rfl⟩, v, hv, w, hw, x, hx, y, hy, hend, rfl⟩ := h
  obtain ⟨hstart, _⟩ := reads_lit hv
  obtain ⟨marks, hmarks, hall, _⟩ := reads_upTo hw
  obtain ⟨space, hne, hspace, hwhite, _⟩ := reads_plus hx
  obtain ⟨g, _, hg, _, hgroups⟩ := reads_group_plus hy
  refine ⟨'#' :: marks, space, g, List.cons_ne_nil _ _, ?_, hne, hwhite, ?_, ?_, ?_⟩
  · intro c hc
    rcases List.mem_cons.mp hc with rfl | hc
    · rfl
    · exact hall c hc
  · rw [hstart, hmarks, hspace, hg]
    rfl
  · rw [hgroups]
    rfl
  · rw [decide_eq_true_eq] at hend
    rcases hend with hend | hend
    · exact .inl (List.head?_eq_none_iff.mp hend)
    · obtain ⟨cs, hcs⟩ := List.head?_eq_some_iff.mp hend
      exact .inr ⟨cs, hcs⟩

theorem isAlphanum_of_isWhitespace {c : Char} (hc : isWhitespace c = true) :
    c.isAlphanum = false := by
  rw [Bool.eq_false_iff]
  intro h
  have hcode := isAlphanum_iff.mp h
  simp only [isWhitespace, Bool.or_eq_true, Bool.and_eq_true, decide_eq_true_eq,
    beq_iff_eq] at hc
  omega

theorem isMark_of_isWhitespace {c : Char} (hc : isWhitespace c = true) : IsMark c ∧ IsSolid c := by
  have halnum := isAlphanum_of_isWhitespace hc
  refine ⟨⟨halnum, ?_⟩, halnum, ?_, ?_⟩
  · intro hmem
    have hplain : ∀ d ∈ ['&', ';', '<', '>'], isWhitespace d = false :=
      forall_of_all (by decide)
    rw [hplain c hmem] at hc
    cases hc
  · rintro rfl
    exact absurd hc (by decide)
  · rintro rfl
    exact absurd hc (by decide)

/-- **Headers** are taken from text without tags. -/
theorem layout_headers (hword : ExtendsAscii isWord) (hplain : ∀ c ∈ text, c ≠ '<')
    (h : ∃ items, Layout isWord source bs items text) :
    ∃ items, Layout isWord source bs items (wrapAll HEADER_RE "b" text) := by
  refine @replaceAll_induction _ _ _ (fun _ text => ∃ items, Layout isWord source bs items text) h ?_
  rintro i p m rest s hfound hs ⟨items, hlayout⟩
  obtain ⟨t, ht, hrest, hgroups⟩ := hfound.reads
  obtain ⟨marks, space, g, hmarks, hall, hspace, hwhite, heq, hone, hend⟩ := reads_header ht
  rw [← hgroups] at hone
  rw [hrest] at hend heq
  have hwhole : m.whole ++ rest = (marks ++ space) ++ g ++ rest := by simpa using heq
  have hwhole' := List.append_cancel_right hwhole
  have hp : endsInsideTag p = false := by
    apply endsInsideTag_of_plain
    intro c hc
    apply hplain c
    rw [hfound.text_eq]
    exact List.mem_append_left _ hc
  have hg : WellNested IsHtmlTag g := by
    apply WellNested.of_plain
    intro c hc
    apply hplain c
    rw [hfound.text_eq, hwhole']
    simp [hc]
  rw [hwhole', List.append_assoc] at hlayout
  have hfront : ∀ c ∈ marks ++ space, IsMark c ∧ IsSolid c := by
    intro c hc
    rcases List.mem_append.mp hc with hc | hc
    · rw [hall c hc]
      decide
    · exact isMark_of_isWhitespace (hwhite c hc)
  obtain ⟨xs, zs, rfl, hxs, hzs⟩ := hlayout.exists_marks hword (by simp [hmarks]) hfront hp rfl
  -- the header ends where the line ends
  have hcut : ∃ gs ys, zs = gs ++ ys ∧ gs.flatMap Item.html = g ∧ ys.flatMap Item.html = s := by
    rcases hend with hnil | ⟨cs, hcs⟩
    · subst hnil
      rw [segmentsFrom, replaceSegments] at hs
      subst hs
      exact ⟨zs, [], by simp, by simpa using hzs, rfl⟩
    · have hnone : matchAt HEADER_RE (p ++ m.whole).getLast? ('\n' :: cs) = none := by
        simp [matchAt, HEADER_RE, seqs, run, lineStart, lit]
      obtain ⟨s', hs'⟩ := @exists_replaceSegments_cons _
        (fun _ m => ("<" ++ "b" ++ ">").toList ++ m.groups 1 ++ ("</" ++ "b" ++ ">").toList) (i + 1)
        _ _ _ hnone
      rw [hcs, hs'] at hs
      subst hs
      have hzsvalid : ∀ x ∈ zs, x.Valid isWord := fun x hx => hlayout.valid x (by simp [hx])
      obtain ⟨gs, ys, rfl, hgs, hys⟩ := exists_html_shown hword hzsvalid (by decide)
        (fun l u v _ _ => not_placeholder_of_solid (by decide) l u v)
        (fun marks hmem => absurd (by simp [hmem]) (hlayout.unbroken marks))
        (hg.endsInsideTag_eq fun _ => IsHtmlTag.isTagName) hzs
      refine ⟨gs, .piece (.shown '\n') :: ys, rfl, hgs, ?_⟩
      rw [List.flatMap_cons, hys]
      rfl
  obtain ⟨gs, ys, rfl, rfl, rfl⟩ := hcut
  subst hxs
  have htag : IsHtmlTag "b" := by decide
  have hstart : StandsFor isWord (openTag "b" []) (marks ++ space) :=
    .headerStart hmarks hall hspace hwhite
  have hstop : StandsFor isWord (closeTag "b") [] := .headerEnd
  rw [wrap_eq, hone]
  exact ⟨_, Layout.element (by simpa using hlayout) hword hg htag .nil hstart hstop⟩

end Headers

/-! ### Links -/

section Links

variable {isWord : Char → Bool} {source text : List Char} {bs : List TakenBlock} {s t : Cursor}

/-- No quotation mark, no tag and no placeholder is in the URL. -/
structure CleanUrl (taken : List (List Char × List Char)) (url : List Char) : Prop where
  unquoted : '"' ∉ url
  untagged : '<' ∉ url
  whole : ∀ e ∈ taken, ¬e.1 <:+: url

def CleanLinks (taken : List (List Char × List Char)) (text : List Char) : Prop :=
  CleanMatches LINK_RE text ∧
    ∀ (i : Nat) (p : List Char) (m : Match) (rest : List Char), Found LINK_RE text i p m rest →
      CleanUrl taken (m.groups 2)

theorem reads_link (h : Reads LINK_RE s t) :
    ∃ g url, s.rest = '[' :: (g ++ ("](".toList ++ (url ++ ([')'] ++ t.rest)))) ∧
      t.groups 1 = g ∧ t.groups 2 = url := by
  obtain ⟨u, hu, v, hv, w, hw, x, hx, hend⟩ := h
  obtain ⟨hstart, _⟩ := reads_lit hu
  obtain ⟨g, _, hg, _, hcaptured⟩ := reads_group_plus hv
  obtain ⟨hmiddle, hkept⟩ := reads_lit hw
  obtain ⟨url, _, hurl, _, hcaptured'⟩ := reads_group_plus hx
  obtain ⟨hstop, hkept'⟩ := reads_lit hend
  refine ⟨g, url, ?_, ?_, ?_⟩
  · rw [hstart, hg, hmiddle, hurl, hstop]
    rfl
  · rw [hkept', hcaptured', hkept, hcaptured]
    rfl
  · rw [hkept', hcaptured']
    rfl

/-- Items with neither a tag nor a placeholder in their HTML are characters. -/
theorem eq_shownItems_of_clean {items us : List Item} {taken : List (List Char × List Char)}
    (h : Layout isWord source bs items text) (hword : ExtendsAscii isWord)
    (hbs : bs.map TakenBlock.entry = taken) (hus : ∀ x ∈ us, x ∈ items)
    (hclean : CleanUrl taken (us.flatMap Item.html)) :
    ∃ url, us = shownItems url ∧ '"' ∉ url := by
  have hall : ∀ x ∈ us, ∃ c, x = .piece (.shown c) ∧ c ≠ '"' := by
    intro x hx
    have hin : x.html <:+: us.flatMap Item.html := by
      obtain ⟨xs, ys, rfl⟩ := List.append_of_mem hx
      rw [List.flatMap_append, List.flatMap_cons, ← List.append_assoc]
      exact List.infix_append _ _ _
    cases x with
    | block l marks =>
        have hstanding : (l, marks) ∈ standing items := mem_blocks.mpr (hus _ hx)
        obtain ⟨b, hb, hlabel⟩ := h.order.exists_taken hstanding
        have hentry : (l.placeholder, b.html) ∈ taken := by
          rw [← hbs]
          exact List.mem_map.mpr ⟨b, hb, by rw [TakenBlock.entry, hlabel]⟩
        exact absurd hin (hclean.whole _ hentry)
    | piece x =>
        cases x with
        | shown c =>
            refine ⟨c, rfl, ?_⟩
            rintro rfl
            exact hclean.unquoted (hin.subset (by decide))
        | lineBreak marks => exact absurd (hus _ hx) (h.unbroken marks)
        | tag html marks =>
            obtain ⟨content, hhtml, _⟩ := StandsFor.exists_content hword (h.valid _ (hus _ hx))
            have hmem : '<' ∈ Item.html (.piece (.tag html marks)) := by
              change '<' ∈ html
              rw [hhtml]
              exact List.mem_cons_self
            exact absurd (hin.subset hmem) hclean.untagged
  clear hclean hus
  induction us with
  | nil => exact ⟨[], rfl, by simp⟩
  | cons x us ih =>
      rw [List.forall_mem_cons] at hall
      obtain ⟨c, rfl, hc⟩ := hall.1
      obtain ⟨url, rfl, hurl⟩ := ih hall.2
      exact ⟨c :: url, rfl, by simp [Ne.symm hc, hurl]⟩

theorem shownItems_append (cs ds : List Char) :
    shownItems (cs ++ ds) = shownItems cs ++ shownItems ds := List.map_append

/-- **Links** keep the layout when their URLs are clean. -/
theorem layout_links {taken : List (List Char × List Char)} (hword : ExtendsAscii isWord)
    (hbs : bs.map TakenBlock.entry = taken) (hclean : CleanLinks taken text)
    (h : ∃ items, Layout isWord source bs items text) :
    ∃ items, Layout isWord source bs items (linkAll text) := by
  refine @replaceAll_induction _ _ _ (fun _ text => ∃ items, Layout isWord source bs items text) h ?_
  rintro i p m rest s hfound - ⟨items, hlayout⟩
  obtain ⟨hp, hg⟩ := hclean.1 i p m rest hfound
  have hurl := hclean.2 i p m rest hfound
  obtain ⟨t, ht, hrest, hgroups⟩ := hfound.reads
  obtain ⟨g, url, heq, hone, htwo⟩ := reads_link ht
  rw [← hgroups] at hone htwo
  rw [hone] at hg
  rw [htwo] at hurl
  have hwhole : m.whole ++ rest = ['['] ++ (g ++ ("](".toList ++ (url ++ [')']))) ++ rest := by
    rw [hrest] at heq
    simpa using heq
  have htext : p ++ (m.whole ++ s) = p ++ (['['] ++ (g ++ ("](".toList ++ (url ++ ([')'] ++ s))))) := by
    rw [List.append_cancel_right hwhole]
    simp only [List.append_assoc]
  rw [htext] at hlayout
  have hurlout : endsInsideTag url = false :=
    endsInsideTag_of_plain fun c hc heq => hurl.untagged (heq ▸ hc)
  obtain ⟨xs, gs, zs, rfl, rfl, rfl, hzs⟩ := hlayout.exists_between hword
    (List.cons_ne_nil _ _) (forall_of_all (by decide)) (by decide) (forall_of_all (by decide)) hp
    (hg.endsInsideTag_eq fun _ => IsHtmlTag.isTagName) rfl
  have hzsvalid : ∀ x ∈ zs, x.Valid isWord := fun x hx => hlayout.valid x (by simp [hx])
  obtain ⟨us, ys, rfl, rfl, rfl⟩ := exists_html_shownItems hword hzsvalid (List.cons_ne_nil _ _)
    (forall_of_all (by decide))
    (fun marks hmem => absurd (by simp [hmem]) (hlayout.unbroken marks)) hurlout hzs
  obtain ⟨url, rfl, hunquoted⟩ := eq_shownItems_of_clean hlayout hword hbs
    (fun x hx => by simp [hx]) hurl
  have hback : shownItems "](".toList ++ (shownItems url ++ (shownItems [')'] ++ ys)) =
      shownItems ("](".toList ++ (url ++ ")".toList)) ++ ys := by
    rw [shownItems_append, shownItems_append, List.append_assoc, List.append_assoc]
    rfl
  rw [hback] at hlayout
  have htag : IsHtmlTag "a" := by decide
  have hstart : StandsFor isWord (openTag "a" (hrefAttrs url)) ['['] := by
    rw [← linkStart_eq]
    exact .linkStart hunquoted
  have hstop : StandsFor isWord (closeTag "a") ("](".toList ++ (url ++ ")".toList)) := .linkEnd
  have hclose : "</a>".toList = closeTag "a" := by decide
  have helement := hlayout.element hword hg htag (isAttributes_href url) hstart hstop
  rw [← linkStart_eq] at helement
  rw [hone, htwo, html_shownItems, hclose]
  simp only [List.append_assoc] at helement ⊢
  exact ⟨_, helement⟩

end Links

end Anyclaw.Telegram
