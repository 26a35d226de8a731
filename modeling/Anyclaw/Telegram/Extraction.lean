import Anyclaw.Telegram.Placeholders

/-!
# Taking blocks out

Code and quotes are taken out of the text one kind after the other.  Each match stands
between characters that no placeholder has, so that it is a row of items, and what is put
back in its place later is made of the same items.

These are the steps 1 to 3 of `format_telegram_html`
(`ext/channels/telegram/src/formatting.rs`).
-/

namespace Anyclaw.Telegram

open Slices Markup Regex

/-! ### Rows of items before the text is escaped -/

/-- Between the two texts no item is cut. -/
inductive IsBoundary : List Char → List Char → Prop
  | finish (p : List Char) : IsBoundary p []
  | before {p s : List Char} {c : Char} : IsSolid c → IsBoundary p (c :: s)
  | behind {p s : List Char} {c : Char} : IsSolid c → IsBoundary (p ++ [c]) s

section Raw

variable {isWord : Char → Bool} {items : List Item} {p s : List Char}

theorem exists_raw_append (hraw : ∀ x ∈ items, x.IsRaw) (hbound : IsBoundary p s)
    (h : items.flatMap Item.raw = p ++ s) :
    ∃ xs ys, items = xs ++ ys ∧ xs.flatMap Item.raw = p ∧ ys.flatMap Item.raw = s := by
  cases hbound with
  | finish => exact ⟨items, [], by simp, by simpa using h, rfl⟩
  | @before _ s c hc =>
      obtain ⟨xs, ys, rfl, hxs, hys⟩ := exists_raw_shown hraw hc h
      refine ⟨xs, .piece (.shown c) :: ys, rfl, hxs, ?_⟩
      rw [List.flatMap_cons, hys]
      rfl
  | @behind q _ c hc =>
      rw [List.append_assoc] at h
      obtain ⟨xs, ys, rfl, hxs, hys⟩ := exists_raw_shown hraw hc h
      refine ⟨xs ++ [.piece (.shown c)], ys, by simp, ?_, hys⟩
      rw [List.flatMap_append, hxs]
      rfl

/-- A placeholder begins with a null character, so that other characters are items. -/
theorem exists_raw_front {cs : List Char} (hraw : ∀ x ∈ items, x.IsRaw) (hcs : '\x00' ∉ cs)
    (h : items.flatMap Item.raw = cs ++ s) :
    ∃ ys, items = shownItems cs ++ ys ∧ ys.flatMap Item.raw = s := by
  induction cs generalizing items with
  | nil => exact ⟨items, rfl, h⟩
  | cons c cs ih =>
      rw [List.mem_cons, not_or] at hcs
      cases items with
      | nil => exact absurd h (by simp)
      | cons x xs =>
          rw [List.forall_mem_cons] at hraw
          rw [List.flatMap_cons] at h
          cases x with
          | block l source => exact absurd (List.cons.inj h).1 hcs.1
          | piece x =>
              cases x with
              | shown d =>
                  obtain ⟨rfl, hrest⟩ := List.cons.inj h
                  obtain ⟨ys, rfl, hys⟩ := ih hraw.2 hcs.2 hrest
                  exact ⟨ys, rfl, hys⟩
              | lineBreak source => exact hraw.1.elim
              | tag html source => exact hraw.1.elim

theorem eq_shownItems_of_raw {cs : List Char} (hraw : ∀ x ∈ items, x.IsRaw) (hcs : '\x00' ∉ cs)
    (h : items.flatMap Item.raw = cs) : items = shownItems cs := by
  rw [← List.append_nil cs] at h
  obtain ⟨ys, rfl, hys⟩ := exists_raw_front hraw hcs h
  cases ys with
  | nil => exact List.append_nil _
  | cons x xs =>
      have hx := hraw x (by simp)
      rw [List.flatMap_cons, List.append_eq_nil_iff] at hys
      cases x with
      | block l source => exact absurd hys.1 (List.cons_ne_nil _ _)
      | piece x =>
          cases x with
          | shown c => exact absurd hys.1 (List.cons_ne_nil _ _)
          | lineBreak source => exact hx.elim
          | tag html source => exact hx.elim

theorem escaped_placeholder (l : Label) : escaped l.placeholder = l.placeholder :=
  escaped_of_plain ⟨not_mem_placeholder (by decide) l, not_mem_placeholder (by decide) l,
    not_mem_placeholder (by decide) l⟩

theorem escaped_append (cs ds : List Char) : escaped (cs ++ ds) = escaped cs ++ escaped ds := by
  rw [escaped_eq, escaped_eq, escaped_eq, List.flatMap_append]

theorem Item.IsRaw.html_eq {x : Item} (h : x.IsRaw) : x.html = escaped x.raw := by
  cases x with
  | block l source => exact (escaped_placeholder l).symm
  | piece x =>
      cases x with
      | shown c =>
          have hone : escaped [c] = escapeChar c := by
            rw [escaped_eq, List.flatMap_singleton]
          exact hone.symm
      | lineBreak source => exact h.elim
      | tag html source => exact h.elim

/-- Escaping the text escapes its items. -/
theorem html_of_raw (hraw : ∀ x ∈ items, x.IsRaw) :
    items.flatMap Item.html = escaped (items.flatMap Item.raw) := by
  induction items with
  | nil => rfl
  | cons x xs ih =>
      rw [List.forall_mem_cons] at hraw
      rw [List.flatMap_cons, List.flatMap_cons, escaped_append, ih hraw.2, hraw.1.html_eq]

theorem html_plain_of_raw (hraw : ∀ x ∈ items, x.IsRaw) :
    ∀ c ∈ items.flatMap Item.html, c ≠ '<' := by
  intro c hc
  rw [html_of_raw hraw] at hc
  exact (escaped_plain _ c hc).1

theorem Item.IsRaw.valid {x : Item} (h : x.IsRaw) : x.Valid isWord := by
  cases x with
  | block l source => exact trivial
  | piece x =>
      cases x with
      | shown c => exact trivial
      | lineBreak source => exact h.elim
      | tag html source => exact h.elim

end Raw

/-! ### One pass -/

def entries (kind : BlockKind) : Nat → List (List Char) → List (List Char × List Char)
  | _, [] => []
  | i, block :: blocks => ((⟨kind, i⟩ : Label).placeholder, block) :: entries kind (i + 1) blocks

/-- **The text while blocks are taken out**: a row of characters and blocks, with what has to
    be put back. -/
def Outline (isWord : Char → Bool) (source : List Char) (used : Label → Prop)
    (taken : List (List Char × List Char)) (text : List Char) : Prop :=
  ∃ items bs, text = items.flatMap Item.raw ∧ (∀ x ∈ items, x.IsRaw) ∧
    items.flatMap Item.source = source ∧ (∀ b ∈ bs, b.Valid isWord ∧ used b.label) ∧
    Restorable (standing items) bs ∧ bs.map TakenBlock.entry = taken

/-- What a match stands for: a content of the same items. -/
structure StandsIn (isWord : Char → Bool) (ms content : List Item) : Prop where
  source : content.flatMap Item.source = ms.flatMap Item.source
  blocks : blocks content = blocks ms
  valid : ∀ x ∈ content, x.Valid isWord
  nested : WellNested IsHtmlTag (content.flatMap Item.html)

theorem StandsIn.raw {isWord : Char → Bool} {ms : List Item} (h : ∀ x ∈ ms, x.IsRaw) :
    StandsIn isWord ms ms :=
  ⟨rfl, rfl, fun x hx => (h x hx).valid, .of_plain (html_plain_of_raw h)⟩

/-- An element around a content stands for its markup around the items. -/
theorem standsIn_element {isWord : Char → Bool} {ms content : List Item} {name : String}
    {attrs front back : List Char}
    (hsource : front ++ (content.flatMap Item.source ++ back) = ms.flatMap Item.source)
    (hblocks : blocks content = blocks ms) (hvalid : ∀ x ∈ content, x.Valid isWord)
    (hnested : WellNested IsHtmlTag (content.flatMap Item.html)) (hname : IsHtmlTag name)
    (hattrs : IsAttributes attrs) (hfront : StandsFor isWord (openTag name attrs) front)
    (hback : StandsFor isWord (closeTag name) back) :
    StandsIn isWord ms (.piece (.tag (openTag name attrs) front) ::
      (content ++ [.piece (.tag (closeTag name) back)])) := by
  constructor
  · rw [← hsource]
    simp [Item.source, Piece.source]
  · simp [hblocks]
  · intro x hx
    rcases List.mem_cons.mp hx with rfl | hx
    · exact hfront
    · rcases List.mem_append.mp hx with hx | hx
      · exact hvalid x hx
      · rw [List.mem_singleton.mp hx]
        exact hback
  · have hwrapped := hnested.wrap hname hattrs
    simpa [Item.html, Piece.html] using hwrapped

theorem StandsIn.wrap {isWord : Char → Bool} {ms content : List Item} {name : String}
    {attrs front back : List Char} (h : StandsIn isWord ms content) (hname : IsHtmlTag name)
    (hattrs : IsAttributes attrs) (hfront : StandsFor isWord (openTag name attrs) front)
    (hback : StandsFor isWord (closeTag name) back) :
    StandsIn isWord (shownItems front ++ (ms ++ shownItems back))
      (.piece (.tag (openTag name attrs) front) ::
        (content ++ [.piece (.tag (closeTag name) back)])) := by
  apply standsIn_element _ _ h.valid h.nested hname hattrs hfront hback
  · simp [h.source]
  · simp [h.blocks]

theorem html_wrap (front back before after : List Char) (content : List Item) :
    (Item.piece (.tag front before) :: (content ++ [.piece (.tag back after)])).flatMap Item.html =
      front ++ (content.flatMap Item.html ++ back) := by
  simp [Item.html, Piece.html]

/-- The matches of an expression are rows of items, with the block as content. -/
structure TakesOut (isWord : Char → Bool) (r : Regex) (kind : BlockKind)
    (render : Match → List Char) : Prop where
  bounded : ∀ {text : List Char} {i : Nat} {p : List Char} {m : Match} {rest s : List Char},
    Found r text i p m rest →
    s = replaceSegments (fun i _ => placeholder kind.word i) (i + 1)
      (segmentsFrom r 0 (p ++ m.whole).getLast? rest) →
    IsBoundary p (m.whole ++ s) ∧ IsBoundary m.whole s
  content : ∀ {text : List Char} {i : Nat} {p : List Char} {m : Match} {rest : List Char}
    {ms : List Item}, Found r text i p m rest → (∀ x ∈ ms, x.IsRaw) →
    ms.flatMap Item.raw = m.whole →
    ∃ content, StandsIn isWord ms content ∧ content.flatMap Item.html = render m

theorem Outline.extractAll {isWord : Char → Bool} {r : Regex} {kind : BlockKind}
    {render : Match → List Char} {source text : List Char} {used : Label → Prop}
    {taken : List (List Char × List Char)} (hr : TakesOut isWord r kind render)
    (hfresh : ∀ n, ¬used ⟨kind, n⟩) (h : Outline isWord source used taken text) :
    Outline isWord source (fun l => used l ∨ l.kind = kind)
      (entries kind 0 ((findAll r text).map render) ++ taken) (extractAll r kind.word text) := by
  have hall := @replaceAll_induction r text (fun i _ => placeholder kind.word i)
    (fun i text' => Outline isWord source (fun l => used l ∨ l.kind = kind ∧ i ≤ l.number)
      (entries kind i (((findAll r text).map render).drop i) ++ taken) text') ?_ ?_
  · obtain ⟨items, bs, htext, hraw, hsource, hbs, horder, htaken⟩ := hall
    refine ⟨items, bs, htext, hraw, hsource, ?_, horder, htaken⟩
    intro b hb
    obtain ⟨hvalid, hused⟩ := hbs b hb
    exact ⟨hvalid, hused.imp_right And.left⟩
  · obtain ⟨items, bs, htext, hraw, hsource, hbs, horder, htaken⟩ := h
    refine ⟨items, bs, htext, hraw, hsource, fun b hb => ⟨(hbs b hb).1, .inl (hbs b hb).2⟩,
      horder, ?_⟩
    rw [List.drop_of_length_le (by simp), entries, htaken]
    rfl
  · rintro i p m rest s hfound hs ⟨items, bs, htext, hraw, hsource, hbs, horder, htaken⟩
    obtain ⟨hfront, hback⟩ := hr.bounded hfound hs
    obtain ⟨xs, zs, rfl, hxs, hzs⟩ := exists_raw_append hraw hfront htext.symm
    have hzsraw : ∀ x ∈ zs, x.IsRaw := fun x hx => hraw x (List.mem_append_right xs hx)
    obtain ⟨ms, ys, rfl, hms, hys⟩ := exists_raw_append hzsraw hback hzs
    have hmsraw : ∀ x ∈ ms, x.IsRaw := fun x hx => hzsraw x (List.mem_append_left ys hx)
    obtain ⟨content, hcontent, hhtml⟩ := hr.content hfound hmsraw hms
    refine ⟨xs ++ .block ⟨kind, i⟩ (ms.flatMap Item.source) :: ys, ⟨⟨kind, i⟩, content⟩ :: bs,
      ?_, ?_, ?_, ?_, ?_, ?_⟩
    · rw [List.flatMap_append, List.flatMap_cons, hxs, hys]
      rfl
    · intro x hx
      rcases List.mem_append.mp hx with hx | hx
      · exact hraw x (List.mem_append_left _ hx)
      · rcases List.mem_cons.mp hx with rfl | hx
        · exact trivial
        · exact hzsraw x (List.mem_append_right ms hx)
    · rw [← hsource]
      simp [Item.source]
    · intro b hb
      rcases List.mem_cons.mp hb with rfl | hb
      · exact ⟨⟨hcontent.valid, hcontent.nested⟩, .inr ⟨rfl, Nat.le_refl i⟩⟩
      · obtain ⟨hvalid, hused⟩ := hbs b hb
        exact ⟨hvalid, hused.imp_right fun h => ⟨h.1, Nat.le_of_succ_le h.2⟩⟩
    · apply horder.takeOut _ hcontent.source hcontent.blocks
      intro b hb heq
      rcases (hbs b hb).2 with hused | ⟨_, hle⟩
      · rw [heq] at hused
        exact hfresh i hused
      · rw [heq] at hle
        exact absurd hle (Nat.not_succ_le_self i)
    · have hdrop : ((findAll r text).map render).drop i =
          render m :: ((findAll r text).map render).drop (i + 1) := by
        apply List.drop_eq_getElem?_toList_append.trans
        rw [List.getElem?_map, hfound.number]
        rfl
      rw [hdrop, entries, List.map_cons, htaken, TakenBlock.entry, TakenBlock.html, hhtml]
      rfl

/-! ### Code -/

section Code

variable {isWord : Char → Bool} {s t : Cursor}

theorem reads_fenced (h : Reads (FENCED_CODE_RE isWord) s t) :
    ∃ lang newline code, s.rest = "```".toList ++ (lang ++ (newline ++ (code ++ ("```".toList ++
        t.rest)))) ∧ (∀ c ∈ lang, isWord c = true) ∧ (newline = [] ∨ newline = ['\n']) ∧
      t.groups 1 = lang ∧ t.groups 2 = code := by
  obtain ⟨u, hu, v, hv, w, hw, x, hx, hend⟩ := h
  obtain ⟨hstart, _⟩ := reads_lit hu
  obtain ⟨lang, hlang, hword, hgroups⟩ := reads_group_star hv
  obtain ⟨code, hcode, _, hgroups'⟩ := reads_group_star hx
  obtain ⟨hmark, hgroups''⟩ := reads_lit hend
  have hnewline : ∃ newline, v.rest = newline ++ w.rest ∧
      (newline = [] ∨ newline = ['\n']) ∧ w.groups = v.groups := by
    rcases hw with hw | hw
    · obtain ⟨hrest, hsame⟩ := reads_lit hw
      exact ⟨['\n'], hrest, .inr rfl, hsame⟩
    · rw [hw]
      exact ⟨[], rfl, .inl rfl, rfl⟩
  obtain ⟨newline, hnewline, hcases, hsame⟩ := hnewline
  refine ⟨lang, newline, code, ?_, hword, hcases, ?_, ?_⟩
  · rw [hstart, hlang, hnewline, hcode, hmark]
  · rw [hgroups'', hgroups', hsame, hgroups]
    rfl
  · rw [hgroups'', hgroups']
    rfl

/-- A match between two marks is between boundaries. -/
theorem isBoundary_of_marks {whole w z : List Char} {c d : Char} {p s : List Char}
    (hc : IsSolid c) (hd : IsSolid d) (hfront : whole = c :: w) (hback : whole = z ++ [d]) :
    IsBoundary p (whole ++ s) ∧ IsBoundary whole s := by
  constructor
  · rw [hfront]
    exact .before hc
  · rw [hback]
    exact .behind hd

theorem takesOut_fenced (hword : ExtendsAscii isWord) :
    TakesOut isWord (FENCED_CODE_RE isWord) .codeBlock codeBlock := by
  have hwhole : ∀ {text : List Char} {i : Nat} {p : List Char} {m : Match} {rest : List Char},
      Found (FENCED_CODE_RE isWord) text i p m rest →
      ∃ newline, m.whole = "```".toList ++ (m.groups 1 ++ (newline ++ (m.groups 2 ++
          "```".toList))) ∧ (∀ c ∈ m.groups 1, isWord c = true) ∧
        (newline = [] ∨ newline = ['\n']) := by
    intro text i p m rest hfound
    obtain ⟨t, ht, hrest, hgroups⟩ := hfound.reads
    obtain ⟨lang, newline, code, heq, hlang, hnewline, hone, htwo⟩ := reads_fenced ht
    rw [← hgroups] at hone htwo
    refine ⟨newline, ?_, by rwa [hone], hnewline⟩
    rw [hrest] at heq
    have happ : m.whole ++ rest = "```".toList ++ (lang ++ (newline ++ (code ++
        "```".toList))) ++ rest := by simpa using heq
    rw [hone, htwo]
    exact List.append_cancel_right happ
  constructor
  · intro text i p m rest s hfound _
    obtain ⟨newline, heq, _⟩ := hwhole hfound
    have hback : m.whole = "```".toList ++ (m.groups 1 ++ (newline ++ (m.groups 2 ++
        "``".toList))) ++ ['`'] := by
      rw [heq]
      simp
    exact isBoundary_of_marks (by decide) (by decide) heq hback
  · intro text i p m rest ms hfound hraw hms
    obtain ⟨newline, heq, hlang, hnewline⟩ := hwhole hfound
    have hlangNul : '\x00' ∉ m.groups 1 := by
      intro hmem
      have hnul := hlang _ hmem
      rw [hword '\x00' (by decide)] at hnul
      cases hnul
    have hfrontNul : '\x00' ∉ "```".toList ++ (m.groups 1 ++ newline) := by
      rcases hnewline with rfl | rfl
      · simpa using hlangNul
      · simpa using hlangNul
    have hfront : ms.flatMap Item.raw = ("```".toList ++ (m.groups 1 ++ newline)) ++
        (m.groups 2 ++ "```".toList) := by
      rw [hms, heq]
      simp
    obtain ⟨ys, rfl, hys⟩ := exists_raw_front hraw hfrontNul hfront
    have hysraw : ∀ x ∈ ys, x.IsRaw := fun x hx => hraw x (List.mem_append_right _ hx)
    obtain ⟨code, es, rfl, hcode, hes⟩ :=
      exists_raw_append hysraw (.before (c := '`') (by decide)) hys
    have hcoderaw : ∀ x ∈ code, x.IsRaw := fun x hx => hysraw x (List.mem_append_left _ hx)
    have hend := eq_shownItems_of_raw (fun x hx => hysraw x (List.mem_append_right _ hx))
      (by decide) hes
    subst hend
    have hinner : StandsIn isWord code code := .raw hcoderaw
    have hescaped : code.flatMap Item.html = escaped (m.groups 2) := by
      rw [html_of_raw hcoderaw, hcode]
    have hpre : StandsFor isWord (openTag "pre" []) ("```".toList ++ (m.groups 1 ++ newline)) :=
      .preStart hlang hnewline
    have hpreEnd : StandsFor isWord (closeTag "pre") "```".toList := .preEnd
    by_cases hnone : m.groups 1 = []
    · refine ⟨_, hinner.wrap (by decide) .nil hpre hpreEnd, ?_⟩
      unfold codeBlock
      rw [if_pos hnone, ← hescaped, html_wrap, List.append_assoc]
      rfl
    · have hlanguage : StandsFor isWord (openTag "code" (languageAttrs (m.groups 1))) [] := by
        rw [← languageStart_eq]
        exact .languageStart hlang
      have hlanguageEnd : StandsFor isWord (closeTag "code") [] := .languageEnd
      have hcodeStands := hinner.wrap (by decide) (isAttributes_language hword hlang) hlanguage
        hlanguageEnd
      simp only [shownItems_nil, List.nil_append, List.append_nil] at hcodeStands
      refine ⟨_, hcodeStands.wrap (by decide) .nil hpre hpreEnd, ?_⟩
      have hopen : "<pre><code class=\"language-".toList =
          openTag "pre" [] ++ "<code class=\"language-".toList := by decide
      have hclose : "</code></pre>".toList = closeTag "code" ++ closeTag "pre" := by decide
      unfold codeBlock
      rw [if_neg hnone, ← hescaped, html_wrap, html_wrap, ← languageStart_eq, hopen, hclose]
      simp only [List.append_assoc]

theorem takesOut_inline : TakesOut isWord INLINE_CODE_RE .inline inlineCode := by
  have hwhole : ∀ {text : List Char} {i : Nat} {p : List Char} {m : Match} {rest : List Char},
      Found INLINE_CODE_RE text i p m rest → m.whole = '`' :: (m.groups 1 ++ ['`']) := by
    intro text i p m rest hfound
    obtain ⟨t, ht, hrest, hgroups⟩ := hfound.reads
    obtain ⟨code, _, _, heq, hone⟩ := reads_between ht
    rw [← hgroups] at hone
    rw [hrest] at heq
    have happ : m.whole ++ rest = '`' :: (code ++ ['`']) ++ rest := by simpa using heq
    rw [hone]
    exact List.append_cancel_right happ
  constructor
  · intro text i p m rest s hfound _
    have heq := hwhole hfound
    exact isBoundary_of_marks (z := '`' :: m.groups 1) (by decide) (by decide) heq heq
  · intro text i p m rest ms hfound hraw hms
    have hfront : ms.flatMap Item.raw = ['`'] ++ (m.groups 1 ++ ['`']) := by
      rw [hms, hwhole hfound]
      rfl
    obtain ⟨ys, rfl, hys⟩ := exists_raw_front hraw (by decide) hfront
    have hysraw : ∀ x ∈ ys, x.IsRaw := fun x hx => hraw x (List.mem_append_right _ hx)
    obtain ⟨code, es, rfl, hcode, hes⟩ :=
      exists_raw_append hysraw (.before (c := '`') (by decide)) hys
    have hcoderaw : ∀ x ∈ code, x.IsRaw := fun x hx => hysraw x (List.mem_append_left _ hx)
    have hend := eq_shownItems_of_raw (fun x hx => hysraw x (List.mem_append_right _ hx))
      (by decide) hes
    subst hend
    have hopen : StandsFor isWord (openTag "code" []) ['`'] := .codeStart
    have hclose : StandsFor isWord (closeTag "code") ['`'] := .codeEnd
    have hinner : StandsIn isWord code code := .raw hcoderaw
    refine ⟨_, hinner.wrap (by decide) .nil hopen hclose, ?_⟩
    unfold inlineCode
    rw [html_wrap, html_of_raw hcoderaw, hcode, List.append_assoc]
    rfl

end Code

/-! ### Quotes -/

section Quotes

variable {isWord : Char → Bool} {s t : Cursor} {items : List Item}

def quotedLine : Regex :=
  seqs [lit ['>'], opt (.char isWhitespace), .group 1 (.star true dot), .alt (lit ['\n']) lineEnd]

theorem reads_quotedLine (h : Reads quotedLine s t) :
    (∃ w, s.rest = '>' :: (w ++ t.rest)) ∧
      (t.rest = [] ∨ (∃ cs, t.rest = '\n' :: cs) ∨ ∃ z, s.rest = z ++ '\n' :: t.rest) := by
  obtain ⟨u, hu, v, hv, w, hw, hend⟩ := h
  obtain ⟨hstart, _⟩ := reads_lit hu
  have hrest : t.rest <:+ u.rest := (hend.suffix.trans hw.suffix).trans hv.suffix
  obtain ⟨z, hz⟩ := hrest
  have hwhole : w.rest <:+ s.rest := by
    rw [hstart]
    exact ((hw.suffix.trans hv.suffix).trans (List.suffix_cons '>' u.rest))
  refine ⟨⟨z, by rw [hstart, ← hz]; rfl⟩, ?_⟩
  rcases hend with hend | hend
  · obtain ⟨hbreak, _⟩ := reads_lit hend
    obtain ⟨z, hz⟩ := hwhole
    exact .inr (.inr ⟨z, by rw [← hz, hbreak]; rfl⟩)
  · obtain ⟨hnext, rfl⟩ := hend
    rw [decide_eq_true_eq] at hnext
    rcases hnext with hnext | hnext
    · exact .inl (List.head?_eq_none_iff.mp hnext)
    · obtain ⟨cs, hcs⟩ := List.head?_eq_some_iff.mp hnext
      exact .inr (.inl ⟨cs, hcs⟩)

/-- A quote begins with a mark and goes to the end of a line. -/
theorem reads_blockquote (h : Reads BLOCKQUOTE_RE s t) :
    (∃ w, s.rest = '>' :: (w ++ t.rest)) ∧
      (t.rest = [] ∨ (∃ cs, t.rest = '\n' :: cs) ∨ ∃ z, s.rest = z ++ '\n' :: t.rest) := by
  obtain ⟨u, ⟨_, rfl⟩, v, hv, hmore⟩ := h
  have hmore' : Reads (.star true quotedLine) v t := hmore
  obtain ⟨⟨w, hw⟩, hend⟩ := reads_quotedLine hv
  obtain ⟨z, hz⟩ := hmore'.suffix
  refine ⟨⟨w ++ z, by rw [hw, ← hz, List.append_assoc]⟩, ?_⟩
  rcases Relation.ReflTransGen.cases_tail hmore with rfl | ⟨x, hx, hlast⟩
  · exact hend
  · have hsteps : Reads (.star true quotedLine) v x := hx
    obtain ⟨q, hq⟩ := hsteps.suffix
    rcases (reads_quotedLine hlast).2 with hnil | hbreak | ⟨z, hz⟩
    · exact .inl hnil
    · exact .inr (.inl hbreak)
    · exact .inr (.inr ⟨'>' :: (w ++ (q ++ z)), by rw [hw, ← hq, hz]; simp⟩)

theorem eq_nil_of_raw_eq_nil (hraw : ∀ x ∈ items, x.IsRaw) (h : items.flatMap Item.raw = []) :
    items = [] := eq_shownItems_of_raw hraw (by simp) h

theorem linesFrom_cons {c : Char} (hc : c ≠ '\n') (line cs : List Char) :
    linesFrom line (c :: cs) = linesFrom (line ++ [c]) cs := by
  rw [linesFrom]
  exact hc

theorem linesFrom_append {a : List Char} (ha : '\n' ∉ a) (line cs : List Char) :
    linesFrom line (a ++ cs) = linesFrom (line ++ a) cs := by
  induction a generalizing line with
  | nil => simp
  | cons c a ih =>
      rw [List.mem_cons, not_or] at ha
      rw [List.cons_append, linesFrom_cons (Ne.symm ha.1), ih ha.2, List.append_assoc,
        List.singleton_append]

theorem eq_nil_of_linesFrom {line cs : List Char} (h : linesFrom line cs = []) :
    line = [] ∧ cs = [] := by
  induction cs generalizing line with
  | nil =>
      rw [linesFrom] at h
      split at h
      · rename_i hnil
        exact ⟨hnil, rfl⟩
      · cases h
  | cons c cs ih =>
      by_cases hc : c = '\n'
      · subst hc
        cases h
      · rw [linesFrom_cons hc] at h
        exact absurd (ih h).1 (by simp)

/-- The mark of a quoted line is a row of characters in front of it. -/
theorem exists_unquote (hraw : ∀ x ∈ items, x.IsRaw) :
    ∃ mark rest, IsQuoteMark mark ∧ items = shownItems mark ++ rest ∧
      rest.flatMap Item.raw = unquote (items.flatMap Item.raw) := by
  generalize htext : items.flatMap Item.raw = text
  rw [unquote.eq_def]
  split
  · rename_i line
    have hfront : items.flatMap Item.raw = ['>', ' '] ++ line := htext
    obtain ⟨ys, rfl, hys⟩ := exists_raw_front hraw (by decide) hfront
    exact ⟨['>', ' '], ys, .inr (.inr rfl), rfl, hys⟩
  · rename_i line _
    have hfront : items.flatMap Item.raw = ['>'] ++ line := htext
    obtain ⟨ys, rfl, hys⟩ := exists_raw_front hraw (by decide) hfront
    exact ⟨['>'], ys, .inr (.inl rfl), rfl, hys⟩
  · exact ⟨[], items, .inl rfl, rfl, htext⟩

theorem exists_stripCarriageReturn (hraw : ∀ x ∈ items, x.IsRaw) :
    ∃ front ending, IsLineEnd (ending ++ ['\n']) ∧ items = front ++ shownItems ending ∧
      front.flatMap Item.raw = stripCarriageReturn (items.flatMap Item.raw) := by
  rw [stripCarriageReturn]
  split
  · rename_i hlast
    obtain ⟨init, hinit⟩ := List.getLast?_eq_some_iff.mp hlast
    obtain ⟨xs, ys, rfl, hxs, hys⟩ :=
      exists_raw_append hraw (.before (c := '\r') (by decide)) hinit
    have hysraw : ∀ x ∈ ys, x.IsRaw := fun x hx => hraw x (List.mem_append_right _ hx)
    refine ⟨xs, ['\r'], .inr rfl, by rw [eq_shownItems_of_raw hysraw (by decide) hys], ?_⟩
    rw [hinit, List.dropLast_concat, hxs]
  · exact ⟨items, [], .inl rfl, by simp, rfl⟩

theorem Item.IsRaw.not_mem_raw {x : Item} (h : x.IsRaw) (hx : x ≠ .piece (.shown '\n')) :
    '\n' ∉ x.raw := by
  cases x with
  | block l source => exact not_mem_placeholder (by decide) l
  | piece x =>
      cases x with
      | shown c =>
          intro hmem
          rw [← List.mem_singleton.mp hmem] at hx
          exact hx rfl
      | lineBreak source => exact h.elim
      | tag html source => exact h.elim

/-- **What is quoted**: the items without the marks in front of the lines. -/
theorem exists_quoted {ls rs : List Item} (hls : ∀ x ∈ ls, x.IsRaw) (hrs : ∀ x ∈ rs, x.IsRaw) :
    ∃ mark content ending, IsQuoteMark mark ∧ (ending = [] ∨ IsLineEnd ending) ∧
      mark ++ (content.flatMap Item.source ++ ending) = (ls ++ rs).flatMap Item.source ∧
      content.flatMap Item.html = escaped (List.intercalate ['\n']
        ((linesFrom (ls.flatMap Item.raw) (rs.flatMap Item.raw)).map unquote)) ∧
      blocks content = blocks (ls ++ rs) ∧ ∀ x ∈ content, x.Valid isWord := by
  induction rs generalizing ls with
  | nil =>
      rw [List.flatMap_nil, linesFrom]
      split
      · rename_i hnil
        rw [eq_nil_of_raw_eq_nil hls hnil]
        exact ⟨[], [], [], .inl rfl, .inl rfl, rfl, rfl, rfl, by simp⟩
      · obtain ⟨mark, rest, hmark, rfl, hrest⟩ := exists_unquote hls
        have hrestraw : ∀ x ∈ rest, x.IsRaw := fun x hx => hls x (List.mem_append_right _ hx)
        refine ⟨mark, rest, [], hmark, .inl rfl, by simp, ?_, by simp, ?_⟩
        · rw [html_of_raw hrestraw, hrest, List.map_singleton, List.intercalate_singleton]
        · exact fun x hx => (hrestraw x hx).valid
  | cons x rs ih =>
      rw [List.forall_mem_cons] at hrs
      by_cases hx : x = .piece (.shown '\n')
      · subst hx
        obtain ⟨mark', content', ending', hmark', hending', hsource', hhtml', hblocks', hvalid'⟩ :=
          @ih [] (by simp) hrs.2
        obtain ⟨front, ending, hending, rfl, hfront⟩ := exists_stripCarriageReturn hls
        have hfrontraw : ∀ x ∈ front, x.IsRaw := fun x hx => hls x (List.mem_append_left _ hx)
        obtain ⟨mark, rest, hmark, rfl, hrest⟩ := exists_unquote hfrontraw
        have hrestraw : ∀ x ∈ rest, x.IsRaw := fun x hx => hfrontraw x (List.mem_append_right _ hx)
        have hresthtml : rest.flatMap Item.html =
            escaped (unquote (stripCarriageReturn ((shownItems mark ++ rest ++
              shownItems ending).flatMap Item.raw))) := by
          rw [html_of_raw hrestraw, hrest, hfront]
        have hlines : ∀ line, linesFrom line ((Item.piece (.shown '\n') :: rs).flatMap Item.raw) =
            stripCarriageReturn line :: linesFrom [] (rs.flatMap Item.raw) := fun _ => rfl
        rw [List.flatMap_nil] at hhtml'
        rw [hlines, List.map_cons]
        cases hmore : linesFrom [] (rs.flatMap Item.raw) with
        | nil =>
            have hnil : rs = [] := eq_nil_of_raw_eq_nil hrs.2 (eq_nil_of_linesFrom hmore).2
            subst hnil
            refine ⟨mark, rest, ending ++ ['\n'], hmark, .inr hending, ?_, ?_, by simp, ?_⟩
            · simp [Item.source, Piece.source]
            · rw [hresthtml, List.map_nil, List.intercalate_singleton]
            · exact fun x hx => (hrestraw x hx).valid
        | cons line lines =>
            rw [hmore] at hhtml'
            refine ⟨mark, rest ++ .piece (.lineBreak (ending ++ ['\n'] ++ mark')) :: content',
              ending', hmark, hending', ?_, ?_, ?_, ?_⟩
            · rw [List.nil_append] at hsource'
              simp [Item.source, Piece.source, ← hsource']
            · have hbreak : (Item.piece (.lineBreak (ending ++ ['\n'] ++ mark'))).html =
                  escaped ['\n'] := rfl
              rw [List.flatMap_append, List.flatMap_cons, hresthtml, hhtml', List.map_cons,
                List.intercalate_cons_cons, escaped_append, escaped_append, hbreak]
              exact (List.append_assoc ..).symm
            · simp [hblocks']
            · intro x hx
              rcases List.mem_append.mp hx with hx | hx
              · exact (hrestraw x hx).valid
              · rcases List.mem_cons.mp hx with rfl | hx
                · exact ⟨_, _, hending, hmark', rfl⟩
                · exact hvalid' x hx
      · have hxraw : '\n' ∉ x.raw := hrs.1.not_mem_raw hx
        have hls' : ∀ y ∈ ls ++ [x], y.IsRaw := by
          intro y hy
          rcases List.mem_append.mp hy with hy | hy
          · exact hls y hy
          · rw [List.mem_singleton.mp hy]
            exact hrs.1
        obtain ⟨mark, content, ending, hmark, hending, hsource, hhtml, hblocks, hvalid⟩ :=
          ih hls' hrs.2
        refine ⟨mark, content, ending, hmark, hending, ?_, ?_, ?_, hvalid⟩
        · simpa using hsource
        · rw [List.flatMap_append, List.flatMap_singleton] at hhtml
          rw [List.flatMap_cons, linesFrom_append hxraw]
          exact hhtml
        · simpa using hblocks

theorem takesOut_blockquote : TakesOut isWord BLOCKQUOTE_RE .blockquote blockquote := by
  constructor
  · intro text i p m rest s hfound hs
    obtain ⟨t, ht, hrest, _⟩ := hfound.reads
    obtain ⟨⟨w, hw⟩, hend⟩ := reads_blockquote ht
    rw [hrest] at hw hend
    have hwhole : m.whole = '>' :: w := List.append_cancel_right hw
    constructor
    · rw [hwhole]
      exact .before (by decide)
    · rcases hend with hnil | ⟨cs, hcs⟩ | ⟨z, hz⟩
      · subst hnil
        rw [segmentsFrom, replaceSegments] at hs
        subst hs
        exact .finish _
      · -- a line break that no quote begins with
        have hnone : matchAt BLOCKQUOTE_RE (p ++ m.whole).getLast? ('\n' :: cs) = none := by
          simp [matchAt, BLOCKQUOTE_RE, seqs, run, lineStart, lit, plus]
        obtain ⟨s', hs'⟩ := exists_replaceSegments_cons (i := i + 1)
          (f := fun i _ => placeholder BlockKind.blockquote.word i) hnone
        rw [hcs, hs'] at hs
        subst hs
        exact .before (by decide)
      · have hbreak : m.whole = z ++ ['\n'] := by
          apply List.append_cancel_right
          rw [List.append_assoc, List.singleton_append]
          exact hz
        rw [hbreak]
        exact .behind (by decide)
  · intro text i p m rest ms hfound hraw hms
    obtain ⟨mark, content, ending, hmark, hending, hsource, hhtml, hblocks, hvalid⟩ :=
      @exists_quoted isWord [] ms (by simp) hraw
    rw [List.nil_append] at hsource hblocks
    rw [List.flatMap_nil, hms] at hhtml
    have hopen : StandsFor isWord (openTag "blockquote" []) mark := .quoteStart hmark
    have hclose : StandsFor isWord (closeTag "blockquote") ending := .quoteEnd hending
    have hnested : WellNested IsHtmlTag (content.flatMap Item.html) := by
      rw [hhtml]
      exact .of_plain fun c hc => (escaped_plain _ c hc).1
    have hstart : "<blockquote>".toList = openTag "blockquote" [] := by decide
    have hstop : "</blockquote>".toList = closeTag "blockquote" := by decide
    have hstands := standsIn_element hsource hblocks hvalid hnested (by decide) .nil hopen hclose
    refine ⟨_, hstands, ?_⟩
    unfold blockquote
    rw [html_wrap, hhtml, hstart, hstop, List.append_assoc]

end Quotes

end Anyclaw.Telegram
