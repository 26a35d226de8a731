import Mathlib.Data.Set.Basic
import Anyclaw.Library.Delimited
import Anyclaw.Telegram.Rendering

/-!
# Text with placeholders

Between the first and the last pass the text is a row of items: the pieces of formatted text
and the blocks that have been taken out, each with a placeholder in its place.  A pass finds
its marks in the characters.  A mark that is not inside a tag is an item of its own, because
it occurs neither in a placeholder nor in an escaped character.

The passes are those of `format_telegram_html` (`ext/channels/telegram/src/formatting.rs`),
which keeps the blocks in a list and their placeholders in the text.
-/

namespace Anyclaw.Telegram

open Delimited Slices Markup

/-! ### Items -/

inductive BlockKind where
  | codeBlock
  | inline
  | blockquote

def BlockKind.word : BlockKind → String
  | codeBlock => "CODEBLOCK"
  | inline => "INLINE"
  | blockquote => "BLOCKQUOTE"

structure Label where
  kind : BlockKind
  number : Nat

def Label.placeholder (l : Label) : List Char := Telegram.placeholder l.kind.word l.number

inductive Item where
  | piece (x : Piece)
  | block (label : Label) (source : List Char)

namespace Item

def source : Item → List Char
  | piece x => x.source
  | block _ source => source

/-- What it is before the text is escaped. -/
def raw : Item → List Char
  | piece x => x.visible
  | block l _ => l.placeholder

def html : Item → List Char
  | piece x => x.html
  | block l _ => l.placeholder

/-- Before the text is escaped there are characters and blocks only. -/
def IsRaw : Item → Prop
  | piece (.shown _) => True
  | piece _ => False
  | block _ _ => True

def Valid (isWord : Char → Bool) : Item → Prop
  | piece x => x.Valid isWord
  | block _ _ => True

end Item

def shownItems (cs : List Char) : List Item := cs.map fun c => .piece (.shown c)

def blocks (items : List Item) : List (Label × List Char) :=
  items.filterMap fun
    | .piece _ => none
    | .block l source => some (l, source)

@[simp] theorem blocks_nil : blocks [] = [] := rfl

@[simp] theorem blocks_append (xs ys : List Item) : blocks (xs ++ ys) = blocks xs ++ blocks ys :=
  List.filterMap_append

@[simp] theorem blocks_piece (x : Piece) (xs : List Item) : blocks (.piece x :: xs) = blocks xs := rfl

@[simp] theorem blocks_block (l : Label) (source : List Char) (xs : List Item) :
    blocks (.block l source :: xs) = (l, source) :: blocks xs := rfl

@[simp] theorem shownItems_nil : shownItems [] = [] := rfl

@[simp] theorem blocks_shownItems (cs : List Char) : blocks (shownItems cs) = [] := by
  induction cs with
  | nil => rfl
  | cons c cs ih => exact ih

@[simp] theorem source_shownItems (cs : List Char) : (shownItems cs).flatMap Item.source = cs := by
  induction cs with
  | nil => rfl
  | cons c cs ih =>
      change c :: (shownItems cs).flatMap Item.source = c :: cs
      rw [ih]

@[simp] theorem raw_shownItems (cs : List Char) : (shownItems cs).flatMap Item.raw = cs := by
  induction cs with
  | nil => rfl
  | cons c cs ih =>
      change c :: (shownItems cs).flatMap Item.raw = c :: cs
      rw [ih]

@[simp] theorem html_shownItems (cs : List Char) :
    (shownItems cs).flatMap Item.html = escaped cs := by
  rw [escaped_eq]
  induction cs with
  | nil => rfl
  | cons c cs ih =>
      change escapeChar c ++ (shownItems cs).flatMap Item.html = escapeChar c ++ cs.flatMap escapeChar
      rw [ih]

theorem isRaw_shownItems (cs : List Char) : ∀ x ∈ shownItems cs, x.IsRaw := by
  intro x hx
  obtain ⟨c, _, rfl⟩ := List.mem_map.mp hx
  exact trivial

theorem mem_blocks {items : List Item} {l : Label} {source : List Char} :
    (l, source) ∈ blocks items ↔ .block l source ∈ items := by
  induction items with
  | nil => simp [blocks]
  | cons x xs ih => cases x <;> simp [ih]

/-! ### Characters that are not in a placeholder -/

theorem forall_of_all {P : Char → Prop} [DecidablePred P] {cs : List Char}
    (h : cs.all (fun c => decide (P c)) = true) : ∀ c ∈ cs, P c :=
  fun c hc => of_decide_eq_true (List.all_eq_true.mp h c hc)

/-- A character that no placeholder has. -/
def IsSolid (c : Char) : Prop := c.isAlphanum = false ∧ c ≠ '_' ∧ c ≠ '\x00'

instance : DecidablePred IsSolid := fun c => by
  unfold IsSolid
  infer_instance

/-- A character that no escaped character has. -/
def IsMark (c : Char) : Prop := c.isAlphanum = false ∧ c ∉ ['&', ';', '<', '>']

instance : DecidablePred IsMark := fun c => by
  unfold IsMark
  infer_instance

theorem kind_word_alphanum (kind : BlockKind) : ∀ c ∈ kind.word.toList, c.isAlpha = true := by
  cases kind with
  | codeBlock => exact forall_of_all (by decide)
  | inline => exact forall_of_all (by decide)
  | blockquote => exact forall_of_all (by decide)

theorem placeholder_digits {n : Nat} {c : Char} (hc : c ∈ (toString n).toList) :
    c.isDigit = true := by
  have hdigits : (toString n).toList = Nat.toDigits 10 n := Nat.toList_repr
  rw [hdigits] at hc
  exact Nat.isDigit_of_mem_toDigits (by omega) (by omega) hc

theorem not_mem_placeholder {c : Char} (hc : IsSolid c) (l : Label) : c ∉ l.placeholder := by
  obtain ⟨halnum, hunder, hnul⟩ := hc
  rw [Char.isAlphanum, Bool.or_eq_false_iff] at halnum
  intro hmem
  simp only [Label.placeholder, placeholder, List.mem_cons, List.mem_append, List.not_mem_nil,
    or_false] at hmem
  rcases hmem with h | h | h | h | h
  · exact hnul h
  · rw [kind_word_alphanum l.kind c h] at halnum
    cases halnum.1
  · exact hunder h
  · rw [placeholder_digits h] at halnum
    cases halnum.2
  · exact hnul h

theorem mem_escapeChar {c d : Char} (hc : IsMark c) (h : c ∈ escapeChar d) :
    escapeChar d = [c] ∧ d = c := by
  obtain ⟨halnum, hother⟩ := hc
  have hentity : ∀ entity : List Char,
      (∀ e ∈ entity, e.isAlphanum = true ∨ e ∈ ['&', ';', '<', '>']) → c ∉ entity := by
    intro entity hchars hmem
    rcases hchars c hmem with h | h
    · rw [h] at halnum
      cases halnum
    · exact hother h
  rw [escapeChar] at h ⊢
  split at h
  · exact absurd h (hentity _ (forall_of_all (by decide)))
  · split at h
    · exact absurd h (hentity _ (forall_of_all (by decide)))
    · split at h
      · exact absurd h (hentity _ (forall_of_all (by decide)))
      · rename_i hamp hlt hgt
        have hd := List.mem_singleton.mp h
        subst hd
        rw [if_neg hamp, if_neg hlt, if_neg hgt]
        exact ⟨rfl, rfl⟩

/-! ### Marks in the text -/

section Marks

variable {isWord : Char → Bool} {items : List Item} {p y : List Char} {c : Char}

/-- Before the text is escaped, a character that no placeholder has is an item. -/
theorem exists_raw_shown (hraw : ∀ x ∈ items, x.IsRaw) (hc : IsSolid c)
    (h : items.flatMap Item.raw = p ++ c :: y) :
    ∃ xs ys, items = xs ++ .piece (.shown c) :: ys ∧ xs.flatMap Item.raw = p ∧
      ys.flatMap Item.raw = y := by
  obtain ⟨xs, x, ys, u, v, rfl, hx, rfl, rfl⟩ := exists_of_flatMap_eq h
  have hxraw := hraw x (by simp)
  cases x with
  | block l source =>
      have hmem : c ∈ l.placeholder := by
        rw [Item.raw] at hx
        rw [hx]
        simp
      exact absurd hmem (not_mem_placeholder hc l)
  | piece x =>
      cases x with
      | shown d =>
          have hone : [d] = u ++ c :: v := hx
          cases u with
          | nil =>
              obtain ⟨rfl, rfl⟩ := List.cons.inj hone
              exact ⟨xs, ys, rfl, by simp, rfl⟩
          | cons e u => exact absurd (List.cons.inj hone).2 (by simp)
      | lineBreak source => exact hxraw.elim
      | tag html source => exact hxraw.elim

theorem escapeChar_plain (c : Char) : ∀ d ∈ escapeChar c, d ≠ '<' ∧ d ≠ '>' := by
  rw [escapeChar]
  split
  · exact forall_of_all (by decide)
  · split
    · exact forall_of_all (by decide)
    · split
      · exact forall_of_all (by decide)
      · rename_i hlt hgt
        intro d hd
        rw [List.mem_singleton.mp hd]
        exact ⟨hlt, hgt⟩

theorem escaped_plain (cs : List Char) : ∀ d ∈ escaped cs, d ≠ '<' ∧ d ≠ '>' := by
  intro d hd
  rw [escaped_eq] at hd
  obtain ⟨c, _, hc⟩ := List.mem_flatMap.mp hd
  exact escapeChar_plain c d hc

theorem isWord_plain (hword : ExtendsAscii isWord) (hc : isWord c = true) : c ≠ '<' ∧ c ≠ '>' := by
  constructor
  · rintro rfl
    rw [hword '<' (by decide)] at hc
    cases hc
  · rintro rfl
    rw [hword '>' (by decide)] at hc
    cases hc

theorem isAttributes_value {key value : List Char} (hspace : key.head? = some ' ')
    (hkey : ∀ c ∈ key, c ≠ '<' ∧ c ≠ '>') (hvalue : ∀ c ∈ value, c ≠ '<' ∧ c ≠ '>') :
    IsAttributes (key ++ (value ++ ['"'])) := by
  constructor
  · intro c hc
    cases key with
    | nil => cases hspace
    | cons d key =>
        cases hspace
        cases hc
        decide
  · intro c hc
    rcases List.mem_append.mp hc with hc | hc
    · exact hkey c hc
    · rcases List.mem_append.mp hc with hc | hc
      · exact hvalue c hc
      · rw [List.mem_singleton.mp hc]
        decide

def hrefAttrs (url : List Char) : List Char := " href=\"".toList ++ (escaped url ++ ['"'])

def languageAttrs (lang : List Char) : List Char := " class=\"language-".toList ++ (lang ++ ['"'])

theorem isAttributes_href (url : List Char) : IsAttributes (hrefAttrs url) :=
  isAttributes_value rfl (forall_of_all (by decide)) (escaped_plain url)

theorem isAttributes_language (hword : ExtendsAscii isWord) {lang : List Char}
    (hlang : ∀ c ∈ lang, isWord c = true) : IsAttributes (languageAttrs lang) :=
  isAttributes_value rfl (forall_of_all (by decide)) fun c hc => isWord_plain hword (hlang c hc)

theorem linkStart_eq (url : List Char) :
    "<a href=\"".toList ++ (escaped url ++ "\">".toList) = openTag "a" (hrefAttrs url) := by
  have hstart : "<a href=\"".toList = '<' :: ("a".toList ++ " href=\"".toList) := by decide
  have hend : "\">".toList = ['"'] ++ ['>'] := by decide
  unfold hrefAttrs
  generalize escaped url = value
  rw [hstart, hend, openTag]
  simp only [List.cons_append, List.append_assoc]

theorem languageStart_eq (lang : List Char) :
    "<code class=\"language-".toList ++ (lang ++ "\">".toList) =
      openTag "code" (languageAttrs lang) := by
  have hstart : "<code class=\"language-".toList =
      '<' :: ("code".toList ++ " class=\"language-".toList) := by decide
  have hend : "\">".toList = ['"'] ++ ['>'] := by decide
  unfold languageAttrs
  rw [hstart, hend, openTag]
  simp only [List.cons_append, List.append_assoc]

/-- A tag is a text between angle brackets. -/
theorem StandsFor.exists_content (hword : ExtendsAscii isWord) {html source : List Char}
    (h : StandsFor isWord html source) :
    ∃ content, html = '<' :: (content ++ ['>']) ∧ ∀ c ∈ content, c ≠ '>' := by
  cases h with
  | boldStart | headerStart => exact ⟨['b'], rfl, forall_of_all (by decide)⟩
  | boldEnd | headerEnd => exact ⟨"/b".toList, rfl, forall_of_all (by decide)⟩
  | strikeStart => exact ⟨['s'], rfl, forall_of_all (by decide)⟩
  | strikeEnd => exact ⟨"/s".toList, rfl, forall_of_all (by decide)⟩
  | underscoreStart | starStart => exact ⟨['i'], rfl, forall_of_all (by decide)⟩
  | underscoreEnd | starEnd => exact ⟨"/i".toList, rfl, forall_of_all (by decide)⟩
  | linkEnd => exact ⟨"/a".toList, rfl, forall_of_all (by decide)⟩
  | codeStart => exact ⟨"code".toList, rfl, forall_of_all (by decide)⟩
  | codeEnd | languageEnd => exact ⟨"/code".toList, rfl, forall_of_all (by decide)⟩
  | preStart => exact ⟨"pre".toList, rfl, forall_of_all (by decide)⟩
  | preEnd => exact ⟨"/pre".toList, rfl, forall_of_all (by decide)⟩
  | quoteStart => exact ⟨"blockquote".toList, rfl, forall_of_all (by decide)⟩
  | quoteEnd => exact ⟨"/blockquote".toList, rfl, forall_of_all (by decide)⟩
  | @linkStart url _ =>
      have htag : IsTagName "a" := IsHtmlTag.isTagName (by decide)
      rw [linkStart_eq, openTag_eq]
      exact ⟨_, rfl, openTag_plain htag (isAttributes_href url)⟩
  | @languageStart lang hlang =>
      have htag : IsTagName "code" := IsHtmlTag.isTagName (by decide)
      rw [languageStart_eq, openTag_eq]
      exact ⟨_, rfl, openTag_plain htag (isAttributes_language hword hlang)⟩

/-! ### The HTML of items -/

theorem endsInsideTag_of_plain {cs : List Char} (h : ∀ d ∈ cs, d ≠ '<') : endsInsideTag cs = false :=
  WellNested.endsInsideTag_eq (fun _ => IsHtmlTag.isTagName) (.of_plain h)

theorem placeholder_plain (l : Label) : ∀ d ∈ l.placeholder, d ≠ '<' := by
  rintro d hd rfl
  exact not_mem_placeholder (by decide) l hd

theorem Item.endsInsideTag_html (hword : ExtendsAscii isWord) {x : Item} (h : x.Valid isWord) :
    endsInsideTag x.html = false := by
  cases x with
  | block l source => exact endsInsideTag_of_plain (placeholder_plain l)
  | piece x =>
      cases x with
      | shown c => exact endsInsideTag_of_plain fun d hd => (escapeChar_plain c d hd).1
      | lineBreak source => rfl
      | tag html source =>
          obtain ⟨content, rfl, hcontent⟩ := h.exists_content hword
          exact endsInsideTag_tag hcontent

theorem endsInsideTag_html (hword : ExtendsAscii isWord) (hvalid : ∀ x ∈ items, x.Valid isWord) :
    endsInsideTag (items.flatMap Item.html) = false := by
  induction items with
  | nil => rfl
  | cons x xs ih =>
      rw [List.forall_mem_cons] at hvalid
      rw [List.flatMap_cons, endsInsideTag_append (Item.endsInsideTag_html hword hvalid.1)]
      exact ih hvalid.2

theorem Item.html_ne_nil (hword : ExtendsAscii isWord) {x : Item} (h : x.Valid isWord) :
    x.html ≠ [] := by
  cases x with
  | block l source => exact List.cons_ne_nil _ _
  | piece x =>
      cases x with
      | shown c =>
          change escapeChar c ≠ []
          rw [escapeChar]
          split
          · decide
          · split
            · decide
            · split
              · decide
              · exact List.cons_ne_nil c []
      | lineBreak source => exact List.cons_ne_nil _ _
      | tag html source =>
          obtain ⟨content, rfl, _⟩ := h.exists_content hword
          exact List.cons_ne_nil _ _

theorem eq_nil_of_html_eq_nil (hword : ExtendsAscii isWord) (hvalid : ∀ x ∈ items, x.Valid isWord)
    (h : items.flatMap Item.html = []) : items = [] := by
  cases items with
  | nil => rfl
  | cons x xs =>
      rw [List.flatMap_cons, List.append_eq_nil_iff] at h
      exact absurd h.1 (Item.html_ne_nil hword (hvalid x List.mem_cons_self))

/-- **A mark outside a tag is an item.**  That it is in no placeholder may depend on what
    stands beside it. -/
theorem exists_html_shown (hword : ExtendsAscii isWord) (hvalid : ∀ x ∈ items, x.Valid isWord)
    (hc : IsMark c)
    (hplace : ∀ (l : Label) (u v : List Char), u <:+ p → v <+: y → l.placeholder ≠ u ++ c :: v)
    (hline : ∀ source, .piece (.lineBreak source) ∈ items → c ≠ '\n')
    (hp : endsInsideTag p = false) (h : items.flatMap Item.html = p ++ c :: y) :
    ∃ xs ys, items = xs ++ .piece (.shown c) :: ys ∧ xs.flatMap Item.html = p ∧
      ys.flatMap Item.html = y := by
  obtain ⟨xs, x, ys, u, v, rfl, hx, rfl, rfl⟩ := exists_of_flatMap_eq h
  have hxvalid := hvalid x (by simp)
  have hxs : endsInsideTag (xs.flatMap Item.html) = false :=
    endsInsideTag_html hword fun z hz => hvalid z (List.mem_append_left _ hz)
  rw [endsInsideTag_append hxs] at hp
  cases x with
  | block l source =>
      exact absurd hx (hplace l u v (List.suffix_append _ u) (List.prefix_append v _))
  | piece x =>
      cases x with
      | shown d =>
          have hhtml : escapeChar d = u ++ c :: v := hx
          obtain ⟨hone, rfl⟩ := mem_escapeChar hc (by rw [hhtml]; simp)
          rw [hone] at hhtml
          cases u with
          | nil =>
              obtain ⟨_, rfl⟩ := List.cons.inj hhtml
              exact ⟨xs, ys, rfl, by simp, rfl⟩
          | cons e u => exact absurd (List.cons.inj hhtml).2 (by simp)
      | lineBreak source =>
          have hbreak : ['\n'] = u ++ c :: v := hx
          have hmem : c ∈ ['\n'] := by
            rw [hbreak]
            simp
          exact absurd (List.mem_singleton.mp hmem) (hline source (by simp))
      | tag html source =>
          obtain ⟨content, hhtml, hcontent⟩ := hxvalid.exists_content hword
          have htag : html = u ++ c :: v := hx
          rw [hhtml] at htag
          have hprefix : u <+: '<' :: (content ++ ['>']) ++ [] := by
            rw [List.append_nil, htag]
            exact List.prefix_append u _
          rcases of_prefix_tag hcontent hprefix hp with rfl | ⟨q, rfl, _⟩
          · rw [List.nil_append] at htag
            obtain ⟨rfl, _⟩ := List.cons.inj htag
            exact absurd hc (by decide)
          · rw [List.append_assoc] at htag
            have hlength := congrArg List.length htag
            simp at hlength

theorem not_placeholder_of_solid (hc : IsSolid c) (l : Label) (u v : List Char) :
    l.placeholder ≠ u ++ c :: v := by
  intro h
  apply not_mem_placeholder hc l
  rw [h]
  simp

/-- A row of marks is a row of items. -/
theorem exists_html_shownItems (hword : ExtendsAscii isWord)
    (hvalid : ∀ x ∈ items, x.Valid isWord) {marks : List Char} (hne : marks ≠ [])
    (hmarks : ∀ c ∈ marks, IsMark c ∧ IsSolid c)
    (hline : ∀ source, .piece (.lineBreak source) ∈ items → '\n' ∉ marks)
    (hp : endsInsideTag p = false) (h : items.flatMap Item.html = p ++ (marks ++ y)) :
    ∃ xs ys, items = xs ++ (shownItems marks ++ ys) ∧ xs.flatMap Item.html = p ∧
      ys.flatMap Item.html = y := by
  induction marks generalizing items p with
  | nil => exact absurd rfl hne
  | cons c marks ih =>
      rw [List.forall_mem_cons] at hmarks
      obtain ⟨⟨hc, hsolid⟩, hmarks⟩ := hmarks
      obtain ⟨xs, ys, rfl, hxs, hys⟩ := exists_html_shown hword hvalid hc
        (fun l u v _ _ => not_placeholder_of_solid hsolid l u v)
        (fun source hmem => fun hbreak => hline source hmem (by simp [hbreak])) hp h
      by_cases hlast : marks = []
      · subst hlast
        exact ⟨xs, ys, rfl, hxs, hys⟩
      · have hysvalid : ∀ x ∈ ys, x.Valid isWord := fun x hx => hvalid x (by simp [hx])
        have hrest : ys.flatMap Item.html = [] ++ (marks ++ y) := hys
        obtain ⟨zs, ws, rfl, hzs, hws⟩ := ih hysvalid hlast hmarks
          (fun source hmem hbreak => hline source (by simp [hmem]) (by simp [hbreak])) rfl hrest
        have hnil : zs = [] :=
          eq_nil_of_html_eq_nil hword (fun x hx => hysvalid x (by simp [hx])) hzs
        subst hnil
        exact ⟨xs, ws, rfl, hxs, hws⟩

end Marks

/-! ### Blocks that have been taken out -/

structure TakenBlock where
  label : Label
  content : List Item

namespace TakenBlock

def source (b : TakenBlock) : List Char := b.content.flatMap Item.source

def html (b : TakenBlock) : List Char := b.content.flatMap Item.html

def entry (b : TakenBlock) : List Char × List Char := (b.label.placeholder, b.html)

structure Valid (isWord : Char → Bool) (b : TakenBlock) : Prop where
  items : ∀ x ∈ b.content, x.Valid isWord
  nested : WellNested IsHtmlTag b.html

end TakenBlock

/-- **The order of putting back**: each block stands in the text when its turn comes, in its own
    right or in a block that has been put back before, and none is left at the end. -/
def Restorable : Set (Label × List Char) → List TakenBlock → Prop
  | standing, [] => standing = ∅
  | standing, b :: bs => (b.label, b.source) ∈ standing ∧
      Restorable ({e ∈ standing | e.1 ≠ b.label} ∪ {e | e ∈ blocks b.content}) bs

def standing (items : List Item) : Set (Label × List Char) := {e | e ∈ blocks items}

theorem Restorable.exists_taken {here : Set (Label × List Char)} {bs : List TakenBlock}
    (h : Restorable here bs) {e : Label × List Char} (he : e ∈ here) :
    ∃ b ∈ bs, b.label = e.1 := by
  induction bs generalizing here with
  | nil =>
      rw [Restorable] at h
      rw [h] at he
      exact he.elim
  | cons b bs ih =>
      obtain ⟨_, hrest⟩ := h
      by_cases hlabel : e.1 = b.label
      · exact ⟨b, List.mem_cons_self, hlabel.symm⟩
      · obtain ⟨b', hb', heq⟩ := ih hrest (.inl ⟨he, hlabel⟩)
        exact ⟨b', List.mem_cons_of_mem b hb', heq⟩

/-- A block that is taken out is the first one to put back. -/
theorem Restorable.takeOut {bs : List TakenBlock} {xs ms ys content : List Item} {l : Label}
    {source : List Char} (h : Restorable (standing (xs ++ (ms ++ ys))) bs)
    (hfresh : ∀ b ∈ bs, b.label ≠ l) (hsource : content.flatMap Item.source = source)
    (hblocks : blocks content = blocks ms) :
    Restorable (standing (xs ++ .block l source :: ys)) (⟨l, content⟩ :: bs) := by
  have hother : ∀ e ∈ standing (xs ++ (ms ++ ys)), e.1 ≠ l := by
    intro e he heq
    obtain ⟨b, hb, hlabel⟩ := h.exists_taken he
    exact hfresh b hb (hlabel.trans heq)
  simp only [standing, blocks_append, List.mem_append, Set.mem_ofPred_eq] at hother
  refine ⟨?_, ?_⟩
  · simp [standing, TakenBlock.source, hsource]
  · convert h using 1
    ext e
    simp only [standing, hblocks, blocks_append, blocks_block, List.mem_append, List.mem_cons,
      Set.mem_union, Set.mem_ofPred_eq]
    constructor
    · rintro (⟨hmem | rfl | hmem, hne⟩ | hmem)
      · exact .inl hmem
      · exact absurd rfl hne
      · exact .inr (.inr hmem)
      · exact .inr (.inl hmem)
    · rintro (hmem | hmem | hmem)
      · exact .inl ⟨.inl hmem, hother e (.inl hmem)⟩
      · exact .inr hmem
      · exact .inl ⟨.inr (.inr hmem), hother e (.inr (.inr hmem))⟩

end Anyclaw.Telegram
