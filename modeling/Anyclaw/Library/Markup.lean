import Mathlib.Data.List.TakeWhile
import Anyclaw.Library.Slices

/-!
# Nested markup

Text with elements `<name attributes>…</name>`, as its characters.  A text is well-nested
when every tag in it belongs to an element and the elements lie inside one another or side
by side.  A prefix of such a text that is not cut inside a tag is a row of well-nested texts
with the opening tags of the unfinished elements between them, and the closing tags of these
complete it.
-/

namespace Markup

open Slices (isWhitespace)

variable {names : String → Prop} {cs ds p rest attrs : List Char} {name : String}

/-! ### Tags -/

def openTag (name : String) (attrs : List Char) : List Char :=
  '<' :: (name.toList ++ (attrs ++ ['>']))

def closeTag (name : String) : List Char := '<' :: '/' :: (name.toList ++ ['>'])

/-- A word that a tag can begin with. -/
structure IsTagName (name : String) : Prop where
  nonempty : name.toList ≠ []
  opening : name.toList.head? ≠ some '/'
  word : ∀ c ∈ name.toList, isWhitespace c = false
  plain : ∀ c ∈ name.toList, c ≠ '<' ∧ c ≠ '>'

/-- What stands behind the name: nothing, or white space and then no angle bracket. -/
structure IsAttributes (attrs : List Char) : Prop where
  separated : ∀ c ∈ attrs.head?, isWhitespace c = true
  plain : ∀ c ∈ attrs, c ≠ '<' ∧ c ≠ '>'

theorem IsAttributes.nil : IsAttributes [] := ⟨by simp, by simp⟩

/-- Whether the text stops between a `<` and its `>`. -/
def endsInsideTag (cs : List Char) : Bool :=
  cs.foldl (fun inside c => if inside then c != '>' else c == '<') false

/-! ### Elements -/

/-- **Well-nested text** over the tags with the given names. -/
inductive WellNested (names : String → Prop) : List Char → Prop
  | nil : WellNested names []
  | char {c : Char} {cs : List Char} : c ≠ '<' → WellNested names cs → WellNested names (c :: cs)
  | element {name : String} {attrs body rest : List Char} : names name → IsAttributes attrs →
      WellNested names body → WellNested names rest →
      WellNested names (openTag name attrs ++ (body ++ (closeTag name ++ rest)))

/-- Text with unfinished elements, the innermost one first. -/
inductive Opened (names : String → Prop) : List String → List Char → Prop
  | closed {cs : List Char} : WellNested names cs → Opened names [] cs
  | tag {cs attrs rest : List Char} {name : String} {stack : List String} :
      WellNested names cs → names name → IsAttributes attrs → Opened names stack rest →
      Opened names (stack ++ [name]) (cs ++ (openTag name attrs ++ rest))

theorem WellNested.append (h : WellNested names cs) (h' : WellNested names ds) :
    WellNested names (cs ++ ds) := by
  induction h with
  | nil => exact h'
  | char hc _ ih => exact .char hc ih
  | element hname hattrs hbody _ _ ih =>
      simp only [List.append_assoc]
      exact .element hname hattrs hbody ih

/-- An element around well-nested text. -/
theorem WellNested.wrap (hname : names name) (hattrs : IsAttributes attrs)
    (h : WellNested names cs) : WellNested names (openTag name attrs ++ (cs ++ closeTag name)) := by
  have helement := WellNested.element hname hattrs h .nil
  rwa [List.append_nil] at helement

/-- Text without a tag is well-nested. -/
theorem WellNested.of_plain (h : ∀ c ∈ cs, c ≠ '<') : WellNested names cs := by
  induction cs with
  | nil => exact .nil
  | cons c cs ih =>
      apply WellNested.char (h c (List.mem_cons_self ..))
      apply ih
      intro d hd
      exact h d (List.mem_cons_of_mem c hd)

theorem Opened.wellNested (h : Opened names [] cs) : WellNested names cs := by
  generalize hnil : ([] : List String) = stack at h
  cases h with
  | closed h => exact h
  | tag => exact absurd hnil (by simp)

theorem Opened.append_left {stack : List String} (h : WellNested names cs)
    (h' : Opened names stack ds) : Opened names stack (cs ++ ds) := by
  cases h' with
  | closed hds => exact .closed (h.append hds)
  | tag hds hname hattrs hrest =>
      rw [← List.append_assoc]
      exact .tag (h.append hds) hname hattrs hrest

/-- **The closing tags of the unfinished elements complete a text.** -/
theorem Opened.close {stack : List String} (h : Opened names stack cs) :
    WellNested names (cs ++ stack.flatMap closeTag) := by
  induction h with
  | closed hcs => simpa using hcs
  | @tag cs attrs rest name stack hcs hname hattrs _ ih =>
      have hclosers : (stack ++ [name]).flatMap closeTag =
          stack.flatMap closeTag ++ closeTag name := by simp
      rw [hclosers]
      have hwrapped := hcs.append (ih.wrap hname hattrs)
      simpa only [List.append_assoc] using hwrapped

/-! ### Inside a tag -/

@[simp] theorem endsInsideTag_nil : endsInsideTag [] = false := rfl

theorem endsInsideTag_append (h : endsInsideTag cs = false) (ds : List Char) :
    endsInsideTag (cs ++ ds) = endsInsideTag ds := by
  rw [endsInsideTag, List.foldl_append]
  rw [endsInsideTag] at h
  rw [h, endsInsideTag]

theorem endsInsideTag_char {c : Char} (hc : c ≠ '<') (cs : List Char) :
    endsInsideTag (c :: cs) = endsInsideTag cs := by
  have hfirst : endsInsideTag [c] = false := by simpa [endsInsideTag] using hc
  exact endsInsideTag_append hfirst cs

/-- From the `<` on, a text without `>` is inside the tag. -/
theorem endsInsideTag_open (h : ∀ c ∈ cs, c ≠ '>') : endsInsideTag ('<' :: cs) = true := by
  have hstays : ∀ (cs : List Char), (∀ c ∈ cs, c ≠ '>') →
      cs.foldl (fun inside c => if inside then c != '>' else c == '<') true = true := by
    intro cs h
    induction cs with
    | nil => rfl
    | cons c cs ih =>
        have hc : (c != '>') = true := by simpa using h c (List.mem_cons_self ..)
        rw [List.foldl_cons, if_pos rfl, hc]
        apply ih
        intro d hd
        exact h d (List.mem_cons_of_mem c hd)
  exact hstays cs h

theorem endsInsideTag_tag (h : ∀ c ∈ cs, c ≠ '>') :
    endsInsideTag ('<' :: (cs ++ ['>'])) = false := by
  have hinside := endsInsideTag_open h
  rw [endsInsideTag] at hinside
  rw [← List.cons_append, endsInsideTag, List.foldl_append, hinside]
  rfl

/-- A row of characters and whole tags, nested or not. -/
inductive Pieces : List Char → Prop
  | nil : Pieces []
  | char {c : Char} {cs : List Char} : c ≠ '<' → Pieces cs → Pieces (c :: cs)
  | tag {content cs : List Char} : (∀ c ∈ content, c ≠ '>') → Pieces cs →
      Pieces ('<' :: (content ++ ['>']) ++ cs)

theorem pieces_of_endsInsideTag (h : endsInsideTag cs = false) : Pieces cs := by
  induction hlen : cs.length using Nat.strongRecOn generalizing cs with
  | ind n ih =>
      subst hlen
      cases cs with
      | nil => exact .nil
      | cons c cs =>
          by_cases hc : c = '<'
          · subst hc
            -- the tag goes on to the first `>`
            have hcut := List.takeWhile_append_dropWhile (p := (· != '>')) (l := cs)
            have hplain : ∀ c ∈ cs.takeWhile (· != '>'), c ≠ '>' := by
              intro c hc
              simpa using List.mem_takeWhile_imp hc
            cases hrest : cs.dropWhile (· != '>') with
            | nil =>
                rw [hrest, List.append_nil] at hcut
                rw [hcut] at hplain
                rw [endsInsideTag_open hplain] at h
                cases h
            | cons d rest =>
                have hd : d = '>' := by
                  have hhead := List.head_dropWhile_not (· != '>') (by rw [hrest]; simp) (l := cs)
                  simpa [hrest] using hhead
                subst hd
                have hshape : '<' :: cs = '<' :: (cs.takeWhile (· != '>') ++ ['>']) ++ rest := by
                  rw [hrest] at hcut
                  rw [List.cons_append, List.append_assoc, List.cons_append, List.nil_append, hcut]
                rw [hshape, endsInsideTag_append (endsInsideTag_tag hplain)] at h
                rw [hshape]
                apply Pieces.tag hplain
                apply ih rest.length _ h rfl
                rw [hshape, List.length_append, List.length_cons]
                omega
          · rw [endsInsideTag_char hc] at h
            exact .char hc (ih cs.length (by simp) h rfl)

/-- A prefix of a tag and what follows it is empty, behind the tag, or inside the tag. -/
theorem of_prefix_tag {content : List Char} (h : ∀ c ∈ content, c ≠ '>')
    (hp : p <+: '<' :: (content ++ ['>']) ++ ds) (hout : endsInsideTag p = false) :
    p = [] ∨ ∃ q, p = '<' :: (content ++ ['>']) ++ q ∧ q <+: ds := by
  have htag : '<' :: (content ++ ['>']) <+: '<' :: (content ++ ['>']) ++ ds :=
    List.prefix_append _ ds
  rcases List.prefix_or_prefix_of_prefix hp htag with hshort | ⟨q, rfl⟩
  · rw [← List.cons_append] at hshort
    rcases List.prefix_concat_iff.mp hshort with rfl | hshort
    · exact .inr ⟨[], by simp, List.nil_prefix⟩
    · left
      cases p with
      | nil => rfl
      | cons c q =>
          obtain ⟨rfl, hq⟩ := List.cons_prefix_cons.mp hshort
          have hinside : endsInsideTag ('<' :: q) = true := by
            apply endsInsideTag_open
            intro d hd
            exact h d (hq.subset hd)
          rw [hinside] at hout
          cases hout
  · exact .inr ⟨q, rfl, (List.prefix_append_right_inj _).mp hp⟩

theorem openTag_plain (hname : IsTagName name) (hattrs : IsAttributes attrs) :
    ∀ c ∈ name.toList ++ attrs, c ≠ '>' := by
  intro c hc
  rcases List.mem_append.mp hc with hc | hc
  · exact (hname.plain c hc).2
  · exact (hattrs.plain c hc).2

theorem closeTag_plain (hname : IsTagName name) : ∀ c ∈ '/' :: name.toList, c ≠ '>' := by
  intro c hc
  rcases List.mem_cons.mp hc with rfl | hc
  · decide
  · exact (hname.plain c hc).2

theorem openTag_eq (name : String) (attrs : List Char) :
    openTag name attrs = '<' :: ((name.toList ++ attrs) ++ ['>']) := by
  simp [openTag]

theorem closeTag_eq (name : String) :
    closeTag name = '<' :: (('/' :: name.toList) ++ ['>']) := rfl

theorem endsInsideTag_openTag (hname : IsTagName name) (hattrs : IsAttributes attrs) :
    endsInsideTag (openTag name attrs) = false := by
  rw [openTag_eq]
  exact endsInsideTag_tag (openTag_plain hname hattrs)

theorem endsInsideTag_closeTag (hname : IsTagName name) :
    endsInsideTag (closeTag name) = false := by
  rw [closeTag_eq]
  exact endsInsideTag_tag (closeTag_plain hname)

theorem WellNested.endsInsideTag_eq (hnames : ∀ name, names name → IsTagName name)
    (h : WellNested names cs) : endsInsideTag cs = false := by
  induction h with
  | nil => rfl
  | char hc _ ih => rwa [endsInsideTag_char hc]
  | element hname hattrs _ _ ihbody ihrest =>
      rw [endsInsideTag_append (endsInsideTag_openTag (hnames _ hname) hattrs),
        endsInsideTag_append ihbody,
        endsInsideTag_append (endsInsideTag_closeTag (hnames _ hname))]
      exact ihrest

theorem WellNested.pieces (hnames : ∀ name, names name → IsTagName name)
    (h : WellNested names cs) : Pieces cs :=
  pieces_of_endsInsideTag (h.endsInsideTag_eq hnames)

/-! ### Prefixes -/

/-- **A prefix that is not cut inside a tag** is text with unfinished elements. -/
theorem WellNested.opened (hnames : ∀ name, names name → IsTagName name)
    (h : WellNested names cs) (hp : p <+: cs) (hout : endsInsideTag p = false) :
    ∃ stack, Opened names stack p := by
  induction h generalizing p with
  | nil =>
      rw [List.prefix_nil.mp hp]
      exact ⟨[], .closed .nil⟩
  | @char c cs hc _ ih =>
      cases p with
      | nil => exact ⟨[], .closed .nil⟩
      | cons d q =>
          obtain ⟨rfl, hq⟩ := List.cons_prefix_cons.mp hp
          rw [endsInsideTag_char hc] at hout
          obtain ⟨stack, hstack⟩ := ih hq hout
          have hfirst : WellNested names [d] := .char hc .nil
          exact ⟨stack, hstack.append_left hfirst⟩
  | @element name attrs body rest hname hattrs hbody _ ihbody ihrest =>
      have htag := hnames name hname
      rw [openTag_eq] at hp
      rcases of_prefix_tag (openTag_plain htag hattrs) hp hout with rfl | ⟨q, rfl, hq⟩
      · exact ⟨[], .closed .nil⟩
      rw [← openTag_eq] at hout ⊢
      rw [endsInsideTag_append (endsInsideTag_openTag htag hattrs)] at hout
      -- behind the opening tag: in the body, or behind it
      rcases List.prefix_or_prefix_of_prefix hq (List.prefix_append body _) with hin | ⟨q', rfl⟩
      · obtain ⟨stack, hstack⟩ := ihbody hin hout
        exact ⟨stack ++ [name], .tag .nil hname hattrs hstack⟩
      · have hq' : q' <+: closeTag name ++ rest := (List.prefix_append_right_inj _).mp hq
        rw [endsInsideTag_append (hbody.endsInsideTag_eq hnames)] at hout
        rcases of_prefix_tag (closeTag_plain htag) hq' hout with rfl | ⟨q'', rfl, hq''⟩
        · rw [List.append_nil]
          exact ⟨[] ++ [name], .tag .nil hname hattrs (.closed hbody)⟩
        · rw [← closeTag_eq] at hout ⊢
          rw [endsInsideTag_append (endsInsideTag_closeTag htag)] at hout
          obtain ⟨stack, hstack⟩ := ihrest hq'' hout
          have helement := (hbody.wrap hname hattrs)
          have hopened := hstack.append_left helement
          refine ⟨stack, ?_⟩
          simpa only [List.append_assoc] using hopened

/-! ### What follows well-nested text -/

theorem wellNested_cons {c : Char} (hc : c ≠ '<') :
    WellNested names (c :: cs) ↔ WellNested names cs := by
  constructor
  · generalize htext : c :: cs = text
    intro h
    cases h with
    | nil => cases htext
    | char _ h =>
        cases htext
        exact h
    | element =>
        rw [openTag, List.cons_append] at htext
        exact absurd (List.cons.inj htext).1 hc
  · exact .char hc

/-- What begins with a `<` begins with an element. -/
theorem WellNested.exists_element (h : WellNested names ('<' :: cs)) :
    ∃ name attrs body rest, names name ∧ IsAttributes attrs ∧ WellNested names body ∧
      WellNested names rest ∧
      '<' :: cs = openTag name attrs ++ (body ++ (closeTag name ++ rest)) := by
  generalize htext : '<' :: cs = text at h
  cases h with
  | nil => cases htext
  | char hc _ =>
      cases htext
      exact absurd rfl hc
  | element hname hattrs hbody hrest => exact ⟨_, _, _, _, hname, hattrs, hbody, hrest, rfl⟩

/-- Two tags that begin the same text are the same. -/
theorem tag_inj {content content' ds' : List Char} (h : ∀ c ∈ content, c ≠ '>')
    (h' : ∀ c ∈ content', c ≠ '>')
    (heq : '<' :: (content ++ ['>']) ++ ds = '<' :: (content' ++ ['>']) ++ ds') :
    content = content' ∧ ds = ds' := by
  have hstop : ∀ (content ds : List Char), (∀ c ∈ content, c ≠ '>') →
      (content ++ '>' :: ds).takeWhile (· ≠ '>') = content := by
    intro content ds h
    rw [List.takeWhile_append_of_pos (by simpa using h), List.takeWhile_cons_of_neg (by simp),
      List.append_nil]
  simp only [List.cons_append, List.append_assoc, List.nil_append] at heq
  have htail := (List.cons.inj heq).2
  have hcontent : content = content' := by
    rw [← hstop content ds h, htail, hstop content' ds' h']
  subst hcontent
  exact ⟨rfl, (List.cons.inj (List.append_cancel_left htail)).2⟩

theorem openTag_inj {name' : String} {attrs' ds' : List Char} (hname : IsTagName name)
    (hname' : IsTagName name') (hattrs : IsAttributes attrs) (hattrs' : IsAttributes attrs')
    (heq : openTag name attrs ++ ds = openTag name' attrs' ++ ds') :
    name = name' ∧ attrs = attrs' ∧ ds = ds' := by
  rw [openTag_eq, openTag_eq] at heq
  obtain ⟨hcontent, hds⟩ :=
    tag_inj (openTag_plain hname hattrs) (openTag_plain hname' hattrs') heq
  have hword : ∀ {name : String} {attrs : List Char}, IsTagName name → IsAttributes attrs →
      (name.toList ++ attrs).takeWhile (fun c => !isWhitespace c) = name.toList := by
    intro name attrs hname hattrs
    rw [List.takeWhile_append_of_pos (fun c hc => by simp [hname.word c hc])]
    cases attrs with
    | nil => simp
    | cons c cs =>
        have hc : isWhitespace c = true := hattrs.separated c rfl
        rw [List.takeWhile_cons_of_neg (by simp [hc]), List.append_nil]
  have hnames : name.toList = name'.toList := by
    rw [← hword hname hattrs, hcontent, hword hname' hattrs']
  rw [hnames] at hcontent
  exact ⟨String.toList_inj.mp hnames, List.append_cancel_left hcontent, hds⟩

/-- What begins with an opening tag begins with its element. -/
theorem WellNested.exists_of_openTag (hnames : ∀ name, names name → IsTagName name)
    (hname : IsTagName name) (hattrs : IsAttributes attrs)
    (h : WellNested names (openTag name attrs ++ ds)) :
    ∃ body rest, WellNested names body ∧ WellNested names rest ∧
      ds = body ++ (closeTag name ++ rest) := by
  obtain ⟨name', attrs', body, rest, hname', hattrs', hbody, hrest, heq⟩ :=
    @WellNested.exists_element names (name.toList ++ (attrs ++ ['>']) ++ ds) h
  have hopen : openTag name attrs ++ ds =
      openTag name' attrs' ++ (body ++ (closeTag name' ++ rest)) := heq
  obtain ⟨rfl, rfl, hds⟩ := openTag_inj hname (hnames name' hname') hattrs hattrs' hopen
  exact ⟨body, rest, hbody, hrest, hds⟩

/-- Well-nested text does not begin with a closing tag. -/
theorem not_wellNested_closeTag (hnames : ∀ name, names name → IsTagName name) :
    ¬WellNested names ('<' :: '/' :: cs) := by
  intro h
  obtain ⟨name, attrs, body, rest, hname, _, _, _, heq⟩ := h.exists_element
  have htag := hnames name hname
  obtain ⟨c, cs', hcs⟩ := List.exists_cons_of_ne_nil htag.nonempty
  rw [openTag, hcs] at heq
  simp only [List.cons_append, List.cons.injEq] at heq
  apply htag.opening
  rw [hcs, ← heq.2.1]
  rfl

theorem WellNested.eq_nil_of_closeTag (hnames : ∀ name, names name → IsTagName name)
    {ds' : List Char} (h : WellNested names cs) (heq : cs ++ ds = closeTag name ++ ds') :
    cs = [] := by
  cases cs with
  | nil => rfl
  | cons c cs =>
      rw [closeTag, List.cons_append, List.cons_append] at heq
      obtain ⟨rfl, htail⟩ := List.cons.inj heq
      cases cs with
      | nil =>
          have hinside := h.endsInsideTag_eq hnames
          cases hinside
      | cons d cs =>
          obtain ⟨rfl, _⟩ := List.cons.inj htail
          exact absurd h (not_wellNested_closeTag hnames)

/-- **What follows well-nested text in well-nested text** is well-nested. -/
theorem WellNested.of_append (hnames : ∀ name, names name → IsTagName name)
    (h : WellNested names cs) (h' : WellNested names (cs ++ ds)) : WellNested names ds := by
  induction hlen : cs.length using Nat.strongRecOn generalizing cs ds with
  | ind n ih =>
      subst hlen
      cases h with
      | nil => exact h'
      | @char c cs hc h =>
          rw [List.cons_append, wellNested_cons hc] at h'
          exact ih cs.length (by simp) h h' rfl
      | @element name attrs body rest hname hattrs hbody hrest =>
          have htag := hnames name hname
          simp only [List.append_assoc] at h'
          obtain ⟨body', rest', hbody', hrest', htails⟩ := h'.exists_of_openTag hnames htag hattrs
          have hlonger : body.length < (openTag name attrs ++
              (body ++ (closeTag name ++ rest))).length := by
            simp [openTag]
            omega
          -- the shorter body is a prefix of the other, and then a closing tag follows in both
          have hbodies : body = body' := by
            have hprefix : body <+: body ++ (closeTag name ++ (rest ++ ds)) :=
              List.prefix_append body _
            have hprefix' : body' <+: body ++ (closeTag name ++ (rest ++ ds)) := by
              rw [htails]
              exact List.prefix_append body' _
            rcases List.prefix_or_prefix_of_prefix hprefix hprefix' with ⟨x, rfl⟩ | ⟨x, rfl⟩
            · have hx := ih body.length hlonger hbody hbody' rfl
              rw [List.append_assoc] at htails
              have hfollows := List.append_cancel_left htails
              rw [hx.eq_nil_of_closeTag hnames hfollows.symm, List.append_nil]
            · have hx := ih body'.length (by rw [List.length_append] at hlonger; omega)
                hbody' hbody rfl
              rw [List.append_assoc] at htails
              have hfollows := List.append_cancel_left htails
              rw [hx.eq_nil_of_closeTag hnames hfollows, List.append_nil]
          subst hbodies
          have hrests := List.append_cancel_left (List.append_cancel_left htails)
          refine ih rest.length ?_ hrest ?_ rfl
          · simp [openTag]
            omega
          · rw [hrests]
            exact hrest'

/-! ### Exchanging well-nested parts -/

theorem openTag_ne_closeTag (hname : IsTagName name) {name' : String} {ds' : List Char} :
    openTag name attrs ++ ds ≠ closeTag name' ++ ds' := by
  intro heq
  obtain ⟨c, cs, hcs⟩ := List.exists_cons_of_ne_nil hname.nonempty
  rw [openTag, closeTag, hcs] at heq
  simp only [List.cons_append, List.cons.injEq] at heq
  apply hname.opening
  rw [hcs, heq.2.1]
  rfl

/-- Nothing is closed that was not opened. -/
theorem Opened.not_closeTag (hnames : ∀ name, names name → IsTagName name)
    {stack : List String} (h : Opened names stack cs) {w : List Char} (hw : WellNested names w)
    (heq : cs = w ++ (closeTag name ++ ds)) : False := by
  induction h generalizing w name ds with
  | closed hcs =>
      rw [heq] at hcs
      exact not_wellNested_closeTag hnames (hw.of_append hnames hcs)
  | @tag cs attrs rest opened stack hcs hopened hattrs _ ih =>
      have htag := hnames opened hopened
      have hprefix : cs <+: w ++ (closeTag name ++ ds) := by
        rw [← heq]
        exact List.prefix_append cs _
      rcases List.prefix_or_prefix_of_prefix hprefix (List.prefix_append w _) with
        ⟨z, rfl⟩ | ⟨z, rfl⟩
      · have hz := hcs.of_append hnames hw
        rw [List.append_assoc] at heq
        have htail := List.append_cancel_left heq
        cases z with
        | nil => exact openTag_ne_closeTag htag htail
        | cons c z =>
            obtain ⟨rfl, _⟩ := List.cons.inj htail
            obtain ⟨name', attrs', body, rest', hname', hattrs', hbody, _, hz⟩ := hz.exists_element
            rw [hz] at htail
            simp only [List.append_assoc] at htail
            obtain ⟨rfl, rfl, hrest⟩ := openTag_inj htag (hnames name' hname') hattrs hattrs' htail
            exact ih hbody hrest
      · have hz := hw.of_append hnames hcs
        rw [List.append_assoc] at heq
        have htail := List.append_cancel_left heq
        have hnil := hz.eq_nil_of_closeTag hnames htail
        rw [hnil] at htail
        exact openTag_ne_closeTag htag htail

theorem Opened.eq_nil (hnames : ∀ name, names name → IsTagName name) {stack : List String}
    (h : Opened names stack cs) (hcs : WellNested names cs) : stack = [] := by
  cases h with
  | closed => rfl
  | @tag cs attrs rest opened stack hcs' hopened hattrs hrest =>
      exfalso
      have htag := hnames opened hopened
      obtain ⟨body, rest', hbody, _, hrest'⟩ :=
        (hcs'.of_append hnames hcs).exists_of_openTag hnames htag hattrs
      exact hrest.not_closeTag hnames hbody hrest'

theorem Opened.append {stack stack' : List String} (h : Opened names stack cs)
    (h' : Opened names stack' ds) : Opened names (stack' ++ stack) (cs ++ ds) := by
  induction h with
  | closed hcs =>
      rw [List.append_nil]
      exact h'.append_left hcs
  | tag hcs hname hattrs _ ih =>
      have hstep := Opened.tag hcs hname hattrs ih
      simpa only [List.append_assoc] using hstep

/-- An element in whose body, or behind which, the part stands. -/
theorem exchange_element (hnames : ∀ name, names name → IsTagName name)
    {body c c' q r : List Char} (hname : names name) (hattrs : IsAttributes attrs)
    (hbody : WellNested names body) (hrest : WellNested names rest) (hc : WellNested names c)
    (hc' : WellNested names c') (hq : endsInsideTag q = false)
    (heq : q ++ (c ++ r) = body ++ (closeTag name ++ rest))
    (hinbody : ∀ r', q ++ (c ++ r') = body → WellNested names (q ++ (c' ++ r')))
    (hinrest : ∀ q', endsInsideTag q' = false → q' ++ (c ++ r) = rest →
      WellNested names (q' ++ (c' ++ r))) :
    WellNested names (openTag name attrs ++ (q ++ (c' ++ r))) := by
  have htag := hnames name hname
  have hprefix : q <+: body ++ (closeTag name ++ rest) := by
    rw [← heq]
    exact List.prefix_append q _
  rcases List.prefix_or_prefix_of_prefix hprefix (List.prefix_append body _) with
    ⟨y, rfl⟩ | ⟨q', rfl⟩
  · -- the part begins in the body
    rw [List.append_assoc] at heq
    have hinner := List.append_cancel_left heq
    have hcprefix : c <+: y ++ (closeTag name ++ rest) := by
      rw [← hinner]
      exact List.prefix_append c r
    rcases List.prefix_or_prefix_of_prefix hcprefix (List.prefix_append y _) with
      ⟨r', rfl⟩ | ⟨z, rfl⟩
    · rw [List.append_assoc] at hinner
      rw [List.append_cancel_left hinner]
      have helement := WellNested.element hname hattrs (hinbody r' rfl) hrest
      simpa only [List.append_assoc] using helement
    · -- the body ends in the part, and the part goes on with a closing tag
      have hy : endsInsideTag y = false := by
        have hall := hbody.endsInsideTag_eq hnames
        rwa [endsInsideTag_append hq] at hall
      obtain ⟨opened, hopened⟩ := hbody.opened hnames (List.prefix_append q y) hq
      obtain ⟨opened', hopened'⟩ := hc.opened hnames (List.prefix_append y z) hy
      have hnone := (hopened.append hopened').eq_nil hnames hbody
      rw [List.append_eq_nil_iff] at hnone
      obtain ⟨rfl, rfl⟩ := hnone
      have hznested := hopened'.wellNested.of_append hnames hc
      rw [List.append_assoc] at hinner
      have hz := hznested.eq_nil_of_closeTag hnames (List.append_cancel_left hinner)
      subst hz
      rw [List.nil_append] at hinner
      have hr := List.append_cancel_left hinner
      have hbody' := hinbody [] (by simp)
      rw [List.append_nil] at hbody'
      have helement := WellNested.element hname hattrs hbody' hrest
      rw [hr]
      simpa only [List.append_assoc] using helement
  · -- the part begins behind the body
    rw [List.append_assoc] at heq
    have hinner := List.append_cancel_left heq
    rw [endsInsideTag_append (hbody.endsInsideTag_eq hnames)] at hq
    have hqprefix : q' <+: closeTag name ++ rest := by
      rw [← hinner]
      exact List.prefix_append q' _
    rw [closeTag_eq] at hqprefix
    rcases of_prefix_tag (closeTag_plain htag) hqprefix hq with rfl | ⟨q'', rfl, _⟩
    · rw [List.nil_append] at hinner
      have hnil := hc.eq_nil_of_closeTag hnames hinner
      subst hnil
      rw [List.nil_append] at hinner
      rw [hinner, List.append_nil]
      have helement := WellNested.element hname hattrs (hbody.append hc') hrest
      simpa only [List.append_assoc] using helement
    · rw [← closeTag_eq] at hq hinner ⊢
      rw [endsInsideTag_append (endsInsideTag_closeTag htag)] at hq
      rw [List.append_assoc] at hinner
      have hrest' := hinrest q'' hq (List.append_cancel_left hinner)
      have helement := WellNested.element hname hattrs hbody hrest'
      simpa only [List.append_assoc] using helement

/-- **A well-nested part of well-nested text** that does not begin inside a tag may be exchanged
    for another one. -/
theorem WellNested.exchange (hnames : ∀ name, names name → IsTagName name) {c c' r : List Char}
    (hp : endsInsideTag p = false) (hc : WellNested names c) (hc' : WellNested names c')
    (h : WellNested names (p ++ (c ++ r))) : WellNested names (p ++ (c' ++ r)) := by
  generalize htext : p ++ (c ++ r) = text at h
  induction h generalizing p c r with
  | nil =>
      obtain ⟨rfl, hcr⟩ := List.append_eq_nil_iff.mp htext
      obtain ⟨rfl, rfl⟩ := List.append_eq_nil_iff.mp hcr
      simpa using hc'
  | @char x text hx htail ih =>
      cases p with
      | nil =>
          rw [List.nil_append] at htext ⊢
          have hall := WellNested.char hx htail
          rw [← htext] at hall
          exact hc'.append (hc.of_append hnames hall)
      | cons d q =>
          obtain ⟨rfl, hrest⟩ := List.cons.inj htext
          rw [endsInsideTag_char hx] at hp
          exact .char hx (ih hp hc hrest)
  | @element name attrs body rest hname hattrs hbody hrest ihbody ihrest =>
      have htag := hnames name hname
      cases p with
      | nil =>
          rw [List.nil_append] at htext ⊢
          have helement := WellNested.element hname hattrs hbody hrest
          rw [← htext] at helement
          exact hc'.append (hc.of_append hnames helement)
      | cons d p =>
          have hprefix : d :: p <+: openTag name attrs ++ (body ++ (closeTag name ++ rest)) := by
            rw [← htext]
            exact List.prefix_append _ _
          rw [openTag_eq] at hprefix
          rcases of_prefix_tag (openTag_plain htag hattrs) hprefix hp with hnil | ⟨q, hq, _⟩
          · cases hnil
          rw [← openTag_eq] at hq
          rw [hq, endsInsideTag_append (endsInsideTag_openTag htag hattrs)] at hp
          rw [hq, List.append_assoc] at htext ⊢
          have hinner : q ++ (c ++ r) = body ++ (closeTag name ++ rest) :=
            List.append_cancel_left htext
          exact exchange_element hnames hname hattrs hbody hrest hc hc' hp hinner
            (fun r' hr' => ihbody hp hc hr') (fun q' hq' hr' => ihrest hq' hc hr')

end Markup
