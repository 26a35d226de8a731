import Anyclaw.Library.Markup
import Anyclaw.Telegram.Formatting

/-!
# Completing a prefix

The streamed answer is shown before it is whole.  `close_open_tags` reads its tags with a
stack; over the prefix of a well-nested text the stack holds exactly the elements that the
prefix leaves open, and the closing tags it appends complete them.

The function is in `ext/channels/telegram/src/formatting.rs`.
-/

namespace Anyclaw.Telegram

open Slices Markup

/-- The tags whose elements `close_open_tags` completes. -/
def IsHtmlTag (name : String) : Prop := name ∈ closableTags

instance : DecidablePred IsHtmlTag := fun name => inferInstanceAs (Decidable (name ∈ closableTags))

theorem IsHtmlTag.isTagName {name : String} (h : IsHtmlTag name) : IsTagName name := by
  have hall : ∀ name ∈ closableTags, name.toList ≠ [] ∧ name.toList.head? ≠ some '/' ∧
      (name.toList.all fun c => !isWhitespace c && c != '<' && c != '>') = true := by
    decide
  obtain ⟨hne, hopen, hword⟩ := hall name h
  simp only [List.all_eq_true, Bool.and_eq_true, bne_iff_ne, Bool.not_eq_true'] at hword
  exact ⟨hne, hopen, fun c hc => (hword c hc).1.1, fun c hc => ⟨(hword c hc).1.2, (hword c hc).2⟩⟩

/-! ### The stack -/

theorem firstWord_name {name : String} (h : IsTagName name) {rest : List Char}
    (hrest : ∀ c ∈ rest.head?, isWhitespace c = true) : firstWord (name.toList ++ rest) = name := by
  obtain ⟨c, cs, hcs⟩ := List.exists_cons_of_ne_nil h.nonempty
  have hc : isWhitespace c = false := h.word c (by rw [hcs]; exact List.mem_cons_self ..)
  have hstart : (name.toList ++ rest).dropWhile isWhitespace = name.toList ++ rest := by
    rw [hcs, List.cons_append, List.dropWhile_cons_of_neg (by simp [hc])]
  have hword : (name.toList ++ rest).takeWhile (fun c => !isWhitespace c) = name.toList := by
    rw [List.takeWhile_append_of_pos (fun c hc => by simp [h.word c hc])]
    cases rest with
    | nil => simp
    | cons d ds =>
        have hd : isWhitespace d = true := hrest d rfl
        rw [List.takeWhile_cons_of_neg (by simp [hd]), List.append_nil]
  rw [firstWord, hstart, hword, String.ofList_toList]

theorem applyTag_open {name : String} (h : IsHtmlTag name) {attrs : List Char}
    (hattrs : IsAttributes attrs) (stack : List String) :
    applyTag stack (name.toList ++ attrs) = name :: stack := by
  have hname := h.isTagName
  have hword : firstWord (name.toList ++ attrs) = name := firstWord_name hname hattrs.separated
  have hmem : name ∈ closableTags := h
  obtain ⟨c, cs, hcs⟩ := List.exists_cons_of_ne_nil hname.nonempty
  have hc : c ≠ '/' := by
    rintro rfl
    apply hname.opening
    rw [hcs]
    rfl
  rw [hcs, List.cons_append] at hword ⊢
  rw [applyTag, hword, if_pos hmem]
  intro closing heq
  injection heq with heq _
  exact hc heq

theorem applyTag_close {name : String} (h : IsHtmlTag name) (stack : List String) :
    applyTag (name :: stack) ('/' :: name.toList) = stack := by
  have hword : firstWord (name.toList ++ []) = name := firstWord_name h.isTagName (by simp)
  rw [List.append_nil] at hword
  rw [applyTag, hword, List.erase_cons_head]

/-- Fuel beyond the length changes nothing. -/
theorem openTags_fuel {n m : Nat} {cs : List Char} (hn : cs.length ≤ n) (hm : cs.length ≤ m)
    (stack : List String) : openTags n cs stack = openTags m cs stack := by
  induction n generalizing m cs stack with
  | zero =>
      have hnil : cs = [] := List.length_eq_zero_iff.mp (Nat.le_zero.mp hn)
      subst hnil
      cases m <;> rfl
  | succ n ih =>
      cases cs with
      | nil => cases m <;> rfl
      | cons c cs =>
          obtain ⟨m, rfl⟩ : ∃ k, m = k + 1 := ⟨m - 1, by rw [List.length_cons] at hm; omega⟩
          rw [List.length_cons] at hn hm
          by_cases hc : c = '<'
          · subst hc
            have htail : ((cs.dropWhile (· ≠ '>')).drop 1).length ≤ cs.length := by
              have hdrop := (List.dropWhile_suffix (· ≠ '>') (l := cs)).length_le
              rw [List.length_drop]
              omega
            exact ih (by omega) (by omega) _
          · rw [openTags.eq_4 _ _ _ _ hc, openTags.eq_4 _ _ _ _ hc]
            exact ih (by omega) (by omega) stack

/-- The stack behind a text that is read from a given stack on. -/
def stackAfter (cs : List Char) (stack : List String) : List String :=
  openTags cs.length cs stack

@[simp] theorem stackAfter_nil (stack : List String) : stackAfter [] stack = stack := rfl

theorem stackAfter_char {c : Char} (hc : c ≠ '<') (cs : List Char) (stack : List String) :
    stackAfter (c :: cs) stack = stackAfter cs stack := by
  rw [stackAfter, List.length_cons, openTags.eq_4 _ _ _ _ hc, stackAfter]

theorem stackAfter_tag {content : List Char} (h : ∀ c ∈ content, c ≠ '>') (cs : List Char)
    (stack : List String) :
    stackAfter ('<' :: (content ++ ['>']) ++ cs) stack =
      stackAfter cs (applyTag stack content) := by
  have hcontent : ∀ c ∈ content, decide (c ≠ '>') = true := by simpa using h
  have htake : (content ++ '>' :: cs).takeWhile (· ≠ '>') = content := by
    rw [List.takeWhile_append_of_pos hcontent, List.takeWhile_cons_of_neg (by simp),
      List.append_nil]
  have hdrop : (content ++ '>' :: cs).dropWhile (· ≠ '>') = '>' :: cs := by
    rw [List.dropWhile_append_of_pos hcontent, List.dropWhile_cons_of_neg (by simp)]
  have hshape : '<' :: (content ++ ['>']) ++ cs = '<' :: (content ++ '>' :: cs) := by simp
  rw [hshape, stackAfter, List.length_cons, openTags, htake, hdrop, List.drop_one, List.tail_cons,
    stackAfter]
  apply openTags_fuel
  · simp
    omega
  · exact Nat.le_refl _

/-- A text is read in two parts, when the first does not stop inside a tag. -/
theorem stackAfter_append {cs : List Char} (h : Pieces cs) (ds : List Char)
    (stack : List String) :
    stackAfter (cs ++ ds) stack = stackAfter ds (stackAfter cs stack) := by
  induction h generalizing stack with
  | nil => rfl
  | char hc _ ih => rw [List.cons_append, stackAfter_char hc, stackAfter_char hc, ih]
  | tag hcontent _ ih =>
      rw [List.append_assoc, stackAfter_tag hcontent, stackAfter_tag hcontent, ih]

theorem stackAfter_openTag {name : String} (h : IsHtmlTag name) {attrs : List Char}
    (hattrs : IsAttributes attrs) (cs : List Char) (stack : List String) :
    stackAfter (openTag name attrs ++ cs) stack = stackAfter cs (name :: stack) := by
  rw [openTag_eq, stackAfter_tag (openTag_plain h.isTagName hattrs), applyTag_open h hattrs]

theorem stackAfter_closeTag {name : String} (h : IsHtmlTag name) (cs : List Char)
    (stack : List String) :
    stackAfter (closeTag name ++ cs) (name :: stack) = stackAfter cs stack := by
  rw [closeTag_eq, stackAfter_tag (closeTag_plain h.isTagName), applyTag_close h]

/-- A well-nested text leaves the stack as it is. -/
theorem stackAfter_wellNested {cs : List Char} (h : WellNested IsHtmlTag cs)
    (stack : List String) : stackAfter cs stack = stack := by
  induction h generalizing stack with
  | nil => rfl
  | char hc _ ih => rw [stackAfter_char hc, ih]
  | element hname hattrs hbody _ ihbody ihrest =>
      have hpieces := hbody.pieces fun name => IsHtmlTag.isTagName
      rw [stackAfter_openTag hname hattrs, stackAfter_append hpieces, ihbody,
        stackAfter_closeTag hname, ihrest]

/-- The stack holds the unfinished elements. -/
theorem stackAfter_opened {cs : List Char} {unfinished : List String}
    (h : Opened IsHtmlTag unfinished cs) (stack : List String) :
    stackAfter cs stack = unfinished ++ stack := by
  induction h generalizing stack with
  | closed hcs => exact stackAfter_wellNested hcs stack
  | tag hcs hname hattrs _ ih =>
      have hpieces := hcs.pieces fun name => IsHtmlTag.isTagName
      rw [stackAfter_append hpieces, stackAfter_wellNested hcs, stackAfter_openTag hname hattrs, ih,
        List.append_assoc]
      rfl

/-- The names on the stack are those of the tags that can be completed. -/
theorem isHtmlTag_of_mem_stackAfter {cs : List Char} (h : Pieces cs)
    {stack : List String} (hstack : ∀ name ∈ stack, IsHtmlTag name) :
    ∀ name ∈ stackAfter cs stack, IsHtmlTag name := by
  induction h generalizing stack with
  | nil => exact hstack
  | char hc _ ih =>
      rw [stackAfter_char hc]
      exact ih hstack
  | tag hcontent _ ih =>
      rw [stackAfter_tag hcontent]
      apply ih
      intro name hname
      unfold applyTag at hname
      split at hname
      · exact hstack name (List.mem_of_mem_erase hname)
      · split at hname
        · rename_i hword
          rcases List.mem_cons.mp hname with rfl | hname
          · exact hword
          · exact hstack name hname
        · exact hstack name hname

/-- The closing tags of a stack empty it. -/
theorem stackAfter_closers {unfinished : List String} (h : ∀ name ∈ unfinished, IsHtmlTag name) :
    stackAfter (unfinished.flatMap closeTag) unfinished = [] := by
  induction unfinished with
  | nil => rfl
  | cons name unfinished ih =>
      rw [List.flatMap_cons, stackAfter_closeTag (h name (List.mem_cons_self ..))]
      apply ih
      intro other hother
      exact h other (List.mem_cons_of_mem name hother)

/-! ### Completion -/

theorem toList_closeOpenTags (html : String) :
    (closeOpenTags html).toList = html.toList ++ (stackAfter html.toList []).flatMap closeTag := by
  have hclosers : ∀ tags : List String,
      (String.join (tags.map fun tag => "</" ++ tag ++ ">")).toList = tags.flatMap closeTag := by
    intro tags
    rw [String.toList_join, List.flatMap_map]
    apply List.flatMap_congr
    intro tag _
    simp [closeTag]
  rw [closeOpenTags, String.toList_append, hclosers, stackAfter]

theorem closeOpenTags_of_wellNested {html : String} (h : WellNested IsHtmlTag html.toList) :
    closeOpenTags html = html := by
  apply String.toList_inj.mp
  rw [toList_closeOpenTags, stackAfter_wellNested h]
  simp

/-- **Completing twice is completing once**, of a text with or without nesting. -/
theorem closeOpenTags_idem {html : String} (h : endsInsideTag html.toList = false) :
    closeOpenTags (closeOpenTags html) = closeOpenTags html := by
  apply String.toList_inj.mp
  have hpieces := pieces_of_endsInsideTag h
  have hnames : ∀ name ∈ stackAfter html.toList [], IsHtmlTag name :=
    isHtmlTag_of_mem_stackAfter hpieces (by simp)
  rw [toList_closeOpenTags (closeOpenTags html), toList_closeOpenTags, stackAfter_append hpieces,
    stackAfter_closers hnames]
  simp

/-- **`close_open_tags` completes prefixes.**  Of a well-nested text, a prefix that is not cut
    inside a tag gets closing tags and nothing else, and is well-nested with them; the whole
    text stays as it is, and a text that was completed gets no more tags. -/
theorem closeOpenTags_completes {html p : String} (hhtml : WellNested IsHtmlTag html.toList)
    (hp : p.toList <+: html.toList) (hout : endsInsideTag p.toList = false) :
    (∃ tags : List String, (∀ tag ∈ tags, IsHtmlTag tag) ∧
      (closeOpenTags p).toList = p.toList ++ tags.flatMap closeTag) ∧
    WellNested IsHtmlTag (closeOpenTags p).toList ∧
    closeOpenTags html = html ∧
    ∀ text : String, endsInsideTag text.toList = false →
      closeOpenTags (closeOpenTags text) = closeOpenTags text := by
  obtain ⟨unfinished, hopened⟩ := hhtml.opened (fun name => IsHtmlTag.isTagName) hp hout
  have hstack : stackAfter p.toList [] = unfinished := by
    rw [stackAfter_opened hopened, List.append_nil]
  refine ⟨⟨unfinished, ?_, ?_⟩, ?_, closeOpenTags_of_wellNested hhtml, fun text => closeOpenTags_idem⟩
  · rw [← hstack]
    exact isHtmlTag_of_mem_stackAfter (pieces_of_endsInsideTag hout) (by simp)
  · rw [toList_closeOpenTags, hstack]
  · rw [toList_closeOpenTags, hstack]
    exact hopened.close

/-- A link with bold text in it, cut inside the bold text. -/
theorem closeOpenTags_completes_link :
    WellNested IsHtmlTag (closeOpenTags "<a href=\"u\">x <b>y").toList ∧
      closeOpenTags "<a href=\"u\">x <b>y</b></a>" = "<a href=\"u\">x <b>y</b></a>" := by
  have hbold : WellNested IsHtmlTag "<b>y</b>".toList :=
    @WellNested.wrap IsHtmlTag ['y'] [] "b" (by decide) .nil (.of_plain (by simp))
  have hlink : WellNested IsHtmlTag "<a href=\"u\">x <b>y</b></a>".toList :=
    @WellNested.wrap IsHtmlTag "x <b>y</b>".toList " href=\"u\"".toList "a" (by decide)
      ⟨by simp; decide, by simp⟩ (.char (by decide) (.char (by decide) hbold))
  have hcompletes := @closeOpenTags_completes "<a href=\"u\">x <b>y</b></a>"
    "<a href=\"u\">x <b>y" hlink ⟨"</b></a>".toList, by decide⟩ (by decide)
  exact ⟨hcompletes.2.1, hcompletes.2.2.1⟩

end Anyclaw.Telegram
