import Anyclaw.Library.Markup
import Anyclaw.Telegram.FormatHtml
import Anyclaw.Telegram.OpenTags

/-!
# What well-formatted text is

The pieces of a formatted text: characters, which are escaped, and tags, each in the place of
the markup that it stands for.  A text is formatted well when it and its HTML are made of the
same pieces and the HTML is well-nested.  Without the tags, and unescaped, the HTML is then
the text without its markup.

Nothing here is translated from the source: it says what `format_telegram_html`
(`ext/channels/telegram/src/formatting.rs`) is for.
-/

namespace Anyclaw.Telegram

open Slices Markup

/-! ### Escaping -/

def escapeChar (c : Char) : List Char :=
  if c = '&' then "&amp;".toList
  else if c = '<' then "&lt;".toList
  else if c = '>' then "&gt;".toList
  else [c]

theorem escaped_eq (cs : List Char) : escaped cs = cs.flatMap escapeChar := by
  rw [escaped, escapeHtml, String.toList_ofList, String.toList_ofList]
  simp only [replaceChar, List.flatMap_assoc]
  apply List.flatMap_congr
  intro c _
  rw [escapeChar]
  split
  · rfl
  · split
    · rename_i hamp hlt
      subst hlt
      rfl
    · rename_i hamp hlt
      simp [hlt]

def untag : List Char → List Char := go false
where
  go : Bool → List Char → List Char
    | _, [] => []
    | true, c :: cs => go (c != '>') cs
    | false, c :: cs => if c = '<' then go true cs else c :: go false cs

def unescape : List Char → List Char
  | '&' :: 'a' :: 'm' :: 'p' :: ';' :: cs => '&' :: unescape cs
  | '&' :: 'l' :: 't' :: ';' :: cs => '<' :: unescape cs
  | '&' :: 'g' :: 't' :: ';' :: cs => '>' :: unescape cs
  | c :: cs => c :: unescape cs
  | [] => []

/-! ### Pieces -/

inductive Piece where
  | shown (c : Char)
  /-- A line break in a quote, with the marks around it. -/
  | lineBreak (source : List Char)
  | tag (html source : List Char)

namespace Piece

/-- What it is in the text. -/
def source : Piece → List Char
  | shown c => [c]
  | lineBreak source => source
  | tag _ source => source

/-- What it is in the HTML. -/
def html : Piece → List Char
  | shown c => escapeChar c
  | lineBreak _ => ['\n']
  | tag html _ => html

def visible : Piece → List Char
  | shown c => [c]
  | lineBreak _ => ['\n']
  | tag _ _ => []

end Piece

def IsQuoteMark (source : List Char) : Prop :=
  source = [] ∨ source = ['>'] ∨ source = ['>', ' ']

def IsLineEnd (source : List Char) : Prop := source = ['\n'] ∨ source = ['\r', '\n']

/-- **The tags and the markup they stand for.**  The attribute of a link is the URL, escaped,
    without a double quote; that of code is a word. -/
inductive StandsFor (isWord : Char → Bool) : List Char → List Char → Prop
  | boldStart : StandsFor isWord "<b>".toList "**".toList
  | boldEnd : StandsFor isWord "</b>".toList "**".toList
  | strikeStart : StandsFor isWord "<s>".toList "~~".toList
  | strikeEnd : StandsFor isWord "</s>".toList "~~".toList
  | underscoreStart : StandsFor isWord "<i>".toList "_".toList
  | underscoreEnd : StandsFor isWord "</i>".toList "_".toList
  | starStart : StandsFor isWord "<i>".toList "*".toList
  | starEnd : StandsFor isWord "</i>".toList "*".toList
  | headerStart {marks space : List Char} : marks ≠ [] → (∀ c ∈ marks, c = '#') → space ≠ [] →
      (∀ c ∈ space, isWhitespace c = true) → StandsFor isWord "<b>".toList (marks ++ space)
  | headerEnd : StandsFor isWord "</b>".toList []
  | linkStart {url : List Char} : '"' ∉ url →
      StandsFor isWord ("<a href=\"".toList ++ (escaped url ++ "\">".toList)) "[".toList
  | linkEnd {url : List Char} : StandsFor isWord "</a>".toList ("](".toList ++ (url ++ ")".toList))
  | codeStart : StandsFor isWord "<code>".toList "`".toList
  | codeEnd : StandsFor isWord "</code>".toList "`".toList
  | preStart {lang newline : List Char} : (∀ c ∈ lang, isWord c = true) →
      newline = [] ∨ newline = ['\n'] →
      StandsFor isWord "<pre>".toList ("```".toList ++ (lang ++ newline))
  | preEnd : StandsFor isWord "</pre>".toList "```".toList
  | languageStart {lang : List Char} : (∀ c ∈ lang, isWord c = true) →
      StandsFor isWord ("<code class=\"language-".toList ++ (lang ++ "\">".toList)) []
  | languageEnd : StandsFor isWord "</code>".toList []
  | quoteStart {mark : List Char} : IsQuoteMark mark → StandsFor isWord "<blockquote>".toList mark
  | quoteEnd {lineEnd : List Char} : lineEnd = [] ∨ IsLineEnd lineEnd →
      StandsFor isWord "</blockquote>".toList lineEnd

def Piece.Valid (isWord : Char → Bool) : Piece → Prop
  | shown _ => True
  | lineBreak source => ∃ lineEnd mark, IsLineEnd lineEnd ∧ IsQuoteMark mark ∧
      source = lineEnd ++ mark
  | tag html source => StandsFor isWord html source

/-- **The HTML is that of the text**: both are made of the same pieces, and the HTML is
    well-nested.  Without its tags, and unescaped, it is what the pieces show. -/
def WellFormatted (isWord : Char → Bool) (text html : List Char) : Prop :=
  WellNested IsHtmlTag html ∧
    ∃ pieces : List Piece, (∀ x ∈ pieces, x.Valid isWord) ∧ text = pieces.flatMap Piece.source ∧
      html = pieces.flatMap Piece.html ∧
      unescape (untag html) = pieces.flatMap Piece.visible

end Anyclaw.Telegram
