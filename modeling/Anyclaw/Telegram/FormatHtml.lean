import Anyclaw.Library.Regex
import Anyclaw.Telegram.Formatting

/-!
# Markdown to HTML

`format_telegram_html` takes code and quotes out of the text, with placeholders in their
place, escapes the rest, turns the other marks into tags, one kind after the other, and puts
the code and the quotes back.  Each pass works on what the passes before have left.

What a word character is (`\w`) is a parameter.

The function is in `ext/channels/telegram/src/formatting.rs`, with the regular expressions of
its passes.
-/

namespace Anyclaw.Telegram

open Slices Regex

/-! ### The expressions -/

section Expressions

variable (isWord : Char → Bool)

def dot : Regex := .char (· != '\n')

def lineStart : Regex := .look fun prev _ => prev = none ∨ prev = some '\n'

def lineEnd : Regex := .look fun _ next => next = none ∨ next = some '\n'

def wordBoundary : Regex := .look fun prev next => prev.any isWord != next.any isWord

/-- ``(?s)```(\w*)\n?(.*?)``` `` -/
def FENCED_CODE_RE : Regex :=
  seqs [lit "```".toList, .group 1 (.star true (.char isWord)), opt (lit ['\n']),
    .group 2 (.star false (.char fun _ => true)), lit "```".toList]

/-- `` `([^`]+)` `` -/
def INLINE_CODE_RE : Regex :=
  seqs [lit ['`'], .group 1 (plus true (.char (· != '`'))), lit ['`']]

/-- `(?m)^(?:>\s?(.*)(?:\n|$))+` -/
def BLOCKQUOTE_RE : Regex :=
  seqs [lineStart, plus true (seqs [lit ['>'], opt (.char isWhitespace),
    .group 1 (.star true dot), .alt (lit ['\n']) lineEnd])]

/-- `(?m)^#{1,6}\s+(.+)$` -/
def HEADER_RE : Regex :=
  seqs [lineStart, lit ['#'], upTo 5 (lit ['#']), plus true (.char isWhitespace),
    .group 1 (plus true dot), lineEnd]

/-- `\[([^\]]+)\]\(([^)]+)\)` -/
def LINK_RE : Regex :=
  seqs [lit ['['], .group 1 (plus true (.char (· != ']'))), lit "](".toList,
    .group 2 (plus true (.char (· != ')'))), lit [')']]

/-- `\*\*(.+?)\*\*` -/
def BOLD_RE : Regex := seqs [lit "**".toList, .group 1 (plus false dot), lit "**".toList]

/-- `~~(.+?)~~` -/
def STRIKE_RE : Regex := seqs [lit "~~".toList, .group 1 (plus false dot), lit "~~".toList]

/-- `\b_([^_]+?)_\b` -/
def ITALIC_UNDERSCORE_RE : Regex :=
  seqs [wordBoundary isWord, lit ['_'], .group 1 (plus false (.char (· != '_'))), lit ['_'],
    wordBoundary isWord]

/-- `\*([^*]+?)\*` -/
def ITALIC_STAR_RE : Regex :=
  seqs [lit ['*'], .group 1 (plus false (.char (· != '*'))), lit ['*']]

end Expressions

def asciiWord (c : Char) : Bool := c.isAlphanum || c == '_'

/-- Among the ASCII characters the word characters are the usual ones. -/
def ExtendsAscii (isWord : Char → Bool) : Prop := ∀ c, c.toNat < 128 → isWord c = asciiWord c

theorem extendsAscii_asciiWord : ExtendsAscii asciiWord := fun _ _ => rfl

/-! ### Blocks and placeholders -/

def escaped (cs : List Char) : List Char := (escapeHtml (String.ofList cs)).toList

def codeBlock (m : Match) : List Char :=
  if m.groups 1 = [] then "<pre>".toList ++ escaped (m.groups 2) ++ "</pre>".toList
  else "<pre><code class=\"language-".toList ++ m.groups 1 ++ "\">".toList ++
    escaped (m.groups 2) ++ "</code></pre>".toList

def inlineCode (m : Match) : List Char :=
  "<code>".toList ++ escaped (m.groups 1) ++ "</code>".toList

/-- A line without its end. -/
def stripCarriageReturn (line : List Char) : List Char :=
  if line.getLast? = some '\r' then line.dropLast else line

/-- `str::lines`, with the beginning of the first line. -/
def linesFrom (line : List Char) : List Char → List (List Char)
  | [] => if line = [] then [] else [line]
  | '\n' :: cs => stripCarriageReturn line :: linesFrom [] cs
  | c :: cs => linesFrom (line ++ [c]) cs

def unquote : List Char → List Char
  | '>' :: ' ' :: line => line
  | '>' :: line => line
  | line => line

def blockquote (m : Match) : List Char :=
  "<blockquote>".toList ++
    escaped (List.intercalate ['\n'] ((linesFrom [] m.whole).map unquote)) ++
    "</blockquote>".toList

def placeholder (kind : String) (idx : Nat) : List Char :=
  '\x00' :: (kind.toList ++ '_' :: ((toString idx).toList ++ ['\x00']))

/-- `str::replace`, in a text of which some characters belong to an occurrence that was found
    before. -/
def replaceFrom (pat block : List Char) : Nat → List Char → List Char
  | _, [] => []
  | n + 1, _ :: cs => replaceFrom pat block n cs
  | 0, c :: cs =>
      if pat <+: c :: cs then block ++ replaceFrom pat block (pat.length - 1) cs
      else c :: replaceFrom pat block 0 cs

/-- Put blocks in the place of the placeholders from a number on. -/
def restore (kind : String) : Nat → List (List Char) → List Char → List Char
  | _, [], text => text
  | i, block :: blocks, text =>
      restore kind (i + 1) blocks (replaceFrom (placeholder kind i) block 0 text)

/-! ### The passes -/

def wrapAll (r : Regex) (tag : String) (text : List Char) : List Char :=
  replaceAll r
    (fun _ m => ("<" ++ tag ++ ">").toList ++ m.groups 1 ++ ("</" ++ tag ++ ">").toList) text

def linkAll (text : List Char) : List Char :=
  replaceAll LINK_RE
    (fun _ m => "<a href=\"".toList ++ m.groups 2 ++ "\">".toList ++ m.groups 1 ++ "</a>".toList)
    text

def extractAll (r : Regex) (kind : String) (text : List Char) : List Char :=
  replaceAll r (fun i _ => placeholder kind i) text

def formatTelegramHtml (isWord : Char → Bool) (text : String) : String :=
  let text := text.toList
  -- code and quotes
  let codeBlocks := (findAll (FENCED_CODE_RE isWord) text).map codeBlock
  let text := extractAll (FENCED_CODE_RE isWord) "CODEBLOCK" text
  let inlineCodes := (findAll INLINE_CODE_RE text).map inlineCode
  let text := extractAll INLINE_CODE_RE "INLINE" text
  let blockquotes := (findAll BLOCKQUOTE_RE text).map blockquote
  let text := extractAll BLOCKQUOTE_RE "BLOCKQUOTE" text
  let text := escaped text
  -- the other marks
  let text := wrapAll HEADER_RE "b" text
  let text := linkAll text
  let text := wrapAll BOLD_RE "b" text
  let text := wrapAll STRIKE_RE "s" text
  let text := wrapAll (ITALIC_UNDERSCORE_RE isWord) "i" text
  let text := wrapAll ITALIC_STAR_RE "i" text
  -- code and quotes again
  let text := restore "BLOCKQUOTE" 0 blockquotes text
  let text := restore "INLINE" 0 inlineCodes text
  let text := restore "CODEBLOCK" 0 codeBlocks text
  String.ofList text

@[simp] theorem restore_nil (kind : String) (i : Nat) (text : List Char) :
    restore kind i [] text = text := rfl

theorem formatTelegramHtml_empty (isWord : Char → Bool) : formatTelegramHtml isWord "" = "" := by
  have hescaped : escaped [] = [] := rfl
  simp [formatTelegramHtml, extractAll, wrapAll, linkAll, hescaped]

theorem replaceChar_of_not_mem {c : Char} {text : String} {cs : List Char} (h : c ∉ cs) :
    replaceChar c text cs = cs := by
  rw [replaceChar]
  induction cs with
  | nil => rfl
  | cons d cs ih =>
      rw [List.mem_cons, not_or] at h
      rw [List.flatMap_cons, if_neg (Ne.symm h.1), ih h.2]
      rfl

theorem escaped_of_plain {cs : List Char} (h : '&' ∉ cs ∧ '<' ∉ cs ∧ '>' ∉ cs) :
    escaped cs = cs := by
  rw [escaped, escapeHtml, String.toList_ofList, String.toList_ofList, replaceChar_of_not_mem h.1,
    replaceChar_of_not_mem h.2.1, replaceChar_of_not_mem h.2.2]

end Anyclaw.Telegram
