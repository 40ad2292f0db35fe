import CodeSurvey.Text.Blank
import CodeSurvey.Text.Case

/-!
# The purpose in a description file

The text of a description file without its markup: code, images, link targets, tags, headings and
marks of emphasis are taken out, pass by pass, and the first 500 characters are kept. A pass is a
rule that says what a match at the front of a text is replaced by, and is swept over the text from
left to right.
-/

namespace CodeSurvey.Summary.Readme

open CodeSurvey.Text

/-- A rule: given the character before a text, what the match at the front of the text is replaced
by and what follows the match. -/
abbrev Pass := Option Char → List Char → Option (List Char × List Char)

/-- The last character of the part of `cs` before `rest`. -/
def lastBefore (cs rest : List Char) : Option Char :=
  (cs.take (cs.length - rest.length)).getLast?

/-- A rule applied wherever it matches, from left to right. The number bounds the steps. -/
def sweepFrom (pass : Pass) : Nat → Option Char → List Char → List Char
  | 0, _, cs => cs
  | _, _, [] => []
  | n + 1, before, c :: rest =>
    match pass before (c :: rest) with
    | some (put, after) => put ++ sweepFrom pass n (lastBefore (c :: rest) after) after
    | none => c :: sweepFrom pass n (some c) rest

/-- A rule applied wherever it matches. -/
def sweep (pass : Pass) (cs : List Char) : List Char := sweepFrom pass cs.length none cs

/-- Three backquotes. -/
def fence : List Char := List.replicate 3 '\x60'

/-- Code between fences goes. -/
def codeBlock : Pass := fun _ cs => do
  let rest ← dropStart? fence cs
  let (_, after) ← cutAt? fence rest
  return ([], after)

/-- Code between backquotes in a line goes. -/
def codeSpan : Pass := fun _ cs =>
  match cs with
  | '\x60' :: rest =>
    match rest.dropWhile fun c => c != '\x60' && c != '\n' with
    | '\x60' :: after => some ([], after)
    | _ => none
  | _ => none

/-- The text in brackets at the front of a text that is followed by a target in parentheses, and
what follows that. -/
def link? (cs : List Char) : Option (List Char × List Char) :=
  match cs with
  | '[' :: rest =>
    let (label, rest) := rest.span (· != ']')
    match rest with
    | ']' :: '(' :: rest =>
      match rest.dropWhile (· != ')') with
      | ')' :: after => some (label, after)
      | _ => none
    | _ => none
  | _ => none

/-- Images go. -/
def image : Pass := fun _ cs =>
  match cs with
  | '!' :: rest => (link? rest).map fun l => ([], l.2)
  | _ => none

/-- Of a link the text stays. -/
def link : Pass := fun _ cs => link? cs

/-- Tags go: an opening angle bracket, at least one other character, and a closing one. -/
def tag : Pass := fun _ cs =>
  match cs with
  | '<' :: rest =>
    let (inner, rest) := rest.span (· != '>')
    match rest with
    | '>' :: after => if inner.isEmpty then none else some ([], after)
    | _ => none
  | _ => none

/-- Whether a line begins after the character. -/
def beginsLine (before : Option Char) : Bool := before.isNone || before == some '\n'

/-- Headings go: one to six number signs at the start of a line, a blank, and the rest of the line.
The blank may be the end of the line, and the next line goes with it. -/
def heading : Pass := fun before cs =>
  let (signs, rest) := cs.span (· == '#')
  if beginsLine before && 0 < signs.length && signs.length ≤ 6 then
    match rest with
    | c :: rest => if isBlank c then some ([], rest.dropWhile (· != '\n')) else none
    | [] => none
  else none

/-- The text that is held in reverse and what follows the mark, if the text is not empty, does not
end in a blank and is followed by the mark, and the mark may end here. -/
def closedBy? (mark : List Char) (mayEnd : List Char → Bool) (taken cs : List Char) :
    Option (List Char × List Char) :=
  match taken with
  | [] => none
  | last :: _ =>
    if isBlank last then none
    else match dropStart? mark cs with
      | some after => if mayEnd after then some (taken.reverse, after) else none
      | none => none

/-- The shortest text in a line that is not empty, does not end in a blank and is followed by the
mark, if the mark may end here; and what follows the mark. The text so far is held in reverse. -/
def untilMark? (mark : List Char) (mayEnd : List Char → Bool) (taken : List Char) :
    List Char → Option (List Char × List Char)
  | [] => none
  | c :: rest =>
    match closedBy? mark mayEnd taken (c :: rest) with
    | some out => some out
    | none => if c = '\n' then none else untilMark? mark mayEnd (c :: taken) rest

/-- Between two marks the text stays, if it neither begins nor ends with a blank. -/
def between (mark : List Char) (mayBegin : Option Char → Bool) (mayEnd : List Char → Bool) :
    Pass := fun before cs => do
  guard (mayBegin before)
  let rest ← dropStart? mark cs
  guard (rest.head?.any (!isBlank ·))
  untilMark? mark mayEnd [] rest

/-- Strong text, in two asterisks or two underscores. -/
def strong : Pass := fun before cs =>
  (between "**".toList (fun _ => true) (fun _ => true) before cs).or
    (between "__".toList (fun _ => true) (fun _ => true) before cs)

/-- Text in asterisks that stand inside no word and beside no other asterisk. -/
def emphasis : Pass :=
  let isOpen (c : Char) : Bool := !isWord c && c != '*'
  between ['*'] (fun before => before.all isOpen) (fun after => after.head?.all isOpen)

/-- Text in underscores that stand inside no word. -/
def underscored : Pass :=
  between ['_'] (fun before => before.all (!isWord ·)) (fun after => after.head?.all (!isWord ·))

/-- Spaces and tabulators at the end of a line go. -/
def lineEnd : Pass := fun _ cs =>
  let (blanks, rest) := cs.span fun c => c == ' ' || c == '\t'
  if !blanks.isEmpty && (rest.isEmpty || rest.head? == some '\n') then some ([], rest) else none

/-- Of three and more line ends two stay. -/
def emptyLines : Pass := fun _ cs =>
  let (feeds, rest) := cs.span (· == '\n')
  if 3 ≤ feeds.length then some (['\n', '\n'], rest) else none

/-- The passes in their order. -/
def passes : List Pass :=
  [codeBlock, codeSpan, image, link, tag, heading, strong, emphasis, underscored, lineEnd,
   emptyLines]

/-- The most characters that are kept. -/
def maxChars : Nat := 500

/-- A description without its markup, shortened. -/
def clean (text : String) : String :=
  String.ofList ((stripBlanks (passes.foldl (fun cs p => sweep p cs) text.toList)).take maxChars)

/-- The names of description files; the first that has a text counts. -/
def names : List String := ["README.md", "readme.md", "Readme.md", "README.txt", "README"]

end CodeSurvey.Summary.Readme
