import CodeSurvey.Text.Blank
import CodeSurvey.Text.Case

/-!
# Marked text

A tag in square brackets begins a style, and one with a slash ends it. On an output without styles
the tags are left out and only the text is printed. A bracket that no tag can follow stands for
itself, and so does a tag behind a backslash. Ending a style that was not begun is an error. Texts
that are printed as they are lose the sequences by which a terminal is told its colours.
-/

namespace CodeSurvey.Terminal.Markup

/-- The text so far, and the styles that have begun, the last one first. -/
structure Progress where
  /-- What is printed, reversed. -/
  done : List Char := []
  /-- What follows the last tag, reversed. -/
  pending : List Char := []
  styles : List (List Char) := []

/-- Whether a tag can begin with a character. -/
def beginsTag (c : Char) : Bool := ('a' ≤ c && c ≤ 'z') || c == '#' || c == '/' || c == '@'

/-- The tag that what follows a bracket begins with, and the rest. -/
def tagAt? (cs : List Char) : Option (List Char × List Char) :=
  match cs.head? with
  | some c => if beginsTag c then Text.cutAt? [']'] cs else none
  | none => none

/-- The name by which styles are told apart. -/
def styleName (tag : List Char) : List Char :=
  Text.lowerChars (Text.stripBlanks (tag.takeWhile (· != '=')))

/-- The styles after a tag, or nothing if it ends none of them. -/
def applyTag (tag : List Char) (styles : List (List Char)) : Option (List (List Char)) :=
  match tag with
  | '/' :: name =>
    let name := styleName name
    if name.isEmpty then (if styles.isEmpty then none else some styles.tail)
    else if styles.contains name then some (styles.erase name)
    else none
  | tag => some (styleName tag :: styles)

/-- Goes on over what follows a bracket up to the next one. -/
def Progress.step (p : Progress) (piece : List Char) : Option Progress :=
  match tagAt? piece with
  | none =>
    let pending := match p.pending with
      | '\\' :: rest => rest
      | pending => pending
    some { p with pending := piece.reverse ++ '[' :: pending }
  | some (tag, rest) =>
    let slashes := (p.pending.takeWhile (· == '\\')).length
    let before := List.replicate (slashes / 2) '\\' ++ p.pending.drop slashes ++ p.done
    if slashes % 2 = 1 then
      some { p with done := ']' :: tag.reverse ++ '[' :: before, pending := rest.reverse }
    else
      (applyTag tag p.styles).map fun styles =>
        { done := before, pending := rest.reverse, styles }

/-- Whether a character is kept on an output: some control characters are not. -/
def isKept (c : Char) : Bool := !([7, 8, 11, 12, 13].contains c.toNat)

/-- A line with blanks in place of tabs, up to the next column that eight divides; `column` is the
number of characters before. -/
def expandTabs (column : Nat) : List Char → List Char
  | [] => []
  | c :: cs =>
    if c == '\t' then
      let width := 8 - column % 8
      List.replicate width ' ' ++ expandTabs (column + width) cs
    else if c == '\n' then c :: expandTabs 0 cs
    else c :: expandTabs (column + 1) cs

/-- The text without tags, or nothing if a tag ends a style that was not begun. -/
def plain? (text : String) : Option String :=
  match Text.splitOn '[' text.toList with
  | [] => some ""
  | first :: pieces =>
    (pieces.foldlM Progress.step { pending := first.reverse }).map fun p =>
      String.ofList (expandTabs 0 ((p.pending ++ p.done).reverse.filter isKept))

/-- The character that begins a sequence for a terminal. -/
def escape : Char := Char.ofNat 27

/-- What follows an escape character without the sequence that it begins; without one, the character
stays. -/
def dropSequence (cs : List Char) : List Char :=
  match cs with
  | '[' :: rest =>
    match rest.dropWhile fun c => c == ';' || c == '?' || Text.isDigit c with
    | c :: after => if c.isAlpha then after else escape :: cs
    | [] => escape :: cs
  | cs => escape :: cs

/-- A text without sequences for a terminal. -/
def withoutSequences (text : String) : String :=
  match Text.splitOn escape text.toList with
  | [] => text
  | first :: pieces => String.ofList (first ++ (pieces.map dropSequence).flatten)

end CodeSurvey.Terminal.Markup
