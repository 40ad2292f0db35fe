import CodeSurvey.Decimal.Layout
import CodeSurvey.Json.Basic
import CodeSurvey.Text.Case
import CodeSurvey.Text.PrintTable

/-!
# Values inside a sentence

A value as it is shown in a text for readers: a string as itself, and inside an array or object as
a literal. A literal is a text between quotes, with escapes for the quote, the backslash and the
characters that are not printed as themselves. Single quotes are used unless the text holds one and
no double quote.
-/

namespace CodeSurvey.Text

/-- Whether a character is printed as itself. -/
def isPrintable (c : Char) : Bool :=
  if c.toNat < 127 then 32 ≤ c.toNat else !inRanges hiddenRanges c.toNat

/-- A character in a literal between the given quotes. -/
def literalChar (quote : Char) (c : Char) : List Char :=
  if c = quote ∨ c = '\\' then ['\\', c]
  else if c = '\n' then ['\\', 'n']
  else if c = '\r' then ['\\', 'r']
  else if c = '\t' then ['\\', 't']
  else if isPrintable c then [c]
  else if c.toNat < 0x100 then '\\' :: 'x' :: (hexDigits 2 c.toNat).toList
  else if c.toNat < 0x10000 then '\\' :: 'u' :: (hexDigits 4 c.toNat).toList
  else '\\' :: 'U' :: (hexDigits 8 c.toNat).toList

/-- The quote of a text's literal. -/
def quoteOf (cs : List Char) : Char := if cs.contains '\'' && !cs.contains '"' then '"' else '\''

/-- A text as a literal. -/
def literal (cs : List Char) : List Char :=
  let quote := quoteOf cs
  quote :: cs.flatMap (literalChar quote) ++ [quote]

end CodeSurvey.Text

namespace CodeSurvey.Json

/-- A list of texts with a comma and a blank between each two. -/
def commaJoin : List (List Char) → List Char
  | [] => []
  | [t] => t
  | t :: rest => t ++ ',' :: ' ' :: commaJoin rest

mutual

/-- A value as it is shown inside an array or object. -/
def inner : Json → List Char
  | null => "None".toList
  | bool b => (if b then "True" else "False").toList
  | int n => (toString n).toList
  | float x => (Decimal.floatText x).toList
  | str s => Text.literal s.toList
  | arr items => '[' :: commaJoin (innerItems items) ++ [']']
  | obj members => '{' :: commaJoin (innerMembers members) ++ ['}']

/-- The items of an array. -/
def innerItems : List Json → List (List Char)
  | [] => []
  | item :: items => inner item :: innerItems items

/-- The members of an object. -/
def innerMembers : List (String × Json) → List (List Char)
  | [] => []
  | (key, value) :: members =>
    (Text.literal key.toList ++ ':' :: ' ' :: inner value) :: innerMembers members

end

/-- A value as it is shown. -/
def display : Json → String
  | str s => s
  | j => String.ofList (inner j)

end CodeSurvey.Json
