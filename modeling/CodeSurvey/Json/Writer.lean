import CodeSurvey.Decimal.Layout
import CodeSurvey.Json.Basic
import CodeSurvey.Text.Basic

/-!
# Writing JSON

Two layouts: the stored one, with two blanks per level and ASCII characters only, and the compact
one, on one line and with every printable character as itself.
-/

namespace CodeSurvey.Json

open CodeSurvey.Text (hexDigits)

/-- The escape of one UTF-16 unit. -/
def unitEscape (n : Nat) : List Char := '\\' :: 'u' :: (hexDigits 4 n).toList

/-- The escape of a character by its UTF-16 units: one, or two beyond the basic plane. -/
def unicodeEscape (c : Char) : List Char :=
  let n := c.toNat
  if n < 0x10000 then unitEscape n
  else unitEscape (0xD800 + (n - 0x10000) / 0x400) ++ unitEscape (0xDC00 + (n - 0x10000) % 0x400)

/-- The short escape of a character that has one. -/
def shortEscape? (c : Char) : Option Char :=
  if c = '"' then some '"'
  else if c = '\\' then some '\\'
  else if c = '\n' then some 'n'
  else if c = '\r' then some 'r'
  else if c = '\t' then some 't'
  else if c = Char.ofNat 8 then some 'b'
  else if c = Char.ofNat 12 then some 'f'
  else none

/-- A character in a string, where `plain` says which stand for themselves. -/
def escapeChar (plain : Char → Bool) (c : Char) : List Char :=
  match shortEscape? c with
  | some e => ['\\', e]
  | none => if plain c then [c] else unicodeEscape c

/-- The characters that stand for themselves in the stored layout: printable ASCII. -/
def isPlainAscii (c : Char) : Bool := 32 ≤ c.toNat && c.toNat ≤ 126

/-- A string literal. -/
def quoted (plain : Char → Bool) (s : String) : List Char :=
  '"' :: s.toList.flatMap (escapeChar plain) ++ ['"']

/-- The text of a fractional number, where an infinity and no number have names. -/
def floatToken (x : Float) : String :=
  match Decimal.parts x with
  | .nan => "NaN"
  | .infinite neg => if neg then "-Infinity" else "Infinity"
  | .finite _ => Decimal.floatText x

/-- A line break and the blanks of a level. -/
def newLine (level : Nat) : List Char := '\n' :: List.replicate (2 * level) ' '

mutual

/-- A value in the stored layout, at a level of nesting. -/
def layout (level : Nat) : Json → List Char
  | null => "null".toList
  | bool b => (if b then "true" else "false").toList
  | int n => (toString n).toList
  | float x => (floatToken x).toList
  | str s => quoted isPlainAscii s
  | arr [] => "[]".toList
  | arr (item :: items) =>
    '[' :: newLine (level + 1) ++ layout (level + 1) item ++ layoutItems (level + 1) items ++
      newLine level ++ [']']
  | obj [] => ['{', '}']
  | obj ((key, value) :: members) =>
    '{' :: newLine (level + 1) ++ quoted isPlainAscii key ++ ": ".toList ++
      layout (level + 1) value ++ layoutMembers (level + 1) members ++ newLine level ++ ['}']

/-- The further items of an array. -/
def layoutItems (level : Nat) : List Json → List Char
  | [] => []
  | item :: items => ',' :: newLine level ++ layout level item ++ layoutItems level items

/-- The further members of an object. -/
def layoutMembers (level : Nat) : List (String × Json) → List Char
  | [] => []
  | (key, value) :: members =>
    ',' :: newLine level ++ quoted isPlainAscii key ++ ": ".toList ++ layout level value ++
      layoutMembers level members

end

/-- The stored text of a value. -/
def stored (j : Json) : String := String.ofList (layout 0 j)

mutual

/-- A value on one line. -/
def line : Json → List Char
  | null => "null".toList
  | bool b => (if b then "true" else "false").toList
  | int n => (toString n).toList
  | float x => (floatToken x).toList
  | str s => quoted (fun c => 32 ≤ c.toNat) s
  | arr items => '[' :: (lineItems items).drop 1 ++ [']']
  | obj members => '{' :: (lineMembers members).drop 1 ++ ['}']

/-- The items of an array, each after a comma. -/
def lineItems : List Json → List Char
  | [] => []
  | item :: items => ',' :: line item ++ lineItems items

/-- The members of an object, each after a comma. -/
def lineMembers : List (String × Json) → List Char
  | [] => []
  | (key, value) :: members =>
    ',' :: quoted (fun c => 32 ≤ c.toNat) key ++ ':' :: line value ++ lineMembers members

end

/-- The compact text of a value. -/
def compact (j : Json) : String := String.ofList (line j)

end CodeSurvey.Json
