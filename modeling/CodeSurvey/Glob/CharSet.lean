/-!
# Bracket expressions

The set of characters between the brackets of a wildcard pattern: single characters and ranges,
possibly negated. A backslash stands for itself.
-/

namespace CodeSurvey.Glob

/-- A part of a bracket expression. -/
inductive SetItem where
  /-- One character. -/
  | one (c : Char)
  /-- The characters from `lo` to `hi`. -/
  | range (lo hi : Char)
  deriving Repr, DecidableEq

/-- A set of characters. -/
structure CharSet where
  /-- Whether the set holds what the items do not. -/
  negated : Bool
  /-- The single characters and ranges. -/
  items : List SetItem
  deriving Repr, DecidableEq

/-- Whether an item holds a character. -/
def SetItem.holds (c : Char) : SetItem → Bool
  | one d => c == d
  | range lo hi => lo ≤ c && c ≤ hi

/-- Whether an item is a range whose ends are in the wrong order. -/
def SetItem.isReversed : SetItem → Bool
  | one _ => false
  | range lo hi => hi < lo

/-- Whether a set holds a character. -/
def CharSet.holds (s : CharSet) (c : Char) : Bool := s.items.any (·.holds c) != s.negated

/-- The items of the text between the brackets: a character, a hyphen and a character are a range,
any other character stands for itself. -/
def setItems : List Char → List SetItem
  | lo :: '-' :: hi :: rest => .range lo hi :: setItems rest
  | c :: rest => .one c :: setItems rest
  | [] => []

/-- The text of a bracket expression up to its closing bracket, and the rest after that. A closing
bracket at the very start, or after one of the `negators` there, belongs to the text. -/
def bracketText? (negators : List Char) (cs : List Char) : Option (List Char × List Char) :=
  let (sign, body) := match cs with
    | c :: rest => if negators.contains c then ([c], rest) else ([], cs)
    | [] => ([], [])
  let (first, body) := match body with
    | ']' :: rest => ([']'], rest)
    | body => ([], body)
  match body.dropWhile (· != ']') with
  | ']' :: rest => some (sign ++ first ++ body.takeWhile (· != ']'), rest)
  | _ => none

/-- The set of the text between the brackets. -/
def CharSet.ofText (negators : List Char) (cs : List Char) : CharSet :=
  match cs with
  | c :: rest => if negators.contains c then ⟨true, setItems rest⟩ else ⟨false, setItems cs⟩
  | [] => ⟨false, []⟩

end CodeSurvey.Glob
