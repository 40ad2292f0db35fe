import CodeSurvey.Text.Blank
import CodeSurvey.Text.Case

/-!
# Types as text

What the text of a field's type tells: the type without the marks of an array, whether it is an
array, and whether it leads to an entity.
-/

namespace CodeSurvey.DataModel

open CodeSurvey.Text

/-- What follows `import("…").` at the front of a type. -/
def afterQualifier? (cs : List Char) : Option (List Char) :=
  match dropStart? "import(".toList cs with
  | some rest =>
    match rest.dropWhile (· != ')') with
    | ')' :: '.' :: rest => some rest
    | _ => none
  | none => none

/-- A text that a start is dropped from is as long as the start and its rest together. -/
theorem length_of_dropStart? : ∀ {start cs rest : List Char}, dropStart? start cs = some rest →
    cs.length = start.length + rest.length
  | [], cs, rest, h => by
    simp only [dropStart?, Option.some.injEq] at h
    simp [h]
  | s :: start, [], rest, h => by simp [dropStart?] at h
  | s :: start, c :: cs, rest, h => by
    simp only [dropStart?] at h
    split at h
    · have := length_of_dropStart? h
      simp only [List.length_cons]
      omega
    · simp at h

/-- A qualifier takes characters. -/
theorem length_afterQualifier? {cs rest : List Char} (h : afterQualifier? cs = some rest) :
    rest.length < cs.length := by
  simp only [afterQualifier?] at h
  split at h
  · rename_i tail htail
    split at h
    · rename_i rest' hrest
      simp only [Option.some.injEq] at h
      subst h
      have h1 := length_of_dropStart? htail
      have h2 : (tail.dropWhile (· != ')')).length ≤ tail.length :=
        (List.dropWhile_sublist _).length_le
      rw [hrest] at h2
      simp only [List.length_cons] at h2
      omega
    · simp at h
  · simp at h

/-- A type without the modules that its parts are imported from. -/
def dropQualifiers (cs : List Char) : List Char :=
  match cs with
  | [] => []
  | c :: rest =>
    match _h : afterQualifier? (c :: rest) with
    | some after => dropQualifiers after
    | none => c :: dropQualifiers rest
termination_by cs.length
decreasing_by
  · exact length_afterQualifier? ‹_›
  · simp

/-- The element type of `Array<…>` or `ReadonlyArray<…>`, if a type is all of that and stands in
one line. -/
def arrayElement? (cs : List Char) : Option (List Char) :=
  match dropStart? "Array<".toList ((dropStart? "Readonly".toList cs).getD cs) with
  | some rest =>
    if rest.getLast? == some '>' && 1 < rest.length && !rest.contains '\n' then
      some rest.dropLast
    else none
  | none => none

/-- A type without imported modules, and without one array around it. -/
def simplifyChars (cs : List Char) : List Char :=
  let plain := stripBlanks (collapseBlanks (dropQualifiers cs))
  match arrayElement? plain with
  | some element => stripBlanks element
  | none => if "[]".toList.isSuffixOf plain then plain.dropLast.dropLast else plain

/-- A type without imported modules, and without one array around it. -/
def simplify (type : String) : String := String.ofList (simplifyChars type.toList)

/-- Whether a type is an array. -/
def isArrayType (type : String) : Bool :=
  let cs := stripBlanks type.toList
  "[]".toList.isSuffixOf cs || (arrayElement? cs).isSome

/-- The types that lead to no entity, in small letters. -/
def primitiveTypes : List String :=
  ["string", "number", "boolean", "date", "null", "undefined", "any", "unknown", "void", "never",
   "object", "bigint", "symbol"]

/-- A text without any `[]` in it. -/
def dropArrayMarks : List Char → List Char
  | '[' :: ']' :: rest => dropArrayMarks rest
  | c :: rest => c :: dropArrayMarks rest
  | [] => []

/-- Whether one of the alternatives of a type leads to an entity: it begins with a capital letter
and is no primitive type. -/
def leadsToEntity (alternative : List Char) : Bool :=
  let cs := stripBlanks alternative
  let cs := ((arrayElement? cs).map stripBlanks).getD cs
  match cs with
  | [] => false
  | c :: _ => !primitiveTypes.contains (lower (String.ofList cs)) && isUpper c

/-- Whether a type leads to an entity. -/
def isRelationType (type : String) : Bool :=
  (splitOn '|' (dropArrayMarks (simplifyChars type.toList))).any leadsToEntity

end CodeSurvey.DataModel
