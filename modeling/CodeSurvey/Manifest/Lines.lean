import CodeSurvey.Text.Blank

/-!
# Manifests of lines

Requirement lists name one requirement on each line, and module files list required modules in
blocks and in single directives.
-/

namespace CodeSurvey.Manifest

open CodeSurvey Text

/-- Whether a character ends the name of a requirement. -/
def endsRequirement (c : Char) : Bool := "=<>!~[;@".toList.contains c || isBlank c

/-- The name at the front of a requirement. -/
def requirementName (spec : String) : String :=
  String.ofList (stripBlanks ((stripBlanks spec.toList).takeWhile (!endsRequirement ·)))

/-- The names of a requirement list; comments and options name nothing. -/
def requirementNames (text : String) : List String :=
  (lineLists text.toList).filterMap fun line =>
    match stripBlanks line with
    | [] => none
    | '#' :: _ => none
    | '-' :: _ => none
    | cs =>
      let name := requirementName (String.ofList cs)
      if name.isEmpty then none else some name

/-- The rest of a text after its next line feed. -/
def afterFeed (cs : List Char) : List Char := (cs.dropWhile (· != '\n')).drop 1

/-- The text between a bracket and the next closing bracket at the start of a line, and the rest
after that bracket. `line` holds what has been passed, reversed. -/
def blockBody? (passed : List Char) : List Char → Option (List Char × List Char)
  | [] => none
  | '\n' :: ')' :: rest => some (('\n' :: passed).reverse, rest)
  | c :: rest => blockBody? (c :: passed) rest

/-- The block of a directive at the front of a text: the word, blanks, and a body in brackets. -/
def block? (word : List Char) (cs : List Char) : Option (List Char × List Char) :=
  match dropStart? word cs with
  | none => none
  | some rest =>
    match rest.dropWhile isBlank with
    | '(' :: rest => blockBody? [] rest
    | _ => none

/-- The operand of a directive at the front of a text: the word, blanks, a run without blanks and
opening brackets, blanks, and a further run. -/
def operand? (word : List Char) (cs : List Char) : Option (List Char × List Char) :=
  match dropStart? word cs with
  | none => none
  | some rest =>
    match rest with
    | c :: _ =>
      if !isBlank c then none
      else
        let rest := rest.dropWhile isBlank
        let isPart (c : Char) : Bool := !isBlank c && c != '('
        let name := rest.takeWhile isPart
        let after := rest.dropWhile isPart
        let tail := after.dropWhile isBlank
        if name.isEmpty || after.length == tail.length || tail.isEmpty then none
        else some (name, tail.dropWhile (!isBlank ·))
    | [] => none

/-- What `find?` finds at the starts of lines, one after the other; `fuel` is at least the number
of characters, and `atStart` says whether the text begins at the start of a line. -/
def findAll (find? : List Char → Option (List Char × List Char)) :
    Nat → Bool → List Char → List (List Char)
  | 0, _, _ => []
  | fuel + 1, atStart, cs =>
    match (if atStart then find? cs else none) with
    | some (found, rest) => found :: findAll find? fuel false rest
    | none =>
      match cs with
      | [] => []
      | _ =>
        if (cs.dropWhile (· != '\n')).isEmpty then [] else findAll find? fuel true (afterFeed cs)

/-- The word of a directive that requires modules. -/
def requireWord : List Char := "require".toList

/-- The modules that a block of requirements lists. -/
def blockModules (body : List Char) : List String :=
  (lineLists body).filterMap fun line =>
    let line := stripBlanks line
    if "//".toList.isPrefixOf line then none
    else ((wordLists line).head?).map String.ofList

/-- The modules that a module file requires: those of all blocks, then those of all single
directives. -/
def requiredModules (text : String) : List String :=
  let cs := text.toList
  let fuel := cs.length + 1
  ((findAll (block? requireWord) fuel true cs).flatMap blockModules) ++
    (findAll (operand? requireWord) fuel true cs).map String.ofList

/-- The name after a word at the front of a text: blanks and a run without blanks. -/
def named? (word : List Char) (cs : List Char) : Option (List Char × List Char) :=
  match dropStart? word cs with
  | none => none
  | some rest =>
    let tail := rest.dropWhile isBlank
    if rest.length == tail.length || tail.isEmpty then none
    else some (tail.takeWhile (!isBlank ·), tail.dropWhile (!isBlank ·))

/-- The name of the module that a module file describes. -/
def moduleName? (text : String) : Option String :=
  let cs := text.toList
  ((findAll (named? "module".toList) (cs.length + 1) true cs).head?).map String.ofList

end CodeSurvey.Manifest
