import CodeSurvey.Text.Basic

/-!
# Command line arguments

An argument that begins with a hyphen sets options; any other stands for itself. A long option takes
its value after an equals sign or from the next argument. Letters may stand together behind one
hyphen, and the value of the last of them may follow it at once. Two hyphens end the options.
-/

namespace CodeSurvey.Terminal

/-- What is wrong with the arguments of a command. -/
inductive UsageError where
  | unknownOption (text : String)
  /-- Nothing follows an option that takes a value. -/
  | missingValue (option : String)
  /-- An option that takes no value has one. -/
  | needlessValue (option : String)
  | missingCommand
  | unknownCommand (name : String)
  | missingArgument (name : String)
  | extraArguments (texts : List String)
  | noNumber (text : String)
  | noDirectory (path : String)
  /-- A name is that of no kind of artifact; the others may be chosen. -/
  | unknownKind (name : String) (choice : List String)
  /-- Some names are those of no kinds of artifacts that can be made. -/
  | unknownKinds (names choice : List String)
  deriving Repr, DecidableEq

/-- What users are told of the error. -/
def UsageError.message : UsageError → String
  | unknownOption text => "No such option: " ++ text
  | missingValue option => "Option '" ++ option ++ "' requires an argument."
  | needlessValue option => "Option '" ++ option ++ "' does not take a value."
  | missingCommand => "Missing command."
  | unknownCommand name => "No such command '" ++ name ++ "'."
  | missingArgument name => "Missing argument '" ++ name ++ "'."
  | extraArguments texts => "Got unexpected extra arguments (" ++ Text.join " " texts ++ ")"
  | noNumber text => "'" ++ text ++ "' is not a valid float."
  | noDirectory path => "Directory '" ++ path ++ "' does not exist."
  | unknownKind name choice =>
    "Unknown artifact kind '" ++ name ++ "'. Choose from: " ++ Text.join ", " choice
  | unknownKinds names choice =>
    "Unknown kind(s) " ++ Text.join ", " names ++ ". Choose from: " ++ Text.join ", " choice

/-- An option that a command knows. -/
structure Switch where
  /-- The name, which follows two hyphens. -/
  name : String
  /-- The letter, which follows one hyphen. -/
  letter : Option Char := none
  /-- Whether it takes a value. -/
  takesValue : Bool := false
  deriving Repr, DecidableEq

/-- What the arguments of a command say. -/
structure Given where
  /-- The names of the options that are set, with their values. -/
  options : List (String × String) := []
  /-- The arguments that stand for themselves. -/
  others : List String := []
  deriving Repr, DecidableEq

namespace Given

/-- Further options are set. -/
def set (g : Given) (options : List (String × String)) : Given :=
  { g with options := g.options ++ options }

/-- Further arguments stand for themselves. -/
def add (g : Given) (others : List String) : Given := { g with others := g.others ++ others }

/-- Whether an option is set. -/
def has (g : Given) (name : String) : Bool := g.options.any (·.1 == name)

/-- The values of an option in their order. -/
def all (g : Given) (name : String) : List String :=
  (g.options.filter (·.1 == name)).map (·.2)

/-- The value of an option; the last one counts. -/
def last? (g : Given) (name : String) : Option String := (g.all name).getLast?

/-- The options that some letters set, and the one that waits for its value. -/
def ofLetters (known : List Switch) :
    List Char → Except UsageError (List (String × String) × Option String)
  | [] => .ok ([], none)
  | c :: cs =>
    match known.find? (·.letter == some c) with
    | none => .error (.unknownOption (String.ofList ['-', c]))
    | some s =>
      if !s.takesValue then (ofLetters known cs).map fun r => ((s.name, "") :: r.1, r.2)
      else if cs.isEmpty then .ok ([], some s.name)
      else .ok ([(s.name, String.ofList cs)], none)

/-- The options that an argument sets, and the one that waits for its value. -/
def ofArgument (known : List Switch) (arg : String) :
    Except UsageError (List (String × String) × Option String) :=
  let cs := arg.toList
  let name := String.ofList (cs.takeWhile (· != '='))
  let value := (Text.cutAt? ['='] cs).map fun r => String.ofList r.2
  match known.find? fun s => "--" ++ s.name == name with
  | some s =>
    match s.takesValue, value with
    | true, some value => .ok ([(s.name, value)], none)
    | true, none => .ok ([], some s.name)
    | false, none => .ok ([(s.name, "")], none)
    | false, some _ => .error (.needlessValue name)
  | none => if Text.hasStart "--" arg then .error (.unknownOption name) else ofLetters known cs.tail

/-- Reads arguments from the front. If they are not mixed, the first argument that stands for itself
ends the options. -/
def read (known : List Switch) (mixed : Bool) : List String → Given → Except UsageError Given
  | [], g => .ok g
  | arg :: rest, g =>
    if arg == "--" then .ok (g.add rest)
    else if Text.hasStart "-" arg && arg != "-" then
      match ofArgument known arg with
      | .error e => .error e
      | .ok (options, none) => read known mixed rest (g.set options)
      | .ok (options, some waiting) =>
        match rest with
        | [] => .error (.missingValue ("--" ++ waiting))
        | value :: rest => read known mixed rest ((g.set options).set [(waiting, value)])
    else if mixed then read known mixed rest (g.add [arg])
    else .ok (g.add (arg :: rest))

end Given

end CodeSurvey.Terminal
