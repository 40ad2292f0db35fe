import CodeSurvey.Glob.PathPattern

/-!
# Ignore rules

One line of an ignore file. A line that is blank or a comment is no rule, and a line whose pattern
ends in a lone backslash is passed over.
-/

namespace CodeSurvey.Ignore

open CodeSurvey Glob

/-- A rule of an ignore file. -/
structure Rule where
  /-- The line without the white space around it. -/
  raw : String
  /-- The pattern without its marks. -/
  body : String
  /-- Whether the rule takes paths in again. -/
  negated : Bool
  /-- Whether the rule holds for directories only. -/
  directoryOnly : Bool
  /-- Whether the pattern is matched against the whole path and not the name alone. -/
  anchored : Bool
  /-- Whether the pattern begins at the root. -/
  rooted : Bool
  /-- The pattern from the root, or for the name. -/
  matcher : PathPattern
  /-- The pattern below any directories, for an anchored rule that is not rooted. -/
  anywhere : Option PathPattern
  deriving Repr, DecidableEq

/-- The marks of a line, and its body. -/
structure Marks where
  /-- Whether the line begins with an exclamation mark. -/
  negated : Bool
  /-- Whether it ends with a slash. -/
  directoryOnly : Bool
  /-- Whether it begins with a slash after that. -/
  rooted : Bool
  /-- What remains. -/
  body : List Char
  deriving Repr, DecidableEq

/-- The marks of a line without white space around it. -/
def marksOf (raw : List Char) : Marks :=
  let (negated, body) := match raw with
    | '!' :: rest => (true, rest)
    | body => (false, body)
  let directoryOnly := body.getLast? == some '/'
  let body := Text.dropEndWhile (· == '/') body
  let rooted := body.head? == some '/'
  ⟨negated, directoryOnly, rooted, body.dropWhile (· == '/')⟩

/-- The rule of a line, if it is one. Only a range with its ends in the wrong order is an error. -/
def Rule.ofLine? (line : List Char) : Except PatternError (Option Rule) :=
  let raw := Text.stripBlanks line
  if raw.isEmpty || raw.head? == some '#' then .ok none
  else
    let m := marksOf raw
    if m.body.isEmpty then .ok none
    else
      let anchored := m.rooted || m.body.contains '/'
      let rule (matcher : PathPattern) (anywhere : Option PathPattern) : Rule :=
        { raw := String.ofList raw
          body := String.ofList m.body
          negated := m.negated
          directoryOnly := m.directoryOnly
          anchored
          rooted := m.rooted
          matcher
          anywhere }
      let compiled := do
        let matcher ← compile m.body
        if m.rooted || !anchored then pure (rule matcher none)
        else
          let anywhere ← compile ('*' :: '*' :: '/' :: m.body)
          pure (rule matcher (some anywhere))
      match compiled with
      | .ok r => .ok (some r)
      | .error .loneBackslash => .ok none
      | .error .badRange => .error .badRange

/-- Whether a rule's pattern matches a path with the given name at its end. -/
def Rule.hits (r : Rule) (path name : List Char) : Bool :=
  if r.anchored then
    r.matcher.matchesPath path || match r.anywhere with
      | some p => p.matchesPath path
      | none => false
  else r.matcher.matchesPath name

/-- The rules of an ignore file, in order. -/
def rulesOf (text : String) : Except PatternError (List Rule) :=
  (Text.lineLists text.toList).foldlM
    (fun rules line => (Rule.ofLine? line).map fun r => rules ++ r.toList) []

end CodeSurvey.Ignore
