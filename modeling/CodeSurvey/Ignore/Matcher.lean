import CodeSurvey.Glob.NamePattern
import CodeSurvey.Ignore.Rule

/-!
# What is ignored

A path is ignored if a name on it is denied, or if the rules ignore it or a directory above it. At
one path the first negated rule that applies takes it in, whatever stands before it; otherwise any
rule that applies ignores it.
-/

namespace CodeSurvey.Ignore

open CodeSurvey Glob

/-- The rules and the denied names of a workspace. -/
structure Matcher where
  /-- The rules, in order. -/
  rules : List Rule
  /-- The denied names and name patterns. -/
  denied : List String
  deriving Repr

/-- Whether a name is denied: it is on the list, or matches a pattern of the list. -/
def Matcher.deniesName (m : Matcher) (name : String) : Bool :=
  m.denied.any fun d => if hasWildcard d then matchesName (nameParts d) name else d == name

/-- Whether a rule applies at a path. -/
def Rule.applies (r : Rule) (path : List String) (isDir : Bool) : Bool :=
  (isDir || !r.directoryOnly) &&
    r.hits (Text.join "/" path).toList ((path.getLast?).getD "").toList

/-- Whether the rules ignore a path, not regarding the directories above it. -/
def ruledOut (path : List String) (isDir : Bool) (rules : List Rule) : Bool :=
  go false rules
where
  /-- `hit` says whether a rule has applied so far. -/
  go (hit : Bool) : List Rule → Bool
    | [] => hit
    | r :: rest =>
      if r.applies path isDir then (if r.negated then false else go true rest) else go hit rest

/-- The proper ancestors of a path, from the top. -/
def ancestors (path : List String) : List (List String) :=
  (List.range (path.length - 1)).map fun i => path.take (i + 1)

/-- Whether a path, given by its segments, is ignored. -/
def Matcher.ignoresParts (m : Matcher) (path : List String) (isDir : Bool) : Bool :=
  path.any m.deniesName ||
    (ancestors path).any (fun a => ruledOut a true m.rules) || ruledOut path isDir m.rules

/-- Whether a path is ignored; slashes at its ends do not count, and the root never is. -/
def Matcher.ignores (m : Matcher) (path : String) (isDir : Bool) : Bool :=
  let trimmed := Text.trimChar '/' path
  if trimmed.isEmpty then false else m.ignoresParts (Text.split trimmed '/') isDir

/-- The names that are denied unless the options say otherwise, where `controlDir` is the name of
the directory that the artifacts are stored in. -/
def defaultDenied (controlDir : String) : List String :=
  ["node_modules", ".git", "dist", "build", "out", ".next", "coverage", "__pycache__", ".venv",
   controlDir]

end CodeSurvey.Ignore
