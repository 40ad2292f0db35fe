import CodeSurvey.Files.Name
import CodeSurvey.Workflow.Route

/-!
# Entry points

A file is an entry point by its name and by the directories above it. Route and page files are
named after their route, all others after their stem.
-/

namespace CodeSurvey.Architecture

open CodeSurvey

/-- What an entry point starts. -/
inductive EntryKind where
  | main
  | apiRoute
  | page
  | worker
  | cli
  deriving Repr, DecidableEq

/-- The name of a kind of entry point. -/
def EntryKind.name : EntryKind → String
  | main => "main"
  | apiRoute => "api-route"
  | page => "page"
  | worker => "worker"
  | cli => "cli"

/-- The files that start a program, at most one directory deep. -/
def mainFiles : List String :=
  ["index.ts", "index.js", "main.ts", "main.js", "app.ts", "app.js", "server.ts", "server.js"]

/-- The files that answer requests. -/
def routeFiles : List String := ["route.ts", "route.js"]

/-- The files that render pages. -/
def pageFiles : List String := ["page.tsx", "page.jsx", "page.ts", "page.js"]

/-- The files that start workers. -/
def workerFiles : List String := ["worker.ts", "worker.js"]

/-- The files that start command-line programs. -/
def cliFiles : List String := ["cli.ts", "cli.js", "bin.ts", "bin.js"]

/-- The route after the first `app` of a directory path that is followed by nothing or by a slash
and one line, and whose rest `accepts` takes. -/
def routeAfterApp? (accepts : List Char → Bool) : List Char → Option (List Char)
  | [] => none
  | c :: cs =>
    match Text.dropStart? "app".toList (c :: cs) with
    | some route =>
      if accepts route then some route else routeAfterApp? accepts cs
    | none => routeAfterApp? accepts cs

/-- Whether a text is empty or a slash followed by characters on one line. -/
def isRouteTail : List Char → Bool
  | [] => true
  | c :: cs => c == '/' && !cs.contains '\n'

/-- Whether a route is `/api` or lies below it. -/
def isApiRoute (route : List Char) : Bool :=
  match Text.dropStart? "/api".toList route with
  | some tail => isRouteTail tail
  | none => false

/-- The name of a route or page file, from the directory that it lies in. -/
def routeName? (accepts : List Char → Bool) (path : String) : Option String := do
  let directory ← Text.beforeLast? '/' path
  let route ← routeAfterApp? accepts directory.toList
  some (String.ofList (Workflow.dropGroups route))

/-- The kind and the name of an entry point, if the path is that of one. -/
def entryPoint? (path : String) : Option (EntryKind × String) :=
  let path := Text.replaceChar '\\' '/' path
  let file := Text.afterLast '/' path
  let rooted := "/" ++ path
  let stem := (Files.cutSuffix (Files.baseName path)).1
  if routeFiles.contains file && Text.contains "/app/api/" rooted then
    some (.apiRoute, (routeName? isApiRoute path).getD stem)
  else if pageFiles.contains file && Text.contains "/app/" rooted &&
      !Text.contains "/api/" rooted then
    match routeName? isRouteTail path with
    | some "" => some (.page, "/")
    | some name => some (.page, name)
    | none => some (.page, stem)
  else if mainFiles.contains file && path.toList.count '/' < 2 then some (.main, stem)
  else if workerFiles.contains file then some (.worker, stem)
  else if cliFiles.contains file then some (.cli, stem)
  else none

end CodeSurvey.Architecture
