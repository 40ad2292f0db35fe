import CodeSurvey.Text.Basic

/-!
# Routes from file paths

A file under an application directory stands for a route. Directory names in round brackets group
files and are no part of the route; the file name and its suffix are dropped.
-/

namespace CodeSurvey.Workflow

open CodeSurvey

/-- The rest after a route group `/(name)` at the front, if there is one. -/
def dropGroup? : List Char → Option (List Char)
  | '/' :: '(' :: rest =>
    match rest.dropWhile fun c => c != '/' && c != ')' with
    | ')' :: after => some after
    | _ => none
  | _ => none

/-- A path without its route groups; `fuel` is at least its length. -/
def dropGroupsFrom : Nat → List Char → List Char
  | 0, cs => cs
  | _ + 1, [] => []
  | fuel + 1, c :: cs =>
    match dropGroup? (c :: cs) with
    | some rest => dropGroupsFrom fuel rest
    | none => c :: dropGroupsFrom fuel cs

/-- A path without its route groups. -/
def dropGroups (cs : List Char) : List Char := dropGroupsFrom cs.length cs

/-- A text cut before a line feed at its very end. -/
def cutLastFeed (cs : List Char) : List Char × List Char :=
  match cs.reverse with
  | '\n' :: before => (before.reverse, ['\n'])
  | _ => (cs, [])

/-- A text without one of the given endings, the first that it has; a line feed after the ending
stays. -/
def dropEnding (endings : List String) (cs : List Char) : List Char :=
  let (body, feed) := cutLastFeed cs
  match endings.find? fun e => e.toList.isSuffixOf body with
  | some e => body.take (body.length - e.length) ++ feed
  | none => cs

/-- The suffixes of route files. -/
def scriptEndings : List String := [".js", ".ts", ".jsx", ".tsx"]

/-- The file names that stand for their directory, after a slash. -/
def routeEndings : List String :=
  ["/route", "/index"].flatMap fun name => scriptEndings.map (name ++ ·)

/-- The directories that routes lie under; the first that a path begins with is dropped. -/
def routeRoots : List String := ["src/app/", "src/pages/", "app/", "pages/"]

/-- The endpoint of a route file: the path below its root without file name, suffix and groups,
under `/api`. -/
def endpointOf (path : String) : String :=
  let cs := path.toList
  let below := ((routeRoots.filterMap fun r => Text.dropStart? r.toList cs).head?).getD cs
  let named := dropEnding scriptEndings (dropEnding routeEndings ('/' :: below))
  let route := Text.dropEndWhile (· == '/') (dropGroups named)
  if "/api".toList.isPrefixOf route then String.ofList route
  else String.ofList ("/api".toList ++ route)

/-- The resource of an endpoint: its first segment that is not `api`. -/
def resourceOf (endpoint : String) : String :=
  (((Text.split endpoint '/').filter fun s => !s.isEmpty && s != "api").head?).getD "root"

end CodeSurvey.Workflow
