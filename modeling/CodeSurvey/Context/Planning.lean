import CodeSurvey.Planning.Records
import CodeSurvey.Research.Session
import CodeSurvey.Text.Blank

/-!
# Planning documents as context

The texts that tell an assistant what is required, what is to be done and what was found out.
-/

namespace CodeSurvey.Context

open CodeSurvey.Planning CodeSurvey.Research

/-- The requirements, if there are any. -/
def requirementsText (r : Option Requirements) : String :=
  match r.map fun r => Text.strip r.text with
  | none | some "" => ""
  | some text => "## Requirements\n" ++ text

/-- A box that is ticked or not. -/
def box (ticked : Bool) : String := if ticked then "- [x] " else "- [ ] "

/-- Lines under a heading and an empty line; nothing if there are no lines. -/
def block (heading : String) (lines : List String) : List String :=
  if lines.isEmpty then [] else heading :: lines ++ [""]

/-- One task as a request, after a summary of the code base if there is one. -/
def taskText (summary : String) (t : Task) : String :=
  Text.join "\n" <|
    (if summary.isEmpty then [] else ["## Codebase Context", summary, ""]) ++
    ["## Current Task", "**" ++ t.title ++ "**"] ++
    (if t.description.isEmpty then [] else [t.description]) ++ [""] ++
    block "## Subtasks" (t.subtasks.map fun s => box s.completed ++ s.title) ++
    block "## Acceptance Criteria" (t.criteria.map ("- " ++ ·)) ++
    ["Help me implement this task."]

/-- How many steps of a task are done. -/
def progressText (t : Task) : String :=
  if t.subtasks.isEmpty then ""
  else
    " (" ++ toString (t.subtasks.filter (·.completed)).length ++ "/" ++
      toString t.subtasks.length ++ " subtasks)"

/-- The list of tasks, if there are any. -/
def tasksText (ts : List Task) : String :=
  if ts.isEmpty then ""
  else
    Text.join "\n" ("## Tasks" :: ts.map fun t => box t.completed ++ t.title ++ progressText t)

/-- A research session with those of its findings that matter. -/
def researchText (s : Session) : String :=
  "## Research Summary\n" ++ s.summary ++ "\n\n## Key Findings\n" ++
    Text.join "\n" ((s.findings.filter (·.relevance != .low)).map fun f =>
      "- **" ++ f.title ++ "** (" ++ f.category.name ++ "): " ++ f.content)

end CodeSurvey.Context
