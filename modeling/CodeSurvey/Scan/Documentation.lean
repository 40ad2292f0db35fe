import CodeSurvey.Scan.Stage

/-!
# The documentation pass of a scan

After the stages the complete artifacts are described one after the other. Whatever goes wrong is
noted; the artifacts themselves stay as they are.
-/

namespace CodeSurvey.Scan

open CodeSurvey.Artifact CodeSurvey.Storage

/-- The name that a content gives for the project. -/
def nameIn (content : String) : Except Json.ReadError (Option String) :=
  match Json.read content with
  | .ok j => .ok ((j.getStr? "name").filter (!·.isEmpty))
  | .error (.malformed ..) => .ok none
  | .error e => .error e

/-- The name of the project: that of the complete summary, or else that of the workspace. -/
def projectName (workspaceName : String) (r : Report) : Except Json.ReadError String :=
  match (r.core? .summary).filter (!·.incomplete) with
  | some summary => (nameIn summary.content).map fun name => name.getD workspaceName
  | none => .ok workspaceName

/-- What is noted when the service is not there. -/
def serviceMissing : String :=
  "Documentation API not available. Skipping documentation generation."

/-- Describes the artifact of a kind, if it was made and is complete. -/
def describe (p : Plan) (service : DocsService) (project : String) (k : DocsKind) (r : Report) :
    StoreAction Report := do
  match (r.core? k.source).filter (!·.incomplete) with
  | none => return r
  | some source =>
    let kind := Kind.docs k
    let now ← StoreAction.nowText
    let r := r.tell p.observer
      ⟨kind.name, 100, "Generating " ++ k.source.name ++ " documentation"⟩
    let r := { r with described := r.described ++ [(k, project)] }
    let (made, r) := match service.describe k source.content project with
      | .ok d =>
        ({ kind, content := d.markdown, madeAt := d.writtenAt, fileCount := source.fileCount }, r)
      | .error f =>
        (placeholder kind ("# Documentation Generation Failed\n\n" ++ f.text ++ "\n") now,
          r.addError kind.name f.message)
    let r ← storeNoted made r
    return r.addArtifact made

/-- Describes the artifacts of several kinds. -/
def describeAll (p : Plan) (service : DocsService) (project : String) :
    List DocsKind → Report → StoreAction Report
  | [], r => return r
  | k :: ks, r => do describeAll p service project ks (← describe p service project k r)

/-- The documentation pass. -/
def documentation (p : Plan) (service : DocsService) (r : Report) : StoreAction Report := do
  match service.isThere with
  | .ok true =>
    match projectName (workspaceOf (← get)).name r with
    | .ok project => describeAll p service project DocsKind.all r
    | .error e => throw (.outOfBounds e)
  | _ => return r.addError (Kind.docs .summary).name serviceMissing

end CodeSurvey.Scan
