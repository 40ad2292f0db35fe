import CodeSurvey.Context.Planning
import CodeSurvey.Main
import CodeSurvey.Storage.Planning
import CodeSurvey.Storage.Research
import CodeSurvey.Proofs.Ignore.Decision
import CodeSurvey.Proofs.Json.Reading
import CodeSurvey.Proofs.Json.RoundTrip
import CodeSurvey.Proofs.Files.Content
import CodeSurvey.Proofs.Artifact.Stored
import CodeSurvey.Proofs.Records.Recovery
import CodeSurvey.Proofs.Files.Route
import CodeSurvey.Proofs.Files.Walk
import CodeSurvey.Proofs.Scan.Isolation
import CodeSurvey.Proofs.Storage.Failure
import CodeSurvey.Proofs.Storage.Modes
import CodeSurvey.Proofs.Storage.Survival
import CodeSurvey.Proofs.Research.Session
import CodeSurvey.Proofs.Storage.History
import CodeSurvey.Proofs.Files.Agreement
import CodeSurvey.Proofs.Scan.Documentation
import CodeSurvey.Proofs.Survey.Exclusion
import CodeSurvey.Proofs.Storage.Absence
import CodeSurvey.Survey.Surveyor
import CodeSurvey.Proofs.Survey.Changes
import CodeSurvey.Proofs.Survey.Repetition
import CodeSurvey.Proofs.Files.Shelter
import CodeSurvey.Proofs.Scan.Upkeep
import CodeSurvey.Proofs.Terminal.Command
import CodeSurvey.Proofs.Terminal.Comparison
import CodeSurvey.Proofs.Storage.Retention
import CodeSurvey.Proofs.Files.Visits
import CodeSurvey.Proofs.Files.Aliases
import CodeSurvey.Proofs.Scan.Accounts
import CodeSurvey.Proofs.Files.Depth
import CodeSurvey.Proofs.Ignore.Reading
import CodeSurvey.Proofs.Ignore.Reference
import CodeSurvey.Proofs.Scan.Rules
import CodeSurvey.Proofs.Survey.Counts
import CodeSurvey.Proofs.Files.Restriction
import CodeSurvey.Proofs.Calls.Traversal
import CodeSurvey.Proofs.Calls.Order
import CodeSurvey.Proofs.Workflow.Locality
import CodeSurvey.Proofs.Workflow.Grouping
import CodeSurvey.Proofs.Architecture.EntryPoint
import CodeSurvey.Proofs.DataModel.Multiplicity
import CodeSurvey.Proofs.Survey.DataModel
import CodeSurvey.Proofs.DataModel.SchemaReading
import CodeSurvey.Proofs.DataModel.SchemaComments
import CodeSurvey.Proofs.DataModel.ArrayMark
import CodeSurvey.Proofs.DataModel.TypeNesting
import CodeSurvey.Proofs.DataModel.UnionOrder
import CodeSurvey.Proofs.Architecture.RouteGroups
import CodeSurvey.Proofs.Calls.ExportedNames
import CodeSurvey.Proofs.Calls.StatementOrder
import CodeSurvey.Proofs.Manifest.Merging
import CodeSurvey.Proofs.Manifest.ModuleRequirements
import CodeSurvey.Proofs.Settings.Loading
import CodeSurvey.Proofs.Settings.KeyOrder
import CodeSurvey.Proofs.Time.NormalForm
import CodeSurvey.Proofs.Storage.Kinds
import CodeSurvey.Proofs.Survey.Directory
import CodeSurvey.Proofs.Survey.Architecture
import CodeSurvey.Proofs.Context.Codebase
import CodeSurvey.Proofs.Docs.Client
import CodeSurvey.Proofs.Workflow.Category
import CodeSurvey.Proofs.Architecture.Layer
import CodeSurvey.Proofs.Directory.Size
import CodeSurvey.Proofs.Summary.Readme
