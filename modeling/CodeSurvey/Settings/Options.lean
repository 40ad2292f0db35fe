import CodeSurvey.Files.Walk
import CodeSurvey.Time.Duration

/-!
# Scan options

What a scan may be told: how deep and how much to read, what to leave out, how long an engine may
take, and whether to have documentation written.
-/

namespace CodeSurvey.Settings

open CodeSurvey
open CodeSurvey.Time (Seconds)

/-- The directory of a workspace that artifacts and settings are stored in. -/
def controlDirName : String := ".contextscan"

/-- The address of the documentation service. -/
def defaultDocsEndpoint : String := "http://localhost:3000/api/ai-documentation"

/-- The largest file that is read, in bytes. -/
def defaultMaxBytes : Nat := 1024 * 1024

/-- The largest manifest that is read, in bytes. -/
def maxManifestBytes : Nat := 1024 * 1024

/-- The largest description file that is read, in bytes. -/
def maxReadmeBytes : Nat := 10 * 1024

/-- The options of a scan. -/
structure Options where
  /-- Directories at this depth or deeper are not entered. -/
  maxDepth : Int := 10
  /-- Larger files are not read. -/
  maxFileBytes : Int := defaultMaxBytes
  /-- The denied names. -/
  denied : List String := Ignore.defaultDenied controlDirName
  /-- Whether the rules of the workspace's ignore file count. -/
  respectIgnoreFile : Bool := true
  /-- Whether symbolic links are followed. -/
  followLinks : Bool := true
  /-- How long an engine may take. -/
  engineTimeout : Seconds := .fractional 900.0
  /-- Whether documentation is written after the scan. -/
  generateDocs : Bool := false
  /-- The address of the documentation service. -/
  docsEndpoint : String := defaultDocsEndpoint
  /-- The beginnings of module names that stand for a place in the workspace. -/
  aliasStarts : List String := ["@/", "~"]

/-- What the options say about walking. -/
def Options.limits (o : Options) : Files.WalkLimits := ⟨o.maxDepth, o.followLinks⟩

/-- The name of a workspace's ignore file. -/
def ignoreFileName : String := ".gitignore"

/-- The matcher of a workspace under some options. An ignore file that cannot be read has no
rules. -/
def matcherOf (w : Files.Workspace) (o : Options) : Except Glob.PatternError Ignore.Matcher := do
  let text := if !o.respectIgnoreFile then ""
    else match w.bytes? [ignoreFileName] with
      | some bytes => Files.universalLines (Files.lenientText bytes)
      | none => ""
  let rules ← Ignore.rulesOf text
  pure ⟨rules, o.denied⟩

end CodeSurvey.Settings
