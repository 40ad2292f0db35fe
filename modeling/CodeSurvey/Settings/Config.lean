import CodeSurvey.Json.Display
import CodeSurvey.Settings.Options
import CodeSurvey.Toml.Reader
import CodeSurvey.Toml.Writer

/-!
# Configuration

The options that a workspace's settings file sets. Values are taken as they stand, whatever their
sort; unknown keys are passed over, and further denied names are added to those that hold.
-/

namespace CodeSurvey.Settings

open CodeSurvey Toml
open CodeSurvey.Time (Seconds)

/-- The values of the options by their names, in the order in which they are written. -/
structure Config where
  /-- The names with the values. -/
  values : List (String × Value)

/-- A list of texts as a value. -/
def texts (xs : List String) : Value := .array (xs.map .str)

/-- The default values. -/
def Config.default : Config :=
  let o : Options := {}
  ⟨[("max_depth", .int o.maxDepth), ("max_file_bytes", .int o.maxFileBytes),
    ("exclude_patterns", texts o.denied), ("respect_gitignore", .bool o.respectIgnoreFile),
    ("follow_symlinks", .bool o.followLinks), ("engine_timeout", .float 900.0),
    ("generate_docs", .bool o.generateDocs), ("docs_endpoint", .str o.docsEndpoint),
    ("alias_prefixes", texts o.aliasStarts)]⟩

/-- The value of an option. -/
def Config.get (c : Config) (name : String) : Value :=
  match c.values.find? (·.1 == name) with
  | some (_, v) => v
  | none => .none

/-- The configuration with an option set; a name that is no option's changes nothing. -/
def Config.set (c : Config) (name : String) (v : Value) : Config :=
  ⟨c.values.map fun e => if e.1 == name then (name, v) else e⟩

/-- The key whose names are added to the denied ones. -/
def extraKey : String := "extra_excludes"

/-- The option that holds the denied names. -/
def deniedKey : String := "exclude_patterns"

/-- Why a configuration has no options. -/
inductive ConfigError where
  /-- The section of the options is no table. -/
  | sectionNotTable
  /-- Names are added to denied names that are no list. -/
  | deniedNotList
  /-- The file is not text in UTF-8. -/
  | notText
  /-- The file cannot be read as settings for a reason that is not told as such. -/
  | unreadable (e : ReadError)
  deriving Repr, DecidableEq

/-- The configuration after one entry of the section. -/
def Config.apply (c : Config) (key : String) (v : Value) : Except ConfigError Config :=
  match key == extraKey, v with
  | true, .array extra =>
    match c.get deniedKey with
    | .array denied =>
      .ok (c.set deniedKey (.array (denied ++ extra.map fun x => .str x.toJson.display)))
    | _ => .error .deniedNotList
  | _, _ => .ok (c.set key v)

/-- The configuration that a section describes. -/
def ofSection (v : Value) : Except ConfigError Config :=
  match v with
  | .table entries => entries.foldlM (fun c e => c.apply e.1 e.2) Config.default
  | _ => .error .sectionNotTable

/-- The path of the settings file in a workspace. -/
def configPath : Files.Path := [controlDirName, "config.toml"]

/-- The configuration of the bytes of a settings file. A file that breaks the rules of the format
sets nothing. -/
def ofBytes (bytes : ByteArray) : Except ConfigError Config :=
  match Files.utf8? bytes with
  | none => .error .notText
  | some text =>
    match Toml.read (Files.universalLines text) with
    | .error .malformed => .ok Config.default
    | .error e => .error (.unreadable e)
    | .ok root => ofSection ((root.get? "scan").getD (.table []))

/-- The configuration of a workspace. Without a settings file that can be read it is the default
one. -/
def load (w : Files.Workspace) : Except ConfigError Config :=
  match w.bytes? configPath with
  | some bytes => ofBytes bytes
  | none => .ok Config.default

/-- The text of a settings file for a configuration, with further tables and values; these replace
the options if they have the same name. -/
def Config.fileText (c : Config) (extra : List (String × Value)) : Except ReadError String :=
  Toml.write (.table (extra.foldl (fun es e => Value.putEntry e.1 e.2 es)
    [("scan", .table c.values)]))

/-- Why a value cannot be used as an option. -/
inductive OptionError where
  /-- A value of this sort cannot be used here. -/
  | wrongSort (option : String)
  deriving Repr, DecidableEq

/-- Whether a value counts as true. -/
def isTruthy (v : Value) : Bool :=
  match v with
  | .moment _ => true
  | v => v.toJson.isTruthy

/-- A whole number; a truth value counts as one or zero. -/
def whole? (option : String) : Value → Except OptionError Int
  | .int n => .ok n
  | .bool b => .ok (if b then 1 else 0)
  | _ => .error (.wrongSort option)

/-- A list of texts; a text counts as the list of its characters. -/
def texts? (option : String) : Value → Except OptionError (List String)
  | .array items => items.mapM fun
    | .str s => .ok s
    | _ => .error (.wrongSort option)
  | .str s => .ok (s.toList.map fun c => String.ofList [c])
  | .table entries => .ok (entries.map (·.1))
  | _ => .error (.wrongSort option)

/-- The options that a configuration sets. -/
def Config.options (c : Config) : Except OptionError Options := do
  let maxDepth ← whole? "max_depth" (c.get "max_depth")
  let maxFileBytes ← whole? "max_file_bytes" (c.get "max_file_bytes")
  let denied ← match c.get deniedKey with
    | .none => pure (Ignore.defaultDenied controlDirName)
    | v => texts? deniedKey v
  let engineTimeout ← match c.get "engine_timeout" with
    | .float x => pure (Seconds.fractional x)
    | v => Seconds.whole <$> whole? "engine_timeout" v
  let aliasStarts ← texts? "alias_prefixes" (c.get "alias_prefixes")
  pure
    { maxDepth
      maxFileBytes
      denied
      respectIgnoreFile := isTruthy (c.get "respect_gitignore")
      followLinks := isTruthy (c.get "follow_symlinks")
      engineTimeout
      generateDocs := isTruthy (c.get "generate_docs")
      docsEndpoint := (c.get "docs_endpoint").toJson.display
      aliasStarts }

end CodeSurvey.Settings
