import CodeSurvey.Text.Case

/-!
# Paths and file names

A path is written with slashes; empty parts and parts that are a single point say nothing. The
last part is the file's name, and the name's last point, unless it begins or ends the name,
separates the stem from the suffix.
-/

namespace CodeSurvey.Files

open CodeSurvey

/-- The parts of a path that say something. -/
def pathParts (path : String) : List String :=
  (Text.split path '/').filter fun p => !p.isEmpty && p != "."

/-- The parts of a path as a text. -/
def pathText (parts : List String) : String := Text.join "/" parts

/-- A path without the parts that say nothing: a path from the root keeps its slash, or two if it
begins with two, and a path that says nothing at all is a point. -/
def plainPath (path : String) : String :=
  let slashes := (path.toList.takeWhile (· == '/')).length
  let start := if slashes = 0 then "" else if slashes = 2 then "//" else "/"
  let text := start ++ pathText (pathParts path)
  if text.isEmpty then "." else text

/-- The last part of a path, or the empty text. -/
def baseName (path : String) : String := ((pathParts path).getLast?).getD ""

/-- The stem and the suffix of a file name; the suffix begins with its point. -/
def cutSuffix (name : String) : String × String :=
  let cs := name.toList.reverse
  let ending := cs.takeWhile (· != '.')
  match cs.dropWhile (· != '.') with
  | [] => (name, "")
  | _ :: stem =>
    if ending.isEmpty || stem.isEmpty then (name, "")
    else (String.ofList stem.reverse, String.ofList ('.' :: ending.reverse))

/-- The suffix of a file name in lower case. -/
def suffixOf (name : String) : String := Text.lower (cutSuffix name).2

/-- The suffix of a path's file name in lower case. -/
def pathSuffix (path : String) : String := suffixOf (baseName path)

/-- The suffixes of files whose content is no text. -/
def binarySuffixes : List String :=
  [".png", ".jpg", ".jpeg", ".gif", ".bmp", ".ico", ".webp", ".tiff", ".psd",
   ".zip", ".tar", ".gz", ".tgz", ".bz2", ".xz", ".7z", ".rar", ".jar",
   ".woff", ".woff2", ".ttf", ".otf", ".eot",
   ".mp3", ".mp4", ".wav", ".ogg", ".flac", ".avi", ".mov", ".webm", ".mkv",
   ".exe", ".dll", ".so", ".dylib", ".bin", ".o", ".a", ".class", ".pyc",
   ".wasm", ".node", ".sqlite", ".db", ".pdf", ".doc", ".docx", ".xls", ".xlsx"]

/-- Whether a file's content is no text, by its name. -/
def isBinaryName (name : String) : Bool := binarySuffixes.contains (suffixOf name)

/-- The languages whose sources are parsed. -/
inductive ScriptLanguage where
  | typescript
  | tsx
  | javascript
  deriving Repr, DecidableEq

/-- The name of a language. -/
def ScriptLanguage.name : ScriptLanguage → String
  | typescript => "typescript"
  | tsx => "tsx"
  | javascript => "javascript"

/-- The suffixes of the sources that are parsed, with their languages. -/
def scriptSuffixes : List (String × ScriptLanguage) :=
  [(".ts", .typescript), (".mts", .typescript), (".cts", .typescript), (".tsx", .tsx),
   (".js", .javascript), (".jsx", .javascript), (".mjs", .javascript), (".cjs", .javascript)]

/-- The language of a source by its path. -/
def scriptLanguage? (path : String) : Option ScriptLanguage :=
  (scriptSuffixes.find? (·.1 == pathSuffix path)).map (·.2)

/-- The suffixes of the files that count as code. -/
def codeSuffixes : List String := [".ts", ".tsx", ".js", ".jsx", ".mjs", ".cjs"]

end CodeSurvey.Files
