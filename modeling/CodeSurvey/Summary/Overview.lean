import CodeSurvey.Manifest.Info
import CodeSurvey.Summary.Readme
import CodeSurvey.Text.Case

/-!
# The overview of a code base

What manifests, file suffixes, build files and the description file tell about a code base: the
language of a file by its suffix and the shares of languages in per cent, frameworks and services
that dependencies give away, and build tools that files give away.
-/

namespace CodeSurvey.Summary

open CodeSurvey.Text

/-! ## Languages -/

/-- The suffixes of the languages that are counted. -/
def languageSuffixes : List (String × List String) :=
  [("TypeScript", [".ts", ".tsx", ".mts", ".cts"]), ("JavaScript", [".js", ".jsx", ".mjs", ".cjs"]),
   ("Python", [".py"]), ("Go", [".go"]), ("Rust", [".rs"]), ("Java", [".java"]),
   ("Kotlin", [".kt"]), ("Swift", [".swift"]), ("Ruby", [".rb"]), ("PHP", [".php"]),
   ("C#", [".cs"]), ("C++", [".cpp", ".cc", ".hpp"]), ("C", [".c", ".h"]), ("Scala", [".scala"]),
   ("Dart", [".dart"]), ("Vue", [".vue"]), ("Svelte", [".svelte"]), ("CSS", [".css"]),
   ("SCSS", [".scss", ".sass"]), ("Less", [".less"]), ("HTML", [".html"]), ("SQL", [".sql"]),
   ("Shell", [".sh", ".bash"])]

/-- The language of a suffix. -/
def languageOf? (suffix : String) : Option String :=
  (languageSuffixes.find? fun l => l.2.contains suffix).map (·.1)

/-- How often each language occurs, in the order of first occurrence. -/
def tally (languages : List String) : List (String × Int) :=
  (Text.distinct languages).map fun l => (l, (languages.count l : Nat))

/-- The per cent that a count is of a total, rounded; a half is rounded up. -/
def percent (count total : Int) : Int := Int.fdiv (200 * count + total) (2 * total)

/-- The shares of the languages in per cent, the most frequent first; nothing if the total is
zero. -/
def shares (counts : List (String × Int)) : List (String × Int) :=
  let total := (counts.map (·.2)).foldl (· + ·) 0
  if total = 0 then []
  else
    ((counts.mergeSort fun a b => b.2 ≤ a.2).filter fun c => c.2 != 0).map fun c =>
      (c.1, percent c.2 total)

/-! ## Technologies -/

/-- A technology and what gives it away: the name of a dependency, or the beginning of one if the
pattern ends in a slash; for some also a part of a name. -/
structure Technology where
  name : String
  patterns : List String
  parts : List String := []

/-- Whether a dependency fits a pattern. -/
def fits (dependency pattern : String) : Bool :=
  if hasEnd "/" pattern then hasStart pattern dependency else dependency == pattern

/-- Whether dependencies, in small letters, give a technology away. -/
def Technology.isUsedBy (t : Technology) (dependencies : List String) : Bool :=
  dependencies.any fun d => t.patterns.any (fits d ·) || t.parts.any (contains · d)

/-- The technologies of a table that dependencies give away, in the order of the table. -/
def detect (table : List Technology) (dependencies : List String) : List String :=
  let lowered := dependencies.map lower
  (table.filter (·.isUsedBy lowered)).map (·.name)

/-- The frameworks that are looked for. -/
def frameworkTable : List Technology :=
  [⟨"Next.js", ["next"], []⟩, ⟨"React", ["react", "react-dom"], []⟩,
   ⟨"Remix", ["@remix-run/"], []⟩, ⟨"Vue", ["vue"], []⟩, ⟨"Nuxt", ["nuxt"], []⟩,
   ⟨"Angular", ["@angular/core", "@angular/"], []⟩, ⟨"Svelte", ["svelte"], []⟩,
   ⟨"SvelteKit", ["@sveltejs/kit"], []⟩, ⟨"Express", ["express"], []⟩,
   ⟨"Fastify", ["fastify"], []⟩, ⟨"NestJS", ["@nestjs/core", "@nestjs/"], []⟩,
   ⟨"Hono", ["hono"], []⟩, ⟨"Prisma", ["@prisma/client", "prisma"], []⟩,
   ⟨"Drizzle", ["drizzle-orm"], []⟩, ⟨"tRPC", ["@trpc/"], []⟩,
   ⟨"Tailwind CSS", ["tailwindcss"], []⟩, ⟨"Django", ["django"], []⟩, ⟨"Flask", ["flask"], []⟩,
   ⟨"FastAPI", ["fastapi"], []⟩, ⟨"SQLAlchemy", ["sqlalchemy"], []⟩,
   ⟨"Gin", ["github.com/gin-gonic/gin"], []⟩, ⟨"Echo", ["github.com/labstack/echo/"], []⟩,
   ⟨"Fiber", ["github.com/gofiber/fiber/"], []⟩, ⟨"Actix", ["actix-web"], []⟩,
   ⟨"Axum", ["axum"], []⟩, ⟨"Tokio", ["tokio"], []⟩]

/-- The services that are looked for. -/
def serviceTable : List Technology :=
  [⟨"Anthropic", ["@anthropic-ai/"], ["anthropic"]⟩, ⟨"OpenAI", [], ["openai"]⟩,
   ⟨"Vercel AI", ["ai", "@ai-sdk/"], []⟩, ⟨"Stripe", ["@stripe/"], ["stripe"]⟩,
   ⟨"AWS", ["aws-sdk", "@aws-sdk/", "boto3"], []⟩,
   ⟨"Google Cloud", ["@google-cloud/"], ["google-cloud"]⟩, ⟨"Firebase", [], ["firebase"]⟩,
   ⟨"Supabase", ["@supabase/"], ["supabase"]⟩, ⟨"Twilio", [], ["twilio"]⟩,
   ⟨"SendGrid", ["@sendgrid/"], ["sendgrid"]⟩, ⟨"Resend", ["resend"], []⟩,
   ⟨"Clerk", ["@clerk/"], []⟩, ⟨"Auth0", ["@auth0/", "auth0"], []⟩]

/-- The files in the root of a workspace that give a build tool away. -/
def buildToolFiles : List (String × String) :=
  [("vite.config.ts", "Vite"), ("vite.config.js", "Vite"), ("webpack.config.js", "Webpack"),
   ("rollup.config.js", "Rollup"), ("next.config.js", "Next.js"), ("next.config.mjs", "Next.js"),
   ("next.config.ts", "Next.js"), ("tsconfig.json", "TypeScript"), ("babel.config.js", "Babel"),
   (".babelrc", "Babel"), ("turbo.json", "Turborepo"), ("Makefile", "Make"),
   ("Dockerfile", "Docker"), ("docker-compose.yml", "Docker Compose"), ("Cargo.toml", "Cargo"),
   ("go.mod", "Go Modules"), ("pyproject.toml", "Python (pyproject)"), ("setup.py", "setuptools"),
   ("pom.xml", "Maven"), ("build.gradle", "Gradle")]

/-- The build tools whose files are there. -/
def buildTools (isThere : String → Bool) : List String :=
  distinct ((buildToolFiles.filter fun f => isThere f.1).map (·.2))

/-! ## The overview -/

/-- The overview of a code base. -/
structure Overview where
  name : String
  /-- The shares of the languages in per cent, the largest first. -/
  languages : List (String × Int)
  frameworks : List String
  services : List String
  buildTools : List String
  dependencies : List String
  devDependencies : List String
  version : Option String
  description : Option String
  purpose : String
  deriving Repr, DecidableEq

/-- The language of most files. -/
def Overview.primaryLanguage (o : Overview) : String :=
  match o.languages with
  | (l, _) :: _ => l
  | [] => "Unknown"

/-- The number of different dependencies. -/
def Overview.dependencyCount (o : Overview) : Nat :=
  (Text.distinct (o.dependencies ++ o.devDependencies)).length

/-- The value of an overview. -/
def Overview.toJson (o : Overview) : Json :=
  Json.record [("name", some (.str o.name)), ("primaryLanguage", some (.str o.primaryLanguage)),
    ("languages", some (.obj (o.languages.map fun l => (l.1, .int l.2)))),
    ("frameworks", some (Json.texts o.frameworks)), ("apis", some (Json.texts o.services)),
    ("buildTools", some (Json.texts o.buildTools)),
    ("dependencies", some (Json.texts o.dependencies)),
    ("devDependencies", some (Json.texts o.devDependencies)),
    ("dependencyCount", some (Json.count o.dependencyCount)), ("version", o.version.map .str),
    ("description", o.description.map .str), ("purpose", some (.str o.purpose))]

/-- The overview that manifests, the languages of the files, the build tools and the purpose
give. -/
def Overview.of (workspaceName : String) (info : Manifest.Info) (languages : List String)
    (buildTools : List String) (purpose : String) : Overview :=
  let all := info.dependencies ++ info.devDependencies
  { name := (info.name.filter (!·.isEmpty)).getD workspaceName
    languages := shares (tally languages)
    frameworks := detect frameworkTable all, services := detect serviceTable all, buildTools
    dependencies := info.dependencies, devDependencies := info.devDependencies
    version := info.version, description := info.description, purpose }

end CodeSurvey.Summary
