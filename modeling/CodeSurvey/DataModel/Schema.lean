import CodeSurvey.DataModel.Entity
import CodeSurvey.Text.Blank
import CodeSurvey.Text.Case

/-!
# Database schemas

The models and enumerations of a schema in the Prisma language. A block begins with its word and
name at the start of a line and ends at the brace that closes it; a block that is never closed
declares nothing.
-/

namespace CodeSurvey.DataModel.Schema

open CodeSurvey.Text

/-- The two sorts of block that declare something. -/
inductive BlockKind where
  | model
  | enum
  deriving Repr, DecidableEq

/-- A block: its name and what stands between its braces. -/
structure Block where
  kind : BlockKind
  name : List Char
  body : List Char
  deriving Repr, DecidableEq

/-- The sort and name of the block that begins at the front of a text, and what follows its
opening brace. -/
def header? (cs : List Char) : Option (BlockKind × List Char × List Char) := do
  let (kind, rest) ← match dropStart? "model".toList cs with
    | some rest => some (BlockKind.model, rest)
    | none => (dropStart? "enum".toList cs).map fun rest => (BlockKind.enum, rest)
  guard (rest.head?.any isBlank)
  let (name, rest) := (rest.dropWhile isBlank).span isWord
  guard (!name.isEmpty)
  match rest.dropWhile isBlank with
  | '\x7b' :: rest => some (kind, name, rest)
  | _ => none

/-- The text up to the brace that closes `depth` open ones; `none` if there is no such brace. The
text read so far is held in reverse. -/
def body? (depth : Nat) (passed : List Char) : List Char → Option (List Char)
  | [] => none
  | c :: rest =>
    if c = '\x7b' then body? (depth + 1) (c :: passed) rest
    else if c = '\x7d' then
      match depth with
      | 0 | 1 => some passed.reverse
      | d + 2 => body? (d + 1) (c :: passed) rest
    else body? depth (c :: passed) rest

/-- The blocks of a text. The flag tells whether only blanks stand before the text in its line.
Blocks are also looked for inside blocks. -/
def blocksFrom (atLineStart : Bool) : List Char → List Block
  | [] => []
  | c :: rest =>
    if c = '\n' then blocksFrom true rest
    else if isBlank c then blocksFrom atLineStart rest
    else
      let found := if atLineStart then header? (c :: rest) else none
      let block := found.bind fun (kind, name, after) =>
        (body? 1 [] after).map fun body => Block.mk kind name body
      block.toList ++ blocksFrom false rest

/-- The blocks of a text, in order. -/
def blocks (text : String) : List Block := blocksFrom true text.toList

/-- The lines of a block that declare something: blank lines, comments and settings of the whole
block do not. -/
def bodyLines (body : List Char) : List (List Char) :=
  ((lineLists body).map stripBlanks).filter fun line =>
    !line.isEmpty && !"//".toList.isPrefixOf line && !"@@".toList.isPrefixOf line

/-- The types of the language that are no entities, with the types they stand for. -/
def scalarTypes : List (String × String) :=
  [("String", "string"), ("Int", "number"), ("Float", "number"), ("Boolean", "boolean"),
   ("DateTime", "Date"), ("Json", "object"), ("Bytes", "Buffer"), ("BigInt", "bigint"),
   ("Decimal", "number")]

/-- The field that a line declares: its name, its type, and the marks of a list and of a value
that may be missing. -/
def fieldOfLine? (line : List Char) : Option Field := do
  let (name, rest) := line.span isWord
  guard (!name.isEmpty && rest.head?.any isBlank)
  let (type, rest) := (rest.dropWhile isBlank).span isWord
  let first ← type.head?
  let (isArray, rest) := match rest with
    | '[' :: ']' :: rest => (true, rest)
    | rest => (false, rest)
  let type := String.ofList type
  let scalar? := (scalarTypes.find? (·.1 == type)).map (·.2)
  return { name := String.ofList name, type := scalar?.getD type
           optional := rest.head? == some '?', isArray
           isRelation := hasPart "@relation".toList line || (scalar?.isNone && isUpper first) }

/-- The entity of a model block. -/
def Block.entity (path : Option String) (b : Block) : Entity :=
  { name := String.ofList b.name, fields := (bodyLines b.body).filterMap fieldOfLine?
    origin := .schema, path }

/-- The enumeration of an enumeration block: the first word of each line is a value. -/
def Block.enumeration (path : Option String) (b : Block) : Enumeration :=
  { name := String.ofList b.name
    values := (bodyLines b.body).filterMap fun line =>
      (wordLists line).head?.map String.ofList
    origin := .schema, path }

/-- The entities and enumerations that a schema declares, each in order. -/
def declarations (path : Option String) (text : String) : List Entity × List Enumeration :=
  let all := blocks text
  ((all.filter (·.kind == .model)).map (Block.entity path),
    (all.filter (·.kind == .enum)).map (Block.enumeration path))

/-- Where a schema may lie in a workspace; the first that is there counts. -/
def places : List (List String) := [["prisma", "schema.prisma"], ["schema.prisma"]]

end CodeSurvey.DataModel.Schema
