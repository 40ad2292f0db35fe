import CodeSurvey.Decimal.Layout
import CodeSurvey.Json.Display
import CodeSurvey.Toml.Scan
import CodeSurvey.Toml.Value

/-!
# Writing settings files

The plain values of a table come first, then its arrays of tables, then the tables below it, each
under its heading and level by level.
-/

namespace CodeSurvey.Toml

open CodeSurvey Text

/-- The pieces of a text between the hexadecimal escapes of single bytes. -/
def byteEscapePieces : List Char → List (List Char)
  | '\\' :: 'x' :: rest => [] :: byteEscapePieces rest
  | c :: rest =>
    match byteEscapePieces rest with
    | p :: ps => (c :: p) :: ps
    | [] => [[c]]
  | [] => [[]]

/-- A text whose doubled backslashes are made single. -/
def halveBackslashes : List Char → List Char
  | '\\' :: '\\' :: rest => '\\' :: halveBackslashes rest
  | c :: rest => c :: halveBackslashes rest
  | [] => []

/-- The pieces between byte escapes put together: the escape becomes one of four digits after a
piece that ends in a backslash, and a bare letter otherwise. -/
def joinByteEscapes : List Char → List (List Char) → Except ReadError (List Char)
  | first, [] => .ok first
  | [], second :: rest =>
    match rest with
    | [] => .error .truncated
    | third :: rest => joinByteEscapes (joined second third) rest
  | first, second :: rest => joinByteEscapes (joined first second) rest
where
  /-- Two pieces with the escape between them. -/
  joined (first second : List Char) : List Char :=
    let first := halveBackslashes first
    let slashes := (first.reverse.takeWhile (· == '\\')).length
    let last := first.getLast? != some '\\'
    let flips := if slashes = first.length then slashes - 1 else slashes
    let plain := last != (flips % 2 == 1)
    first ++ (if plain then ['x'] else ['u', '0', '0']) ++ second

/-- A text between double quotes. -/
def quoteText (cs : List Char) : Except ReadError (List Char) :=
  let quote := quoteOf cs
  let inner := cs.flatMap (literalChar quote)
  let inner := if quote = '\'' then respell inner else inner
  match byteEscapePieces inner with
  | [] => .ok ['"', '"']
  | first :: rest => (joinByteEscapes first rest).map fun t => '"' :: t ++ ['"']
where
  /-- Takes the backslashes from single quotes and gives one to double quotes. -/
  respell : List Char → List Char
    | '\\' :: '\'' :: rest => '\'' :: respell rest
    | '"' :: rest => '\\' :: '"' :: respell rest
    | c :: rest => c :: respell rest
    | [] => []

/-- The text of a fractional number: its exponent has no leading zero. -/
def fractionText (x : Float) : String :=
  let cs := (Decimal.floatText x).toList
  String.ofList (go cs)
where
  /-- Drops the zero after the sign of an exponent. -/
  go : List Char → List Char
    | 'e' :: '+' :: '0' :: rest => 'e' :: '+' :: rest
    | 'e' :: '-' :: '0' :: rest => 'e' :: '-' :: rest
    | c :: rest => c :: go rest
    | [] => []

/-- A key as it is written: with quotes if it has characters that need them. -/
def keyText (key : String) : Except ReadError String :=
  let cs := key.toList
  let cs := match cs.reverse with
    | '\n' :: before => before.reverse
    | _ => cs
  if !cs.isEmpty && cs.all fun c => (c.toNat < 128 && c.isAlphanum) || c == '_' || c == '-' then
    .ok key
  else (quoteText key.toList).map String.ofList

/-- A point in time as it is written. -/
def momentText (m : Moment) : String :=
  match m with
  | .both d c (some 0) => (Moment.both d c none).textWith "T" ++ "Z"
  | m => m.textWith "T"

mutual

/-- A value on one line. A table inside an array is written as the array of its keys. -/
def inlineText : Value → Except ReadError String
  | .none => .ok "\"None\""
  | .str s => (quoteText s.toList).map String.ofList
  | .int n => .ok (toString n)
  | .float x => .ok (fractionText x)
  | .bool b => .ok (if b then "true" else "false")
  | .moment m => .ok (momentText m)
  | .array items => (inlineItems items).map fun t => "[" ++ t ++ "]"
  | .table entries => (inlineKeys entries).map fun t => "[" ++ t ++ "]"

/-- The items of an array, each between a blank and a comma. -/
def inlineItems : List Value → Except ReadError String
  | [] => .ok ""
  | v :: rest => do
    let t ← inlineText v
    let ts ← inlineItems rest
    pure (" " ++ t ++ "," ++ ts)

/-- The keys of a table, each between a blank and a comma. -/
def inlineKeys : List (String × Value) → Except ReadError String
  | [] => .ok ""
  | (k, _) :: rest => do
    let t ← quoteText k.toList
    let ts ← inlineKeys rest
    pure (" " ++ String.ofList t ++ "," ++ ts)

end

/-- Whether a value is a table. -/
def isTable : Value → Bool
  | .table _ => true
  | _ => false

/-- What a table is written as: the text of its values and arrays of tables, and the tables below
it with their names. -/
structure Section where
  /-- The text. -/
  text : String
  /-- The tables below, in order. -/
  below : List (String × Value)

/-- The entries of a table; anything else has none to write. -/
def entriesOf : Value → Except ReadError (List (String × Value))
  | .table entries => .ok entries
  | .str "" => .ok []
  | .array [] => .ok []
  | _ => .error .notATable

mutual

/-- The section of a table under a heading. `fuel` bounds the nesting. -/
def sectionOf : Nat → String → Value → Except ReadError Section
  | 0, _, _ => .error .malformed
  | fuel + 1, heading, table => do
    let entries ← entriesOf table
    let start := if heading.isEmpty then "" else heading ++ "."
    let (plain, arrays, below) ← entries.foldlM
      (fun (acc : String × String × List (String × Value)) (e : String × Value) => do
        let (plain, arrays, below) := acc
        let key ← keyText e.1
        match e.2 with
        | .table _ => pure (plain, arrays, Value.putEntry key e.2 below)
        | .array items =>
          if items.any isTable then
            let t ← tablesText fuel (start ++ key) items
            pure (plain, arrays ++ t, below)
          else
            let t ← inlineText e.2
            pure (plain ++ key ++ " = " ++ t ++ "\n", arrays, below)
        | .none => pure (plain, arrays, below)
        | v =>
          let t ← inlineText v
          pure (plain ++ key ++ " = " ++ t ++ "\n", arrays, below))
      ("", "", [])
    pure ⟨plain ++ arrays, below⟩

/-- The tables of an array of tables, each under the heading of the array. -/
def tablesText : Nat → String → List Value → Except ReadError String
  | 0, _, _ => .error .malformed
  | _ + 1, _, [] => .ok ""
  | fuel + 1, heading, v :: rest => do
    let s ← sectionOf fuel heading v
    let deeper ← belowText fuel heading s.below
    let more ← tablesText fuel heading rest
    let lead := "[[" ++ heading ++ "]]\n"
    if s.text.toList.head? == some '[' then pure (lead ++ "\n" ++ s.text ++ deeper ++ more)
    else pure (lead ++ s.text ++ "\n" ++ deeper ++ more)

/-- The tables below a table of an array of tables, level by level. -/
def belowText : Nat → String → List (String × Value) → Except ReadError String
  | 0, _, _ => .error .malformed
  | _ + 1, _, [] => .ok ""
  | fuel + 1, heading, tables => do
    let (text, next) ← tables.foldlM
      (fun (acc : String × List (String × Value)) (t : String × Value) => do
        let s ← sectionOf fuel (heading ++ "." ++ t.1) t.2
        let own := if s.text.isEmpty then ""
          else "[" ++ heading ++ "." ++ t.1 ++ "]\n" ++ s.text
        pure (acc.1 ++ own,
          s.below.foldl (fun next b => Value.putEntry (t.1 ++ "." ++ b.1) b.2 next) acc.2))
      ("", [])
    let more ← belowText fuel heading next
    pure (text ++ more)

end

/-- The sections of a level, then those of the level below. `fuel` bounds the number of levels. -/
def levels : Nat → Nat → String → List (String × Value) → Except ReadError String
  | 0, _, text, _ => .ok text
  | _ + 1, _, text, [] => .ok text
  | fuel + 1, depth, text, sections => do
    let (text, next) ← sections.foldlM
      (fun (acc : String × List (String × Value)) (t : String × Value) => do
        let s ← sectionOf depth t.1 t.2
        let shown := !s.text.isEmpty || s.below.isEmpty
        let gap := if acc.1.isEmpty || ['\n', '\n'].isPrefixOf acc.1.toList.reverse then ""
          else "\n"
        let text := if shown then acc.1 ++ gap ++ "[" ++ t.1 ++ "]\n" ++ s.text else acc.1
        let next := s.below.foldl (fun n b => Value.putEntry (t.1 ++ "." ++ b.1) b.2 n) acc.2
        pure (text, next))
      (text, [])
    levels fuel depth text next

mutual

/-- The number of values in a value, itself included. -/
def sizeOfValue : Value → Nat
  | .array items => sizeOfItems items + 1
  | .table entries => sizeOfEntries entries + 1
  | _ => 1

/-- The number of values in the items of an array. -/
def sizeOfItems : List Value → Nat
  | [] => 0
  | v :: rest => sizeOfValue v + sizeOfItems rest

/-- The number of values in the entries of a table. -/
def sizeOfEntries : List (String × Value) → Nat
  | [] => 0
  | (_, v) :: rest => sizeOfValue v + sizeOfEntries rest

end

/-- The text of a settings file for a table. -/
def write (table : Value) : Except ReadError String := do
  let fuel := 4 * sizeOfValue table + 4
  let top ← sectionOf fuel "" table
  levels fuel fuel top.text top.below

end CodeSurvey.Toml
