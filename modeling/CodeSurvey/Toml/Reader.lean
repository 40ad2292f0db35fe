import CodeSurvey.Toml.Quoted

/-!
# Reading settings files

The statements of a settings file put tables and keys into a tree of values, line by line. A key
occurs only once in a table; all values of an array are of one sort.
-/

namespace CodeSurvey.Toml

open CodeSurvey Text

/-- The sort of a value, by which the values of an array agree. -/
inductive ValueSort where
  | bool
  | str
  | array
  | inlineTable
  | time
  | date
  | int
  | float
  deriving Repr, DecidableEq

/-- The pieces of a line between its quotes: every second one is quoted. -/
def quotePieces (line : List Char) : List (List Char) :=
  match splitOn '"' line with
  | first :: second :: rest =>
    if first.contains '\'' then
      let (singles, left) := absorb (splitOn '\'' first) (second :: rest)
      match left with
      | [] => singles
      | d :: ds => singles ++ splitOn '\'' d ++ ds
    else first :: second :: rest
  | pieces => pieces.flatMap (splitOn '\'')
where
  /-- Joins pieces between double quotes to the last piece between single quotes while that one is
  open. -/
  absorb (singles : List (List Char)) : List (List Char) → List (List Char) × List (List Char)
    | [] => (singles, [])
    | d :: ds =>
      if singles.length % 2 = 0 then
        absorb (singles.dropLast ++ splitOn '\'' ((singles.getLast?).getD [] ++ '"' :: d)) ds
      else (singles, d :: ds)

/-- How many marks are passed up to the first piece outside quotes that has one, and one more. -/
def marksPassed (count : List Char → Nat) (pieces : List (List Char)) : Nat :=
  go 1 false pieces
where
  /-- `quoted` says whether the next piece is quoted. -/
  go (n : Nat) (quoted : Bool) : List (List Char) → Nat
    | [] => n
    | p :: rest => if !quoted && count p != 0 then n else go (n + count p) (!quoted) rest

/-- A line cut at its `n`-th equals sign, or at the last one if there are fewer. -/
def cutAtEquals (n : Nat) (line : List Char) : List Char × List Char :=
  let pieces := splitOn '=' line
  let n := min n (pieces.length - 1)
  (['='].intercalate (pieces.take n), ['='].intercalate (pieces.drop n))

/-- A number without its underscores, if it begins with a digit. -/
def dropUnderscores (cs : List Char) : List Char :=
  match cs with
  | c :: _ => if isDigit c then cs.filter (· != '_') else cs
  | [] => []

/-- Whether what follows an equals sign needs no further look: it is empty, begins with a blank, a
quote or a bracket, or is a value by itself. -/
def isPlausible (after : List Char) : Bool :=
  match after with
  | [] => true
  | c :: _ =>
    [' ', '\t', '\'', '"', '[', '\x7b'].contains c ||
      stripBlanks after == "true".toList || stripBlanks after == "false".toList ||
      (fractional? after).isSome || (moment? after).isSome || (timeParts? after).isSome

/-- The key and the value of a line, cut at the first equals sign outside quotes, or at a later one
if what follows is no value. -/
def keyAndValue (line : List Char) : Except ReadError (List Char × List Char) :=
  let first := marksPassed (·.count '=') (quotePieces line)
  go (line.length + 1) first (cutAtEquals first line)
where
  /-- Tries the `n`-th equals sign and then further ones; `fuel` is at least their number. -/
  go : Nat → Nat → List Char × List Char → Except ReadError (List Char × List Char)
    | 0, _, _ => .error .malformed
    | fuel + 1, n, (before, after) =>
      let cleaned := dropUnderscores after
      if isPlausible cleaned then .ok (stripBlanks before, stripBlanks cleaned)
      else
        let further := cutAtEquals (n + 1) line
        if further.2 = cleaned then .error .malformed else go fuel (n + 1) further

/-- The tables that lead to a key, and its name. -/
def keyLevels (key : List Char) : Except ReadError (List String × String) :=
  if key.contains '.' then
    match ((go false (quotePieces key)).reverse.dropWhile (·.isEmpty)) with
    | [] => .error .truncated
    | last :: before =>
      .ok ((before.reverse.filter fun l => !l.isEmpty).map String.ofList,
        String.ofList (stripBlanks last))
  else
    match key.head?, key.getLast? with
    | some a, some z =>
      if a = z ∧ (a = '"' ∨ a = '\'') then
        (unescape [] (key.drop 1).dropLast).map fun k => ([], String.ofList k)
      else .ok ([], String.ofList key)
    | _, _ => .error .truncated
where
  /-- `quoted` says whether the next piece is quoted. -/
  go (quoted : Bool) : List (List Char) → List (List Char)
    | [] => []
    | p :: rest =>
      (if quoted then [p] else (splitOn '.' p).map stripBlanks) ++ go (!quoted) rest

/-- A value put below a table under a path of keys; the tables on the way are made where they are
missing, and `put` makes the last one. -/
def putBelow (put : Value → Except ReadError Value) :
    List String → Value → Except ReadError Value
  | [], v => put v
  | level :: levels, .table entries => do
    let inner := ((Value.table entries).get? level).getD (.table [])
    let made ← putBelow put levels inner
    pure (.table (Value.putEntry level made entries))
  | _ :: _, _ => .error .notATable

/-- A new key of a table. -/
def putNew (key : String) (value : Value) : Value → Except ReadError Value
  | .table entries =>
    if ((Value.table entries).get? key).isSome then .error .malformed
    else .ok (.table (entries ++ [(key, value)]))
  | _ => .error .malformed

/-- Whether a piece of an array is a whole text. -/
def isWholeText (piece : List Char) : Bool :=
  match piece with
  | [] => true
  | first :: rest =>
    match piece.reverse with
    | last :: before =>
      let whole := last == first &&
        !oddBackslashes (before.take (piece.length - 2))
      let dangling := match rest, before with
        | b :: c :: _, y :: x :: _ => first == b && b == c && y != first && x != first
        | _, _ => false
      whole && !dangling
    | [] => true

/-- The pieces of an array of texts, joined where a comma stood inside a text. -/
def joinTexts (pieces : List (List Char)) : Except ReadError (List (List Char)) :=
  match pieces with
  | [] => .ok []
  | first :: rest => go first rest
where
  /-- `piece` is the piece that may have to be joined with those that follow. -/
  go (piece : List Char) : List (List Char) → Except ReadError (List (List Char))
    | [] => .ok [piece]
    | next :: rest =>
      if isWholeText (stripBlanks piece) then (go next rest).map (piece :: ·)
      else
        match rest with
        | [] => if isWholeText (stripBlanks (piece ++ ',' :: next)) then .ok [piece ++ ',' :: next]
          else .error .truncated
        | _ => go (piece ++ ',' :: next) rest

/-- The inline tables of an array of them, from one that begins at the front. -/
def cutTables : Nat → List Char → List (List Char)
  | 0, _ => []
  | fuel + 1, cs =>
    match cs with
    | [] => []
    | c :: rest =>
      match body (if c = '\x7b' then 1 else 0) false [c] rest with
      | none => []
      | some (table, after) =>
        table :: cutTables fuel ((after.drop 1).dropWhile (· != '\x7b'))
where
  /-- The table up to the bracket that closes it; `done` is reversed. -/
  body (depth : Nat) (inText : Bool) (done : List Char) :
      List Char → Option (List Char × List Char)
    | [] => none
    | c :: rest =>
      let inText :=
        if c = '"' || c = '\'' then
          if inText then oddBackslashes done else true
        else inText
      let depth := if !inText && c = '\x7b' then depth + 1 else depth
      if inText || c != '\x7d' then body depth inText (c :: done) rest
      else if 1 < depth then body (depth - 1) inText (c :: done) rest
      else some ((c :: done).reverse, rest)

/-- The arrays inside an array, cut at the commas outside them. -/
def cutArrays (cs : List Char) : List (List Char) :=
  go 0 [] cs
where
  /-- `depth` counts the open brackets, and `piece` is reversed. -/
  go (depth : Int) (piece : List Char) : List Char → List (List Char)
    | [] => [piece.reverse]
    | c :: rest =>
      if c = ',' ∧ depth = 0 then piece.reverse :: go depth [] rest
      else
        let depth := if c = '[' then depth + 1 else if c = ']' then depth - 1 else depth
        go depth (c :: piece) rest

/-- The pieces of an array, its brackets included in what is given. -/
def arrayPieces (cs : List Char) : Except ReadError (List (List Char)) :=
  let inner := (cs.drop 1).dropLast
  let beforeArray := inner.takeWhile (· != '[')
  if !inner.contains '[' || !(stripBlanks beforeArray).isEmpty then
    match stripBlanks inner with
    | '\x7b' :: _ => .ok (cutTables cs.length (cs.drop 1))
    | '"' :: _ => joinTexts (splitOn ',' inner)
    | '\'' :: _ => joinTexts (splitOn ',' inner)
    | _ => .ok (splitOn ',' inner)
  else .ok (cutArrays inner)

/-- Whether a piece of an inline table is a key with a whole value. -/
def isWholeEntry (value : List Char) : Except ReadError Bool :=
  match value.head?, value.getLast? with
  | some a, some z =>
    .ok ((a == z && (a == '"' || a == '\'')) || a == '-' || isDigit a ||
      value == "true".toList || value == "false".toList ||
      (a == '[' && z == ']') || (a == '\x7b' && z == '\x7d'))
  | _, _ => .error .truncated

/-- The entries of an inline table, its brackets included in what is given. -/
def inlineEntries (cs : List Char) : Except ReadError (List (List Char)) :=
  let inner := (cs.drop 1).dropLast
  match splitOn ',' inner with
  | [only] => if (stripBlanks only).isEmpty then .ok [] else go only []
  | first :: rest => go first rest
  | [] => .ok []
where
  /-- `piece` is the piece that may have to be joined with those that follow. -/
  go (piece : List Char) (rest : List (List Char)) : Except ReadError (List (List Char)) :=
    if !piece.contains '=' then .error .malformed
    else
      match isWholeEntry (stripBlanks ((piece.dropWhile (· != '=')).drop 1)) with
      | .error e => .error e
      | .ok true =>
        match rest with
        | [] => .ok [piece]
        | next :: rest => (go next rest).map (piece :: ·)
      | .ok false =>
        match rest with
        | [] => .error .malformed
        | next :: rest => go (piece ++ ',' :: next) rest

/-- A number, if a value is one. -/
def number? (cs : List Char) : Option (Value × ValueSort) :=
  let (neg, cs) := cutSign cs
  let cs := cs.filter (· != '_')
  let lowered := cs.map Char.toLower
  let hasE := !cs.contains 'x' && (cs.contains 'e' || cs.contains 'E')
  let fraction (x : Float) : Value × ValueSort := (.float (if neg then 0.0 - x else x), .float)
  if cs.contains '.' || hasE then
    if cs.contains '.' && ((cs.dropWhile (· != '.')).drop 1).isEmpty then none
    else if !(cs.head?.map isDigit).getD false then none
    else (fractional? cs).map fraction
  else if lowered = "inf".toList ∨ lowered = "nan".toList then (fractional? cs).map fraction
  else (whole? cs).map fun n =>
    let n : Int := n
    (.int (if neg then -n else n), .int)

/-- The place of the backslashes that are looked at when a text of several lines begins in a value:
`none` if none begins. -/
def opensLongText (cs : List Char) : Bool :=
  let texts := match cs with
    | '[' :: rest =>
      let isTexts := match stripBlanks rest.dropLast with
        | c :: _ => c == '"' || c == '\''
        | [] => false
      if (stripBlanks cs).getLast? != some ']' && isTexts then
        lastText (splitOn ',' (stripBlanks rest))
      else cs
    | cs => cs
  match texts with
  | a :: b :: c :: rest =>
    (a == '"' || a == '\'') && b == a && c == a &&
      !(3 ≤ rest.length && [a, a, a].isPrefixOf texts.reverse)
  | _ => false
where
  /-- The last text of an array that is not closed. -/
  lastText (pieces : List (List Char)) : List Char :=
    match pieces.reverse with
    | [] => []
    | last :: before => join last before
  /-- Joins pieces from the end until one begins with a quote. -/
  join (piece : List Char) : List (List Char) → List Char
    | [] => piece
    | p :: rest =>
      match piece with
      | c :: _ => if c == '"' || c == '\'' then piece else join (p ++ ',' :: piece) rest
      | [] => join (p ++ [',']) rest

/-- A text of several lines that is not yet closed. -/
structure LongText where
  /-- The key that it belongs to. -/
  key : String
  /-- What has been read of it. -/
  text : List Char
  /-- Whether the last line ended with a backslash. -/
  joined : Bool
  deriving Repr

mutual

/-- A value and its sort; `fuel` is at least the length of the text. -/
def value : Nat → List Char → Except ReadError (Value × ValueSort)
  | 0, _ => .error .malformed
  | fuel + 1, cs =>
    match cs with
    | [] => .error .malformed
    | c :: _ =>
      let lowered := cs.map Char.toLower
      if cs = "true".toList then .ok (.bool true, .bool)
      else if cs = "false".toList then .ok (.bool false, .bool)
      else if lowered = "true".toList ∨ lowered = "false".toList then .error .malformed
      else if c = '"' ∨ c = '\'' then (quotedText c cs).map fun s => (.str s, .str)
      else if c = '[' then (array fuel (stripBlanks cs)).map fun vs => (.array vs, .array)
      else if c = '\x7b' then (inlineTable fuel (.table []) cs).map fun v => (v, .inlineTable)
      else
        match timeParts? cs with
        | some (h, m, s, us) =>
          match Time.clock? h m s us with
          | some c => .ok (.moment (.time c), .time)
          | none => .error .malformed
        | none =>
          match moment? cs with
          | some m => .ok (.moment m, .date)
          | none =>
            match number? cs with
            | some n => .ok n
            | none => .error .malformed

/-- The values of an array. -/
def array : Nat → List Char → Except ReadError (List Value)
  | 0, _ => .error .malformed
  | fuel + 1, cs =>
    match arrayPieces cs with
    | .error e => .error e
    | .ok pieces => values fuel none (pieces.map stripBlanks)

/-- The values of the pieces of an array that are not empty, all of one sort. -/
def values : Nat → Option ValueSort → List (List Char) → Except ReadError (List Value)
  | 0, _, _ => .error .malformed
  | _ + 1, _, [] => .ok []
  | fuel + 1, sort, piece :: rest =>
    if piece.isEmpty then values fuel sort rest
    else
      match value fuel piece with
      | .error e => .error e
      | .ok (v, s) =>
        if sort.isSome && sort != some s then .error .malformed
        else (values fuel (some s) rest).map (v :: ·)

/-- A table with the entries of an inline table put into it. -/
def inlineTable : Nat → Value → List Char → Except ReadError Value
  | 0, _, _ => .error .malformed
  | fuel + 1, table, cs =>
    match inlineEntries cs with
    | .error e => .error e
    | .ok pieces => entries fuel table pieces

/-- A table with entries put into it, up to a text of several lines. -/
def entries : Nat → Value → List (List Char) → Except ReadError Value
  | 0, _, _ => .error .malformed
  | _ + 1, table, [] => .ok table
  | fuel + 1, table, piece :: rest =>
    match statement fuel table piece with
    | .error e => .error e
    | .ok (table, none) => entries fuel table rest
    | .ok (table, some _) => .ok table

/-- A table with the key of one line put into it, or the text of several lines that it opens. -/
def statement : Nat → Value → List Char → Except ReadError (Value × Option LongText)
  | 0, _, _ => .error .malformed
  | fuel + 1, table, line =>
    match keyAndValue line with
    | .error e => .error e
    | .ok (key, text) =>
      match keyLevels key with
      | .error e => .error e
      | .ok (levels, name) =>
        if opensLongText text then
          let joined := oddBackslashes text.reverse
          let long : LongText :=
            ⟨name, if joined then text.dropLast else text ++ ['\n'], joined⟩
          let free : Value → Except ReadError Value
            | .table es =>
              if ((Value.table es).get? name).isSome then .error .malformed else .ok (.table es)
            | _ => .error .malformed
          (putBelow free levels table).map fun t => (t, some long)
        else
          (putBelow (fun t =>
            match value fuel text with
            | .error e => .error e
            | .ok (v, _) => putNew name v t) levels table).map fun t => (t, none)

end

/-- A step from a table into the tree below it. -/
inductive Step where
  /-- The value of a key. -/
  | key (k : String)
  /-- The last table of an array. -/
  | last
  deriving Repr, DecidableEq

/-- The value that a path leads to. -/
def follow : List Step → Value → Option Value
  | [], v => some v
  | .key k :: path, v => (v.get? k).bind (follow path)
  | .last :: path, .array items => (items.getLast?).bind (follow path)
  | .last :: _, _ => none

/-- The tree with the value at the end of a path changed. -/
def change (f : Value → Value) : List Step → Value → Value
  | [], v => f v
  | .key k :: path, .table es =>
    .table (es.map fun e => if e.1 == k then (e.1, change f path e.2) else e)
  | .last :: path, .array items =>
    match items.reverse with
    | [] => .array items
    | v :: before => .array (change f path v :: before).reverse
  | _ :: _, v => v

/-- What has been read of a settings file. -/
structure Document where
  /-- The tree. -/
  root : Value
  /-- The table that keys are put into. -/
  current : List Step
  /-- The names of tables that only longer headings have mentioned. -/
  implied : List String
  /-- The text of several lines that is open. -/
  long : Option LongText

/-- The names of a heading, quotes removed. -/
def headingNames : Nat → List (List Char) → Except ReadError (List String)
  | 0, _ => .ok []
  | _ + 1, [] => .ok []
  | fuel + 1, group :: rest =>
    let name := stripBlanks group
    match name with
    | c :: _ =>
      if c = '"' ∨ c = '\'' then
        match close rest.length name rest with
        | none => .error .malformed
        | some (whole, rest) =>
          (headingNames fuel rest).map (String.ofList (whole.drop 1).dropLast :: ·)
      else if name.all fun c => (c.toNat < 128 && c.isAlphanum) || c == '_' || c == '-' then
        (headingNames fuel rest).map (String.ofList name :: ·)
      else .error .malformed
    | [] => .error .malformed
where
  /-- Joins pieces until the quote is closed. -/
  close : Nat → List Char → List (List Char) → Option (List Char × List (List Char))
    | fuel, name, rest =>
      if name.head? == name.getLast? && name.length != 1 then some (name, rest)
      else
        match fuel, rest with
        | fuel + 1, next :: rest => close fuel (stripBlanks (name ++ '.' :: next)) rest
        | _, _ => none

/-- The last value of an array of tables, any other table itself. -/
def intoLast (d : Document) : Except ReadError Document :=
  match follow d.current d.root with
  | some (.array []) => .error .truncated
  | some (.array _) => .ok { d with current := d.current ++ [.last] }
  | some (.table _) => .ok d
  | some (.str "") => .error .truncated
  | _ => .error .notATable

/-- The document after one name of a heading. `isLast` says whether it is the last one and
`isArray` whether the heading is that of an array of tables. -/
def enter (isLast isArray : Bool) (name : String) (d : Document) : Except ReadError Document :=
  if name.isEmpty then .error .malformed
  else
    let fresh : Value := if isLast && isArray then .array [.table []] else .table []
    let add (path : List Step) (implied : List String) : Document :=
      { d with
        root := change (fun t =>
          match t with
          | .table es => .table (es ++ [(name, fresh)])
          | t => t) path d.root
        current := path ++ [.key name]
        implied }
    let entered : Except ReadError Document :=
      match follow d.current d.root with
      | some (.table es) =>
        match (Value.table es).get? name with
        | none => .ok (add d.current (if isLast then d.implied else d.implied ++ [name]))
        | some v =>
          let path := d.current ++ [.key name]
          if !isLast then .ok { d with current := path }
          else if d.implied.contains name then
            if isArray then .error .malformed
            else .ok { d with current := path, implied := d.implied.erase name }
          else if isArray then
            match v with
            | .array items =>
              .ok { d with
                root := change (fun _ => .array (items ++ [.table []])) path d.root
                current := path }
            | _ => .error .notAnArray
          else .error .malformed
      | some (.array items) =>
        let path := d.current ++ [.last]
        match items.getLast? with
        | none => .error .truncated
        | some (.table es) =>
          if ((Value.table es).get? name).isSome then .ok { d with current := path ++ [.key name] }
          else .ok (add path d.implied)
        | some _ => .error .notATable
      | some (.str "") => .error .truncated
      | _ => .error .notATable
    match entered with
    | .error e => .error e
    | .ok d => if isArray then intoLast d else .ok d

/-- The document after the names of a heading. -/
def enterAll (isArray : Bool) : List String → Document → Except ReadError Document
  | [], d => .ok d
  | name :: rest, d =>
    match enter rest.isEmpty isArray name d with
    | .error e => .error e
    | .ok d => enterAll isArray rest d

/-- The text of a heading up to its closing mark, which ends the line. -/
def headingText (mark line : List Char) : Except ReadError (List Char) :=
  let count (p : List Char) : Nat := (splitOnMark mark p.length p).length - 1
  let n := marksPassed count (quotePieces line)
  let pieces := splitOnMark mark line.length line
  if pieces.length < n + 1 then .error .malformed
  else
    let after := mark.intercalate (pieces.drop n)
    if !(stripBlanks after).isEmpty then .error .malformed
    else .ok (mark.intercalate (pieces.take n))

/-- The document after a heading. -/
def heading (line : List Char) (d : Document) : Except ReadError Document :=
  match line with
  | '[' :: '[' :: rest => run true (headingText [']', ']'] rest)
  | _ :: [] => .error .malformed
  | _ :: rest => run false (headingText [']'] rest)
  | [] => .error .malformed
where
  /-- Enters the tables that the text of a heading names. -/
  run (isArray : Bool) (text : Except ReadError (List Char)) : Except ReadError Document :=
    match text with
    | .error e => .error e
    | .ok text =>
      match headingNames (text.length + 1) (splitOn '.' text) with
      | .error e => .error e
      | .ok names => enterAll isArray names { d with current := [] }

/-- The document after a further line of a text of several lines. -/
def continueLong (line : List Char) (long : LongText) (d : Document) :
    Except ReadError Document :=
  let text := long.text ++ line
  let first := text.head?
  let closed :=
    if first == some '[' then line.getLast? == some ']'
    else
      match first with
      | some q => 2 < line.length && [q, q, q].isPrefixOf line.reverse
      | none => false
  if line.isEmpty && first == some '[' then .error .truncated
  else if closed then
    match value (text.length + 1) text with
    | .error e => .error e
    | .ok (v, _) =>
      .ok { d with
        root := change (fun t =>
          match t with
          | .table es => .table (Value.putEntry long.key v es)
          | t => t) d.current d.root
        long := none }
  else
    let joined := oddBackslashes text.reverse
    .ok { d with
      long := some ⟨long.key, if joined then text.dropLast else text ++ ['\n'], joined⟩ }

/-- The document after one logical line. -/
def logicalLine (line : List Char) (d : Document) : Except ReadError Document :=
  let stripped := match d.long with
    | some long => if long.joined || !long.text.contains '\n' then stripBlanks line else line
    | none => stripBlanks line
  match d.long with
  | some long => if stripped.isEmpty && long.joined then .ok d else continueLong stripped long d
  | none =>
    match stripped with
    | [] => .ok d
    | c :: _ =>
      let fuel := 4 * stripped.length + 4
      let put (result : Except ReadError (Value × Option LongText)) : Except ReadError Document :=
        result.map fun (table, long) =>
          { d with root := change (fun _ => table) d.current d.root, long }
      let table := (follow d.current d.root).getD .none
      if c = '[' then heading stripped d
      else if c = '\x7b' then
        if stripped.getLast? != some '\x7d' then .error .malformed
        else put ((inlineTable fuel table stripped).map fun t => (t, none))
      else if stripped.contains '=' then put (statement fuel table stripped)
      else .ok d

/-- The document after a list of logical lines. -/
def readLines : List (List Char) → Document → Except ReadError Document
  | [], d => .ok d
  | line :: rest, d =>
    match logicalLine line d with
    | .error e => .error e
    | .ok d => readLines rest d

/-- The table that a settings file describes. -/
def read (text : String) : Except ReadError Value :=
  match logicalLines text.toList with
  | .error e => .error e
  | .ok lines => (readLines lines ⟨.table [], [], [], none⟩).map (·.root)

end CodeSurvey.Toml
