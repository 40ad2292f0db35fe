import CodeSurvey.Text.Case

/-!
# Logical lines of a settings file

A first pass over the characters of a settings file. Comments become blanks, the line feeds inside
an array become blanks, and a text of several lines keeps its line feeds but for one right after
the opening quotes. What remains has one statement or one line of a long text on each line. The
pass refuses keys with characters that need quotes, keys without a value and texts that do not end.
-/

namespace CodeSurvey.Toml

open CodeSurvey Text

/-- Why a settings file is not read. -/
inductive ReadError where
  /-- The file breaks a rule of the format. -/
  | malformed
  /-- A table or a key is put below a value that is no table. -/
  | notATable
  /-- A further table is put into a value that is no array of tables. -/
  | notAnArray
  /-- The file ends, or a part of it is empty, where a character is looked at. -/
  | truncated
  deriving Repr, DecidableEq

/-- The part of a key that the pass is in. -/
inductive KeyPlace where
  /-- In no key. -/
  | outside
  /-- Among the characters of the key. -/
  | inside
  /-- In the blanks after it. -/
  | after
  deriving Repr, DecidableEq

/-- The state of the pass. -/
structure ScanState where
  /-- The characters done, reversed. -/
  done : List Char
  /-- How many brackets of arrays are open. -/
  arrays : Int
  /-- The quote of the text that is open. -/
  quote : Option Char
  /-- Whether the open text may have several lines. -/
  multiline : Bool
  /-- Whether the heading of an array of tables is open. -/
  inArrayHeading : Bool
  /-- Whether the heading of a table is open. -/
  inHeading : Bool
  /-- Whether nothing but blanks has come on this line. -/
  atLineStart : Bool
  /-- The part of a key that the pass is in. -/
  key : KeyPlace
  /-- Whether the key has a point. -/
  dotted : Bool
  /-- Whether a comment is open. -/
  comment : Bool
  deriving Repr

/-- The state before the first character. -/
def ScanState.start : ScanState :=
  ⟨[], 0, none, false, false, false, true, .outside, false, false⟩

/-- Whether a character of a key needs no quotes. -/
def isBareKeyChar (c : Char) : Bool := (isWord c && c != '_') || c == '_' || c == '-'

/-- Whether the number of backslashes at the front is odd. -/
def oddBackslashes (cs : List Char) : Bool := (cs.takeWhile (· == '\\')).length % 2 == 1

/-- What a character means for the key that is open: `none` if it needs nothing further, else the
state in which it is looked at as the character after the key. -/
def ScanState.inKey (st : ScanState) (c : Char) (rest : List Char) :
    Except ReadError (ScanState × Bool) :=
  let next : Except ReadError Char := match rest with
    | d :: _ => .ok d
    | [] => .error .truncated
  let finish : Except ReadError (ScanState × Bool) :=
    if c = '=' then .ok ({ st with key := .outside, dotted := false }, false)
    else .error .malformed
  let resume (st : ScanState) : Except ReadError (ScanState × Bool) :=
    match next with
    | .error e => .error e
    | .ok d =>
      .ok ((if !isBlank d && d != '.' then { st with key := .inside } else st), true)
  if c = '\n' then .error .malformed
  else
    match st.quote with
    | some q =>
      .ok ((if c = q && !oddBackslashes st.done then { st with quote := none } else st), true)
    | none =>
      match st.key with
      | .after =>
        if isBlank c then (if st.dotted then resume st else .ok (st, true))
        else if c = '.' then resume { st with dotted := true }
        else finish
      | _ =>
        if isBlank c then .ok ({ st with key := .after }, true)
        else if c = '.' then .ok ({ st with dotted := true }, true)
        else if isBareKeyChar c then .ok (st, true)
        else if st.dotted && st.done.head? == some '.' && (c == '"' || c == '\'') then
          .ok ({ st with quote := some c }, true)
        else finish

/-- The state after a single quote. -/
def ScanState.singleQuote (st : ScanState) : ScanState :=
  let triple := ['\'', '\''].isPrefixOf st.done
  let multiline := if triple then !st.multiline else st.multiline
  let isOpen := if triple then multiline else st.quote.isNone
  { st with multiline, quote := if isOpen then some '\'' else none }

/-- The state after a double quote. -/
def ScanState.doubleQuote (st : ScanState) : ScanState :=
  let triple := ['"', '"'].isPrefixOf st.done
  let escaped :=
    if triple then oddBackslashes (st.done.drop 2)
    else if st.done.head? == some '"' then false
    else oddBackslashes st.done
  if escaped then st
  else
    let multiline := if triple then !st.multiline else st.multiline
    let isOpen := if triple then multiline else st.quote.isNone
    { st with multiline, quote := if isOpen then some '"' else none }

/-- The state after a line feed. Two quotes before it open a text of several lines: the feed is
dropped, which moves the quotes up by one place. -/
def ScanState.lineFeed (st : ScanState) : Except ReadError ScanState :=
  if st.quote.isSome || st.multiline then
    if !st.multiline then .error .malformed
    else
      match st.done with
      | a :: b :: rest =>
        if (a = '\'' || a = '"') && b = a then
          let rest := match rest with
            | c :: more => (if c = a then ' ' else c) :: more
            | [] => []
          .ok { st with done := a :: a :: b :: rest }
        else .ok { st with done := '\n' :: st.done }
      | _ => .ok { st with done := '\n' :: st.done }
  else if st.arrays ≠ 0 then .ok { st with done := ' ' :: st.done }
  else .ok { st with done := '\n' :: st.done, atLineStart := true }

/-- The state after a character that is not part of an open key. -/
def ScanState.outsideKey (st : ScanState) (c : Char) (rest : List Char) :
    Except ReadError ScanState :=
  let free (st : ScanState) : Bool := st.quote.isNone && !st.inHeading && !st.inArrayHeading
  let st := if c = '\'' && st.quote != some '"' then st.singleQuote else st
  let st := if c = '"' && st.quote != some '\'' then st.doubleQuote else st
  if c = '#' && free st then .ok { st with comment := true, done := ' ' :: st.done }
  else
    let st :=
      if c = '[' && free st then
        if st.atLineStart then
          if rest.head? == some '[' then { st with inArrayHeading := true }
          else { st with inHeading := true }
        else { st with arrays := st.arrays + 1 }
      else st
    let st :=
      if c = ']' && st.quote.isNone then
        if st.inHeading then { st with inHeading := false }
        else if st.inArrayHeading then
          if st.done.head? == some ']' then { st with inArrayHeading := false } else st
        else { st with arrays := st.arrays - 1 }
      else st
    if c = '\n' then st.lineFeed
    else if st.atLineStart && c != ' ' && c != '\t' then
      let st := { st with atLineStart := false }
      if !st.inHeading && !st.inArrayHeading then
        if c = '=' then .error .malformed
        else .ok { st with key := .inside, done := c :: st.done }
      else .ok { st with done := c :: st.done }
    else .ok { st with done := c :: st.done }

/-- The state after one character, where `rest` follows it. -/
def ScanState.step (st : ScanState) (c : Char) (rest : List Char) : Except ReadError ScanState :=
  if st.comment && c != '\n' then .ok { st with done := ' ' :: st.done }
  else
    let st := { st with comment := false }
    if c = '\r' && rest.isEmpty then .error .truncated
    else if c = '\r' && rest.head? == some '\n' then .ok { st with done := ' ' :: st.done }
    else if st.key = .outside then st.outsideKey c rest
    else
      match st.inKey c rest with
      | .error e => .error e
      | .ok (st, true) => .ok { st with done := c :: st.done }
      | .ok (st, false) => st.outsideKey c rest

/-- The state after a list of characters. -/
def ScanState.run (st : ScanState) : List Char → Except ReadError ScanState
  | [] => .ok st
  | c :: rest =>
    match st.step c rest with
    | .ok st => st.run rest
    | .error e => .error e

/-- The logical lines of a settings file. -/
def logicalLines (cs : List Char) : Except ReadError (List (List Char)) :=
  match ScanState.start.run cs with
  | .error e => .error e
  | .ok st =>
    if st.key ≠ .outside || st.quote.isSome then .error .malformed
    else .ok (splitOn '\n' st.done.reverse)

end CodeSurvey.Toml
