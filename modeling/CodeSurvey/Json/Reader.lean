import CodeSurvey.Json.Basic
import CodeSurvey.Text.Basic

/-!
# Reading JSON

A text is one value with blanks around it. Besides the standard's values the reader takes `NaN`,
`Infinity` and `-Infinity`. Of a key that occurs twice the last value counts, at the first place.
A malformed text is reported with what was missing and where.
-/

namespace CodeSurvey.Json

open CodeSurvey.Text (isDigit hexValue? decimalValue dropStart?)

/-- What is wrong with a malformed text. -/
inductive Flaw where
  /-- The text begins with a byte-order mark. -/
  | byteOrderMark
  /-- A value was to come. -/
  | noValue
  /-- A key was to come. -/
  | noKey
  /-- A colon was to come. -/
  | noColon
  /-- A comma or the end of the array or object was to come. -/
  | noComma
  /-- A string has no end. -/
  | unterminated
  /-- A string holds a control character. -/
  | control
  /-- A backslash is followed by a character that has no escape. -/
  | badEscape
  /-- An escape of a UTF-16 unit has not four digits and a further character. -/
  | badUnit
  /-- Something follows the value. -/
  | extraData
  deriving Repr, DecidableEq

/-- The wording of a flaw. -/
def Flaw.text : Flaw → String
  | byteOrderMark => "Unexpected UTF-8 BOM (decode using utf-8-sig)"
  | noValue => "Expecting value"
  | noKey => "Expecting property name enclosed in double quotes"
  | noColon => "Expecting ':' delimiter"
  | noComma => "Expecting ',' delimiter"
  | unterminated => "Unterminated string starting at"
  | control => "Invalid control character at"
  | badEscape => "Invalid \\escape"
  | badUnit => "Invalid \\uXXXX escape"
  | extraData => "Extra data"

/-- Why a text was not read, where places are counted from the end. -/
inductive Failure where
  /-- The text is malformed, `left` characters before its end. -/
  | flaw (flaw : Flaw) (left : Nat)
  /-- A whole number has more digits than are converted. -/
  | tooManyDigits (count : Nat)
  /-- Arrays and objects are nested too deeply. -/
  | tooDeep
  deriving Repr, DecidableEq

/-- A place in a text, counted from its start. -/
structure Place where
  /-- The number of characters before it. -/
  index : Nat
  /-- Its line, from one. -/
  line : Nat
  /-- Its column, from one. -/
  column : Nat
  deriving Repr, DecidableEq

/-- Why a text was not read. -/
inductive ReadError where
  /-- The text is malformed at a place. -/
  | malformed (flaw : Flaw) (place : Place)
  /-- A whole number has more digits than are converted. -/
  | tooManyDigits (count : Nat)
  /-- Arrays and objects are nested too deeply. -/
  | tooDeep
  deriving Repr, DecidableEq

/-- The deepest nesting of arrays and objects. -/
def maxNesting : Nat := 960

/-- The wording of an error. -/
def ReadError.message : ReadError → String
  | malformed flaw p =>
    flaw.text ++ ": line " ++ toString p.line ++ " column " ++ toString p.column ++
      " (char " ++ toString p.index ++ ")"
  | tooManyDigits count =>
    "Exceeds the limit (" ++ toString maxIntDigits ++
      " digits) for integer string conversion: value has " ++ toString count ++
      " digits; use sys.set_int_max_str_digits() to increase the limit"
  | tooDeep => "maximum recursion depth exceeded"

/-- A reader takes what it reads off the front of the text. -/
abbrev Step (α : Type) := Except Failure (α × List Char)

/-- The blanks between tokens. -/
def isGap (c : Char) : Bool := c == ' ' || c == '\t' || c == '\n' || c == '\r'

/-- A text without the blanks at its start. -/
def skipGaps (cs : List Char) : List Char := cs.dropWhile isGap

/-- The character that a short escape stands for. -/
def ofShortEscape? (c : Char) : Option Char :=
  if c = '"' then some '"'
  else if c = '\\' then some '\\'
  else if c = '/' then some '/'
  else if c = 'n' then some '\n'
  else if c = 'r' then some '\r'
  else if c = 't' then some '\t'
  else if c = 'b' then some (Char.ofNat 8)
  else if c = 'f' then some (Char.ofNat 12)
  else none

/-- The UTF-16 unit of the four digits at the front of a text that does not end with them. -/
def unit? : List Char → Option (Nat × List Char)
  | a :: b :: c :: d :: e :: rest => do
    let a ← hexValue? a
    let b ← hexValue? b
    let c ← hexValue? c
    let d ← hexValue? d
    some (((a * 16 + b) * 16 + c) * 16 + d, e :: rest)
  | _ => none

/-- The character of an escaped unit, and of the escaped unit after it when the two are a pair.
A unit that is half of a pair and stands alone gives the replacement character. -/
def ofUnit (n : Nat) (rest : List Char) : Step Char :=
  if 0xD800 ≤ n ∧ n ≤ 0xDBFF then
    match rest with
    | '\\' :: 'u' :: more =>
      match unit? more with
      | none => .error (.flaw .badUnit (more.length + 1))
      | some (low, after) =>
        if 0xDC00 ≤ low ∧ low ≤ 0xDFFF then
          .ok (Char.ofNat (0x10000 + (n - 0xD800) * 0x400 + (low - 0xDC00)), after)
        else .ok (Char.ofNat 0xFFFD, rest)
    | _ => .ok (Char.ofNat 0xFFFD, rest)
  else if 0xDC00 ≤ n ∧ n ≤ 0xDFFF then .ok (Char.ofNat 0xFFFD, rest)
  else .ok (Char.ofNat n, rest)

/-- The rest of a string literal after its opening quote, which stood `opened` characters before
the end; `fuel` is at least the number of characters left. -/
def stringBody (opened : Nat) : Nat → List Char → List Char → Step String
  | 0, _, _ => .error (.flaw .unterminated opened)
  | fuel + 1, read, cs =>
    match cs with
    | [] => .error (.flaw .unterminated opened)
    | '"' :: rest => .ok (String.ofList read.reverse, rest)
    | '\\' :: [] => .error (.flaw .unterminated opened)
    | '\\' :: 'u' :: rest =>
      match unit? rest with
      | none => .error (.flaw .badUnit (rest.length + 1))
      | some (n, after) =>
        match ofUnit n after with
        | .error e => .error e
        | .ok (c, after) => stringBody opened fuel (c :: read) after
    | '\\' :: e :: rest =>
      match ofShortEscape? e with
      | none => .error (.flaw .badEscape (rest.length + 2))
      | some c => stringBody opened fuel (c :: read) rest
    | c :: rest =>
      if c.toNat < 32 then .error (.flaw .control (rest.length + 1))
      else stringBody opened fuel (c :: read) rest

/-- A string literal whose opening quote has been taken. -/
def stringRest (rest : List Char) : Step String :=
  stringBody (rest.length + 1) (rest.length + 1) [] rest

/-- The fraction of a number, if one is there: a point and at least one digit. -/
def fraction? : List Char → Option (List Char × List Char)
  | '.' :: rest =>
    let ds := rest.takeWhile isDigit
    if ds.isEmpty then none else some (ds, rest.dropWhile isDigit)
  | _ => none

/-- The exponent of a number, if one is there: a letter, a sign if any, and at least one digit. -/
def exponent? : List Char → Option (Int × List Char)
  | e :: rest =>
    if e = 'e' ∨ e = 'E' then
      let (neg, rest) := match rest with
        | '-' :: rest => (true, rest)
        | '+' :: rest => (false, rest)
        | rest => (false, rest)
      let ds := rest.takeWhile isDigit
      if ds.isEmpty then none
      else
        let n : Int := decimalValue ds
        some (if neg then -n else n, rest.dropWhile isDigit)
    else none
  | [] => none

/-- The double nearest to `m * 10 ^ e`. An exponent that is out of all proportion to the digits
gives zero or infinity without being raised to a power. -/
def nearestFloat (m : Nat) (e : Int) : Float :=
  if m = 0 then 0.0
  else
    let size : Int := (Nat.log2 m : Int) / 3 + 1 + e
    if 400 < e then 1.0 / 0.0
    else if size < -400 then 0.0
    else if 0 ≤ e then Float.ofScientific m false e.toNat
    else Float.ofScientific m true (-e).toNat

/-- The digits before the point of a number, and what follows them. A zero at the front stands
alone. -/
def wholeDigits : List Char → List Char × List Char
  | '0' :: rest => (['0'], rest)
  | cs => (cs.takeWhile isDigit, cs.dropWhile isDigit)

/-- The number whose sign has been taken and whose first digit is at the front. -/
def number (neg : Bool) (cs : List Char) : Step Json :=
  let (whole, rest) := wholeDigits cs
  let frac := fraction? rest
  let afterFrac := match frac with
    | some (_, rest) => rest
    | none => rest
  let exp := exponent? afterFrac
  match frac, exp with
  | none, none =>
    if maxIntDigits < whole.length then .error (.tooManyDigits whole.length)
    else
      let n : Int := decimalValue whole
      .ok (.int (if neg then -n else n), rest)
  | _, _ =>
    let fracDigits := match frac with
      | some (ds, _) => ds
      | none => []
    let (e, rest) := match exp with
      | some (e, rest) => (e, rest)
      | none => (0, afterFrac)
    let x := nearestFloat (decimalValue (whole ++ fracDigits)) (e - fracDigits.length)
    .ok (.float (if neg then -x else x), rest)

/-- A value that is neither a string nor an array nor an object. -/
def scalar (cs : List Char) : Step Json :=
  let missing : Step Json := .error (.flaw .noValue cs.length)
  match cs with
  | [] => missing
  | '-' :: rest =>
    match rest with
    | d :: _ =>
      if isDigit d then number true rest
      else match dropStart? "Infinity".toList rest with
        | some rest => .ok (.float (-(1.0 / 0.0)), rest)
        | none => missing
    | [] => missing
  | c :: _ =>
    if isDigit c then number false cs
    else match dropStart? "null".toList cs with
      | some rest => .ok (.null, rest)
      | none => match dropStart? "true".toList cs with
        | some rest => .ok (.bool true, rest)
        | none => match dropStart? "false".toList cs with
          | some rest => .ok (.bool false, rest)
          | none => match dropStart? "NaN".toList cs with
            | some rest => .ok (.float (0.0 / 0.0), rest)
            | none => match dropStart? "Infinity".toList cs with
              | some rest => .ok (.float (1.0 / 0.0), rest)
              | none => missing

mutual

/-- The value at the front of a text, with at most `depth` levels of nesting; `fuel` is at least
twice the number of characters left. -/
def value (depth : Nat) : Nat → List Char → Step Json
  | 0, _ => .error .tooDeep
  | fuel + 1, cs =>
    match cs with
    | '"' :: rest => (stringRest rest).map fun (s, rest) => (.str s, rest)
    | '[' :: rest =>
      match depth with
      | 0 => .error .tooDeep
      | depth + 1 =>
        match skipGaps rest with
        | ']' :: rest => .ok (.arr [], rest)
        | rest => items depth fuel [] rest
    | '{' :: rest =>
      match depth with
      | 0 => .error .tooDeep
      | depth + 1 =>
        match skipGaps rest with
        | '}' :: rest => .ok (.obj [], rest)
        | rest => members depth fuel [] rest
    | cs => scalar cs

/-- The items of an array from the next one to the end, after those `read` in reverse. -/
def items (depth : Nat) : Nat → List Json → List Char → Step Json
  | 0, _, _ => .error .tooDeep
  | fuel + 1, read, cs =>
    match value depth fuel cs with
    | .error e => .error e
    | .ok (j, rest) =>
      match skipGaps rest with
      | ']' :: rest => .ok (.arr (j :: read).reverse, rest)
      | ',' :: rest => items depth fuel (j :: read) (skipGaps rest)
      | rest => .error (.flaw .noComma rest.length)

/-- The members of an object from the next one to the end, after those `read`. -/
def members (depth : Nat) : Nat → List (String × Json) → List Char → Step Json
  | 0, _, _ => .error .tooDeep
  | fuel + 1, read, cs =>
    match cs with
    | '"' :: rest =>
      match stringRest rest with
      | .error e => .error e
      | .ok (key, rest) =>
        match skipGaps rest with
        | ':' :: rest =>
          match value depth fuel (skipGaps rest) with
          | .error e => .error e
          | .ok (j, rest) =>
            match skipGaps rest with
            | '}' :: rest => .ok (.obj (putMember key j read), rest)
            | ',' :: rest => members depth fuel (putMember key j read) (skipGaps rest)
            | rest => .error (.flaw .noComma rest.length)
        | rest => .error (.flaw .noColon rest.length)
    | cs => .error (.flaw .noKey cs.length)

end

/-- The value that a list of characters is the text of. -/
def readChars (cs : List Char) : Except Failure Json :=
  match cs with
  | c :: rest =>
    if c = Char.ofNat 0xFEFF then .error (.flaw .byteOrderMark (rest.length + 1))
    else document cs
  | [] => document cs
where
  /-- The value of a text without a byte-order mark. -/
  document (cs : List Char) : Except Failure Json :=
    match value maxNesting (2 * cs.length + 2) (skipGaps cs) with
    | .error e => .error e
    | .ok (j, rest) =>
      match skipGaps rest with
      | [] => .ok j
      | rest => .error (.flaw .extraData rest.length)

/-- The place that is `left` characters before the end of a text. -/
def placeOf (cs : List Char) (left : Nat) : Place :=
  let index := cs.length - left
  let before := cs.take index
  { index
    line := before.count '\n' + 1
    column := (before.reverse.takeWhile (· != '\n')).length + 1 }

/-- The value that a text is the text of. -/
def read (s : String) : Except ReadError Json :=
  let cs := s.toList
  match readChars cs with
  | .ok j => .ok j
  | .error (.flaw flaw left) => .error (.malformed flaw (placeOf cs left))
  | .error (.tooManyDigits count) => .error (.tooManyDigits count)
  | .error .tooDeep => .error .tooDeep

end CodeSurvey.Json
