import CodeSurvey.Json.Reader
import CodeSurvey.Text.Blank
import CodeSurvey.Toml.Value

/-!
# Numbers and points in time

The values of a settings file that are written without quotes and brackets.
-/

namespace CodeSurvey.Toml

open CodeSurvey Text

/-- Decimal digits in which an underscore may stand between two digits. -/
def groupedDigits? (cs : List Char) : Option (List Char) :=
  let pieces := splitOn '_' cs
  if pieces.all (fun p => !p.isEmpty && p.all isDigit) then some pieces.flatten else none

/-- A sign at the front of a text, and the rest. -/
def cutSign (cs : List Char) : Bool × List Char :=
  match cs with
  | '-' :: rest => (true, rest)
  | '+' :: rest => (false, rest)
  | _ => (false, cs)

/-- The whole number of digits in a base, none if a digit is too large. -/
def wholeInBase? (base : Nat) (cs : List Char) : Option Nat :=
  if cs.isEmpty then none
  else
    cs.foldl
      (fun n c =>
        match n, hexValue? c with
        | some n, some d => if d < base then some (n * base + d) else none
        | _, _ => none)
      (some 0)

/-- A whole number without sign: decimal without a leading zero, or in the base that a letter
after a zero tells. A decimal number has no more digits than are converted. -/
def whole? (cs : List Char) : Option Nat :=
  match cs with
  | ['0'] => some 0
  | '0' :: x :: rest =>
    if x = 'x' ∨ x = 'X' then wholeInBase? 16 rest
    else if x = 'o' ∨ x = 'O' then wholeInBase? 8 rest
    else if x = 'b' ∨ x = 'B' then wholeInBase? 2 rest
    else if (x :: rest).all (· == '0') && cs.length ≤ Json.maxIntDigits then some 0
    else none
  | cs => if cs.length ≤ Json.maxIntDigits then wholeInBase? 10 cs else none

/-- A fractional number with an optional sign: digits with a point or an exponent or neither, or
the name of an infinity or of no number. -/
def fractional? (text : List Char) : Option Float :=
  let (neg, cs) := cutSign (stripBlanks text)
  let lowered := cs.map Char.toLower
  let sign (x : Float) : Float := if neg then -x else x
  if lowered = "inf".toList ∨ lowered = "infinity".toList then some (sign (1.0 / 0.0))
  else if lowered = "nan".toList then some (0.0 / 0.0)
  else
    let isE (c : Char) : Bool := c == 'e' || c == 'E'
    let mantissa := cs.takeWhile (!isE ·)
    let exponent? : Option Int := match cs.dropWhile (!isE ·) with
      | [] => some 0
      | _ :: tail =>
        let (neg, ds) := cutSign tail
        (groupedDigits? ds).map fun ds =>
          let n : Int := decimalValue ds
          if neg then -n else n
    let before := mantissa.takeWhile (· != '.')
    let after? : Option (List Char) := match mantissa.dropWhile (· != '.') with
      | [] => some []
      | _ :: [] => if before.isEmpty then none else some []
      | _ :: ds => groupedDigits? ds
    let before? := if before.isEmpty then
        (if mantissa.isEmpty then none else some []) else groupedDigits? before
    match before?, after?, exponent? with
    | some b, some a, some e =>
      some (sign (Json.nearestFloat (decimalValue (b ++ a)) (e - a.length)))
    | _, _, _ => none

/-- A number of exactly the given digits. -/
def digits? (cs : List Char) : Option Nat :=
  if cs.isEmpty || !cs.all isDigit then none else some (decimalValue cs)

/-- The characters of a text from one place up to another. -/
def slice (lo hi : Nat) (cs : List Char) : List Char := (cs.take hi).drop lo

/-- An offset: a letter for none, or a sign, hours and minutes. -/
def offset? (cs : List Char) : Option Int :=
  if cs = ['Z'] then some 0
  else
    match cs with
    | [] => none
    | sign :: _ => do
      let h ← digits? (slice 1 3 cs)
      let m ← digits? (slice 4 6 cs)
      some (if sign = '-' then -((h * 60 + m : Nat) : Int) else ((h * 60 + m : Nat) : Int))

/-- The microseconds and the offset that follow a time of day. -/
def fractionAndOffset (cs : List Char) : Nat × Option Int :=
  match cs with
  | '.' :: tail =>
    let isSign (c : Char) : Bool :=
      if tail.contains '+' then c == '+' else c == '-'
    let (sub, zone) := match tail.getLast? with
      | some z =>
        if z = 'Z' ∨ z = 'z' then (tail.dropLast, some ['Z'])
        else
          match tail.dropWhile (!isSign ·) with
          | [] => (tail, none)
          | zone => (tail.takeWhile (!isSign ·), some zone)
      | none => (tail, none)
    let zone? := match zone with
      | some z => (offset? z).map some
      | none => some none
    match zone?, digits? sub with
    | some zone, some n =>
      (if sub.length ≤ 6 then n * Nat.pow 10 (6 - sub.length)
        else n / Nat.pow 10 (sub.length - 6), zone)
    | _, _ => (0, none)
  | [] => (0, none)
  | zone => (0, offset? zone)

/-- A day, or a day and a time, of digits at fixed places. -/
def moment? (cs : List Char) : Option Moment :=
  if !(cs.drop 1).contains '-' then none
  else do
    let y ← digits? (slice 0 4 cs)
    let m ← digits? (slice 5 7 cs)
    let d ← digits? (slice 8 10 cs)
    if cs.length = 10 then
      let day ← Time.day? y m d
      some (.day day)
    else
      let h ← digits? (slice 11 13 cs)
      let mi ← digits? (slice 14 16 cs)
      let s ← digits? (slice 17 19 cs)
      let (us, zone) := fractionAndOffset (cs.drop 19)
      let day ← Time.day? y m d
      let clock ← Time.clock? h mi s us
      some (.both day clock zone)

/-- The parts of a time of day at the front of a text: pairs of digits between colons, and three to
six digits after a point if they are there. -/
def timeParts? : List Char → Option (Nat × Nat × Nat × Nat)
  | a :: b :: ':' :: c :: d :: ':' :: e :: f :: rest =>
    if [a, b, c, d, e, f].all isDigit then
      let sub := match rest with
        | '.' :: tail => (tail.takeWhile isDigit).take 6
        | _ => []
      some (decimalValue [a, b], decimalValue [c, d], decimalValue [e, f],
        if 3 ≤ sub.length then decimalValue sub else 0)
    else none
  | _ => none

end CodeSurvey.Toml
