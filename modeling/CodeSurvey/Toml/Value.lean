import CodeSurvey.Json.Basic
import CodeSurvey.Time.Calendar

/-!
# Settings values

What a settings file can say: texts, numbers, truth values, points in time, arrays and tables.
-/

namespace CodeSurvey.Toml

open CodeSurvey.Text (padded)
open CodeSurvey.Time (Day Clock)

/-- A point in time, more or less complete. -/
inductive Moment where
  | day (d : Day)
  | time (c : Clock)
  /-- A day and a time, with the minutes east of Greenwich if they are given. -/
  | both (d : Day) (c : Clock) (offset : Option Int)
  deriving Repr, DecidableEq

/-- An offset in hours and minutes. -/
def offsetText (minutes : Int) : String :=
  (if minutes < 0 then "-" else "+") ++ padded 2 (minutes.natAbs / 60) ++ ":" ++
    padded 2 (minutes.natAbs % 60)

/-- A point in time, with `between` after the day. -/
def Moment.textWith (between : String) : Moment → String
  | day d => d.text
  | time c => c.text
  | both d c offset =>
    d.text ++ between ++ c.text ++ match offset with
      | some m => offsetText m
      | none => ""

/-- A value of a settings file. -/
inductive Value where
  /-- No value; it is never read, and left out when it is written. -/
  | none
  | str (s : String)
  | int (n : Int)
  | float (x : Float)
  | bool (b : Bool)
  | moment (m : Moment)
  | array (items : List Value)
  /-- The entries of a table in order. -/
  | table (entries : List (String × Value))
  deriving Inhabited

namespace Value

/-- The value of a key of a table. -/
def get? (v : Value) (key : String) : Option Value :=
  match v with
  | table entries => (entries.find? (·.1 == key)).map (·.2)
  | _ => Option.none

/-- The entries of a table with one more: a key that is there already keeps its place. -/
def putEntry (key : String) (value : Value) : List (String × Value) → List (String × Value)
  | [] => [(key, value)]
  | (k, v) :: rest => if k = key then (k, value) :: rest else (k, v) :: putEntry key value rest

mutual

/-- A value in the terms of JSON, where a point in time is a text. -/
def toJson : Value → Json
  | none => .null
  | str s => .str s
  | int n => .int n
  | float x => .float x
  | bool b => .bool b
  | moment m => .str (m.textWith " ")
  | array items => .arr (itemsToJson items)
  | table entries => .obj (entriesToJson entries)

/-- The items of an array in the terms of JSON. -/
def itemsToJson : List Value → List Json
  | [] => []
  | v :: rest => toJson v :: itemsToJson rest

/-- The entries of a table in the terms of JSON. -/
def entriesToJson : List (String × Value) → List (String × Json)
  | [] => []
  | (k, v) :: rest => (k, toJson v) :: entriesToJson rest

end

mutual

/-- A value given in the terms of JSON. -/
def ofJson : Json → Value
  | .null => none
  | .str s => str s
  | .int n => int n
  | .float x => float x
  | .bool b => bool b
  | .arr items => array (itemsOfJson items)
  | .obj members => table (entriesOfJson members)

/-- Items given in the terms of JSON. -/
def itemsOfJson : List Json → List Value
  | [] => []
  | j :: rest => ofJson j :: itemsOfJson rest

/-- Entries given in the terms of JSON. -/
def entriesOfJson : List (String × Json) → List (String × Value)
  | [] => []
  | (k, j) :: rest => (k, ofJson j) :: entriesOfJson rest

end

end Value

end CodeSurvey.Toml
