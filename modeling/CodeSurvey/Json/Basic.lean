/-!
# JSON values

A JSON value keeps the order of an object's keys, tells whole numbers from fractional ones, and
holds whole numbers of any size.
-/

namespace CodeSurvey

/-- A JSON value. -/
inductive Json where
  | null
  | bool (b : Bool)
  /-- A number written without point and exponent. -/
  | int (n : Int)
  /-- A number written with a point or an exponent, an infinity, or no number. -/
  | float (x : Float)
  | str (s : String)
  | arr (items : List Json)
  /-- The members in order; no key occurs twice in a value that was read. -/
  | obj (members : List (String × Json))
  deriving Inhabited

namespace Json

/-- The members of an object with one more: a key that is there already keeps its place and takes
the new value. -/
def putMember (key : String) (value : Json) : List (String × Json) → List (String × Json)
  | [] => [(key, value)]
  | (k, v) :: rest => if k = key then (k, value) :: rest else (k, v) :: putMember key value rest

/-- The value of a key among the members of an object. -/
def findMember (key : String) (members : List (String × Json)) : Option Json :=
  (members.find? (·.1 == key)).map (·.2)

/-- The value of a key, if the value is an object that has it. -/
def get? (j : Json) (key : String) : Option Json :=
  match j with
  | obj members => findMember key members
  | _ => none

/-- The text of a string value. -/
def str? : Json → Option String
  | str s => some s
  | _ => none

/-- The truth value of a Boolean. -/
def bool? : Json → Option Bool
  | bool b => some b
  | _ => none

/-- The items of an array. -/
def arr? : Json → Option (List Json)
  | arr items => some items
  | _ => none

/-- The members of an object. -/
def obj? : Json → Option (List (String × Json))
  | obj members => some members
  | _ => none

/-- The number of a whole number that is not negative. -/
def count? : Json → Option Nat
  | int n => if 0 ≤ n then some n.toNat else none
  | _ => none

/-- The texts of an array that holds strings only. -/
def strings? : Json → Option (List String)
  | arr items => items.mapM str?
  | _ => none

/-- The value of a key that is a string. -/
def getStr? (j : Json) (key : String) : Option String := (j.get? key).bind str?

/-- A record: an object with the members that are there. -/
def record (xs : List (String × Option Json)) : Json :=
  .obj (xs.filterMap fun x => x.2.map fun v => (x.1, v))

/-- A list of texts. -/
def texts (xs : List String) : Json := .arr (xs.map .str)

/-- A number that counts something. -/
def count (n : Nat) : Json := .int n

/-- The most digits of a whole number that is read or written. -/
def maxIntDigits : Nat := 4300

mutual

/-- Whether no whole number in a value has more digits than are written. -/
def hasShortInts : Json → Bool
  | int n => (Nat.toDigits 10 n.natAbs).length ≤ maxIntDigits
  | arr items => itemsHaveShortInts items
  | obj members => membersHaveShortInts members
  | _ => true

/-- The same of the items of an array. -/
def itemsHaveShortInts : List Json → Bool
  | [] => true
  | item :: items => hasShortInts item && itemsHaveShortInts items

/-- The same of the members of an object. -/
def membersHaveShortInts : List (String × Json) → Bool
  | [] => true
  | (_, value) :: members => hasShortInts value && membersHaveShortInts members

end

/-- Whether a value counts as true: nothing, `false`, zero and what is empty do not. -/
def isTruthy : Json → Bool
  | null => false
  | bool b => b
  | int n => n != 0
  | float x => x != 0.0
  | str s => !s.isEmpty
  | arr items => !items.isEmpty
  | obj members => !members.isEmpty

end Json

end CodeSurvey
