/-!
# Texts as lists of characters

Cutting, trimming and joining. The functions come in two forms: on `List Char`, where they are
reasoned about, and on `String`, where records use them.
-/

namespace CodeSurvey.Text

/-- The pieces of a list between the occurrences of `sep`, in order: there is always one more
piece than there are separators. -/
def splitOn (sep : Char) (cs : List Char) : List (List Char) :=
  let out := cs.foldr
    (fun c (acc : List Char × List (List Char)) =>
      if c = sep then ([], acc.1 :: acc.2) else (c :: acc.1, acc.2))
    ([], [])
  out.1 :: out.2

/-- A list without its longest end of characters that satisfy `p`. -/
def dropEndWhile (p : Char → Bool) (cs : List Char) : List Char :=
  (cs.reverse.dropWhile p).reverse

/-- A list without its longest start and its longest end of characters that satisfy `p`. -/
def stripBy (p : Char → Bool) (cs : List Char) : List Char :=
  dropEndWhile p (cs.dropWhile p)

/-- The rest of `cs` after a first part equal to `start`, if it begins so. -/
def dropStart? : List Char → List Char → Option (List Char)
  | [], cs => some cs
  | _ :: _, [] => none
  | s :: start, c :: cs => if s = c then dropStart? start cs else none

/-- Whether `needle` occurs in `cs` as a contiguous part. -/
def hasPart (needle : List Char) : List Char → Bool
  | [] => needle.isEmpty
  | c :: cs => needle.isPrefixOf (c :: cs) || hasPart needle cs

/-- The part of `cs` before its first occurrence of `needle` and the part after it. -/
def cutAt? (needle : List Char) (cs : List Char) : Option (List Char × List Char) :=
  go [] cs
where
  go (before : List Char) (rest : List Char) : Option (List Char × List Char) :=
    match dropStart? needle rest with
    | some after => some (before.reverse, after)
    | none =>
      match rest with
      | [] => none
      | c :: rest => go (c :: before) rest

/-- The elements of a list in order of their first occurrence, each once. -/
def distinct {α : Type} [BEq α] (xs : List α) : List α :=
  (xs.foldl (fun seen x => if seen.contains x then seen else x :: seen) []).reverse

/-- The pieces of a text between the occurrences of a character. -/
def split (s : String) (sep : Char) : List String :=
  (splitOn sep s.toList).map String.ofList

/-- The texts of a list, with `sep` between each two. -/
def join (sep : String) : List String → String
  | [] => ""
  | s :: rest => rest.foldl (fun acc t => acc ++ sep ++ t) s

/-- A text with every occurrence of one character replaced by another. -/
def replaceChar (old new : Char) (s : String) : String :=
  String.ofList (s.toList.map fun c => if c = old then new else c)

/-- A text without its longest start and end made of the character `c`. -/
def trimChar (c : Char) (s : String) : String :=
  String.ofList (stripBy (· == c) s.toList)

/-- Whether a text begins with another. -/
def hasStart (start s : String) : Bool :=
  start.toList.isPrefixOf s.toList

/-- Whether a text ends with another. -/
def hasEnd (ending s : String) : Bool :=
  ending.toList.isSuffixOf s.toList

/-- Whether a text contains another. -/
def contains (needle s : String) : Bool :=
  hasPart needle.toList s.toList

/-- The part of a text after the last occurrence of a character, or the whole text. -/
def afterLast (sep : Char) (s : String) : String :=
  String.ofList ((s.toList.reverse.takeWhile (· != sep)).reverse)

/-- The part of a text before the last occurrence of a character, if there is one. -/
def beforeLast? (sep : Char) (s : String) : Option String :=
  match s.toList.reverse.dropWhile (· != sep) with
  | [] => none
  | _ :: before => some (String.ofList before.reverse)

/-- The text of a list of hexadecimal digits in lower case, `width` of them. -/
def hexDigits (width n : Nat) : String :=
  let digits := Nat.toDigits 16 n
  String.ofList (List.replicate (width - digits.length) '0' ++ digits)

/-- The value of a hexadecimal digit in either case. -/
def hexValue? (c : Char) : Option Nat :=
  if '0' ≤ c ∧ c ≤ '9' then some (c.toNat - '0'.toNat)
  else if 'a' ≤ c ∧ c ≤ 'f' then some (c.toNat - 'a'.toNat + 10)
  else if 'A' ≤ c ∧ c ≤ 'F' then some (c.toNat - 'A'.toNat + 10)
  else none

/-- Whether a character is one of the ten ASCII digits. -/
def isDigit (c : Char) : Bool := '0' ≤ c && c ≤ '9'

/-- The number that a list of ASCII digits writes in base ten. -/
def decimalValue (ds : List Char) : Nat :=
  ds.foldl (fun n d => n * 10 + (d.toNat - '0'.toNat)) 0

/-- A number in base ten with at least `width` digits, filled with zeros on the left. -/
def padded (width n : Nat) : String :=
  let digits := Nat.toDigits 10 n
  String.ofList (List.replicate (width - digits.length) '0' ++ digits)

end CodeSurvey.Text
