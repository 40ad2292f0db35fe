import CodeSurvey.Text.Basic

/-!
# White space and line boundaries

The characters that count as white space and those that end a line, and what is cut with them:
trimming, words and lines. A carriage return followed by a line feed is one boundary.
-/

namespace CodeSurvey.Text

/-- White space: the ASCII blanks and separators, the next-line character, and Unicode's spaces. -/
def isBlank (c : Char) : Bool :=
  let n := c.toNat
  (9 ≤ n && n ≤ 13) || (28 ≤ n && n ≤ 32) || n == 0x85 || n == 0xA0 || n == 0x1680 ||
    (0x2000 ≤ n && n ≤ 0x200A) || n == 0x2028 || n == 0x2029 || n == 0x202F || n == 0x205F ||
    n == 0x3000

/-- The characters that end a line. -/
def isLineEnd (c : Char) : Bool :=
  let n := c.toNat
  (10 ≤ n && n ≤ 13) || (28 ≤ n && n ≤ 30) || n == 0x85 || n == 0x2028 || n == 0x2029

/-- A list of characters without the white space at its ends. -/
def stripBlanks (cs : List Char) : List Char := stripBy isBlank cs

/-- A text without the white space at its ends. -/
def strip (s : String) : String := String.ofList (stripBlanks s.toList)

/-- The lines of a list of characters, without the boundaries that end them; a boundary at the
very end opens no further line. -/
def lineLists (cs : List Char) : List (List Char) :=
  go [] [] cs
where
  /-- `line` holds the current line and `done` the finished ones, both reversed. -/
  go (line : List Char) (done : List (List Char)) : List Char → List (List Char)
    | [] => (if line.isEmpty then done else line.reverse :: done).reverse
    | '\r' :: '\n' :: rest => go [] (line.reverse :: done) rest
    | c :: rest =>
      if isLineEnd c then go [] (line.reverse :: done) rest else go (c :: line) done rest

/-- The lines of a text. -/
def lines (s : String) : List String := (lineLists s.toList).map String.ofList

/-- The longest runs of characters that are not white space. -/
def wordLists (cs : List Char) : List (List Char) :=
  let out := cs.foldr
    (fun c (acc : List Char × List (List Char)) =>
      if isBlank c then
        ([], if acc.1.isEmpty then acc.2 else acc.1 :: acc.2)
      else (c :: acc.1, acc.2))
    ([], [])
  if out.1.isEmpty then out.2 else out.1 :: out.2

/-- A list of characters with every run of white space replaced by one space. -/
def collapseBlanks (cs : List Char) : List Char :=
  cs.foldr
    (fun c acc =>
      if isBlank c then
        match acc with
        | ' ' :: _ => acc
        | _ => ' ' :: acc
      else c :: acc)
    []

end CodeSurvey.Text
