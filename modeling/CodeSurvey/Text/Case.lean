import CodeSurvey.Text.Blank
import CodeSurvey.Text.CaseTable
import CodeSurvey.Text.WordTable

/-!
# Letter case and word characters

Lower, upper and title case by the full mappings of Unicode, and the classes of characters that
names and words are made of.
-/

namespace CodeSurvey.Text

/-- Whether a code point lies in one of the ranges. -/
def inRanges (ranges : List (Nat × Nat)) (n : Nat) : Bool :=
  ranges.any fun r => r.1 ≤ n && n ≤ r.2

/-- Whether a code point lies on one of the runs. -/
def onRuns (runs : List (Nat × Nat × Nat)) (n : Nat) : Bool :=
  runs.any fun r => r.1 ≤ n && n ≤ r.2.1 && (n - r.1) % r.2.2 == 0

/-- The image of a code point under a mapping given by exceptions and runs. -/
def mapByRuns (special : List (Nat × List Nat)) (runs : List (Nat × Nat × Nat × Int)) (c : Char) :
    List Char :=
  let n := c.toNat
  match special.find? (·.1 == n) with
  | some (_, image) => image.map Char.ofNat
  | none =>
    match runs.find? fun r => r.1 ≤ n && n ≤ r.2.1 && (n - r.1) % r.2.2.1 == 0 with
    | some (_, _, _, shift) => [Char.ofNat (n + shift).toNat]
    | none => [c]

/-- Whether a character is a letter, a digit or another numeric character, or the underscore. -/
def isWord (c : Char) : Bool :=
  if c.toNat < 128 then c.isAlphanum || c == '_' else inRanges wordRanges c.toNat

/-- Whether a character is an upper-case one. -/
def isUpper (c : Char) : Bool :=
  if c.toNat < 128 then c.isUpper else onRuns upperCaseRuns c.toNat

/-- Whether a character has a case. -/
def isCased (c : Char) : Bool :=
  if c.toNat < 128 then c.isAlpha else onRuns casedRuns c.toNat

/-- Whether a test of the neighbouring case passes over a character. -/
def isCaseIgnorable (c : Char) : Bool := inRanges caseIgnorableRanges c.toNat

/-- The capital letter sigma, whose lower-case form depends on its place. -/
def capitalSigma : Char := Char.ofNat 0x3A3

/-- The lower-case form of a character by itself. -/
def lowerChar (c : Char) : List Char :=
  if c.toNat < 128 then [c.toLower] else mapByRuns toLowerSpecial toLowerRuns c

/-- The upper-case form of a character. -/
def upperChar (c : Char) : List Char :=
  if c.toNat < 128 then [c.toUpper] else mapByRuns toUpperSpecial toUpperRuns c

/-- The title-case form of a character. -/
def titleChar (c : Char) : List Char :=
  match toTitleSpecial.find? (·.1 == c.toNat) with
  | some (_, image) => image.map Char.ofNat
  | none => upperChar c

/-- Whether the first character that is not passed over has a case. -/
def meetsCased (cs : List Char) : Bool :=
  match cs.dropWhile isCaseIgnorable with
  | [] => false
  | c :: _ => isCased c

/-- The lower-case form of a capital sigma between what stands `before` it, nearest first, and
`after` it: the final form at the end of a word, the common one elsewhere. -/
def lowerSigma (before after : List Char) : Char :=
  if meetsCased before && !meetsCased after then Char.ofNat 0x3C2 else Char.ofNat 0x3C3

/-- The lower-case form of a list of characters. -/
def lowerChars (cs : List Char) : List Char :=
  if cs.contains capitalSigma then go [] cs [] else cs.flatMap lowerChar
where
  /-- `before` and `out` are reversed. -/
  go (before : List Char) (rest : List Char) (out : List Char) : List Char :=
    match rest with
    | [] => out.reverse
    | c :: rest =>
      let image := if c = capitalSigma then [lowerSigma before rest] else lowerChar c
      go (c :: before) rest (image.reverse ++ out)

/-- The title-case form of a list of characters: a character that follows one with a case is put
in lower case, every other one in title case. -/
def titleChars (cs : List Char) : List Char :=
  go [] cs []
where
  /-- `before` and `out` are reversed. -/
  go (before : List Char) (rest : List Char) (out : List Char) : List Char :=
    match rest with
    | [] => out.reverse
    | c :: rest =>
      let inWord := match before with
        | [] => false
        | b :: _ => isCased b
      let image :=
        if inWord then (if c = capitalSigma then [lowerSigma before rest] else lowerChar c)
        else titleChar c
      go (c :: before) rest (image.reverse ++ out)

/-- The lower-case form of a text. -/
def lower (s : String) : String := String.ofList (lowerChars s.toList)

/-- The title-case form of a text. -/
def title (s : String) : String := String.ofList (titleChars s.toList)

/-- A text whose first character is put in upper case. -/
def capitalizeFirst (s : String) : String :=
  match s.toList with
  | [] => ""
  | c :: rest => String.ofList (upperChar c ++ rest)

/-- The parts of a name between underscores as one name, where each part but the first is written
in title case. -/
def camelName (name : String) : String :=
  match split name '_' with
  | [] => ""
  | head :: rest => head ++ String.join (rest.map title)

end CodeSurvey.Text
