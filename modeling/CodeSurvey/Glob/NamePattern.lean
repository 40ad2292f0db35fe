import CodeSurvey.Glob.CharSet

/-!
# Patterns for names

A pattern for a single name: `*` is any run of characters, `?` any one character, and brackets
hold a set. A bracket that is not closed stands for itself, and a range in the wrong order holds
nothing.
-/

namespace CodeSurvey.Glob

/-- A part of a name pattern. -/
inductive NamePart where
  /-- The character itself. -/
  | char (c : Char)
  /-- Any character. -/
  | one
  /-- Any run of characters. -/
  | run
  /-- A character of a set. -/
  | set (s : CharSet)
  deriving Repr, DecidableEq

/-- The parts of a name pattern; `fuel` is at least the length of the text. -/
def namePartsFrom : Nat → List Char → List NamePart
  | 0, _ => []
  | _ + 1, [] => []
  | fuel + 1, '*' :: rest => .run :: namePartsFrom fuel rest
  | fuel + 1, '?' :: rest => .one :: namePartsFrom fuel rest
  | fuel + 1, '[' :: rest =>
    match bracketText? ['!'] rest with
    | some (text, after) =>
      let set := CharSet.ofText ['!'] text
      .set ⟨set.negated, set.items.filter fun i => !i.isReversed⟩ :: namePartsFrom fuel after
    | none => .char '[' :: namePartsFrom fuel rest
  | fuel + 1, c :: rest => .char c :: namePartsFrom fuel rest

/-- The parts of a name pattern. -/
def nameParts (pattern : String) : List NamePart :=
  namePartsFrom pattern.length pattern.toList

/-- All that can remain of a text after a run of characters: its ends. -/
def tails : List Char → List (List Char)
  | [] => [[]]
  | c :: cs => (c :: cs) :: tails cs

/-- What can remain of a name after one part. -/
def NamePart.rests (p : NamePart) (cs : List Char) : List (List Char) :=
  match p, cs with
  | run, cs => tails cs
  | _, [] => []
  | char c, d :: rest => if c = d then [rest] else []
  | one, _ :: rest => [rest]
  | set s, d :: rest => if s.holds d then [rest] else []

/-- Whether a name matches the parts of a pattern as a whole. -/
def matchesName (parts : List NamePart) (name : String) : Bool :=
  (parts.foldl (fun rests p => rests.flatMap p.rests) [name.toList]).contains []

/-- Whether a text has a character with a meaning in name patterns. -/
def hasWildcard (text : String) : Bool := text.toList.any fun c => c == '*' || c == '?' || c == '['

end CodeSurvey.Glob
