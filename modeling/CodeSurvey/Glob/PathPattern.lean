import CodeSurvey.Glob.CharSet
import CodeSurvey.Text.Blank

/-!
# Patterns for paths

A pattern for a path from the root: the segments between slashes are matched one by one, a segment
`**` stands for any directories, `*` and `?` do not cross a slash, a backslash takes the next
character as itself, and brackets hold a set. A pattern also matches what lies below a path that
it matches. `compile` reads a pattern and `matchesPath` applies it.
-/

namespace CodeSurvey.Glob

/-- A part of a path pattern. -/
inductive PathPart where
  /-- The character itself. -/
  | char (c : Char)
  /-- Any character but a slash. -/
  | one
  /-- Any run of characters without a slash. -/
  | run
  /-- Any run of characters without a slash that is not empty. -/
  | segment
  /-- A character of a set. -/
  | set (s : CharSet)
  /-- Any directories at the start of the path, or none. -/
  | anyStart
  /-- Any directories between two segments, or none. -/
  | anyMiddle
  /-- The end of the path or of a directory name in it. -/
  | stop
  deriving Repr, DecidableEq

/-- A compiled path pattern. -/
inductive PathPattern where
  /-- Matches no path. -/
  | nothing
  /-- Matches every path with a character that is no line feed. -/
  | anything
  /-- Matches every path with a slash. -/
  | anyBelow
  /-- Matches the paths that begin with what the parts match. -/
  | parts (parts : List PathPart)
  deriving Repr, DecidableEq

/-- Why a pattern is refused. -/
inductive PatternError where
  /-- The pattern ends with a backslash that takes nothing. -/
  | loneBackslash
  /-- A range has its ends in the wrong order. -/
  | badRange
  deriving Repr, DecidableEq

/-- Why a segment has no parts. -/
inductive SegmentFault where
  /-- A backslash at the end takes nothing. -/
  | loneBackslash
  /-- A bracket is not closed. -/
  | openBracket
  deriving Repr, DecidableEq

/-- The parts of a segment; `fuel` is at least its length. -/
def segmentPartsFrom : Nat → List Char → Except SegmentFault (List PathPart)
  | 0, _ => .ok []
  | _ + 1, [] => .ok []
  | _ + 1, ['\\'] => .error .loneBackslash
  | fuel + 1, '\\' :: c :: rest => (segmentPartsFrom fuel rest).map (.char c :: ·)
  | fuel + 1, '*' :: rest => (segmentPartsFrom fuel rest).map (.run :: ·)
  | fuel + 1, '?' :: rest => (segmentPartsFrom fuel rest).map (.one :: ·)
  | fuel + 1, '[' :: rest =>
    match bracketText? ['!', '^'] rest with
    | some (text, after) =>
      (segmentPartsFrom fuel after).map (.set (CharSet.ofText ['!', '^'] text) :: ·)
    | none => .error .openBracket
  | fuel + 1, c :: rest => (segmentPartsFrom fuel rest).map (.char c :: ·)

/-- The parts of a segment. -/
def segmentParts (seg : List Char) : Except SegmentFault (List PathPart) :=
  segmentPartsFrom seg.length seg

/-- The segment that stands for any directories. -/
def anyDirs : List Char := ['*', '*']

/-- The segments of a pattern with every run of `**` made one. -/
def collapseAnyDirs : List (List Char) → List (List Char)
  | a :: b :: rest =>
    if a = anyDirs ∧ b = anyDirs then collapseAnyDirs (b :: rest)
    else a :: collapseAnyDirs (b :: rest)
  | segs => segs

/-- The parts of the segments from one on, where `slash` is what separates it from what is before
it and `first` says whether it is the first segment. -/
def segmentsParts (first : Bool) (slash : List PathPart) :
    List (List Char) → Except SegmentFault (List PathPart)
  | [] => .ok []
  | [seg] =>
    if seg = anyDirs then .ok [.char '/']
    else if seg = ['*'] then .ok (slash ++ [.segment, .stop])
    else (segmentParts seg).map fun ps => slash ++ ps ++ [.stop]
  | seg :: rest =>
    if seg = anyDirs then
      if first then (segmentsParts false [] rest).map (.anyStart :: ·)
      else (segmentsParts false [.char '/'] rest).map (.anyMiddle :: ·)
    else
      match (if seg = ['*'] then .ok [.segment] else segmentParts seg) with
      | .error e => .error e
      | .ok ps => (segmentsParts false [.char '/'] rest).map fun qs => slash ++ ps ++ qs

/-- Whether a part is a set with a range in the wrong order. -/
def PathPart.isBad : PathPart → Bool
  | set s => s.items.any (·.isReversed)
  | _ => false

/-- A pattern without the white space at its end, unless the last blank is taken by a
backslash. -/
def trimPattern (cs : List Char) : List Char :=
  match cs.reverse with
  | ' ' :: '\\' :: _ => cs
  | _ => Text.dropEndWhile Text.isBlank cs

/-- The segments of a pattern: a last empty segment stands for any directories below. -/
def closeSegments (segs : List (List Char)) : List (List Char) :=
  match segs.reverse with
  | [] :: before => if before.isEmpty then segs else (anyDirs :: before).reverse
  | _ => segs

/-- The compiled form of a pattern that is matched from the root. -/
def compile (pattern : List Char) : Except PatternError PathPattern :=
  match trimPattern pattern with
  | [] => .ok .nothing
  | trimmed =>
    let segs := collapseAnyDirs (Text.splitOn '/' trimmed)
    if segs = [anyDirs] ∨ segs = [anyDirs, ['*']] then .ok .anything
    else if segs = [anyDirs, []] then .ok .anyBelow
    else
      match segmentsParts true [] (closeSegments segs) with
      | .error .openBracket => .ok .nothing
      | .error .loneBackslash => .error .loneBackslash
      | .ok ps => if ps.any (·.isBad) then .error .badRange else .ok (.parts ps)

/-- The ends of a text that are reached over characters that satisfy `p`. -/
def tailsWhile (p : Char → Bool) : List Char → List (List Char)
  | [] => [[]]
  | c :: cs => (c :: cs) :: if p c then tailsWhile p cs else []

/-- Whether a character is no slash. -/
def notSlash (c : Char) : Bool := c != '/'

/-- Whether a character is no line feed. -/
def notFeed (c : Char) : Bool := c != '\n'

/-- What can remain of a path after one part. -/
def PathPart.rests (p : PathPart) (cs : List Char) : List (List Char) :=
  match p, cs with
  | run, cs => tailsWhile notSlash cs
  | anyStart, [] => [[]]
  | anyStart, c :: cs =>
    (c :: cs) :: if notFeed c then
      (tailsWhile notFeed cs).filterMap fun
        | '/' :: rest => some rest
        | _ => none
    else []
  | anyMiddle, cs =>
    cs :: match cs with
      | '/' :: c :: rest => if notFeed c then tailsWhile notFeed rest else []
      | _ => []
  | stop, [] => [[]]
  | stop, ['\n'] => [['\n']]
  | stop, '/' :: rest => [rest]
  | stop, _ => []
  | _, [] => []
  | char c, d :: rest => if c = d then [rest] else []
  | one, d :: rest => if notSlash d then [rest] else []
  | segment, d :: rest => if notSlash d then tailsWhile notSlash rest else []
  | set s, d :: rest => if s.holds d then [rest] else []

/-- Whether a pattern matches a path. -/
def PathPattern.matchesPath (p : PathPattern) (path : List Char) : Bool :=
  match p with
  | nothing => false
  | anything => path.any notFeed
  | anyBelow => path.contains '/'
  | parts ps => !(ps.foldl (fun rests p => rests.flatMap p.rests) [path]).isEmpty

end CodeSurvey.Glob
