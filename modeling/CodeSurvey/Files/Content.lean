import CodeSurvey.Files.Name

/-!
# File contents as text

Bytes are text in UTF-8; where they are not, each byte may be taken as the character of its
number, or each faulty part as a replacement character.
-/

namespace CodeSurvey.Files

/-- The text of bytes in UTF-8. -/
def utf8? (bytes : ByteArray) : Option String := String.fromUTF8? bytes

/-- Each byte as the character of its number. -/
def byteText (bytes : ByteArray) : String :=
  String.ofList (bytes.toList.map fun b => Char.ofNat b.toNat)

/-- The text of bytes in UTF-8, or else each byte as a character. -/
def textOf (bytes : ByteArray) : String :=
  match utf8? bytes with
  | some s => s
  | none => byteText bytes

/-- The number of continuation bytes after a first byte, and the range of the next byte. -/
def sequenceOf? (b : Nat) : Option (Nat × Nat × Nat) :=
  if 0xC2 ≤ b ∧ b ≤ 0xDF then some (1, 0x80, 0xBF)
  else if b = 0xE0 then some (2, 0xA0, 0xBF)
  else if b = 0xED then some (2, 0x80, 0x9F)
  else if 0xE1 ≤ b ∧ b ≤ 0xEF then some (2, 0x80, 0xBF)
  else if b = 0xF0 then some (3, 0x90, 0xBF)
  else if 0xF1 ≤ b ∧ b ≤ 0xF3 then some (3, 0x80, 0xBF)
  else if b = 0xF4 then some (3, 0x80, 0x8F)
  else none

/-- The longest part of `bytes` that can continue a sequence: at most `count` bytes, the first of
them from `lo` to `hi`, the others any continuation bytes. -/
def continuation (count lo hi : Nat) : List Nat → List Nat
  | [] => []
  | b :: rest =>
    match count with
    | 0 => []
    | count + 1 =>
      if lo ≤ b ∧ b ≤ hi then b :: continuation count 0x80 0xBF rest else []

/-- The characters of bytes, with a replacement character for each faulty part; `fuel` is at least
the number of bytes, and `out` holds what is done, reversed. -/
def lenientChars : Nat → List Char → List Nat → List Char
  | 0, out, _ => out.reverse
  | _ + 1, out, [] => out.reverse
  | fuel + 1, out, b :: rest =>
    if b < 0x80 then lenientChars fuel (Char.ofNat b :: out) rest
    else
      match sequenceOf? b with
      | none => lenientChars fuel (Char.ofNat 0xFFFD :: out) rest
      | some (count, lo, hi) =>
        let tail := continuation count lo hi rest
        let c :=
          if tail.length = count then
            Char.ofNat (tail.foldl (fun n t => n * 64 + t % 64) (b % Nat.pow 2 (6 - count)))
          else Char.ofNat 0xFFFD
        lenientChars fuel (c :: out) (rest.drop tail.length)

/-- The text of bytes, with a replacement character for each faulty part. -/
def lenientText (bytes : ByteArray) : String :=
  match utf8? bytes with
  | some s => s
  | none => String.ofList (lenientChars bytes.size [] (bytes.toList.map (·.toNat)))

/-- A text as it is read from a file that is opened as text: every line boundary of the three
usual kinds is a line feed. -/
def universalLines (s : String) : String :=
  String.ofList (go [] s.toList)
where
  /-- `out` holds what is done, reversed. -/
  go (out : List Char) : List Char → List Char
    | [] => out.reverse
    | '\r' :: '\n' :: rest => go ('\n' :: out) rest
    | '\r' :: rest => go ('\n' :: out) rest
    | c :: rest => go (c :: out) rest

end CodeSurvey.Files
