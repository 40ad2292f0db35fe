import CodeSurvey.Time.Calendar

/-!
# Reading moments

A text of a moment is a day, one character and a time, or a day alone. The day is written with or
without hyphens, as year, month and day or as year, week and day of the week. The time is written
with or without colons; it may have a fraction and an offset. Without an offset it is universal
time.

Texts are read as bytes, and digits are ASCII digits.
-/

namespace CodeSurvey.Time

/-- The bytes of a text. -/
abbrev Bytes := List UInt8

/-- The byte of an ASCII character. -/
def byte (c : Char) : UInt8 := UInt8.ofNat c.toNat

/-- Whether a byte is a digit. -/
def isDigit (b : UInt8) : Bool := byte '0' ≤ b && b ≤ byte '9'

/-- A number of so many digits at the front of a text, and what follows. -/
def digits? (count : Nat) (bs : Bytes) : Option (Nat × Bytes) :=
  let ds := bs.take count
  if ds.length = count ∧ ds.all isDigit then
    some (ds.foldl (fun n d => n * 10 + (d.toNat - 48)) 0, bs.drop count)
  else none

/-- A text without the given byte at its front. -/
def skip? (c : Char) : Bytes → Option Bytes
  | b :: bs => if b = byte c then some bs else none
  | [] => none

/-- The number of bytes of a text that write the day, by its length, its hyphens and the letter of
weeks. Where a text with week and hyphens can be read in two ways, a hyphen before two digits ends
the day. -/
def dayLength (bs : Bytes) : Nat :=
  if bs.length = 7 then 7
  else if bs[4]? = some (byte '-') then
    if bs[5]? = some (byte 'W') then
      if bs[8]? = some (byte '-') then
        if bs.length = 9 then 9
        else if (bs[10]?).any isDigit then 8 else 10
      else 8
    else 10
  else if bs[4]? = some (byte 'W') then
    let last := 7 + ((bs.drop 7).takeWhile isDigit).length
    if last < 9 then last else if last % 2 = 0 then 7 else 8
  else 8

/-- The day that a text writes. -/
def readDay? (bs : Bytes) : Option Day := do
  let (y, bs) ← digits? 4 bs
  let (hasHyphens, bs) := match skip? '-' bs with
    | some bs => (true, bs)
    | none => (false, bs)
  let hyphen? (bs : Bytes) : Option Bytes := if hasHyphens then skip? '-' bs else some bs
  match skip? 'W' bs with
  | some bs => do
    let (week, bs) ← digits? 2 bs
    if bs.isEmpty then weekDay? y week 1
    else
      let (d, bs) ← digits? 1 (← hyphen? bs)
      if bs.isEmpty then weekDay? y week d else none
  | none => do
    let (m, bs) ← digits? 2 bs
    let (d, bs) ← digits? 2 (← hyphen? bs)
    if bs.isEmpty then day? y m d else none

/-- Whether a text ends: it is empty or goes on with a zero byte. -/
def atEnd (bs : Bytes) : Bool := bs.head?.all (· == 0)

/-- The microseconds of a fraction: its first six digits count, and something may follow only if
`mayFollow`. -/
def fraction? (mayFollow : Bool) (bs : Bytes) : Option Nat := do
  let count := min 6 bs.length
  let (n, rest) ← digits? count bs
  if mayFollow || atEnd (rest.dropWhile isDigit) then some (n * Nat.pow 10 (6 - count)) else none

/-- The further parts of a time, `parts` of them at most, each in two digits, and the fraction.
After the last part one byte may stand if `mayFollow`; with colons a colon or the mark of the
fraction follows every part. -/
def furtherParts? (mayFollow hasColons : Bool) : Nat → Bytes → Option (List Nat × Nat)
  | 0, bs => (fraction? mayFollow bs).map fun f => ([], f)
  | parts + 1, bs => do
    let (n, bs) ← digits? 2 bs
    match bs with
    | [] => some ([n], 0)
    | [b] => if mayFollow || atEnd [b] then some ([n], 0) else none
    | b :: rest =>
      let next (bs : Bytes) :=
        (furtherParts? mayFollow hasColons parts bs).map fun r => (n :: r.1, r.2)
      if hasColons && b == byte ':' then next rest
      else if b == byte '.' || b == byte ',' then (fraction? mayFollow rest).map fun f => ([n], f)
      else if hasColons then none
      else next bs

/-- The hours, minutes, seconds and microseconds of a time. -/
def readParts? (mayFollow : Bool) (bs : Bytes) : Option (Nat × Nat × Nat × Nat) :=
  let hasColons := bs[2]? == some (byte ':')
  (furtherParts? mayFollow hasColons 3 bs).map fun (parts, f) =>
    (parts.getD 0 0, parts.getD 1 0, parts.getD 2 0, f)

/-- The microseconds of an offset of less than a day. An offset of less than a second is none. -/
def readOffset? (ahead : Bool) (bs : Bytes) : Option Int := do
  let (h, m, s, us) ← readParts? false bs
  let seconds := (h * 60 + m) * 60 + s
  let n := seconds * microsPerSecond + us
  if seconds = 0 then some 0
  else if microsPerDay ≤ n then none
  else some (if ahead then n else -n)

/-- The time of day and the offset that a text writes. -/
def readTime? (bs : Bytes) : Option (Clock × Int) := do
  let isSign (b : UInt8) : Bool := b == byte '+' || b == byte '-'
  let (before, zone) := bs.span (!isSign ·)
  let (h, m, s, us) ← readParts? (!zone.isEmpty) before
  let offset ← match zone with
    | [] => some 0
    | sign :: zone => readOffset? (sign == byte '+') zone
  let clock ← clock? h m s us
  return (clock, offset)

/-- A text without its first character, whatever the number of its bytes. -/
def dropChar (bs : Bytes) : Bytes := (bs.drop 1).dropWhile fun b => 0x80 ≤ b && b < 0xC0

/-- The moment that a text writes; the letter `Z` stands for no offset. -/
def Moment.ofText? (text : String) : Option Moment := do
  let chars := text.toList.flatMap fun c => if c = 'Z' then "+00:00".toList else [c]
  let bs := (String.ofList chars).toUTF8.toList
  if chars.length < 7 then none
  else
    let count := dayLength bs
    let day ← readDay? (bs.take count)
    match bs.drop count with
    | [] => return ⟨day, Clock.midnight, 0⟩
    | rest =>
      let (clock, offset) ← readTime? (dropChar rest)
      return ⟨day, clock, offset⟩

end CodeSurvey.Time
