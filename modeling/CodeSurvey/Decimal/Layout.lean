import CodeSurvey.Decimal.Binary
import CodeSurvey.Text.Basic

/-!
# Number texts

The shortest digits of a double are those of a decimal number that rounds to it: one with the fewest
digits, and of these the nearest to the double. Numbers are laid out with the shortest digits for
stored values, six significant digits for durations, and one place after the point for sizes.
-/

namespace CodeSurvey.Decimal

open CodeSurvey.Text (padded)

/-! ## The shortest digits that read back -/

/-- The digits `d₁ d₂ … dₙ` of a positive number and the place of its point: the number is
`0.d₁d₂…dₙ * 10 ^ point`. -/
structure Digits where
  /-- The digits as a whole number without trailing zeros. -/
  digits : Nat
  /-- The place of the point. -/
  point : Int
  deriving Repr, DecidableEq

/-- A whole number without its trailing zeros; `fuel` bounds their count. -/
def dropZeros : Nat → Nat → Nat
  | 0, n => n
  | fuel + 1, n => if n ≠ 0 ∧ n % 10 = 0 then dropZeros fuel (n / 10) else n

/-- The number of digits `ds` at scale `10 ^ e`, in normal form. -/
def Digits.ofScaled (ds : Nat) (e : Int) : Digits :=
  ⟨dropZeros (digitCount ds) ds, digitCount ds + e⟩

/-- The interval of the numbers that round to a positive double: the half-way points to its two
neighbours, and whether these belong to it. The lower neighbour of a power of two is half as far
as the upper one. -/
def roundingInterval (b : Binary) : Ratio × Ratio × Bool :=
  let lo := if b.m = Nat.pow 2 52 ∧ -1074 < b.q then 4 * b.m - 1 else 4 * b.m - 2
  (Ratio.ofScaled lo (b.q - 2), Ratio.ofScaled (4 * b.m + 2) (b.q - 2), b.m % 2 == 0)

/-- Whether a fraction lies in a rounding interval. -/
def inInterval (i : Ratio × Ratio × Bool) (r : Ratio) : Bool :=
  if i.2.2 then i.1.le r && r.le i.2.1 else i.1.lt r && r.lt i.2.1

/-- The point of the grid of step `10 ^ e` next to a positive double that rounds to it, the nearer
one if both do. -/
def onGrid? (b : Binary) (e : Int) : Option Nat :=
  let r := b.ratio
  let scaled := r.shift (-e)
  let below := scaled.num / scaled.den
  let i := roundingInterval b
  let hits (n : Nat) : Bool := n ≠ 0 && inInterval i (Ratio.shift ⟨n, 1⟩ e)
  match hits below, hits (below + 1) with
  | true, true => some scaled.round
  | true, false => some below
  | false, true => some (below + 1)
  | false, false => none

/-- The shortest digits of a positive double, tried with `count` digits and then with more. -/
def shortestFrom (b : Binary) (k : Int) : Nat → Nat → Digits
  | 0, count => Digits.ofScaled (b.ratio.shift (count - k)).round (k - count)
  | fuel + 1, count =>
    match onGrid? b (k - count) with
    | some n => Digits.ofScaled n (k - count)
    | none => shortestFrom b k fuel (count + 1)

/-- The shortest digits of a positive double; seventeen are always enough. -/
def shortest (b : Binary) : Digits := shortestFrom b b.ratio.magnitude 17 1

/-! ## Layouts -/

/-- The layout of a number text. -/
structure Layout where
  /-- Numbers `0.d₁d₂… * 10 ^ point` with a smaller point are written with an exponent. -/
  least : Int
  /-- Numbers with a larger point are written with an exponent. -/
  greatest : Int
  /-- Whether a whole number keeps `.0`. -/
  keepsPoint : Bool

/-- Stored values: sixteen places before the point, three zeros after it, and a whole number shows
that it is a fractional one. -/
def Layout.stored : Layout := ⟨-3, 16, true⟩

/-- Durations: six places before the point, and no point in a whole number. -/
def Layout.duration : Layout := ⟨-3, 6, false⟩

/-- `n` zeros. -/
def zeros (n : Int) : String := String.ofList (List.replicate n.toNat '0')

/-- The exponent part of a number text: a sign and at least two digits. -/
def exponentText (e : Int) : String :=
  (if e < 0 then "e-" else "e+") ++ padded 2 e.natAbs

/-- Positive digits in a layout. -/
def Layout.write (l : Layout) (d : Digits) : String :=
  let ds := toString d.digits
  let count : Int := digitCount d.digits
  if d.point < l.least ∨ l.greatest < d.point then
    let first := String.ofList (ds.toList.take 1)
    let rest := String.ofList (ds.toList.drop 1)
    (if rest.isEmpty then first else first ++ "." ++ rest) ++ exponentText (d.point - 1)
  else if d.point ≤ 0 then "0." ++ zeros (-d.point) ++ ds
  else if count ≤ d.point then
    ds ++ zeros (d.point - count) ++ (if l.keepsPoint then ".0" else "")
  else
    String.ofList (ds.toList.take d.point.toNat) ++ "." ++
      String.ofList (ds.toList.drop d.point.toNat)

/-- The sign of a number text. -/
def signText (neg : Bool) : String := if neg then "-" else ""

/-- The text of a double with the fewest digits that read back. -/
def floatText (x : Float) : String :=
  match parts x with
  | .nan => "nan"
  | .infinite neg => signText neg ++ "inf"
  | .finite b =>
    signText b.neg ++ if b.m = 0 then "0.0" else Layout.stored.write (shortest b)

/-- A positive fraction rounded to `count` significant digits. -/
def significant (count : Nat) (r : Ratio) : Digits :=
  let k := r.magnitude
  Digits.ofScaled (r.shift (count - k)).round (k - count)

/-- A fraction with six significant digits at most. -/
def shortText (neg : Bool) (r : Ratio) : String :=
  signText neg ++ if r.num = 0 then "0" else Layout.duration.write (significant 6 r)

/-- A fraction with one place after the point; a half goes to the even neighbour. -/
def tenthsText (r : Ratio) : String :=
  let tenths := (r.shift 1).round
  toString (tenths / 10) ++ "." ++ toString (tenths % 10)

end CodeSurvey.Decimal
