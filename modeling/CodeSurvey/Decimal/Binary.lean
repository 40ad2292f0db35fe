/-!
# Binary floating-point numbers as exact fractions

A finite double is a whole number times a power of two. Everything that is printed of one is
computed from that fraction in whole-number arithmetic.
-/

namespace CodeSurvey.Decimal

/-- The finite number `m * 2 ^ q`, or its negative when `neg` holds. -/
structure Binary where
  /-- Whether the sign bit is set. -/
  neg : Bool
  /-- The whole-number part of the product. -/
  m : Nat
  /-- The exponent of two. -/
  q : Int
  deriving Repr, DecidableEq

/-- What the bits of a double stand for. -/
inductive Parts where
  /-- No number. -/
  | nan
  /-- An infinity, negative when the flag is set. -/
  | infinite (neg : Bool)
  /-- A finite number. -/
  | finite (b : Binary)
  deriving Repr, DecidableEq

/-- The parts of the double with the given bits: one sign bit, eleven of exponent, 52 of
fraction. -/
def partsOfBits (bits : Nat) : Parts :=
  let neg := bits / Nat.pow 2 63 % 2 == 1
  let e : Nat := bits / Nat.pow 2 52 % 2048
  let f : Nat := bits % Nat.pow 2 52
  if e = 2047 then if f = 0 then .infinite neg else .nan
  else if e = 0 then .finite ⟨neg, f, -1074⟩
  else .finite ⟨neg, Nat.pow 2 52 + f, (e : Int) - 1075⟩

/-- The parts of a double. -/
def parts (x : Float) : Parts := partsOfBits x.toBits.toNat

/-- A fraction with a natural numerator and denominator. -/
structure Ratio where
  /-- The numerator. -/
  num : Nat
  /-- The denominator. -/
  den : Nat
  deriving Repr, DecidableEq

/-- `m * 2 ^ q` as a fraction. -/
def Ratio.ofScaled (m : Nat) (q : Int) : Ratio :=
  if 0 ≤ q then ⟨m * Nat.pow 2 q.toNat, 1⟩ else ⟨m, Nat.pow 2 (-q).toNat⟩

/-- The size of a finite number as a fraction. -/
def Binary.ratio (b : Binary) : Ratio := Ratio.ofScaled b.m b.q

/-- A fraction times `10 ^ e`. -/
def Ratio.shift (r : Ratio) (e : Int) : Ratio :=
  if 0 ≤ e then ⟨r.num * Nat.pow 10 e.toNat, r.den⟩ else ⟨r.num, r.den * Nat.pow 10 (-e).toNat⟩

/-- The nearest whole number to a fraction; a half goes to the even neighbour. -/
def Ratio.round (r : Ratio) : Nat :=
  let whole := r.num / r.den
  let twice := 2 * (r.num % r.den)
  if twice < r.den then whole
  else if r.den < twice then whole + 1
  else if whole % 2 = 0 then whole else whole + 1

/-- Whether `r ≤ s`. -/
def Ratio.le (r s : Ratio) : Bool := r.num * s.den ≤ s.num * r.den

/-- Whether `r < s`. -/
def Ratio.lt (r s : Ratio) : Bool := r.num * s.den < s.num * r.den

/-- The number of decimal digits of a natural number; zero has one. -/
def digitCount (n : Nat) : Nat := (Nat.toDigits 10 n).length

/-- The least `k` with `r < 10 ^ k`, for a positive fraction: the two digit counts give it up to
one. -/
def Ratio.magnitude (r : Ratio) : Int :=
  let k : Int := (digitCount r.num : Int) - digitCount r.den
  if r.lt (Ratio.shift ⟨1, 1⟩ k) then k else k + 1

/-- The double nearest to a natural number, as a natural number: 53 binary digits are kept and a
half goes to the even neighbour. `none` when it is beyond the largest double. -/
def nearestDouble? (n : Nat) : Option Nat :=
  let bits := n.log2 + 1
  if bits ≤ 53 then some n
  else
    let unit := Nat.pow 2 (bits - 53)
    let kept := (Ratio.mk n unit).round * unit
    if kept < Nat.pow 2 1024 then some kept else none

end CodeSurvey.Decimal
