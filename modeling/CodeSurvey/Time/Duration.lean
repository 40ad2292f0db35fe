import CodeSurvey.Decimal.Layout

/-!
# Durations

A number of seconds, whole or not, and its text: in minutes when they come out even, and else in
seconds with six digits.
-/

namespace CodeSurvey.Time

open CodeSurvey.Decimal

/-- A number of seconds, whole or not. -/
inductive Seconds where
  | whole (n : Int)
  | fractional (x : Float)

namespace Seconds

/-- The text of a number of minutes. -/
def minutesText (n : Nat) : String := toString n ++ if n = 1 then " minute" else " minutes"

/-- The text of a duration; a whole number is rounded to a double first, and there is none when it
is beyond the largest double. -/
def text? : Seconds → Option String
  | whole n =>
    if 60 ≤ n ∧ n % 60 = 0 then some (minutesText (n / 60).toNat)
    else (nearestDouble? n.natAbs).map fun m => shortText (n < 0) ⟨m, 1⟩ ++ " seconds"
  | fractional x =>
    match parts x with
    | .nan => some "nan seconds"
    | .infinite neg => some (signText neg ++ "inf seconds")
    | .finite b =>
      let r := b.ratio
      let minute := 60 * r.den
      if !b.neg ∧ minute ≤ r.num ∧ r.num % minute = 0 then
        (nearestDouble? (r.num / minute)).map minutesText
      else some (shortText b.neg r ++ " seconds")

/-- The most seconds that can be waited for. -/
def longestWait : Nat := 9223372036

/-- Why a duration cannot be waited for. -/
inductive WaitError where
  /-- It is no number. -/
  | noNumber
  /-- It is too long. -/
  | tooLong
  deriving Repr, DecidableEq

/-- Whether a duration can be waited for; a negative one is over at once. -/
def checkWait : Seconds → Except WaitError Unit
  | whole n => if n ≤ longestWait then .ok () else .error .tooLong
  | fractional x =>
    match parts x with
    | .nan => .error .noNumber
    | .infinite neg => if neg then .ok () else .error .tooLong
    | .finite b =>
      if b.neg ∨ b.ratio.num < (longestWait + 1) * b.ratio.den then .ok () else .error .tooLong

end Seconds

end CodeSurvey.Time
