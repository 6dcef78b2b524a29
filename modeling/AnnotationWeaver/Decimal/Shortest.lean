import AnnotationWeaver.Decimal.Binary

/-!
The shortest decimal digits that read back to a binary number. `Interval` holds the fractions that
round to the number; `shortest` tries one digit, then two, and so on, and takes of the two points of
the decimal grid around the number those that the interval holds. Of two such points the nearer is
taken, and an exact tie is decided by the caller's `Tie`.
-/
namespace AnnotationWeaver.Decimal

/-- A number and the ends of what rounds to it, all in units of one quarter of `2 ^ place`. -/
structure Interval where
  low : Nat
  value : Nat
  high : Nat
  place : Int
  /-- Whether the ends themselves round to the number. -/
  closed : Bool

/-- What rounds to `m * 2 ^ q`: half a place up, and half a place down unless the number starts a
    new power of two, where the numbers below are twice as dense. -/
def BinaryFormat.interval (f : BinaryFormat) (m : Nat) (q : Int) : Interval where
  low := if m = 1 <<< f.fraction ∧ f.leastExponent < q then 4 * m - 1 else 4 * m - 2
  value := 4 * m
  high := 4 * m + 2
  place := q - 2
  closed := m % 2 == 0

/-- A decimal number `digits * 10 ^ scale`. -/
structure Scaled where
  digits : Nat
  scale : Int
  deriving DecidableEq, Repr

/-- Which of two shortest decimals is taken when both are equally near. -/
inductive Tie where
  /-- The larger. -/
  | up
  /-- The one with an even last digit. -/
  | toEven
  deriving DecidableEq, Repr

/-- Whether a tie goes to the larger of the two points. -/
def Tie.takes : Tie → (larger : Nat) → Bool
  | .up, _ => true
  | .toEven, larger => larger % 2 == 0

/-- `a * 2 ^ place / 10 ^ scale` as a fraction. -/
def scaledFraction (a : Nat) (place scale : Int) : Nat × Nat :=
  (a <<< place.toNat * Nat.pow 10 (-scale).toNat, 1 <<< (-place).toNat * Nat.pow 10 scale.toNat)

/-- The two grid points around the number, of which those outside the interval are dropped. -/
def Interval.pick (i : Interval) (tie : Tie) (scale : Int) : Option Scaled :=
  let (num, den) := scaledFraction i.value i.place scale
  let (low, _) := scaledFraction i.low i.place scale
  let (high, _) := scaledFraction i.high i.place scale
  let down := num / den
  let up := down + 1
  let downIn := if i.closed then low ≤ down * den else low < down * den
  let upIn := if i.closed then up * den ≤ high else up * den < high
  let rest := 2 * (num - down * den)
  let upNearer := den < rest ∨ rest = den ∧ tie.takes up
  if upIn ∧ (¬ downIn ∨ upNearer) then some ⟨up, scale⟩
  else if downIn then some ⟨down, scale⟩
  else none

/-- The exponent of the first decimal digit of `a * 2 ^ place`, at most one too large. -/
def Interval.leading (i : Interval) : Int :=
  let size : Int := (i.value.log2 : Int) + 1 + i.place
  let guess := size * 30103 / 100000 + 1
  let (num, den) := scaledFraction i.value i.place guess
  if den ≤ num then guess
  else
    let (num, den) := scaledFraction i.value i.place (guess - 1)
    if den ≤ num then guess - 1 else guess - 2

/-- The first of the grids, from `count` digits on, that has a point in the interval. -/
def Interval.search (i : Interval) (tie : Tie) (leading : Int) : (fuel count : Nat) → Scaled
  | 0, count => ⟨0, leading - count⟩
  | fuel + 1, count =>
    match i.pick tie (leading - count) with
    | some found => found
    | none => i.search tie leading fuel (count + 1)

/-- Drops the zeros at the end of the digits. -/
def Scaled.strip : (fuel : Nat) → Scaled → Scaled
  | 0, s => s
  | fuel + 1, s => if s.digits % 10 = 0 ∧ s.digits ≠ 0 then strip fuel ⟨s.digits / 10, s.scale + 1⟩ else s

/-- The shortest decimal that reads back to `m * 2 ^ q`, which must not be zero; twenty digits
    are more than either format needs. -/
def BinaryFormat.shortest (f : BinaryFormat) (tie : Tie) (m : Nat) (q : Int) : Scaled :=
  let i := f.interval m q
  (i.search tie i.leading 20 0).strip 20

end AnnotationWeaver.Decimal
