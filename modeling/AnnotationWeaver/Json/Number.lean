import AnnotationWeaver.Json.Basic

/-!
The value of a JSON number. A number without fraction and exponent that fits 64 bits is an integer;
minus zero does not count as one. Every other number is a 64-bit floating-point number: its leading
digits, as many as fit 64 bits, are rounded once, and one multiplication or division by a power of
ten rounds a second time.
-/
namespace AnnotationWeaver.Json

open Decimal (BinaryFormat Binary64)

/-- The parts of a number's text; the digits are values below ten. -/
structure NumberText where
  negative : Bool
  whole : List Nat
  fraction : List Nat
  exponent : Option Int

/-- The digits taken so far, and the power of ten that they are to be multiplied by. -/
structure Significand where
  digits : Nat
  scale : Int

/-- The first number that does not fit 64 bits. -/
def wordLimit : Nat := UInt64.size

/-- Takes whole digits while they fit; each later one counts for the scale. -/
def takeWhole : (full : Bool) → Significand → List Nat → Bool × Significand
  | full, s, [] => (full, s)
  | true, s, _ :: rest => takeWhole true { s with scale := s.scale + 1 } rest
  | false, s, d :: rest =>
    if 10 * s.digits + d < wordLimit then takeWhole false { s with digits := 10 * s.digits + d } rest
    else takeWhole true { s with scale := s.scale + 1 } rest

/-- Takes digits of the fraction while they fit and drops the others. -/
def takeFraction : Significand → List Nat → Significand
  | s, [] => s
  | s, d :: rest =>
    if 10 * s.digits + d < wordLimit then takeFraction ⟨10 * s.digits + d, s.scale - 1⟩ rest else s

/-- The magnitude bits of a power of ten. -/
def powerOfTen (n : Nat) : Nat := BinaryFormat.double.round (Nat.pow 10 n) 1

/-- The product of two magnitudes, rounded. -/
def product (a b : Nat) : Nat :=
  match BinaryFormat.double.fraction? a, BinaryFormat.double.fraction? b with
  | some (n, d), some (n', d') => BinaryFormat.double.round (n * n') (d * d')
  | _, _ => BinaryFormat.double.infinity

/-- The quotient of two magnitudes, rounded. -/
def quotient (a b : Nat) : Nat :=
  match BinaryFormat.double.fraction? a, BinaryFormat.double.fraction? b with
  | some (n, d), some (n', d') => BinaryFormat.double.round (n * d') (d * n')
  | _, _ => 0

/-- The greatest power of ten that is scaled by in one step. -/
def powerLimit : Nat := 308

/-- Divides by a power of ten, in steps of the greatest one; two steps leave zero. -/
def scaleDown : (fuel : Nat) → (a power : Nat) → Nat
  | 0, _, _ => 0
  | fuel + 1, a, power =>
    if power ≤ powerLimit then quotient a (powerOfTen power)
    else if a = 0 then 0
    else scaleDown fuel (quotient a (powerOfTen powerLimit)) (power - powerLimit)

/-- The magnitude bits of a significand, if they are finite. -/
def Significand.magnitude? (s : Significand) : Option Nat :=
  let a := BinaryFormat.double.round s.digits 1
  if s.scale < 0 then some (scaleDown 3 a (-s.scale).toNat)
  else if s.scale.toNat ≤ powerLimit then
    let scaled := product a (powerOfTen s.scale.toNat)
    if scaled = BinaryFormat.double.infinity then none else some scaled
  else if a = 0 then some 0
  else none

/-- The floating-point number with a sign and a significand. -/
def floating (negative : Bool) (s : Significand) : Json :=
  match s.magnitude? with
  | some a => .double ⟨UInt64.ofNat (BinaryFormat.double.withSign negative a)⟩
  | none => .invalid

/-- The value that a number's text denotes. -/
def NumberText.value (t : NumberText) : Json :=
  let (full, s) := takeWhole false ⟨0, 0⟩ t.whole
  let s := takeFraction s t.fraction
  match t.fraction, t.exponent with
  | [], none =>
    if full then floating t.negative s
    else if ¬ t.negative then .int s.digits
    else if 0 < s.digits ∧ s.digits ≤ Int64.minValue.toInt.natAbs then .int (-(s.digits : Int))
    else floating true s
  | _, exponent => floating t.negative { s with scale := s.scale + exponent.getD 0 }

end AnnotationWeaver.Json
