/-!
Binary floating-point numbers as bit patterns: what a pattern stands for, and the pattern nearest to
a fraction, ties to the even pattern. Arithmetic on patterns is exact arithmetic on fractions
followed by one rounding, so no machine float takes part.
-/
namespace AnnotationWeaver.Decimal

/-- Widths of the stored fraction and of the exponent field. -/
structure BinaryFormat where
  fraction : Nat
  exponent : Nat

namespace BinaryFormat

/-- The 32-bit format. -/
def single : BinaryFormat := ⟨23, 8⟩

/-- The 64-bit format. -/
def double : BinaryFormat := ⟨52, 11⟩

/-- The exponent field of the number one. -/
def bias (f : BinaryFormat) : Nat := 1 <<< (f.exponent - 1) - 1

/-- The exponent of the last place of the smallest numbers. -/
def leastExponent (f : BinaryFormat) : Int := 1 - (f.bias : Int) - f.fraction

/-- The magnitude bits of infinity. -/
def infinity (f : BinaryFormat) : Nat := (1 <<< f.exponent - 1) <<< f.fraction

/-- The sign bit. -/
def signBit (f : BinaryFormat) : Nat := 1 <<< (f.exponent + f.fraction)

end BinaryFormat

/-- What a bit pattern stands for; a finite number is `m * 2 ^ q` with a sign. -/
inductive Binary where
  | nan
  | infinite (negative : Bool)
  | finite (negative : Bool) (m : Nat) (q : Int)
  deriving DecidableEq, Repr

namespace BinaryFormat

/-- The number that a bit pattern stands for. -/
def decode (f : BinaryFormat) (bits : Nat) : Binary :=
  let negative := bits / f.signBit % 2 == 1
  let field := bits >>> f.fraction % 1 <<< f.exponent
  let stored := bits % 1 <<< f.fraction
  if field = 1 <<< f.exponent - 1 then
    if stored = 0 then .infinite negative else .nan
  else if field = 0 then .finite negative stored f.leastExponent
  else .finite negative (1 <<< f.fraction + stored) (f.leastExponent + (field - 1 : Nat))

/-- The quotient of two numbers, rounded to the nearest, a tie to the even one. -/
def roundDiv (num den : Nat) : Nat :=
  let low := num / den
  let rest := 2 * (num % den)
  if rest < den ∨ rest = den ∧ low % 2 = 0 then low else low + 1

/-- The exponent of the last place that a fraction needs. -/
def lastPlace (f : BinaryFormat) (num den : Nat) : Int :=
  let size : Int := (num.log2 : Int) - den.log2
  let reaches : Bool :=
    if 0 ≤ size then den <<< size.toNat ≤ num else den ≤ num <<< (-size).toNat
  max f.leastExponent ((if reaches then size else size - 1) - f.fraction)

/-- The magnitude bits nearest to the fraction `num / den`; what is too large becomes infinity. -/
def round (f : BinaryFormat) (num den : Nat) : Nat :=
  if num = 0 then 0
  else
    let q := f.lastPlace num den
    let m := if 0 ≤ q then roundDiv num (den <<< q.toNat) else roundDiv (num <<< (-q).toNat) den
    min f.infinity ((q - f.leastExponent).toNat <<< f.fraction + m)

/-- The fraction that magnitude bits stand for; infinity and NaN have none. -/
def fraction? (f : BinaryFormat) (bits : Nat) : Option (Nat × Nat) :=
  match f.decode bits with
  | .finite _ m q => if 0 ≤ q then some (m <<< q.toNat, 1) else some (m, 1 <<< (-q).toNat)
  | _ => none

/-- A pattern with the given sign. -/
def withSign (f : BinaryFormat) (negative : Bool) (magnitude : Nat) : Nat :=
  if negative then f.signBit + magnitude else magnitude

end BinaryFormat

/-- A 32-bit floating-point number; two are equal when their bits are. -/
structure Binary32 where
  bits : UInt32
  deriving DecidableEq, Repr

/-- A 64-bit floating-point number; two are equal when their bits are. -/
structure Binary64 where
  bits : UInt64
  deriving DecidableEq, Repr

/-- The 32-bit number nearest to a fraction. -/
def Binary32.nearest (negative : Bool) (num den : Nat) : Binary32 :=
  ⟨UInt32.ofNat (BinaryFormat.single.withSign negative (BinaryFormat.single.round num den))⟩

/-- The 64-bit number nearest to a fraction. -/
def Binary64.nearest (negative : Bool) (num den : Nat) : Binary64 :=
  ⟨UInt64.ofNat (BinaryFormat.double.withSign negative (BinaryFormat.double.round num den))⟩

/-- The 32-bit number nearest to a finite 64-bit one; infinity and NaN stay what they are. -/
def Binary64.narrow (x : Binary64) : Binary32 :=
  let single := BinaryFormat.single
  match BinaryFormat.double.decode x.bits.toNat with
  | .nan => ⟨UInt32.ofNat (single.infinity + 1 <<< (single.fraction - 1))⟩
  | .infinite negative => ⟨UInt32.ofNat (single.withSign negative single.infinity)⟩
  | .finite negative m q =>
    if 0 ≤ q then .nearest negative (m <<< q.toNat) 1 else .nearest negative m (1 <<< (-q).toNat)

end AnnotationWeaver.Decimal
