import AnnotationWeaver.Decimal.Shortest
import AnnotationWeaver.Text.Digits

/-!
How a floating-point number is laid out: which exponents are written in plain form, how the exponent
is written in the other form, and the texts of what is not finite. The digits are the shortest that
read back.
-/
namespace AnnotationWeaver.Decimal

/-- The decisions of a text format for floating-point numbers. -/
structure Layout where
  /-- Least exponent of the first digit that is written in plain form. -/
  plainFrom : Int
  /-- Greatest exponent of the first digit that is written in plain form. -/
  plainTo : Int
  /-- A positive exponent has a plus sign. -/
  plus : Bool
  tie : Tie
  nan : List Char
  infinity : List Char

/-- Digits with a point after the first `whole` of them, and a digit on each side of it. -/
def plain (digits : List Char) (whole : Int) : List Char :=
  if whole ≤ 0 then ['0', '.'] ++ List.replicate (-whole).toNat '0' ++ digits
  else if digits.length ≤ whole.toNat then
    digits ++ List.replicate (whole.toNat - digits.length) '0' ++ ['.', '0']
  else digits.take whole.toNat ++ '.' :: digits.drop whole.toNat

/-- The first digit, the others after a point, and the exponent. -/
def Layout.scientific (layout : Layout) (digits : List Char) (exponent : Int) : List Char :=
  let mantissa := match digits with
    | first :: second :: rest => first :: '.' :: second :: rest
    | short => short
  let sign := if 0 ≤ exponent ∧ layout.plus then ['+'] else []
  mantissa ++ 'e' :: sign ++ Text.decimalInt exponent

/-- A decimal number that is not zero. -/
def Layout.scaled (layout : Layout) (s : Scaled) : List Char :=
  let digits := Text.decimal s.digits
  let exponent := s.scale + digits.length - 1
  if layout.plainFrom ≤ exponent ∧ exponent ≤ layout.plainTo then plain digits (exponent + 1)
  else layout.scientific digits exponent

/-- The text of a bit pattern. -/
def Layout.write (layout : Layout) (f : BinaryFormat) (bits : Nat) : List Char :=
  let signed (negative : Bool) (s : List Char) := if negative then '-' :: s else s
  match f.decode bits with
  | .nan => layout.nan
  | .infinite negative => signed negative layout.infinity
  | .finite negative m q =>
    signed negative (if m = 0 then ['0', '.', '0'] else layout.scaled (f.shortest layout.tie m q))

end AnnotationWeaver.Decimal
