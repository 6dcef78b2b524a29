/-!
Numbers as text: decimal and lower-case hexadecimal digits, without leading zeros or padded to a
width, and the value of a digit.
-/
namespace AnnotationWeaver.Text

/-- The digits of a number in the given base, most significant first; zero has one digit. -/
def digits (base n : Nat) : List Char := Nat.toDigits base n

def decimal (n : Nat) : List Char := digits 10 n

def hex (n : Nat) : List Char := digits 16 n

/-- A decimal number with a minus sign in front if it is negative. -/
def decimalInt : Int → List Char
  | .ofNat n => decimal n
  | .negSucc n => '-' :: decimal (n + 1)

/-- At least `width` characters: zeros are put in front. -/
def padZeros (width : Nat) (s : List Char) : List Char :=
  List.replicate (width - s.length) '0' ++ s

def decimalValue? (c : Char) : Option Nat :=
  if '0' ≤ c ∧ c ≤ '9' then some (c.toNat - '0'.toNat) else none

/-- The value of a hexadecimal digit in either case. -/
def hexValue? (c : Char) : Option Nat :=
  if '0' ≤ c ∧ c ≤ '9' then some (c.toNat - '0'.toNat)
  else if 'a' ≤ c ∧ c ≤ 'f' then some (c.toNat - 'a'.toNat + 10)
  else if 'A' ≤ c ∧ c ≤ 'F' then some (c.toNat - 'A'.toNat + 10)
  else none

/-- The number that a row of hexadecimal digits writes; the empty row writes none. -/
def ofHex? : List Char → Option Nat
  | [] => none
  | s => s.foldlM (fun n c => (hexValue? c).map (16 * n + ·)) 0

/-- The number that a row of decimal digits writes; the empty row writes none. -/
def ofDecimal? : List Char → Option Nat
  | [] => none
  | s => s.foldlM (fun n c => (decimalValue? c).map (10 * n + ·)) 0

end AnnotationWeaver.Text
