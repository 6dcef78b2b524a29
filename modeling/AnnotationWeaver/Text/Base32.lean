/-!
Numbers in base 32 with the alphabet that leaves out `I`, `L`, `O` and `U`. A number below
`32 ^ width` has exactly one form of each width, and the forms of one width are ordered as the
numbers are.
-/
namespace AnnotationWeaver.Text

/-- The digits of base 32, by value. -/
def base32Alphabet : List Char :=
  ['0', '1', '2', '3', '4', '5', '6', '7', '8', '9', 'A', 'B', 'C', 'D', 'E', 'F', 'G', 'H', 'J',
    'K', 'M', 'N', 'P', 'Q', 'R', 'S', 'T', 'V', 'W', 'X', 'Y', 'Z']

/-- The last `width` digits of a number in base 32, most significant first. -/
def base32 : (width : Nat) → Nat → List Char
  | 0, _ => []
  | width + 1, n => base32 width (n / 32) ++ [base32Alphabet.getD (n % 32) '0']

end AnnotationWeaver.Text
