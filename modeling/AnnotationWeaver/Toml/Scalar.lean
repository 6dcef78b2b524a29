import AnnotationWeaver.Decimal.Binary
import AnnotationWeaver.Text.Digits

/-!
Numbers, dates and times of TOML. Only their form and range are looked at: integers have to fit 64
bits, dates have to exist, and no positive number may be too large for a 64-bit float.
-/
namespace AnnotationWeaver.Toml

/-- A digit, then digits that may have single underscores between them. -/
def isDigits (digit : Char → Bool) : List Char → Bool
  | [] => false
  | c :: rest => digit c && tail rest
where
  /-- What may come after a digit. -/
  tail : List Char → Bool
    | [] => true
    | '_' :: c :: rest => digit c && tail rest
    | c :: rest => digit c && tail rest

def isDecimal (c : Char) : Bool := (Text.decimalValue? c).isSome

def withoutUnderscores (s : List Char) : List Char := s.filter (· ≠ '_')

/-- The sign at the front, and what follows it. -/
def splitSign : List Char → Bool × List Char
  | '-' :: rest => (true, rest)
  | '+' :: rest => (false, rest)
  | s => (false, s)

/-- Digits without a leading zero. -/
def isWhole : List Char → Bool
  | ['0'] => true
  | '0' :: _ => false
  | s => isDigits isDecimal s

/-- An integer of 64 bits reaches as far as this number. -/
def fits (n : Nat) : Bool := decide ((n : Int) ≤ Int64.maxValue.toInt)

/-- A decimal integer of 64 bits. -/
def isInteger (s : List Char) : Bool :=
  let (negative, digits) := splitSign s
  isWhole digits &&
    match Text.ofDecimal? (withoutUnderscores digits) with
    | some n => if negative then decide (Int64.minValue.toInt ≤ -(n : Int)) else fits n
    | none => false

/-- A character is a digit of a base below sixteen. -/
def isDigitOf (base : Nat) (c : Char) : Bool :=
  match Text.hexValue? c with
  | some n => decide (n < base)
  | none => false

/-- An integer of 64 bits in another base, after the mark of the base. -/
def isBased (base : Nat) (s : List Char) : Bool :=
  isDigits (isDigitOf base) s
    && fits ((withoutUnderscores s).foldl (fun n c => n * base + (Text.hexValue? c).getD 0) 0)

/-- The digits of a number and the power of ten that they are multiplied by are too large together. -/
def overflows (digits : List Char) (scale : Int) : Bool :=
  match Text.ofDecimal? digits with
  | none | some 0 => false
  | some n =>
    let size := scale + digits.length
    if size < -400 then false
    else if (digits.length : Int) + 400 < size then true
    else
      Decimal.BinaryFormat.double.round (n * Nat.pow 10 scale.toNat) (Nat.pow 10 (-scale).toNat)
        == Decimal.BinaryFormat.double.infinity

/-- A number with a fraction or an exponent. -/
def isFloat (s : List Char) : Bool :=
  let (negative, unsigned) := splitSign s
  let mantissa := unsigned.takeWhile fun c => c ≠ 'e' ∧ c ≠ 'E'
  let exponent := unsigned.drop mantissa.length
  let whole := mantissa.takeWhile (· ≠ '.')
  let fraction := mantissa.drop whole.length
  let (exponentNegative, exponentDigits) := splitSign (exponent.drop 1)
  let fractionDigits := fraction.drop 1
  isWhole whole
    && (fraction.isEmpty || isDigits isDecimal fractionDigits)
    && (exponent.isEmpty || isDigits isDecimal exponentDigits)
    && !(fraction.isEmpty && exponent.isEmpty)
    && (negative ||
      let power := (Text.ofDecimal? (withoutUnderscores exponentDigits)).getD 0
      let digits := withoutUnderscores (whole ++ fractionDigits)
      let scale : Int := (if exponentNegative then -(power : Int) else power)
        - (withoutUnderscores fractionDigits).length
      !overflows digits scale)

/-- Infinity or no number, with or without a sign. -/
def isSpecial (s : List Char) : Bool :=
  let unsigned := (splitSign s).2
  unsigned == "inf".toList || unsigned == "nan".toList

/-- Exactly two digits within bounds. -/
def isTwo (least greatest : Nat) (a b : Char) : Bool :=
  match Text.ofDecimal? [a, b] with
  | some n => decide (least ≤ n) && decide (n ≤ greatest)
  | none => false

def daysIn (year month : Nat) : Nat :=
  if month = 2 then
    if year % 4 = 0 ∧ (year % 100 ≠ 0 ∨ year % 400 = 0) then 29 else 28
  else if month = 4 ∨ month = 6 ∨ month = 9 ∨ month = 11 then 30
  else 31

/-- The text after a date that exists. -/
def afterDate? : List Char → Option (List Char)
  | y :: y' :: y'' :: y''' :: '-' :: m :: m' :: '-' :: d :: d' :: rest => do
    let year ← Text.ofDecimal? [y, y', y'', y''']
    let month ← Text.ofDecimal? [m, m']
    let day ← Text.ofDecimal? [d, d']
    if 1 ≤ month ∧ month ≤ 12 ∧ 1 ≤ day ∧ day ≤ daysIn year month then some rest else none
  | _ => none

/-- The text after a time of day; a minute may have a leap second. -/
def afterTime? : List Char → Option (List Char)
  | h :: h' :: ':' :: m :: m' :: ':' :: s :: s' :: rest =>
    if isTwo 0 23 h h' && isTwo 0 59 m m' && isTwo 0 60 s s' then
      match rest with
      | '.' :: c :: rest => if isDecimal c then some (rest.dropWhile isDecimal) else none
      | '.' :: [] => none
      | rest => some rest
    else none
  | _ => none

/-- Nothing, or a distance from universal time. -/
def isOffset : List Char → Bool
  | [] => true
  | ['Z'] => true
  | ['z'] => true
  | [sign, h, h', ':', m, m'] => (sign == '+' || sign == '-') && isTwo 0 23 h h' && isTwo 0 59 m m'
  | _ => false

def isTimeAlone (s : List Char) : Bool := afterTime? s == some []

def isTimeWithOffset (s : List Char) : Bool :=
  match afterTime? s with
  | some rest => isOffset rest
  | none => false

def isDateAlone (s : List Char) : Bool := afterDate? s == some []

/-- A date, a time, or a date and a time with the letter between them. -/
def isDateTime (s : List Char) : Bool :=
  isTimeAlone s ||
    match afterDate? s with
    | some [] => true
    | some (c :: rest) => (c == 'T' || c == 't') && isTimeWithOffset rest
    | none => false

/-- A number or a date, except for a date and time with a blank between them. -/
def isScalar (s : List Char) : Bool :=
  isSpecial s || isInteger s || isFloat s || isDateTime s ||
    match s with
    | '0' :: 'x' :: rest => isBased 16 rest
    | '0' :: 'o' :: rest => isBased 8 rest
    | '0' :: 'b' :: rest => isBased 2 rest
    | _ => false

end AnnotationWeaver.Toml
