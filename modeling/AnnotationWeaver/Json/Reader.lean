import AnnotationWeaver.Json.Number
import AnnotationWeaver.Text.Digits

/-!
Reading JSON text. The grammar is strict: no blank but space, tab, line feed and carriage return, no
trailing comma, no control character inside a string, nothing after the value. Containers may be
nested 127 deep. Text that keeps the grammar but denotes no value becomes `Json.invalid` at that
place, and an object with such a member name becomes `Json.invalid` as a whole.
-/
namespace AnnotationWeaver.Json

def isSpace (c : Char) : Bool := c = ' ' || c = '\n' || c = '\t' || c = '\r'

def skipSpace (s : List Char) : List Char := s.dropWhile isSpace

/-- Four hexadecimal digits. -/
def readUnit (a b c d : Char) : Option Nat := do
  let a ← Text.hexValue? a
  let b ← Text.hexValue? b
  let c ← Text.hexValue? c
  let d ← Text.hexValue? d
  return ((a * 16 + b) * 16 + c) * 16 + d

/-- The inside of a string up to its closing quote, as code points and surrogates. -/
def readUnits : List Char → Option (List Nat × List Char)
  | '"' :: rest => some ([], rest)
  | '\\' :: '"' :: rest => unit '"'.toNat rest
  | '\\' :: '\\' :: rest => unit '\\'.toNat rest
  | '\\' :: '/' :: rest => unit '/'.toNat rest
  | '\\' :: 'b' :: rest => unit 0x8 rest
  | '\\' :: 'f' :: rest => unit 0xC rest
  | '\\' :: 'n' :: rest => unit 0xA rest
  | '\\' :: 'r' :: rest => unit 0xD rest
  | '\\' :: 't' :: rest => unit 0x9 rest
  | '\\' :: 'u' :: a :: b :: c :: d :: rest =>
    match readUnit a b c d with
    | some n => (readUnits rest).map fun (units, rest) => (n :: units, rest)
    | none => none
  | c :: rest =>
    if c = '\\' ∨ c.toNat < 0x20 then none
    else (readUnits rest).map fun (units, rest) => (c.toNat :: units, rest)
  | [] => none
where
  /-- One more unit in front of those of the rest. -/
  unit (n : Nat) (rest : List Char) : Option (List Nat × List Char) :=
    (readUnits rest).map fun (units, rest) => (n :: units, rest)

def isLeading (n : Nat) : Bool := 0xD800 ≤ n && n ≤ 0xDBFF

def isTrailing (n : Nat) : Bool := 0xDC00 ≤ n && n ≤ 0xDFFF

/-- Joins each leading surrogate with the trailing one after it; any other surrogate is an error. -/
def joinUnits : List Nat → Option (List Char)
  | [] => some []
  | n :: rest =>
    if isTrailing n then none
    else if isLeading n then
      match rest with
      | m :: rest =>
        if isTrailing m then
          (joinUnits rest).map (Char.ofNat (0x10000 + (n - 0xD800) * 0x400 + (m - 0xDC00)) :: ·)
        else none
      | [] => none
    else (joinUnits rest).map (Char.ofNat n :: ·)

/-- A string after its opening quote; the text is missing if a surrogate is unpaired. -/
def readString (s : List Char) : Option (Option String × List Char) :=
  (readUnits s).map fun (units, rest) => ((joinUnits units).map String.ofList, rest)

/-- The digits at the front. -/
def readDigits : List Char → List Nat × List Char
  | [] => ([], [])
  | c :: rest =>
    match Text.decimalValue? c with
    | some d => (d :: (readDigits rest).1, (readDigits rest).2)
    | none => ([], c :: rest)

/-- The whole part: a zero alone, or digits that start with another one. -/
def readWhole (s : List Char) : Option (List Nat × List Char) :=
  match readDigits s with
  | ([], _) => none
  | (0 :: _ :: _, _) => none
  | result => some result

/-- The fraction: a point and at least one digit, or nothing. -/
def readFraction : List Char → Option (List Nat × List Char)
  | '.' :: rest =>
    match readDigits rest with
    | ([], _) => none
    | result => some result
  | s => some ([], s)

/-- The exponent: a letter, a sign that may be missing, and at least one digit; or nothing. -/
def readExponent : List Char → Option (Option Int × List Char)
  | c :: rest =>
    if c = 'e' ∨ c = 'E' then
      let (negative, rest) := match rest with
        | '+' :: rest => (false, rest)
        | '-' :: rest => (true, rest)
        | rest => (false, rest)
      match readDigits rest with
      | ([], _) => none
      | (digits, rest) =>
        let n : Int := (digits.foldl (fun n d => 10 * n + d) 0 : Nat)
        some (some (if negative then -n else n), rest)
    else some (none, c :: rest)
  | [] => some (none, [])

/-- A number; the sign has been taken. -/
def readNumber (negative : Bool) (s : List Char) : Option (Json × List Char) := do
  let (whole, s) ← readWhole s
  let (fraction, s) ← readFraction s
  let (exponent, s) ← readExponent s
  return (NumberText.value ⟨negative, whole, fraction, exponent⟩, s)

/-- The text without what it starts with. -/
def strip? : (start s : List Char) → Option (List Char)
  | [], s => some s
  | c :: start, d :: s => if c = d then strip? start s else none
  | _ :: _, [] => none

/-- A value without parts. -/
def readScalar : List Char → Option (Json × List Char)
  | '"' :: rest => (readString rest).map fun (s, rest) => ((s.map Json.str).getD .invalid, rest)
  | '-' :: rest => readNumber true rest
  | 't' :: rest => (strip? ['r', 'u', 'e'] rest).map fun rest => (.bool true, rest)
  | 'f' :: rest => (strip? ['a', 'l', 's', 'e'] rest).map fun rest => (.bool false, rest)
  | 'n' :: rest => (strip? ['u', 'l', 'l'] rest).map fun rest => (.null, rest)
  | s => readNumber false s

/-- A member name and the colon after it. -/
def readName (s : List Char) : Option (Option String × List Char) :=
  match skipSpace s with
  | '"' :: rest =>
    match readString rest with
    | some (name, rest) =>
      match skipSpace rest with
      | ':' :: rest => some (name, rest)
      | _ => none
    | none => none
  | _ => none

/-- The members as an object, if all of their names are texts. -/
def ofMembers (members : List (Option String × Json)) : Json :=
  match members.mapM fun (name, value) => name.map (JsonMember.mk · value) with
  | some members => .obj members
  | none => .invalid

mutual

/-- A value; `depth` containers may still be opened. -/
def readValue (fuel depth : Nat) (s : List Char) : Option (Json × List Char) :=
  match fuel with
  | 0 => none
  | fuel + 1 =>
    match skipSpace s with
    | '[' :: rest =>
      match skipSpace rest with
      | ']' :: rest => some (if depth = 0 then .invalid else .arr [], rest)
      | rest =>
        (readElements fuel (depth - 1) rest).map fun (elements, rest) =>
          (if depth = 0 then .invalid else .arr elements, rest)
    | '\x7b' :: rest =>
      match skipSpace rest with
      | '\x7d' :: rest => some (if depth = 0 then .invalid else .obj [], rest)
      | rest =>
        (readMembers fuel (depth - 1) rest).map fun (members, rest) =>
          (if depth = 0 then .invalid else ofMembers members, rest)
    | rest => readScalar rest

/-- The elements of an array that has some, up to its closing bracket. -/
def readElements (fuel depth : Nat) (s : List Char) : Option (List Json × List Char) :=
  match fuel with
  | 0 => none
  | fuel + 1 =>
    match readValue fuel depth s with
    | none => none
    | some (value, rest) =>
      match skipSpace rest with
      | ']' :: rest => some ([value], rest)
      | ',' :: rest => (readElements fuel depth rest).map fun (values, rest) => (value :: values, rest)
      | _ => none

/-- The members of an object that has some, up to its closing brace. -/
def readMembers (fuel depth : Nat) (s : List Char) :
    Option (List (Option String × Json) × List Char) :=
  match fuel with
  | 0 => none
  | fuel + 1 =>
    match readName s with
    | none => none
    | some (name, rest) =>
      match readValue fuel depth rest with
      | none => none
      | some (value, rest) =>
        match skipSpace rest with
        | '\x7d' :: rest => some ([(name, value)], rest)
        | ',' :: rest =>
          (readMembers fuel depth rest).map fun (members, rest) => ((name, value) :: members, rest)
        | _ => none

end

/-- How deep containers may be nested. -/
def depthLimit : Nat := 127

/-- The value of a whole text. -/
def read? (text : String) : Option Json :=
  let s := text.toList
  match readValue (2 * s.length + 2) depthLimit s with
  | some (value, rest) => if (skipSpace rest).isEmpty then some value else none
  | none => none

end AnnotationWeaver.Json
