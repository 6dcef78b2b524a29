import AnnotationWeaver.Text.Digits
import AnnotationWeaver.Text.Printable

/-!
Escaped text. `literal` keeps printable ASCII and writes every other character by number; it is the
text of string and character values. `quoted` also keeps printable Unicode; it is how messages quote
a rejected name.
-/
namespace AnnotationWeaver.Text

/-- A character written by its number: `\u{…}` in hexadecimal. -/
def byNumber (c : Char) : List Char :=
  ['\\', 'u', '\x7b'] ++ hex c.toNat ++ ['\x7d']

/-- One character of a literal. -/
def literalChar (c : Char) : List Char :=
  if c = '\t' then ['\\', 't']
  else if c = '\r' then ['\\', 'r']
  else if c = '\n' then ['\\', 'n']
  else if c = '\'' ∨ c = '"' ∨ c = '\\' then ['\\', c]
  else if 0x20 ≤ c.toNat ∧ c.toNat ≤ 0x7E then [c]
  else byNumber c

/-- The inside of a string literal. -/
def literal (s : List Char) : List Char := s.flatMap literalChar

/-- One character of a quoted name. -/
def quotedChar (c : Char) : List Char :=
  if c = '\t' then ['\\', 't']
  else if c = '\r' then ['\\', 'r']
  else if c = '\n' then ['\\', 'n']
  else if c.toNat = 0 then ['\\', '0']
  else if c = '"' ∨ c = '\\' then ['\\', c]
  else if isPrintable c then [c]
  else byNumber c

/-- A text between double quotes, with what does not print written by number. -/
def quoted (s : String) : String :=
  String.ofList ('"' :: s.toList.flatMap quotedChar ++ ['"'])

end AnnotationWeaver.Text
