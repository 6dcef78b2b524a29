import AnnotationWeaver.Decimal.Layout
import AnnotationWeaver.Json.Basic

/-!
JSON text. `compact` puts no blank between the parts; `pretty` puts every element and member on a
line of its own, indented by two spaces for each level. Members keep their order. Floating-point
numbers have the shortest digits that read back at their width, and `null` stands for what is not
finite.
-/
namespace AnnotationWeaver.Json

open Decimal (BinaryFormat Layout)

/-- 64-bit numbers are plain from `0.00001` up to sixteen digits before the point. -/
def doubleLayout : Layout := ⟨-5, 15, true, .toEven, "null".toList, "null".toList⟩

/-- 32-bit numbers are plain from `0.000001` up to thirteen digits before the point. -/
def singleLayout : Layout := ⟨-6, 12, true, .toEven, "null".toList, "null".toList⟩

/-- A floating-point number; what is not finite is `null`. -/
def writeFloat (layout : Layout) (f : BinaryFormat) (bits : Nat) : List Char :=
  match f.decode bits with
  | .infinite _ => "null".toList
  | _ => layout.write f bits

/-- One character of a string: only the quote, the backslash and control characters are escaped. -/
def writeChar (c : Char) : List Char :=
  if c = '"' ∨ c = '\\' then ['\\', c]
  else if c = '\n' then ['\\', 'n']
  else if c = '\r' then ['\\', 'r']
  else if c = '\t' then ['\\', 't']
  else if c.toNat = 0x8 then ['\\', 'b']
  else if c.toNat = 0xC then ['\\', 'f']
  else if c.toNat < 0x20 then ['\\', 'u'] ++ Text.padZeros 4 (Text.hex c.toNat)
  else [c]

def writeString (s : String) : List Char := '"' :: s.toList.flatMap writeChar ++ ['"']

/-- What stands between the parts of a container. -/
inductive Style where
  | compact
  | pretty

/-- The start of a line at a level. -/
def Style.newline : Style → (level : Nat) → List Char
  | .compact, _ => []
  | .pretty, level => '\n' :: List.replicate (2 * level) ' '

def Style.colon : Style → List Char
  | .compact => [':']
  | .pretty => [':', ' ']

mutual

/-- A value that stands at a level. -/
def write (style : Style) (level : Nat) (j : Json) : List Char :=
  match j with
  | .null => "null".toList
  | .bool true => "true".toList
  | .bool false => "false".toList
  | .int n => Text.decimalInt n
  | .single x => writeFloat singleLayout .single x.bits.toNat
  | .double x => writeFloat doubleLayout .double x.bits.toNat
  | .str s => writeString s
  | .arr [] => ['[', ']']
  | .arr (first :: rest) =>
    '[' :: style.newline (level + 1) ++ first.write style (level + 1)
      ++ writeElements style (level + 1) rest ++ style.newline level ++ [']']
  | .obj [] => ['\x7b', '\x7d']
  | .obj (first :: rest) =>
    '\x7b' :: style.newline (level + 1) ++ writeMember style (level + 1) first
      ++ writeMembers style (level + 1) rest ++ style.newline level ++ ['\x7d']
  | .invalid => "null".toList
termination_by structural j

/-- The elements after the first. -/
def writeElements (style : Style) (level : Nat) (elements : List Json) : List Char :=
  match elements with
  | [] => []
  | j :: rest => ',' :: style.newline level ++ j.write style level ++ writeElements style level rest
termination_by structural elements

/-- The members after the first. -/
def writeMembers (style : Style) (level : Nat) (members : List JsonMember) : List Char :=
  match members with
  | [] => []
  | m :: rest => ',' :: style.newline level ++ writeMember style level m ++ writeMembers style level rest
termination_by structural members

def writeMember (style : Style) (level : Nat) (m : JsonMember) : List Char :=
  match m with
  | ⟨name, value⟩ => writeString name ++ style.colon ++ value.write style level
termination_by structural m

end

/-- The text without blanks. -/
def compact (j : Json) : String := String.ofList (j.write .compact 0)

/-- The text on indented lines. -/
def pretty (j : Json) : String := String.ofList (j.write .pretty 0)

end AnnotationWeaver.Json
