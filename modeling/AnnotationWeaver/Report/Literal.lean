import AnnotationWeaver.Json.Writer
import AnnotationWeaver.Literal.Encode
import AnnotationWeaver.Report.Basic
import AnnotationWeaver.Text.Digits

/-!
Reports of constructions: each is an object with one member that says how the value is built. Floats
are told by their bits.
-/
namespace AnnotationWeaver

/-- The hexadecimal digits of the bits of a float, filled up to its width. -/
def bitsJson (width bits : Nat) : Json := .str (String.ofList (Text.padZeros width (Text.hex bits)))

def Constant.report : Constant → Json
  | .boolean b => .object [("boolean", .bool b)]
  | .byte n => .object [("byte", .int n.toInt)]
  | .short n => .object [("short", .int n.toInt)]
  | .int n => .object [("int", .int n.toInt)]
  | .long n => .object [("long", .int n.toInt)]
  | .float x => .object [("float", bitsJson 8 x.bits.toNat)]
  | .double x => .object [("double", bitsJson 16 x.bits.toNat)]
  | .char c => .object [("char", .str c.toString)]
  | .string s => .object [("string", .str s)]

mutual

def Construction.report (c : Construction) : Json :=
  match c with
  | .const value => value.report
  | .enumConstant type constant => .object [("enum", .texts [type.text, constant])]
  | .loadClass name => .object [("load_class", name.toJson)]
  | .staticField owner field type => .object [("static_field", .texts [owner.text, field, type.text])]
  | .newArray component elements =>
    .object [("new_array", .arr [.str component.text, .arr (Construction.reports elements)])]
  | .emptyArray kind => .object [("empty_array", .str kind.constantName)]
  | .newInstance name constructor arguments =>
    .object [("new", name.toJson), ("constructor", .texts (constructor.map (·.text))),
      ("arguments", .arr (Construction.reports arguments))]
termination_by structural c

def Construction.reports (cs : List Construction) : List Json :=
  match cs with
  | [] => []
  | c :: rest => c.report :: Construction.reports rest
termination_by structural cs

end

/-- The written form of a construction, and what it makes an instance of. -/
def Construction.instanceReport (c : Construction) : Json :=
  .arr [.str c.toJson.compact, .option (fun i => i.1.toJson) c.instantiated?,
    .option (fun i => countJson i.2) c.instantiated?]

end AnnotationWeaver
