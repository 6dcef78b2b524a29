import AnnotationWeaver.Literal.LiteralClass
import AnnotationWeaver.Wire.Encode

/-!
The JSON form of constructions and literal classes. A construction is an object whose member `op`
says how the value is built.
-/
namespace AnnotationWeaver

def Constant.toJson : Constant → Json
  | .boolean b => .tagged "type" "boolean" "value" (.bool b)
  | .byte n => .tagged "type" "byte" "value" (.int n.toInt)
  | .short n => .tagged "type" "short" "value" (.int n.toInt)
  | .int n => .tagged "type" "int" "value" (.int n.toInt)
  | .long n => .tagged "type" "long" "value" (.int n.toInt)
  | .float x => .tagged "type" "float" "value" (.single x)
  | .double x => .tagged "type" "double" "value" (.double x)
  | .char c => .tagged "type" "char" "value" (.str c.toString)
  | .string s => .tagged "type" "string" "value" (.str s)

mutual

def Construction.toJson (c : Construction) : Json :=
  match c with
  | .const value => .object [("op", .str "const"), ("value", value.toJson)]
  | .enumConstant type constant =>
    .object [("op", .str "enum_constant"), ("enum_type", type.toJson), ("constant", .str constant)]
  | .loadClass name => .object [("op", .str "load_class"), ("class", name.toJson)]
  | .staticField owner field type =>
    .object [("op", .str "read_static_field"), ("owner", owner.toJson), ("field", .str field),
      ("field_type", type.toJson)]
  | .newArray component elements =>
    .object [("op", .str "new_array"), ("component", component.toJson),
      ("elements", .arr (Construction.toJsons elements))]
  | .emptyArray kind => .object [("op", .str "empty_array"), ("kind", .str kind.label)]
  | .newInstance name constructor arguments =>
    .object [("op", .str "new_instance"), ("class", name.toJson),
      ("constructor", .list Ty.toJson constructor), ("arguments", .arr (Construction.toJsons arguments))]
termination_by structural c

def Construction.toJsons (cs : List Construction) : List Json :=
  match cs with
  | [] => []
  | c :: rest => c.toJson :: Construction.toJsons rest
termination_by structural cs

end

def GeneratedField.toJson (f : GeneratedField) : Json :=
  .object [("name", .str f.name), ("ty", f.type.toJson), ("is_static", .bool f.isStatic)]

def MethodBody.toJson : MethodBody → Json
  | .returnField field => .object [("kind", .str "return_field"), ("field", .str field)]
  | .returnValue value => .object [("kind", .str "return_value"), ("value", value.toJson)]

def GeneratedMethod.toJson (m : GeneratedMethod) : Json :=
  .object [("name", .str m.name), ("return_type", m.returns.toJson), ("body", m.body.toJson)]

def StaticInit.toJson (s : StaticInit) : Json :=
  .object [("field", .str s.field), ("value", s.value.toJson)]

def LiteralClass.toJson (c : LiteralClass) : Json :=
  .object [("name", c.name.toJson), ("application_class", .bool c.isApplication),
    ("super_class", Literal.superclass.toJson), ("interfaces", .list TypeName.toJson [c.annotationType]),
    ("signature", .str (Literal.signature c.annotationType)),
    ("fields", .list GeneratedField.toJson c.fields), ("constructor", .list Ty.toJson c.constructor),
    ("methods", .list GeneratedMethod.toJson c.methods),
    ("static_init", .list StaticInit.toJson c.staticInits)]

end AnnotationWeaver
