import AnnotationWeaver.Deployment
import AnnotationWeaver.Json.Basic

/-!
The JSON form of types, values, annotations, keys, declarations, beans and observers. Every record is
an object with all of its members in a fixed order; what is absent is `null`. Values and keys are
objects with a label `kind` beside their content.
-/
namespace AnnotationWeaver

def TypeName.toJson (n : TypeName) : Json := .str n.text

/-- A label and the content beside it. -/
def Json.tagged (tag label content : String) (value : Json) : Json :=
  .object [(tag, .str label), (content, value)]

mutual

def Ty.toJson (t : Ty) : Json :=
  match t with
  | .void => .object [("kind", .str "void")]
  | .primitive p => .object [("kind", .str "primitive"), ("primitive", .str p.keyword)]
  | .named n => .object [("kind", .str "class"), ("name", n.toJson)]
  | .array component => .object [("kind", .str "array"), ("component", component.toJson)]
  | .parameterized raw arguments =>
    .object [("kind", .str "parameterized"), ("raw", raw.toJson), ("arguments", .arr (Ty.toJsons arguments))]
termination_by structural t

def Ty.toJsons (ts : List Ty) : List Json :=
  match ts with
  | [] => []
  | t :: rest => t.toJson :: Ty.toJsons rest
termination_by structural ts

end

mutual

def Value.toJson (v : Value) : Json :=
  match v with
  | .boolean b => .tagged "kind" "boolean" "value" (.bool b)
  | .byte n => .tagged "kind" "byte" "value" (.int n.toInt)
  | .short n => .tagged "kind" "short" "value" (.int n.toInt)
  | .int n => .tagged "kind" "int" "value" (.int n.toInt)
  | .long n => .tagged "kind" "long" "value" (.int n.toInt)
  | .float x => .tagged "kind" "float" "value" (.single x)
  | .double x => .tagged "kind" "double" "value" (.double x)
  | .char c => .tagged "kind" "char" "value" (.str c.toString)
  | .string s => .tagged "kind" "string" "value" (.str s)
  | .enumConstant type constant =>
    .tagged "kind" "enum" "value" (.object [("type_name", type.toJson), ("constant", .str constant)])
  | .classLiteral type => .tagged "kind" "class" "value" type.toJson
  | .nested a => .tagged "kind" "nested" "value" a.toJson
  | .array component elements =>
    .tagged "kind" "array" "value"
      (.object [("component", .str component.label), ("elements", .arr (Value.toJsons elements))])
termination_by structural v

def Value.toJsons (vs : List Value) : List Json :=
  match vs with
  | [] => []
  | v :: rest => v.toJson :: Value.toJsons rest
termination_by structural vs

def Annotation.toJson (a : Annotation) : Json :=
  match a with
  | ⟨type, members⟩ => .object [("name", type.toJson), ("values", .obj (Member.toJsons members))]
termination_by structural a

def Member.toJsons (ms : List Member) : List JsonMember :=
  match ms with
  | [] => []
  | m :: rest => m.toJson :: Member.toJsons rest
termination_by structural ms

def Member.toJson (m : Member) : JsonMember :=
  match m with
  | ⟨name, value⟩ => ⟨name, value.toJson⟩
termination_by structural m

end

def MethodKey.toJson (k : MethodKey) : Json :=
  .object [("class", k.owner.toJson), ("name", .str k.name),
    ("parameter_types", .list Ty.toJson k.parameters)]

def FieldKey.toJson (k : FieldKey) : Json :=
  .object [("class", k.owner.toJson), ("name", .str k.name)]

def ParamKey.toJson (k : ParamKey) : Json :=
  .object [("method", k.method.toJson), ("position", .int k.position.toNat)]

def DeclKey.toJson : DeclKey → Json
  | .type name => .tagged "kind" "class" "key" name.toJson
  | .method key => .tagged "kind" "method" "key" key.toJson
  | .field key => .tagged "kind" "field" "key" key.toJson
  | .parameter key => .tagged "kind" "parameter" "key" key.toJson

def annotationsJson (xs : List Annotation) : Json := .list (·.toJson) xs

def ParamDecl.toJson (p : ParamDecl) : Json :=
  .object [("key", p.key.toJson), ("ty", p.type.toJson), ("name", .option .str p.name),
    ("annotations", annotationsJson p.annotations)]

def MethodDecl.toJson (m : MethodDecl) : Json :=
  .object [("key", m.key.toJson), ("parameters", .list ParamDecl.toJson m.parameters),
    ("return_type", m.returns.toJson), ("annotations", annotationsJson m.annotations),
    ("default_value", .option Value.toJson m.default?), ("is_static", .bool m.isStatic)]

def FieldDecl.toJson (f : FieldDecl) : Json :=
  .object [("key", f.key.toJson), ("ty", f.type.toJson),
    ("annotations", annotationsJson f.annotations), ("is_static", .bool f.isStatic)]

/-- An integer of 32 bits. -/
def int32Json (n : Int32) : Json := .int n.toInt

def Bean.toJson (b : Bean) : Json :=
  .object [("id", .str b.id), ("kind", .str b.kind.label),
    ("implementation_class", b.implementation.toJson), ("declaring_class", b.declaringClass.toJson),
    ("scope", b.scope.toJson), ("types", .list Ty.toJson b.types),
    ("qualifiers", annotationsJson b.qualifiers), ("name", .option .str b.name),
    ("priority", .option int32Json b.priority), ("alternative", .bool b.alternative)]

def Observer.toJson (o : Observer) : Json :=
  .object [("id", .str o.id), ("declaring_class", o.declaringClass.toJson),
    ("method", .option MethodKey.toJson o.method), ("observed_type", o.observed.toJson),
    ("qualifiers", annotationsJson o.qualifiers), ("priority", int32Json o.priority),
    ("is_async", .bool o.isAsync), ("is_synthetic", .bool o.isSynthetic)]

end AnnotationWeaver
