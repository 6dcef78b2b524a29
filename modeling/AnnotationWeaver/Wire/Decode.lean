import AnnotationWeaver.Deployment
import AnnotationWeaver.Json.Shape
import AnnotationWeaver.Phase

/-!
Reading the JSON form back. Names of types are trimmed and have to be valid, integers have to fit
their width, and a member of an annotation that is given twice keeps its first place and its last
value. Nesting is bounded by what the JSON reader lets through; the elements of an array need not be
of its component kind. What an enum constant and an array are made of is always given by name.
-/
namespace AnnotationWeaver

/-- The greatest nesting that is looked into; every level is a container of the text. -/
def nestingLimit : Nat := Json.depthLimit + 1

def TypeName.ofJson? (j : Json) : Option TypeName := j.string?.bind TypeName.parse?

def Primitive.ofJson? (held : Bool) (j : Json) : Option Primitive :=
  (j.choice? held (Primitive.all.map (·.keyword))).bind fun i => Primitive.all[i]?

def ValueKind.ofJson? (held : Bool) (j : Json) : Option ValueKind :=
  (j.choice? held (ValueKind.all.map (·.label))).bind fun i => ValueKind.all[i]?

def ClassKind.ofJson? (held : Bool) (j : Json) : Option ClassKind :=
  (j.choice? held (ClassKind.all.map (·.label))).bind fun i => ClassKind.all[i]?

def BeanKind.ofJson? (held : Bool) (j : Json) : Option BeanKind :=
  (j.choice? held (BeanKind.all.map (·.label))).bind fun i => BeanKind.all[i]?

def Phase.ofJson? (j : Json) : Option Phase :=
  (j.choice? false (Phase.all.map (·.label))).bind fun i => Phase.all[i]?

namespace Ty

def labels : List String := ["void", "primitive", "class", "array", "parameterized"]

/-- A type that is nested less deep than the first argument; parts of a type are always held back. -/
def ofJsonWithin? : (depth : Nat) → (held : Bool) → Json → Option Ty
  | 0, _, _ => none
  | depth + 1, held, j =>
    match j.inlineTagged? held "kind" labels with
    | some (0, .obj _) => some .void
    | some (0, .arr []) => some .void
    | some (1, rest) =>
      match rest.record? ["primitive"] with
      | some [some p] => (Primitive.ofJson? true p).map .primitive
      | _ => none
    | some (2, rest) =>
      match rest.record? ["name"] with
      | some [some n] => (TypeName.ofJson? n).map .named
      | _ => none
    | some (3, rest) =>
      match rest.record? ["component"] with
      | some [some c] => (ofJsonWithin? depth true c).map .array
      | _ => none
    | some (4, rest) =>
      match rest.record? ["raw", "arguments"] with
      | some [some r, some a] => do
        let raw ← TypeName.ofJson? r
        let arguments ← a.list? (ofJsonWithin? depth true)
        return .parameterized raw arguments
      | _ => none
    | _ => none

def ofJson? (held : Bool) (j : Json) : Option Ty := ofJsonWithin? nestingLimit held j

end Ty

def enumConstantOfJson? (j : Json) : Option Value :=
  match j.members? ["type_name", "constant"] with
  | some [some t, some c] => do
    let type ← TypeName.ofJson? t
    let constant ← c.string?
    return .enumConstant type constant
  | _ => none

/-- The members of an object, each value taken apart. -/
def membersOfJson? (value : Json → Option Value) : Json → Option (List (String × Value))
  | .obj members => members.mapM fun m => (value m.value).map (m.name, ·)
  | _ => none

mutual

def Value.ofJsonWithin? (depth : Nat) (held : Bool) (j : Json) : Option Value :=
  match depth with
  | 0 => none
  | depth + 1 =>
    match j.tagged? held "kind" "value" (ValueKind.all.map (·.label)) with
    | none => none
    | some (i, content, held) =>
      match ValueKind.all[i]? with
      | some .boolean => content.bool?.map .boolean
      | some .byte => content.int8?.map .byte
      | some .short => content.int16?.map .short
      | some .int => content.int32?.map .int
      | some .long => content.int64?.map .long
      | some .float => content.binary32?.map .float
      | some .double => content.binary64?.map .double
      | some .char => content.char?.map .char
      | some .string => content.string?.map .string
      | some .enumConstant => enumConstantOfJson? content
      | some .classLiteral => (Ty.ofJson? held content).map .classLiteral
      | some .nested => (content |> Annotation.ofJsonWithin? depth held).map .nested
      | some .array =>
        match content.members? ["component", "elements"] with
        | some [some c, some e] => do
          let component ← ValueKind.ofJson? held c
          let elements ← e.list? (Value.ofJsonWithin? depth held)
          return .array component elements
        | _ => none
      | none => none
termination_by structural depth

def Annotation.ofJsonWithin? (depth : Nat) (held : Bool) (j : Json) : Option Annotation :=
  match depth with
  | 0 => none
  | depth + 1 =>
    match j.record? ["name", "values"] with
    | some [some n, some v] => do
      let type ← TypeName.ofJson? n
      let members ← membersOfJson? (Value.ofJsonWithin? depth held) v
      return .ofList type members
    | _ => none
termination_by structural depth

end

def Value.ofJson? (j : Json) : Option Value := Value.ofJsonWithin? nestingLimit false j

def Annotation.ofJson? (held : Bool) (j : Json) : Option Annotation :=
  Annotation.ofJsonWithin? nestingLimit held j

def annotationsOfJson? (j : Json) : Option (List Annotation) := j.list? fun a => Annotation.ofJson? false a

def MethodKey.ofJson? (held : Bool) (j : Json) : Option MethodKey :=
  match j.record? ["class", "name", "parameter_types"] with
  | some [some c, some n, some p] => do
    let owner ← TypeName.ofJson? c
    let name ← n.string?
    let parameters ← p.list? (Ty.ofJson? held)
    return ⟨owner, name, parameters⟩
  | _ => none

def FieldKey.ofJson? (j : Json) : Option FieldKey :=
  match j.record? ["class", "name"] with
  | some [some c, some n] => do
    let owner ← TypeName.ofJson? c
    let name ← n.string?
    return ⟨owner, name⟩
  | _ => none

def ParamKey.ofJson? (held : Bool) (j : Json) : Option ParamKey :=
  match j.record? ["method", "position"] with
  | some [some m, some p] => do
    let method ← MethodKey.ofJson? held m
    let position ← p.uint16?
    return ⟨method, position⟩
  | _ => none

def DeclKey.ofJson? (j : Json) : Option DeclKey :=
  match j.tagged? false "kind" "key" ["class", "method", "field", "parameter"] with
  | some (0, k, _) => (TypeName.ofJson? k).map .type
  | some (1, k, held) => (MethodKey.ofJson? held k).map .method
  | some (2, k, _) => (FieldKey.ofJson? k).map .field
  | some (3, k, held) => (ParamKey.ofJson? held k).map .parameter
  | _ => none

def ParamDecl.ofJson? (j : Json) : Option ParamDecl :=
  match j.record? ["key", "ty", "name", "annotations"] with
  | some [some k, some t, n, some a] => do
    let key ← ParamKey.ofJson? false k
    let type ← Ty.ofJson? false t
    let name ← Json.optional? Json.string? n
    let annotations ← annotationsOfJson? a
    return ⟨key, type, name, annotations⟩
  | _ => none

def MethodDecl.ofJson? (j : Json) : Option MethodDecl :=
  match j.record? ["key", "parameters", "return_type", "annotations", "default_value", "is_static"] with
  | some [some k, some p, some r, some a, d, some s] => do
    let key ← MethodKey.ofJson? false k
    let parameters ← p.list? ParamDecl.ofJson?
    let returns ← Ty.ofJson? false r
    let annotations ← annotationsOfJson? a
    let default ← Json.optional? Value.ofJson? d
    let isStatic ← s.bool?
    return ⟨key, parameters, returns, annotations, default, isStatic⟩
  | _ => none

def FieldDecl.ofJson? (j : Json) : Option FieldDecl :=
  match j.record? ["key", "ty", "annotations", "is_static"] with
  | some [some k, some t, some a, some s] => do
    let key ← FieldKey.ofJson? k
    let type ← Ty.ofJson? false t
    let annotations ← annotationsOfJson? a
    let isStatic ← s.bool?
    return ⟨key, type, annotations, isStatic⟩
  | _ => none

def Bean.ofJson? (j : Json) : Option Bean :=
  match j.record? ["id", "kind", "implementation_class", "declaring_class", "scope", "types",
    "qualifiers", "name", "priority", "alternative"] with
  | some [some i, some k, some c, some d, some s, some t, some q, n, p, some a] => do
    let id ← i.string?
    let kind ← BeanKind.ofJson? false k
    let implementation ← TypeName.ofJson? c
    let declaringClass ← TypeName.ofJson? d
    let scope ← TypeName.ofJson? s
    let types ← t.list? (Ty.ofJson? false)
    let qualifiers ← annotationsOfJson? q
    let name ← Json.optional? Json.string? n
    let priority ← Json.optional? Json.int32? p
    let alternative ← a.bool?
    return ⟨id, kind, implementation, declaringClass, scope, types, qualifiers, name, priority, alternative⟩
  | _ => none

def Observer.ofJson? (j : Json) : Option Observer :=
  match j.record? ["id", "declaring_class", "method", "observed_type", "qualifiers", "priority",
    "is_async", "is_synthetic"] with
  | some [some i, some d, m, some o, some q, some p, some a, some s] => do
    let id ← i.string?
    let declaringClass ← TypeName.ofJson? d
    let method ← Json.optional? (MethodKey.ofJson? false) m
    let observed ← Ty.ofJson? false o
    let qualifiers ← annotationsOfJson? q
    let priority ← p.int32?
    let isAsync ← a.bool?
    let isSynthetic ← s.bool?
    return ⟨id, declaringClass, method, observed, qualifiers, priority, isAsync, isSynthetic⟩
  | _ => none

end AnnotationWeaver
