import AnnotationWeaver.Ty

/-!
Identities of declarations. A key is made of names and parameter types only, so two keys are equal
exactly when they mean the same declaration, whether or not there is one.
-/
namespace AnnotationWeaver

/-- A method or constructor: its class, its name and its parameter types. -/
structure MethodKey where
  owner : TypeName
  name : String
  parameters : List Ty
  deriving DecidableEq, Repr

structure FieldKey where
  owner : TypeName
  name : String
  deriving DecidableEq, Repr

/-- A parameter: its method and its position. -/
structure ParamKey where
  method : MethodKey
  position : UInt16
  deriving DecidableEq, Repr

/-- The identity of a declaration of any kind. -/
inductive DeclKey where
  | type (name : TypeName)
  | method (key : MethodKey)
  | field (key : FieldKey)
  | parameter (key : ParamKey)
  deriving DecidableEq, Repr

/-- The kinds of declarations. -/
inductive DeclKind where
  | type | method | field | parameter
  deriving DecidableEq, Repr

def MethodKey.text (k : MethodKey) : String :=
  k.owner.text ++ "#" ++ k.name ++ "(" ++ ", ".intercalate (Ty.texts k.parameters) ++ ")"

def FieldKey.text (k : FieldKey) : String := k.owner.text ++ "#" ++ k.name

def ParamKey.text (k : ParamKey) : String :=
  k.method.text ++ "[" ++ toString k.position.toNat ++ "]"

def DeclKind.label : DeclKind → String
  | .type => "class"
  | .method => "method"
  | .field => "field"
  | .parameter => "parameter"

namespace DeclKey

def text : DeclKey → String
  | .type name => name.text
  | .method key => key.text
  | .field key => key.text
  | .parameter key => key.text

def kind : DeclKey → DeclKind
  | .type _ => .type
  | .method _ => .method
  | .field _ => .field
  | .parameter _ => .parameter

/-- The class that declares it; a class declares itself. -/
def declaringClass : DeclKey → TypeName
  | .type name => name
  | .method key => key.owner
  | .field key => key.owner
  | .parameter key => key.method.owner

end DeclKey

end AnnotationWeaver
