import AnnotationWeaver.Annotation.Basic
import AnnotationWeaver.Key

/-!
Declarations. An outline describes a class and its members without saying to which class the members
belong; `ClassOutline.declare` binds them, so that every member of the class has its key. Parameters
are numbered from zero; positions stay within sixteen bits.
-/
namespace AnnotationWeaver

/-- What a type declaration declares. -/
inductive ClassKind where
  | regular | interface | annotationType | enumeration
  deriving DecidableEq, Repr

def ClassKind.all : List ClassKind := [.regular, .interface, .annotationType, .enumeration]

def ClassKind.label : ClassKind → String
  | .regular => "class"
  | .interface => "interface"
  | .annotationType => "annotation"
  | .enumeration => "enum"

structure ParamDecl where
  key : ParamKey
  type : Ty
  name : Option String
  annotations : List Annotation

/-- A method, a constructor or a member of an annotation type, which may have a default. -/
structure MethodDecl where
  key : MethodKey
  parameters : List ParamDecl
  returns : Ty
  annotations : List Annotation
  default? : Option Value
  isStatic : Bool

structure FieldDecl where
  key : FieldKey
  type : Ty
  annotations : List Annotation
  isStatic : Bool

structure ClassDecl where
  name : TypeName
  kind : ClassKind
  superclass : Option TypeName
  interfaces : List TypeName
  annotations : List Annotation
  methods : List MethodDecl
  fields : List FieldDecl

structure ParamOutline where
  type : Ty
  name : Option String
  annotations : List Annotation

structure MethodOutline where
  name : String
  parameters : List ParamOutline
  returns : Ty
  annotations : List Annotation
  default? : Option Value
  isStatic : Bool

structure FieldOutline where
  name : String
  type : Ty
  annotations : List Annotation
  isStatic : Bool

/-- A class whose members are not bound to it yet. -/
structure ClassOutline where
  name : TypeName
  kind : ClassKind
  superclass : Option TypeName
  interfaces : List TypeName
  annotations : List Annotation
  methods : List MethodOutline
  fields : List FieldOutline

/-- The position of a parameter; the last one stands for all that do not fit. -/
def paramPosition (n : Nat) : UInt16 := UInt16.ofNat (min n 65535)

def MethodOutline.key (owner : TypeName) (m : MethodOutline) : MethodKey :=
  ⟨owner, m.name, m.parameters.map (·.type)⟩

/-- The method bound to a class. -/
def MethodOutline.declare (owner : TypeName) (m : MethodOutline) : MethodDecl where
  key := m.key owner
  parameters := m.parameters.zipIdx.map fun (p, i) =>
    ⟨⟨m.key owner, paramPosition i⟩, p.type, p.name, p.annotations⟩
  returns := m.returns
  annotations := m.annotations
  default? := m.default?
  isStatic := m.isStatic

/-- The field bound to a class. -/
def FieldOutline.declare (owner : TypeName) (f : FieldOutline) : FieldDecl :=
  ⟨⟨owner, f.name⟩, f.type, f.annotations, f.isStatic⟩

/-- The class with its members bound to it. -/
def ClassOutline.declare (c : ClassOutline) : ClassDecl where
  name := c.name
  kind := c.kind
  superclass := c.superclass
  interfaces := c.interfaces
  annotations := c.annotations
  methods := c.methods.map (·.declare c.name)
  fields := c.fields.map (·.declare c.name)

namespace MethodDecl

def name (m : MethodDecl) : String := m.key.name

def isConstructor (m : MethodDecl) : Bool := m.name == "<init>"

/-- Neither a constructor nor a static initializer. -/
def isRegular (m : MethodDecl) : Bool := !m.isConstructor && m.name != "<clinit>"

end MethodDecl

namespace ClassDecl

/-- The methods that are neither constructors nor initializers; in an annotation type these are its
    members. -/
def regularMethods (c : ClassDecl) : List MethodDecl := c.methods.filter (·.isRegular)

def method? (c : ClassDecl) (name : String) (parameters : List Ty) : Option MethodDecl :=
  c.methods.find? fun m => m.name == name && m.key.parameters == parameters

def field? (c : ClassDecl) (name : String) : Option FieldDecl :=
  c.fields.find? fun f => f.key.name == name

/-- The class itself carries an annotation of the type. -/
def declares (c : ClassDecl) (type : TypeName) : Bool := c.annotations.any (·.type == type)

end ClassDecl

/-- A declaration of any kind. -/
inductive Declaration where
  | type (c : ClassDecl)
  | method (m : MethodDecl)
  | field (f : FieldDecl)
  | parameter (p : ParamDecl)

namespace Declaration

def key : Declaration → DeclKey
  | .type c => .type c.name
  | .method m => .method m.key
  | .field f => .field f.key
  | .parameter p => .parameter p.key

def annotations : Declaration → List Annotation
  | .type c => c.annotations
  | .method m => m.annotations
  | .field f => f.annotations
  | .parameter p => p.annotations

/-- The declaration itself carries an annotation of the type. -/
def declares (d : Declaration) (type : TypeName) : Bool := d.annotations.any (·.type == type)

end Declaration

/-- A method and its parameters. -/
def MethodDecl.declarations (m : MethodDecl) : List Declaration := .method m :: m.parameters.map .parameter

/-- A class and all that it declares: each method before its parameters, then the fields. -/
def ClassDecl.declarations (c : ClassDecl) : List Declaration :=
  .type c :: c.methods.flatMap (·.declarations) ++ c.fields.map .field

end AnnotationWeaver
