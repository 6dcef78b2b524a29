import AnnotationWeaver.Declaration
import AnnotationWeaver.Literal.Construction
import AnnotationWeaver.Literal.Naming

/-!
Literal classes: generated classes whose instances stand for annotations. A shared class keeps the
values of the members in fields that its constructor sets, so it depends on the annotation type alone;
a one-off class returns its values from its methods. In both, the defaults that are classes or arrays
of classes are kept in static fields.
-/
namespace AnnotationWeaver

/-- What the class of an annotation type is called, and from what it is made. -/
structure Literal where
  name : TypeName
  isApplication : Bool
  declaration : ClassDecl

namespace Literal

def type (l : Literal) : TypeName := l.declaration.name

/-- The members of the annotation type. -/
def members (l : Literal) : List MethodDecl := l.declaration.regularMethods

def constructor (l : Literal) : List Ty := l.members.map (·.returns)

end Literal

structure GeneratedField where
  name : String
  type : Ty
  isStatic : Bool
  deriving DecidableEq, Repr

inductive MethodBody where
  | returnField (field : String)
  | returnValue (value : Construction)

structure GeneratedMethod where
  name : String
  returns : Ty
  body : MethodBody

/-- A static field and how its value is built. -/
structure StaticInit where
  field : String
  value : Construction

/-- A generated class; it extends the common superclass and implements the annotation type. -/
structure LiteralClass where
  name : TypeName
  isApplication : Bool
  annotationType : TypeName
  fields : List GeneratedField
  constructor : List Ty
  methods : List GeneratedMethod
  staticInits : List StaticInit

namespace Literal

/-- How the default of a member is built; only classes and arrays of classes are kept. -/
def staticDefault? (m : MethodDecl) : Option Construction :=
  if m.returns.holdsClasses then
    match m.default? with
    | some (.classLiteral type) => some (.loadClass type.erased)
    | some (.array _ elements) =>
      m.returns.component?.map fun component =>
        .newArray component <| elements.filterMap fun
          | .classLiteral type => some (.loadClass type.erased)
          | _ => none
    | _ => none
  else none

/-- The members whose defaults are kept in static fields, and how those are built. -/
def statics (l : Literal) : List (MethodDecl × Construction) :=
  l.members.filterMap fun m => (staticDefault? m).map (m, ·)

def staticFields (l : Literal) : List GeneratedField :=
  l.statics.map fun (m, _) => ⟨defaultField m.name, m.returns, true⟩

def staticInits (l : Literal) : List StaticInit :=
  l.statics.map fun (m, value) => ⟨defaultField m.name, value⟩

/-- The class that all annotations of the type share. -/
def sharedClass (l : Literal) : LiteralClass where
  name := l.name
  isApplication := l.isApplication
  annotationType := l.type
  fields := l.members.map (fun m => ⟨m.name, m.returns, false⟩) ++ l.staticFields
  constructor := l.constructor
  methods := l.members.map fun m => ⟨m.name, m.returns, .returnField m.name⟩
  staticInits := l.staticInits

/-- The class of one annotation, given how the values of its members are built. -/
def oneOffClass (l : Literal) (values : List Construction) : LiteralClass where
  name := l.name
  isApplication := l.isApplication
  annotationType := l.type
  fields := l.staticFields
  constructor := []
  methods := (l.members.zip values).map fun (m, value) => ⟨m.name, m.returns, .returnValue value⟩
  staticInits := l.staticInits

end Literal

end AnnotationWeaver
