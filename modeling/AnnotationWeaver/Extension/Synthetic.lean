import AnnotationWeaver.Assoc
import AnnotationWeaver.Deployment
import AnnotationWeaver.Wire.Encode

/-!
Synthetic beans and observers: components that extensions describe piece by piece. Each is known by
its place among those of its sort, and a refinement changes that one alone. A bean has to name what
creates it and an observer what observes; `problems` lists those that do not.
-/
namespace AnnotationWeaver

open Decimal (Binary64)

/-- A parameter that a synthetic bean is created with. -/
inductive ParamValue where
  | boolean (b : Bool)
  | int (n : Int32)
  | long (n : Int64)
  | double (x : Binary64)
  | string (s : String)
  | type (name : TypeName)
  deriving DecidableEq, Repr

def ParamValue.toJson : ParamValue → Json
  | .boolean b => .bool b
  | .int n => .int n.toInt
  | .long n => .int n.toInt
  | .double x => .double x
  | .string s => .str s
  | .type name => name.toJson

structure SyntheticBean where
  id : String
  extension : TypeName
  implementation : TypeName
  types : List Ty
  qualifiers : List Annotation
  scope : Option TypeName
  name : Option String
  alternative : Bool
  priority : Option Int32
  stereotypes : List TypeName
  creator : Option TypeName
  disposer : Option TypeName
  params : List (String × ParamValue)

structure SyntheticObserver where
  id : String
  declaringClass : TypeName
  observed : Ty
  qualifiers : List Annotation
  priority : Int32
  isAsync : Bool
  observerClass : Option TypeName

/-- One piece of the description of a bean. -/
inductive BeanRefinement where
  | beanType (type : Ty)
  | qualifier (a : Annotation)
  | scope (name : TypeName)
  | name (s : String)
  | stereotype (type : TypeName)
  | createWith (name : TypeName)
  | disposeWith (name : TypeName)
  | alternative (b : Bool)
  | priority (n : Int32)
  | param (key : String) (value : ParamValue)

/-- One piece of the description of an observer. -/
inductive ObserverRefinement where
  | declaringClass (name : TypeName)
  | observeWith (name : TypeName)
  | qualifier (a : Annotation)
  | priority (n : Int32)
  | async (b : Bool)

namespace SyntheticBean

/-- The scope of a bean that names none. -/
def defaultScope : TypeName := ⟨"jakarta.enterprise.context.Dependent"⟩

/-- The bean at a place, as it is first described. -/
def initial (place : Nat) (extension implementation : TypeName) : SyntheticBean where
  id := "synthetic-bean-" ++ toString place
  extension := extension
  implementation := implementation
  types := []
  qualifiers := []
  scope := none
  name := none
  alternative := false
  priority := none
  stereotypes := []
  creator := none
  disposer := none
  params := []

def refine (b : SyntheticBean) : BeanRefinement → SyntheticBean
  | .beanType type => { b with types := b.types ++ [type] }
  | .qualifier a => { b with qualifiers := b.qualifiers ++ [a] }
  | .scope name => { b with scope := some name }
  | .name s => { b with name := some s }
  | .stereotype type => { b with stereotypes := b.stereotypes ++ [type] }
  | .createWith name => { b with creator := some name }
  | .disposeWith name => { b with disposer := some name }
  | .alternative a => { b with alternative := a }
  | .priority n => { b with priority := some n }
  | .param key value => { b with params := Assoc.set key value b.params }

/-- The bean as the deployment shows it: its class is its type if it names no other. -/
def toBean (b : SyntheticBean) : Bean where
  id := b.id
  kind := .synthetic
  implementation := b.implementation
  declaringClass := b.extension
  scope := b.scope.getD defaultScope
  types := if b.types.isEmpty then [.named b.implementation] else b.types
  qualifiers := b.qualifiers
  name := b.name
  priority := b.priority
  alternative := b.alternative

/-- What is wrong with a bean that names no creator. -/
def problem? (b : SyntheticBean) : Option String :=
  match b.creator with
  | some _ => none
  | none =>
    some ("synthetic bean " ++ b.id ++ " (" ++ b.implementation.text ++ ") registered by " ++ b.extension.text
      ++ " has no creator")

def jsonMembers (b : SyntheticBean) : List (String × Json) :=
  [("id", .str b.id), ("extension", b.extension.toJson),
    ("implementation_class", b.implementation.toJson), ("types", .list Ty.toJson b.types),
    ("qualifiers", annotationsJson b.qualifiers), ("scope", .option TypeName.toJson b.scope),
    ("name", .option .str b.name), ("alternative", .bool b.alternative),
    ("priority", .option int32Json b.priority), ("stereotypes", .list TypeName.toJson b.stereotypes),
    ("creator", .option TypeName.toJson b.creator), ("disposer", .option TypeName.toJson b.disposer),
    ("params", .object (b.params.map fun (key, value) => (key, value.toJson)))]

def toJson (b : SyntheticBean) : Json := .object b.jsonMembers

end SyntheticBean

namespace SyntheticObserver

/-- The observer at a place, as it is first described. -/
def initial (place : Nat) (extension : TypeName) (observed : Ty) : SyntheticObserver where
  id := "synthetic-observer-" ++ toString place
  declaringClass := extension
  observed := observed
  qualifiers := []
  priority := Observer.defaultPriority
  isAsync := false
  observerClass := none

def refine (o : SyntheticObserver) : ObserverRefinement → SyntheticObserver
  | .declaringClass name => { o with declaringClass := name }
  | .observeWith name => { o with observerClass := some name }
  | .qualifier a => { o with qualifiers := o.qualifiers ++ [a] }
  | .priority n => { o with priority := n }
  | .async b => { o with isAsync := b }

/-- The observer as the deployment shows it. -/
def toObserver (o : SyntheticObserver) : Observer where
  id := o.id
  declaringClass := o.declaringClass
  method := none
  observed := o.observed
  qualifiers := o.qualifiers
  priority := o.priority
  isAsync := o.isAsync
  isSynthetic := true

/-- What is wrong with an observer that names nothing that observes. -/
def problem? (o : SyntheticObserver) : Option String :=
  match o.observerClass with
  | some _ => none
  | none =>
    some ("synthetic observer " ++ o.id ++ " of " ++ o.observed.text ++ " declared by "
      ++ o.declaringClass.text ++ " has no observer class")

def jsonMembers (o : SyntheticObserver) : List (String × Json) :=
  [("id", .str o.id), ("declaring_class", o.declaringClass.toJson),
    ("observed_type", o.observed.toJson), ("qualifiers", annotationsJson o.qualifiers),
    ("priority", int32Json o.priority), ("is_async", .bool o.isAsync),
    ("observer_class", .option TypeName.toJson o.observerClass)]

def toJson (o : SyntheticObserver) : Json := .object o.jsonMembers

end SyntheticObserver

/-- The synthetic components, in the order of their registration. -/
structure Synthetic where
  beans : List SyntheticBean
  observers : List SyntheticObserver

namespace Synthetic

def empty : Synthetic := ⟨[], []⟩

def isEmpty (s : Synthetic) : Bool := s.beans.isEmpty && s.observers.isEmpty

/-- Registers a bean; its place is the number of beans before. -/
def addBean (s : Synthetic) (extension implementation : TypeName) : Synthetic :=
  { s with beans := s.beans ++ [.initial s.beans.length extension implementation] }

def refineBean (s : Synthetic) (place : Nat) (r : BeanRefinement) : Synthetic :=
  { s with beans := s.beans.modify place (·.refine r) }

/-- Registers an observer; its place is the number of observers before. -/
def addObserver (s : Synthetic) (extension : TypeName) (observed : Ty) : Synthetic :=
  { s with observers := s.observers ++ [.initial s.observers.length extension observed] }

def refineObserver (s : Synthetic) (place : Nat) (r : ObserverRefinement) : Synthetic :=
  { s with observers := s.observers.modify place (·.refine r) }

/-- What is wrong with the beans, then with the observers. -/
def problems (s : Synthetic) : List String :=
  s.beans.filterMap (·.problem?) ++ s.observers.filterMap (·.problem?)

/-- The deployment with the synthetic components at its end. -/
def extend (s : Synthetic) (d : Deployment) : Deployment :=
  d.extend (s.beans.map (·.toBean)) (s.observers.map (·.toObserver))

end Synthetic

end AnnotationWeaver
