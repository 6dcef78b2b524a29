import AnnotationWeaver.Declaration

/-!
The deployment: the beans and observers that an application has, in order. They are resolved outside
this library; here they are described, and more can be added at the end.
-/
namespace AnnotationWeaver

/-- What a bean comes from. -/
inductive BeanKind where
  | managedClass | producerMethod | producerField | synthetic
  deriving DecidableEq, Repr

def BeanKind.all : List BeanKind := [.managedClass, .producerMethod, .producerField, .synthetic]

def BeanKind.label : BeanKind → String
  | .managedClass => "class"
  | .producerMethod => "producer_method"
  | .producerField => "producer_field"
  | .synthetic => "synthetic"

structure Bean where
  id : String
  kind : BeanKind
  implementation : TypeName
  declaringClass : TypeName
  scope : TypeName
  types : List Ty
  qualifiers : List Annotation
  name : Option String
  priority : Option Int32
  alternative : Bool

/-- The bean of a class, which is its only type. -/
def Bean.ofClass (id : String) (type scope : TypeName) : Bean where
  id := id
  kind := .managedClass
  implementation := type
  declaringClass := type
  scope := scope
  types := [.named type]
  qualifiers := []
  name := none
  priority := none
  alternative := false

def Bean.hasQualifier (b : Bean) (type : TypeName) : Bool := b.qualifiers.any (·.type == type)

structure Observer where
  id : String
  declaringClass : TypeName
  method : Option MethodKey
  observed : Ty
  qualifiers : List Annotation
  priority : Int32
  isAsync : Bool
  isSynthetic : Bool

/-- The priority of an observer that sets none. -/
def Observer.defaultPriority : Int32 := 2500

/-- The observer that a method is. -/
def Observer.ofMethod (id : String) (method : MethodKey) (observed : Ty) : Observer where
  id := id
  declaringClass := method.owner
  method := some method
  observed := observed
  qualifiers := []
  priority := Observer.defaultPriority
  isAsync := false
  isSynthetic := false

structure Deployment where
  beans : List Bean
  observers : List Observer

namespace Deployment

def empty : Deployment := ⟨[], []⟩

/-- The deployment with more beans and observers at the end. -/
def extend (d : Deployment) (beans : List Bean) (observers : List Observer) : Deployment :=
  ⟨d.beans ++ beans, d.observers ++ observers⟩

end Deployment

end AnnotationWeaver
