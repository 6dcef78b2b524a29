import AnnotationWeaver.AnnotationSet
import AnnotationWeaver.Corpus.Hierarchy

/-!
The annotations that a declaration has before any edit. These are its declared ones and, for a class,
the inherited ones of its superclasses, nearest first; a nearer annotation hides a farther one of its
type. `seedContains` answers for one type without building the set.
-/
namespace AnnotationWeaver.Corpus

/-- The annotations of the superclasses that apply to subclasses, nearest first. -/
def inheritable (c : Corpus) (name : TypeName) : List Annotation :=
  (c.superclassChain name).flatMap fun ancestor =>
    ancestor.annotations.filter fun a => c.isInherited a.type

/-- What is inherited by a declaration: only classes inherit. -/
def inheritedBy (c : Corpus) : DeclKey → List Annotation
  | .type name => c.inheritable name
  | _ => []

/-- The annotations of a declaration, declared or inherited. -/
def seed (c : Corpus) (key : DeclKey) : AnnotationSet :=
  .ofList (c.declaredAnnotations key ++ c.inheritedBy key)

/-- A declaration has an annotation of the type, declared or inherited. -/
def seedContains (c : Corpus) (key : DeclKey) (type : TypeName) : Bool :=
  (c.declaredAnnotations key).any (·.type == type) ||
    match key with
    | .type name => c.isInherited type && (c.superclassChain name).any (·.declares type)
    | _ => false

end AnnotationWeaver.Corpus
