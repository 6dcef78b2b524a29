import AnnotationWeaver.Overlay.View

/-!
Class queries. A query is a list of criteria in two families: those that name classes and those that
ask for an annotation. Within a family each criterion widens what is admitted; the families narrow
each other, and one without criteria admits every class. The named classes are the candidates if there
are any, else what has an annotation asked for, else the whole corpus. A query by annotation alone has
no order of its own and answers in the order of the keys' texts.
-/
namespace AnnotationWeaver

/-- Keys in the order of their texts. -/
def sortKeys (keys : List DeclKey) : List DeclKey := keys.mergeSort fun a b => decide (a.text ≤ b.text)

namespace View

/-- A declaration has an annotation of one of the types. -/
def hasAny (v : View) (key : DeclKey) : List TypeName → Except OverlayError Bool
  | [] => .ok false
  | type :: rest => do
    if ← v.has key type then return true else v.hasAny key rest

/-- The declarations that have an annotation of one of the types, by their texts. -/
def declarationsWithAny (v : View) (types : List TypeName) : Except OverlayError (List DeclKey) := do
  let found ← types.mapM v.declarationsWith
  return sortKeys found.flatten.eraseDups

/-- The keys that have an annotation of one of the types; all of them where no type is asked for. -/
def retain {α : Type} (v : View) (types : List TypeName) (key : α → DeclKey) (candidates : List α) :
    Except OverlayError (List α) :=
  if types.isEmpty then .ok candidates else candidates.filterM fun a => v.hasAny (key a) types

end View

inductive ClassCriterion where
  | exactly (name : TypeName)
  | subtypeOf (name : TypeName)
  | supertypeOf (name : TypeName)
  | annotatedWith (type : TypeName)
  deriving DecidableEq, Repr

namespace ClassCriterion

/-- The classes that a criterion names; one that asks for an annotation names none. -/
def named? (corpus : Corpus) : ClassCriterion → Option (List TypeName)
  | .exactly name => some [name]
  | .subtypeOf name => some (corpus.allSubtypes name)
  | .supertypeOf name => some (corpus.allSupertypes name)
  | .annotatedWith _ => none

def annotationType? : ClassCriterion → Option TypeName
  | .annotatedWith type => some type
  | _ => none

end ClassCriterion

/-- The criteria of a search for classes. -/
structure ClassQuery where
  criteria : List ClassCriterion
  deriving DecidableEq, Repr

namespace ClassQuery

def annotationTypes (q : ClassQuery) : List TypeName := q.criteria.filterMap (·.annotationType?)

/-- No class is named but an annotation is asked for. -/
def isLoose (q : ClassQuery) : Bool :=
  !q.criteria.isEmpty && q.criteria.all fun c => c.annotationType?.isSome

/-- The named classes, each once, in the order of the criteria; none if no criterion names any. -/
def named? (q : ClassQuery) (corpus : Corpus) : Option (List TypeName) :=
  match q.criteria.filterMap (·.named? corpus) with
  | [] => none
  | lists => some lists.flatten.eraseDups

/-- The classes that the query admits. -/
def find (q : ClassQuery) (v : View) : Except OverlayError (List ClassDecl) :=
  match q.named? v.corpus with
  | some names =>
    v.retain q.annotationTypes (fun d : ClassDecl => .type d.name) (names.filterMap v.corpus.class?)
  | none =>
    if q.annotationTypes.isEmpty then .ok v.corpus.sorted
    else do
      let keys ← v.declarationsWithAny q.annotationTypes
      return (View.classNames keys).filterMap v.corpus.class?

end ClassQuery

end AnnotationWeaver
