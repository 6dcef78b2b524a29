import AnnotationWeaver.Build.Id
import AnnotationWeaver.Build.State
import AnnotationWeaver.Literal.Encode

/-!
What a build comes to: the class of its synthetic components, the literals of the qualifiers of its
beans and observers, and the record of the build as a whole.
-/
namespace AnnotationWeaver

def constructionsJson (cs : List Construction) : Json := .list Construction.toJson cs

/-- The synthetic components and contexts of a build; a component comes with how its qualifiers are
    built. -/
structure ComponentsClass where
  name : TypeName
  build : BuildId
  beans : List (SyntheticBean × List Construction)
  observers : List (SyntheticObserver × List Construction)
  contexts : List ScopeContext

namespace ComponentsClass

/-- Nothing is written for a build without synthetic components. -/
def isEmpty (c : ComponentsClass) : Bool := c.beans.isEmpty && c.observers.isEmpty

def literalsMember : String := "qualifier_literals"

def toJson (c : ComponentsClass) : Json :=
  .object [("name", c.name.toJson), ("build", c.build.toJson),
    ("beans", .list (fun (b, cs) => .object (b.jsonMembers ++ [(literalsMember, constructionsJson cs)])) c.beans),
    ("observers",
      .list (fun (o, cs) => .object (o.jsonMembers ++ [(literalsMember, constructionsJson cs)])) c.observers),
    ("contexts", .list ScopeContext.toJson c.contexts)]

end ComponentsClass

/-- How the qualifiers of beans and observers are built, by their ids. -/
structure QualifierLiterals where
  beans : List (String × List Construction)
  observers : List (String × List Construction)

namespace QualifierLiterals

def size (q : QualifierLiterals) : Nat := ((q.beans ++ q.observers).flatMap fun (_, cs) => cs).length

def toJson (q : QualifierLiterals) : Json :=
  .object [("beans", .object (q.beans.map fun (id, cs) => (id, constructionsJson cs))),
    ("observers", .object (q.observers.map fun (id, cs) => (id, constructionsJson cs)))]

end QualifierLiterals

/-- What the literal compiler did in a build. -/
structure LiteralStats where
  shared : Nat
  oneOffs : Nat
  materialized : Nat
  deriving DecidableEq, Repr

def LiteralState.stats (s : LiteralState) : LiteralStats := ⟨s.literals.length, s.oneOffs, s.materialized⟩

/-- The record of a build that succeeded. -/
structure Outcome where
  id : BuildId
  messages : List Message
  scanned : List TypeName
  metas : MetaAnnotations
  synthetic : Synthetic
  written : List TypeName
  qualifierLiterals : QualifierLiterals
  stats : LiteralStats

namespace Outcome

def warnings (o : Outcome) : Nat := (o.messages.filter (·.level == .warning)).length

def toJson (o : Outcome) : Json :=
  .object [("build_id", o.id.toJson), ("messages", .list Message.toJson o.messages),
    ("scanned_classes", .list TypeName.toJson o.scanned), ("meta_annotations", o.metas.registrationsJson),
    ("contexts", o.metas.contextsJson), ("synthetic_beans", .list SyntheticBean.toJson o.synthetic.beans),
    ("synthetic_observers", .list SyntheticObserver.toJson o.synthetic.observers),
    ("written_classes", .list TypeName.toJson o.written),
    ("qualifier_literals", o.qualifierLiterals.toJson)]

end Outcome

end AnnotationWeaver
