import AnnotationWeaver.Deployment
import AnnotationWeaver.Query.Classes

/-!
Resolvers find the deployment that goes with the current annotations. A resolver may go by how often it
was asked before.
-/
namespace AnnotationWeaver

structure Resolver where
  resolve : (earlier : Nat) → View → Except String Deployment

namespace Resolver

/-- Always the same deployment. -/
def fixed (d : Deployment) : Resolver := ⟨fun _ _ => .ok d⟩

/-- The bean of a class, with those of its annotations that are qualifiers. -/
def qualifiedBean (v : View) (qualifiers : List TypeName) (scope name : TypeName) : Except OverlayError Bean := do
  let annotations ← v.annotations (.type name)
  return { Bean.ofClass name.text name scope with
    qualifiers := annotations.entries.filter fun a => qualifiers.contains a.type }

/-- The classes that have a marker, in the order of their names. -/
def marked (v : View) (marker : TypeName) : Except OverlayError (List TypeName) := do
  return View.classNames (sortKeys (← v.declarationsWith marker))

/-- A deployment with a bean more for every class that has a marker. -/
def qualified (d : Deployment) (marker : TypeName) (qualifiers : List TypeName) (scope : TypeName) : Resolver :=
  ⟨fun _ v =>
    (do
      let beans ← (← marked v marker).mapM (qualifiedBean v qualifiers scope)
      return d.extend beans []).mapError OverlayError.message⟩

/-- A resolver that fails when it is asked for the given time, counted from one. -/
def failingOn (time : Nat) (r : Resolver) : Resolver :=
  ⟨fun earlier v => if earlier + 1 = time then .error "resolver down" else r.resolve earlier v⟩

end Resolver

end AnnotationWeaver
