import AnnotationWeaver.Build.State

/-!
What a callback is run for. Without a query role it is run once; with one it is run for every class,
member, bean or observer that one of its constraints selects, each once, in the order of the
constraints. A constraint on beans or observers looks at their types, and its annotations are
qualifiers. Every other role is supplied by the build; one that nothing supplies is a fault of the
callback.
-/
namespace AnnotationWeaver

namespace Constraint

def classQuery (c : Constraint) : ClassQuery :=
  ⟨(match c.scope with
    | .exact => .exactly c.type
    | .subtypes => .subtypeOf c.type) :: c.annotatedWith.map .annotatedWith⟩

/-- The types that a constraint selects. -/
def types (c : Constraint) (corpus : Corpus) : List TypeName :=
  match c.scope with
  | .exact => [c.type]
  | .subtypes => corpus.allSubtypes c.type

/-- The beans of one of the selected types, with one of the qualifiers if there are any. -/
def beans (c : Constraint) (corpus : Corpus) (d : Deployment) : List Bean :=
  match c.types corpus with
  | [] => []
  | types =>
    BeanQuery.find ⟨types.map (fun n => .beanType (.named n)) ++ c.annotatedWith.map .qualifier⟩ d

def observers (c : Constraint) (corpus : Corpus) (d : Deployment) : List Observer :=
  match c.types corpus with
  | [] => []
  | types =>
    ObserverQuery.find ⟨types.map (fun n => .observedType (.named n)) ++ c.annotatedWith.map .qualifier⟩ d

end Constraint

namespace Build

def matchingClasses (b : Build) (constraints : List Constraint) : Except OverlayError (List ClassDecl) := do
  let found ← constraints.mapM fun c => c.classQuery.find b.view
  return found.flatten.eraseDupsBy fun d e => d.name == e.name

def matchingBeans (b : Build) (constraints : List Constraint) : List Bean :=
  (constraints.flatMap fun c => c.beans b.corpus b.deployment).eraseDupsBy fun x y => x.id == y.id

def matchingObservers (b : Build) (constraints : List Constraint) : List Observer :=
  (constraints.flatMap fun c => c.observers b.corpus b.deployment).eraseDupsBy fun x y => x.id == y.id

/-- What a query role stands for, one after the other. -/
def subjects (b : Build) (role : Role) (constraints : List Constraint) : Except OverlayError (List Subject) :=
  match role with
  | .classConfig | .classInfo => do return (← b.matchingClasses constraints).map .type
  | .methodConfig | .methodInfo => do
    return ((← b.matchingClasses constraints).flatMap (·.regularMethods)).map .method
  | .fieldConfig | .fieldInfo => do
    return ((← b.matchingClasses constraints).flatMap (·.fields)).map .field
  | .beanInfo => .ok ((b.matchingBeans constraints).map .bean)
  | .observerInfo => .ok ((b.matchingObservers constraints).map .observer)
  | _ => .ok []

end Build

/-- A build supplies the role itself, whatever a callback is run for. -/
def Role.isSupplied : Role → Bool
  | .messages | .scannedClasses | .metaAnnotations | .annotations | .archiveConfig | .types | .archive | .deployment
  | .syntheticComponents => true
  | _ => false

namespace Callback

/-- The argument for a role: for a query role the subject, for any other one what the build supplies. -/
def argument? (subject? : Option Subject) (role : Role) : Option Argument :=
  if role.isQuery then subject?.map fun s => ⟨role, some s⟩
  else if role.isSupplied then some ⟨role, none⟩
  else none

def argument (c : Callback) (subject? : Option Subject) (role : Role) : Except ConfigurationError Argument :=
  match argument? subject? role with
  | some a => .ok a
  | none => .error ⟨c.extension, c.name, .unknownRole role.text⟩

/-- The run of a callback for a subject, if it has one. -/
def invocation (c : Callback) (subject? : Option Subject) : Except ConfigurationError Invocation := do
  return ⟨c.phase, c.extension, c.name, ← c.roles.mapM (c.argument subject?)⟩

/-- The runs of a callback, as the build is now. -/
def invocations (c : Callback) (b : Build) : Except BuildError (List Invocation) :=
  match c.queryRole? with
  | none => ((c.invocation none).map fun i => [i]).mapError .configuration
  | some role =>
    match b.subjects role c.constraints with
    | .ok subjects => (subjects.mapM fun s => c.invocation (some s)).mapError .configuration
    | .error e => .error (.overlay e)

end Callback

end AnnotationWeaver
