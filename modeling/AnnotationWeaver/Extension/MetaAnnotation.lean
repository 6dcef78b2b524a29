import AnnotationWeaver.Declaration
import AnnotationWeaver.Extension.Editing
import AnnotationWeaver.Wire.Encode

/-!
Annotation types that extensions register as qualifiers, interceptor bindings or stereotypes, and the
contexts they register. Every registration brings a configurator, an editing program for the
annotation type itself; configurators are taken out to be run, each at most once.
-/
namespace AnnotationWeaver

inductive MetaKind where
  | qualifier | interceptorBinding | stereotype
  deriving DecidableEq, Repr

namespace MetaKind

def all : List MetaKind := [.qualifier, .interceptorBinding, .stereotype]

def label : MetaKind → String
  | .qualifier => "qualifier"
  | .interceptorBinding => "interceptor_binding"
  | .stereotype => "stereotype"

/-- The name that messages use. -/
def title : MetaKind → String
  | .qualifier => "Qualifier"
  | .interceptorBinding => "InterceptorBinding"
  | .stereotype => "Stereotype"

end MetaKind

/-- A scope and what implements its context. -/
structure ScopeContext where
  scope : TypeName
  implementation : TypeName
  normalScoped : Bool
  deriving DecidableEq, Repr

def ScopeContext.toJson (c : ScopeContext) : Json :=
  .object [("scope", c.scope.toJson), ("implementation", c.implementation.toJson),
    ("normal_scoped", .bool c.normalScoped)]

/-- The scanned classes with one more, unless it is there. -/
def addScanned (scanned : List TypeName) (name : TypeName) : List TypeName :=
  if name ∈ scanned then scanned else scanned ++ [name]

/-- Edits the annotation type that it is given. -/
abbrev Configurator : Type := ClassDecl → EditProgram Unit

structure MetaRegistration where
  kind : MetaKind
  type : TypeName
  /-- Absent once it was taken. -/
  configurator? : Option Configurator

/-- What was registered, in order. -/
structure MetaAnnotations where
  registrations : List MetaRegistration
  contexts : List ScopeContext

namespace MetaAnnotations

def empty : MetaAnnotations := ⟨[], []⟩

def register (m : MetaAnnotations) (kind : MetaKind) (type : TypeName) (configure : Configurator) :
    MetaAnnotations :=
  { m with registrations := m.registrations ++ [⟨kind, type, some configure⟩] }

def addContext (m : MetaAnnotations) (c : ScopeContext) : MetaAnnotations :=
  { m with contexts := m.contexts ++ [c] }

/-- The types registered as one kind. -/
def ofKind (m : MetaAnnotations) (kind : MetaKind) : List TypeName :=
  (m.registrations.filter (·.kind == kind)).map (·.type)

/-- The configurators that were not taken yet, in order of registration. -/
def pending (m : MetaAnnotations) : List (MetaKind × TypeName × Configurator) :=
  m.registrations.filterMap fun r => r.configurator?.map fun configure => (r.kind, r.type, configure)

/-- The registrations without their configurators. -/
def taken (m : MetaAnnotations) : MetaAnnotations :=
  { m with registrations := m.registrations.map fun r => { r with configurator? := none } }

def registrationsJson (m : MetaAnnotations) : Json :=
  .list (fun r => .arr [.str r.kind.label, r.type.toJson]) m.registrations

def contextsJson (m : MetaAnnotations) : Json := .list ScopeContext.toJson m.contexts

end MetaAnnotations

end AnnotationWeaver
