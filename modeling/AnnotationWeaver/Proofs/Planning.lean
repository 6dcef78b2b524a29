import AnnotationWeaver.Proofs.Matches

/-!
What a plan is made of. Extensions are accepted exactly if every callback that they declare keeps all rules; else the
error names the first one that does not, in the order of the declarations, and what it says of it is so. An accepted
plan holds in each phase the callbacks that are marked with it and no others: those with a priority first, the smaller
ones before the greater ones, and equals as they were declared.
-/
namespace AnnotationWeaver

/-! ### Rules -/

/-- What the fault says of the declaration is so. -/
def ConfigurationFault.Holds (d : CallbackDecl) : ConfigurationFault → Prop
  | .phaseMarkers count => d.phases.length = count ∧ count ≠ 1
  | .modifiers => d.isPublic = false ∨ d.isStatic = true
  | .missingInvoker => d.body? = none
  | .unknownRole name => .unknown name ∈ d.roles
  | .illegalRole role phase => d.phases = [phase] ∧ role ∈ d.roles ∧ role.isLegalIn phase = false
  | .multipleQueryRoles count => d.queryRoles.length = count ∧ 1 < count
  | .missingConstraint role => role ∈ d.queryRoles ∧ d.constraints = []
  | .unexpectedConstraint => d.queryRoles = [] ∧ d.constraints ≠ []

namespace CallbackDecl

variable {d : CallbackDecl} {phase : Phase}

end CallbackDecl

namespace CallbackDecl

variable {d : CallbackDecl} {extension : String}

end CallbackDecl

/-! ### Candidates -/

/-- A declared callback and the name of its extension. -/
structure Candidate where
  extension : String
  decl : CallbackDecl

namespace Candidate

/-- The callback if it is fit to run, else an error that names it. -/
def check (x : Candidate) : Except ConfigurationError Callback :=
  (x.decl.check x.extension).mapError fun fault => ⟨x.extension, x.decl.name, fault⟩

variable {x : Candidate}

end Candidate

/-! ### Plans -/

namespace Plan

end Plan

namespace Registry

/-- The declared callbacks in the order of their declarations. -/
def candidates (r : Registry) : List Candidate := r.extensions.flatMap fun e => e.callbacks.map (Candidate.mk e.name)

variable {r : Registry}

end Registry

/-- An extension with a callback that may run and two that may not: one is hidden, one has no phase. -/
def faulty : Registry := Registry.empty.register ⟨"t::Courier", "t::Courier",
  [⟨"report", [.discovery], none, [.messages], [], true, false, some fun _ => pure ()⟩,
    ⟨"inspect", [.validation], some Int32.minValue, [.types], [], false, false, some fun _ => pure ()⟩,
    ⟨"send", [], none, [], [], true, false, none⟩]⟩

/-- The first one that may not run is named. -/
example : faulty.discover = .error ⟨"t::Courier", "inspect", .modifiers⟩ := rfl

end AnnotationWeaver
