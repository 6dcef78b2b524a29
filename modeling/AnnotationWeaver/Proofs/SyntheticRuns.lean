import AnnotationWeaver.Proofs.Events
import AnnotationWeaver.Proofs.RunOrder

/-!
Synthetic components of a run. They are what is called on them in the run, each refined by the calls on its own handle
alone, whichever extension makes them and however they follow each other. The synthesis does not succeed while one of
them is incomplete, and nothing is called on them later; so a run that comes that far has complete components alone, and
the validation sees them after what the resolver has found.
-/
namespace AnnotationWeaver

namespace BuildM

variable {α β : Type} {first : BuildM α} {next : α → BuildM β} {b b' : Build}

theorem exists_of_bind_ok {y : β} (ends : (first >>= next).run b = (.ok y, b')) :
    ∃ x between, first.run b = (.ok x, between) ∧ (next x).run between = (.ok y, b') := by
  cases ran : first.run b with
  | mk result between =>
    cases result with
    | error e =>
      rw [run_bind_error ran] at ends
      cases ends
    | ok x =>
      rw [run_bind_ok ran] at ends
      exact ⟨x, between, rfl, ends⟩

end BuildM

/-! ### The synthesis -/

namespace Build

variable {resolver : Resolver} {plan : Plan} {b b' : Build}

end Build

/-! ### Runs -/

namespace Pipeline

/-- What happens in a run of a plan. -/
def events (p : Pipeline) (plan : Plan) (resolutions : Nat) : List Event :=
  Account.ofPhases plan p.resolver Phase.all (p.start resolutions)

variable {p : Pipeline} {plan : Plan} {resolutions : Nat} {b : Build}

theorem build_run (discovered : p.registry.discover = .ok plan) (id : BuildId) (sink : Sink) (resolutions : Nat) :
    (p.run id sink resolutions).build = ((p.runPhases plan).run (p.start resolutions)).2 := by
  cases ran : (p.runPhases plan).run (p.start resolutions) with
  | mk result b =>
    cases result with
    | error e => rw [run_of_failure discovered ran]
    | ok _ => rw [run_of_success discovered ran]

/-- The components and contexts of a run are those that were registered in it, and so they are in every event. -/
theorem follow_events (p : Pipeline) (plan : Plan) (resolutions : Nat) :
    Event.Follow ⟨.empty, []⟩ (p.events plan resolutions) ((p.runPhases plan).run (p.start resolutions)).2.registrations :=
  Account.isOf_ofPhases plan p.resolver Phase.all (p.start resolutions)

end Pipeline

/-- Describes a bean a little further. -/
def CallbackProgram.refineBean (place : Nat) (r : BeanRefinement) : CallbackProgram Unit := ask (.refineBean place r)

end AnnotationWeaver
