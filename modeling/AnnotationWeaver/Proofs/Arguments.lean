import AnnotationWeaver.Build.Invocations
import AnnotationWeaver.Proofs.ClassQueries

/-!
The parameters of callbacks. Every role that is legal in a phase is a query role or one that the build supplies, and
the roles of a callback are legal in its phase, so no run of a callback lacks a parameter: it is given one for every
role that it declares, in their order, and those of query roles stand for the match that it is run for.
-/
namespace AnnotationWeaver

/-- A role that is legal in a phase is a query role or is supplied by the build. -/
theorem Role.isQuery_or_isSupplied {role : Role} {phase : Phase} (legal : role.isLegalIn phase = true) :
    role.isQuery = true ∨ role.isSupplied = true := by
  cases role with
  | unknown name => cases legal
  | _ => simp [isQuery, isSupplied]

namespace Callback

/-- The parameter for a role in a run for a subject, if there is one. -/
def argumentFor (subject? : Option Subject) (role : Role) : Argument := ⟨role, if role.isQuery then subject? else none⟩

/-- The run for a subject, if there is one, with all its parameters. -/
def invocationFor (c : Callback) (subject? : Option Subject) : Invocation :=
  ⟨c.phase, c.extension, c.name, c.roles.map (argumentFor subject?)⟩

variable {c : Callback} {b : Build} {subject? : Option Subject}

/-- A run has exactly the parameters that the callback declares, in their order. -/
theorem roles_invocationFor (c : Callback) (subject? : Option Subject) :
    (c.invocationFor subject?).arguments.map (·.role) = c.roles := by
  simp [invocationFor, argumentFor, Function.comp_def]

/-- No declared parameter is missing if query roles have a subject to stand for. -/
theorem argument_eq {role : Role} (declared : role ∈ c.roles) (matched : role.isQuery = true → subject?.isSome = true) :
    c.argument subject? role = .ok (argumentFor subject? role) := by
  have given : argument? subject? role = some (argumentFor subject? role) := by
    cases query : role.isQuery with
    | true =>
      obtain ⟨subject, rfl⟩ := Option.isSome_iff_exists.1 (matched query)
      simp [argument?, argumentFor, query]
    | false =>
      have supplied : role.isSupplied = true := by simpa [query] using Role.isQuery_or_isSupplied (c.legal role declared)
      simp [argument?, argumentFor, query, supplied]
  rw [argument, given]

theorem invocation_eq (matched : ∀ role ∈ c.roles, role.isQuery = true → subject?.isSome = true) :
    c.invocation subject? = .ok (c.invocationFor subject?) := by
  have given : c.roles.mapM (c.argument subject?) = .ok (c.roles.map (argumentFor subject?)) :=
    mapM_ok_of_mem fun role declared => argument_eq declared (matched role declared)
  rw [invocation, given]
  rfl

/-- A callback without a query role is run once. -/
theorem invocations_of_none (single : c.queryRole? = none) (b : Build) :
    c.invocations b = .ok [c.invocationFor none] := by
  have complete : c.invocation none = .ok (c.invocationFor none) := by
    refine invocation_eq fun role declared query => ?_
    exact absurd query (List.find?_eq_none.1 single role declared)
  simp only [invocations, single, complete]
  rfl

/-- A callback with a query role is run for what that stands for, one after the other; it has no runs only where the
    annotations cannot be read. -/
theorem invocations_of_some {role : Role} (queries : c.queryRole? = some role) (b : Build) :
    c.invocations b =
      ((b.subjects role c.constraints).map (List.map fun s => c.invocationFor (some s))).mapError .overlay := by
  have complete (subjects : List Subject) : (subjects.mapM fun s => c.invocation (some s)) =
      .ok (subjects.map fun s => c.invocationFor (some s)) := mapM_ok fun _ => invocation_eq fun _ _ _ => rfl
  simp only [invocations, queries]
  cases b.subjects role c.constraints with
  | error e => rfl
  | ok subjects =>
    dsimp only
    rw [complete]
    rfl

/-- All runs of a callback have all their parameters. -/
theorem exists_invocationFor {invocations : List Invocation} (found : c.invocations b = .ok invocations) {i : Invocation}
    (member : i ∈ invocations) : ∃ subject?, i = c.invocationFor subject? := by
  cases role : c.queryRole? with
  | none =>
    obtain rfl := Except.ok.inj ((invocations_of_none role b).symm.trans found)
    exact ⟨none, List.mem_singleton.1 member⟩
  | some role' =>
    rw [invocations_of_some role] at found
    cases subjects : b.subjects role' c.constraints with
    | error e =>
      rw [subjects] at found
      cases found
    | ok subjects' =>
      rw [subjects] at found
      obtain rfl := Except.ok.inj found
      obtain ⟨subject, -, rfl⟩ := List.mem_map.1 member
      exact ⟨some subject, rfl⟩

end Callback

/-- On a readable view it is found what a query role stands for. -/
theorem Build.exists_subjects_ok (b : Build) (readable : b.view.IsReadable) (role : Role) (constraints : List Constraint) :
    ∃ subjects, b.subjects role constraints = .ok subjects := by
  obtain ⟨classes, found⟩ : ∃ classes, b.matchingClasses constraints = .ok classes := by
    obtain ⟨lists, found, -⟩ := exists_mapM_ok
      (fun constraint : Constraint => ⟨_, (ClassQuery.find_spec readable constraint.classQuery).choose_spec.1⟩)
      constraints
    exact ⟨_, by rw [matchingClasses, found]; rfl⟩
  cases role <;> simp only [subjects, found] <;> exact ⟨_, rfl⟩

/-- On a readable view everything that a callback runs for is found. -/
theorem Callback.exists_invocations_ok {b : Build} (readable : b.view.IsReadable) (c : Callback) :
    ∃ invocations, c.invocations b = .ok invocations := by
  cases role : c.queryRole? with
  | none => exact ⟨_, invocations_of_none role b⟩
  | some role' =>
    obtain ⟨subjects, found⟩ := b.exists_subjects_ok readable role' c.constraints
    exact ⟨_, by rw [invocations_of_some role, found]; rfl⟩

end AnnotationWeaver
