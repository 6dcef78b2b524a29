import AnnotationWeaver.Build.Pipeline
import AnnotationWeaver.Proofs.TraceRuns

/-!
Qualifiers of a build. Every bean and observer asks for its qualifiers, for the package in which it is declared or, if it
is synthetic, for the generated package. A request that repeats an earlier one is answered from what was compiled
then, so what is compiled are the first requests, in their order: the qualifiers are what these are built as, and
the compiler is in the state to which their traces lead.
-/
namespace AnnotationWeaver

/-- A qualifier, and the package that it is compiled for. -/
structure QualifierRequest where
  qualifier : Annotation
  package : String

namespace QualifierRequest

/-- The other request is for the same package, and for an annotation that is the same. -/
def repeats (r earlier : QualifierRequest) : Bool := earlier.qualifier == r.qualifier && earlier.package == r.package

/-- The requests without those that repeat an earlier one. -/
def firsts (requests : List QualifierRequest) : List QualifierRequest :=
  requests.foldl (fun earlier r => if earlier.any r.repeats then earlier else earlier ++ [r]) []

theorem firsts_append_singleton (requests : List QualifierRequest) (r : QualifierRequest) :
    firsts (requests ++ [r]) =
      if (firsts requests).any r.repeats then firsts requests else firsts requests ++ [r] := by
  rw [firsts, List.foldl_append]
  rfl

/-- All qualifiers for one package. -/
def ofQualifiers (package : String) (qualifiers : List Annotation) : List QualifierRequest :=
  qualifiers.map (⟨·, package⟩)

end QualifierRequest

namespace QualifierState

/-- The requests that were compiled. -/
def requests (s : QualifierState) : List QualifierRequest := s.compiled.map fun entry => ⟨entry.1, entry.2.1⟩

/-- What they were built as. -/
def built (s : QualifierState) : List Construction := s.compiled.map fun entry => entry.2.2

theorem exists_of_find? {s : QualifierState} {a : Annotation} {package : String} {x : Construction}
    (found : s.find? a package = some x) : ∃ entry ∈ s.compiled, (entry.1 == a) = true ∧ entry.2 = (package, x) := by
  obtain ⟨entry, search, rfl⟩ := Option.map_eq_some_iff.1 found
  have same := List.find?_some search
  simp only [Bool.and_eq_true, beq_iff_eq] at same
  exact ⟨entry, List.mem_of_find?_eq_some search, same.1, Prod.ext same.2 rfl⟩

/-- What was compiled before is found for requests that repeat one. -/
theorem find?_eq_some {s : QualifierState} {a : Annotation} {package : String} {x : Construction}
    (found : s.find? a package = some x) :
    s.requests.any (QualifierRequest.repeats ⟨a, package⟩) = true ∧ x ∈ s.built := by
  obtain ⟨entry, listed, same, held⟩ := exists_of_find? found
  have repeats : QualifierRequest.repeats ⟨a, package⟩ ⟨entry.1, entry.2.1⟩ = true := by
    simp [QualifierRequest.repeats, same, held]
  refine ⟨List.any_eq_true.2 ⟨_, List.mem_map_of_mem listed, repeats⟩, ?_⟩
  have built := List.mem_map_of_mem (f := fun entry => entry.2.2) listed
  rwa [held] at built

theorem find?_eq_none {s : QualifierState} {a : Annotation} {package : String} (absent : s.find? a package = none) :
    s.requests.any (QualifierRequest.repeats ⟨a, package⟩) = false := by
  rw [find?, Option.map_eq_none_iff, List.find?_eq_none] at absent
  rw [requests, List.any_map, List.any_eq_false]
  exact absent

end QualifierState

/-- How the qualifiers of the synthetic components are built. -/
def ComponentsClass.constructions (x : ComponentsClass) : List Construction :=
  x.beans.flatMap (·.2) ++ x.observers.flatMap (·.2)

/-- How the qualifiers of beans and observers are built. -/
def QualifierLiterals.constructions (q : QualifierLiterals) : List Construction :=
  q.beans.flatMap (·.2) ++ q.observers.flatMap (·.2)

namespace LiteralSettings

open QualifierRequest (firsts ofQualifiers)

/-! ### Requests of a build -/

/-- What the synthetic components ask for. -/
def componentRequests (c : LiteralSettings) (b : Build) : List QualifierRequest :=
  b.synthetic.beans.flatMap (fun x => ofQualifiers c.generatedPackage x.qualifiers) ++
    b.synthetic.observers.flatMap fun x => ofQualifiers c.generatedPackage x.qualifiers

/-- What the beans and observers of a deployment ask for that are not synthetic. -/
def deploymentRequests (d : Deployment) : List QualifierRequest :=
  (d.beans.filter fun x => x.kind != .synthetic && !x.qualifiers.isEmpty).flatMap
      (fun x => ofQualifiers x.declaringClass.package x.qualifiers) ++
    (d.observers.filter fun x => !x.isSynthetic && !x.qualifiers.isEmpty).flatMap
      fun x => ofQualifiers x.declaringClass.package x.qualifiers

def requests (c : LiteralSettings) (b : Build) : List QualifierRequest :=
  c.componentRequests b ++ deploymentRequests b.deployment

/-- Compiles the qualifiers of a build. -/
def compileBuild (c : LiteralSettings) (id : BuildId) (b : Build) :
    QualifierM (ComponentsClass × QualifierLiterals) := do
  let components ← c.components id b
  let literals ← c.deploymentLiterals b.deployment
  return (components, literals)

/-! ### Rules -/

/-- What holds after the requests: the first ones are compiled, with the traces one after the other. -/
structure Served (c : LiteralSettings) (requests : List QualifierRequest) (s : QualifierState)
    (trace : List Compiled) : Prop where
  requests : s.requests = firsts requests
  built : Each (fun r => c.Compiles r.qualifier r.package) s.requests s.built trace
  leads : c.Leads trace .initial s.literals

theorem served_initial (c : LiteralSettings) : c.Served [] .initial [] := ⟨rfl, .nil, .refl isOrderly_initial⟩

/-- From states in which at least the constructions of `base` were built, a success answers the requests, and its result
    is related to what was built by then. -/
def Serves (c : LiteralSettings) {α : Type} (base : List Construction) (x : QualifierM α)
    (requests : List QualifierRequest) (R : List Construction → α → Prop) : Prop :=
  ∀ earlier s trace, c.Served earlier s trace → base ⊆ s.built → ∀ y s', x.run s = .ok (y, s') →
    (∃ more, c.Served (earlier ++ requests) s' more) ∧ s.built ⊆ s'.built ∧ R s'.built y

variable {c : LiteralSettings}

/-- What is related to what was built stays so when more is built. -/
def LastsWithMore {α : Type} (R : List Construction → α → Prop) : Prop :=
  ∀ built more y, built ⊆ more → R built y → R more y

namespace Serves

variable {α β ι : Type} {base : List Construction} {requests : List QualifierRequest}
  {R : List Construction → α → Prop}

theorem widen {more : List Construction} (wider : base ⊆ more) {x : QualifierM α} (serves : c.Serves base x requests R) :
    c.Serves more x requests R :=
  fun earlier s trace served kept => serves earlier s trace served (List.Subset.trans wider kept)

theorem pure {y : α} (related : ∀ built, base ⊆ built → R built y) : c.Serves base (Pure.pure y) [] R := by
  rintro earlier s trace served kept _ _ ⟨⟩
  refine ⟨⟨trace, ?_⟩, List.Subset.refl _, related _ kept⟩
  rwa [List.append_nil]

theorem bind {later : List QualifierRequest} {S : List Construction → β → Prop} {x : QualifierM α}
    {next : α → QualifierM β} (serves : c.Serves base x requests R)
    (further : ∀ built y, base ⊆ built → R built y → c.Serves built (next y) later S) :
    c.Serves base (x >>= next) (requests ++ later) S := by
  intro earlier s trace served kept z s'' ends
  rw [StateT.run_bind] at ends
  cases first : x.run s with
  | error e =>
    rw [first] at ends
    cases ends
  | ok result =>
    obtain ⟨y, s'⟩ := result
    rw [first] at ends
    obtain ⟨⟨more, served'⟩, grown, related⟩ := serves earlier s trace served kept y s' first
    have later := further s'.built y (List.Subset.trans kept grown) related
    obtain ⟨served'', grown', related'⟩ := later _ s' more served' (List.Subset.refl _) z s'' ends
    rw [List.append_assoc] at served''
    exact ⟨served'', List.Subset.trans grown grown', related'⟩

/-- The requests of all elements, in order. -/
theorem mapM (lasts : LastsWithMore R) {f : ι → QualifierM α} {requests : ι → List QualifierRequest} (xs : List ι)
    (each : ∀ x ∈ xs, c.Serves base (f x) (requests x) R) :
    c.Serves base (xs.mapM f) (xs.flatMap requests) fun built ys => ∀ y ∈ ys, R built y := by
  induction xs generalizing base with
  | nil =>
    rw [List.mapM_nil]
    exact pure fun _ _ y member => absurd member List.not_mem_nil
  | cons x rest ih =>
    rw [List.mapM_cons, List.flatMap_cons]
    refine (each x List.mem_cons_self).bind fun built y wider head => ?_
    have others := ih fun x' member => (each x' (List.mem_cons_of_mem _ member)).widen wider
    rw [← List.append_nil (rest.flatMap requests)]
    refine others.bind fun more ys wider' tail => pure fun most widest y' member => ?_
    rcases List.mem_cons.1 member with rfl | later
    · exact lasts _ _ _ (List.Subset.trans wider' widest) head
    · exact lasts _ _ _ widest (tail y' later)

end Serves

/-! ### Compilations of qualifiers -/

theorem compileQualifier_run_of_known {s : QualifierState} {a : Annotation} {package : String} {x : Construction}
    (known : s.find? a package = some x) : (c.compileQualifier package a).run s = .ok (x, s) := by
  simp only [compileQualifier, StateT.run_bind, StateT.run_get, pure_bind, known]
  rfl

/-- A request that is new is compiled. -/
theorem exists_compiled_of_new {s : QualifierState} {a : Annotation} {package : String} (new : s.find? a package = none)
    {x : Construction} {s' : QualifierState} (ends : (c.compileQualifier package a).run s = .ok (x, s')) :
    ∃ literals, (c.materializeFromCorpus a package).run s.literals = (.ok x, literals) ∧
      s' = ⟨literals, s.compiled ++ [(a, package, x)]⟩ := by
  simp only [compileQualifier, StateT.run_bind, StateT.run_get, pure_bind, new] at ends
  revert ends
  generalize (c.materializeFromCorpus a package).run s.literals = outcome
  obtain ⟨result, literals⟩ := outcome
  intro ends
  cases result with
  | error e => cases ends
  | ok built =>
    cases ends
    exact ⟨literals, rfl, rfl⟩

theorem serves_compileQualifier (base : List Construction) (package : String) (a : Annotation) :
    c.Serves base (c.compileQualifier package a) [⟨a, package⟩] fun built x => x ∈ built := by
  intro earlier s trace served _ x s' ends
  cases search : s.find? a package with
  | some known =>
    rw [compileQualifier_run_of_known search] at ends
    cases ends
    obtain ⟨repeated, built⟩ := QualifierState.find?_eq_some search
    rw [served.requests] at repeated
    refine ⟨⟨trace, ?_, served.built, served.leads⟩, List.Subset.refl _, built⟩
    rw [QualifierRequest.firsts_append_singleton, if_pos repeated, served.requests]
  | none =>
    obtain ⟨literals, compiled, rfl⟩ := exists_compiled_of_new search ends
    have new := QualifierState.find?_eq_none search
    rw [served.requests] at new
    obtain ⟨more, leads, related⟩ := yields_materializeFromCorpus a package s.literals served.leads.orderly
    rw [compiled] at leads related
    have last : Each (fun r : QualifierRequest => c.Compiles r.qualifier r.package) [⟨a, package⟩] [x] (more ++ []) :=
      .cons (related x rfl) .nil
    rw [List.append_nil] at last
    refine ⟨⟨trace ++ more, ?_, ?_, served.leads.trans leads⟩, ?_, ?_⟩
    · rw [QualifierRequest.firsts_append_singleton, if_neg (by simp [new]), ← served.requests]
      simp [QualifierState.requests]
    · simpa [QualifierState.requests, QualifierState.built] using served.built.append last
    · simp [QualifierState.built]
    · simp [QualifierState.built]

theorem serves_compileQualifiers (base : List Construction) (package : String) (qualifiers : List Annotation) :
    c.Serves base (c.compileQualifiers package qualifiers) (ofQualifiers package qualifiers)
      fun built xs => ∀ x ∈ xs, x ∈ built := by
  have lasts : LastsWithMore fun (built : List Construction) (x : Construction) => x ∈ built :=
    fun _ _ _ wider member => wider member
  have each := Serves.mapM lasts qualifiers fun a _ => serves_compileQualifier (c := c) base package a
  rwa [← List.map_eq_flatMap] at each

/-- How all entries are built, if each is built of the constructions. -/
theorem flatMap_snd_subset {κ : Type} {entries : List (κ × List Construction)} {built : List Construction}
    (each : ∀ entry ∈ entries, entry.2 ⊆ built) : entries.flatMap (·.2) ⊆ built := by
  intro x member
  obtain ⟨entry, listed, inside⟩ := List.mem_flatMap.1 member
  exact each entry listed inside

/-- The qualifiers of several things, each list with what it belongs to. -/
theorem serves_labelled {ι κ : Type} (base : List Construction) (xs : List ι) (label : ι → κ) (package : ι → String)
    (qualifiers : ι → List Annotation) :
    c.Serves base (xs.mapM fun x => do return (label x, ← c.compileQualifiers (package x) (qualifiers x)))
      (xs.flatMap fun x => ofQualifiers (package x) (qualifiers x))
      fun built entries => ∀ entry ∈ entries, entry.2 ⊆ built := by
  have lasts : LastsWithMore fun (built : List Construction) (entry : κ × List Construction) => entry.2 ⊆ built :=
    fun _ _ _ wider kept => List.Subset.trans kept wider
  refine .mapM lasts xs fun x _ => ?_
  rw [← List.append_nil (ofQualifiers (package x) (qualifiers x))]
  refine (serves_compileQualifiers base (package x) (qualifiers x)).bind fun built made _ members => .pure ?_
  exact fun more wider y listed => wider (members y listed)

theorem serves_components (base : List Construction) (id : BuildId) (b : Build) :
    c.Serves base (c.components id b) (c.componentRequests b)
      fun built x => x.name = componentsName c.generatedPackage id ∧ x.constructions ⊆ built := by
  refine (serves_labelled base b.synthetic.beans (fun x => x) (fun _ => c.generatedPackage) (·.qualifiers)).bind
    fun built beans _ ofBeans => ?_
  rw [← List.append_nil (b.synthetic.observers.flatMap _)]
  refine (serves_labelled built b.synthetic.observers (fun x => x) (fun _ => c.generatedPackage) (·.qualifiers)).bind
    fun more observers wider ofObservers => .pure fun most widest => ⟨rfl, List.append_subset.2 ⟨?_, ?_⟩⟩
  · exact flatMap_snd_subset fun x listed => List.Subset.trans (ofBeans x listed) (List.Subset.trans wider widest)
  · exact flatMap_snd_subset fun x listed => List.Subset.trans (ofObservers x listed) widest

/-- Of the entries with one id only one is kept; none is made up. -/
theorem collect_subset (entries : List (String × List Construction)) :
    deploymentLiterals.collect entries ⊆ entries := by
  have kept (earlier : List (String × List Construction)) (held : earlier ⊆ entries) (e) (member : e ∈ entries) :
      Assoc.set e.1 e.2 earlier ⊆ entries := by
    intro x set
    rcases Assoc.mem_set set with rfl | before
    · exact member
    · exact held before
  exact List.foldlRecOn entries (motive := (· ⊆ entries)) _ (List.nil_subset entries) kept

theorem serves_deploymentLiterals (base : List Construction) (d : Deployment) :
    c.Serves base (c.deploymentLiterals d) (deploymentRequests d) fun built q => q.constructions ⊆ built := by
  refine (serves_labelled base _ Bean.id (·.declaringClass.package) (·.qualifiers)).bind
    fun built beans _ ofBeans => ?_
  rw [← List.append_nil (List.flatMap _ (d.observers.filter _))]
  refine (serves_labelled built _ Observer.id (·.declaringClass.package) (·.qualifiers)).bind
    fun more observers wider ofObservers => .pure fun most widest => List.append_subset.2 ⟨?_, ?_⟩
  · refine flatMap_snd_subset fun x listed => ?_
    exact List.Subset.trans (ofBeans x (collect_subset beans listed)) (List.Subset.trans wider widest)
  · exact flatMap_snd_subset fun x listed => List.Subset.trans (ofObservers x (collect_subset observers listed)) widest

/-- A build whose qualifiers were compiled asked for all of them, and what it holds was built. -/
theorem serves_compileBuild (id : BuildId) (b : Build) :
    c.Serves [] (c.compileBuild id b) (c.requests b) fun built result =>
      result.1.name = componentsName c.generatedPackage id ∧ result.1.constructions ⊆ built ∧
        result.2.constructions ⊆ built := by
  refine (serves_components [] id b).bind fun built components _ first => ?_
  rw [← List.append_nil (deploymentRequests b.deployment)]
  refine (serves_deploymentLiterals built b.deployment).bind fun more literals wider second => .pure fun most widest => ?_
  exact ⟨first.1, List.Subset.trans first.2 (List.Subset.trans wider widest), List.Subset.trans second widest⟩

end LiteralSettings

end AnnotationWeaver
