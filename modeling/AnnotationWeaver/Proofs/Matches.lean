import AnnotationWeaver.Extension.Plan
import AnnotationWeaver.Proofs.Ancestry
import AnnotationWeaver.Proofs.Arguments
import AnnotationWeaver.Proofs.Queries

/-!
What a callback of a plan is run for. A constraint selects a class by its name and by an annotation that it carries
now, and a bean or an observer by a type and a qualifier. A query role stands for exactly what some constraint
selects, each once: for the classes, for their regular methods or their fields, for the beans or for the observers.
A plan holds callbacks as they were declared, so on a readable view each of them has its runs, and each run all of
the declared parameters.
-/
namespace AnnotationWeaver

/-! ### Constraints -/

namespace Constraint

/-- The constraint admits the name: it is the name of the type, or that of a proper subtype. -/
def AdmitsType (k : Constraint) (c : Corpus) (name : TypeName) : Prop :=
  match k.scope with
  | .exact => name = k.type
  | .subtypes => c.IsProperSubtype name k.type

/-- The constraint selects the class: it admits its name, and if it lists annotations the class carries one. -/
structure SelectsClass (k : Constraint) (v : View) (d : ClassDecl) : Prop where
  indexed : d ∈ v.corpus.classes
  typed : k.AdmitsType v.corpus d.name
  annotated : k.annotatedWith = [] ∨ ∃ type ∈ k.annotatedWith, v.Carries (.type d.name) type

/-- The constraint selects the bean: it admits the erased name of a type, and if it lists annotations the bean has a
    qualifier of one of these types. -/
structure SelectsBean (k : Constraint) (c : Corpus) (x : Bean) : Prop where
  typed : ∃ type ∈ x.types, k.AdmitsType c type.erased
  qualified : k.annotatedWith = [] ∨ ∃ a ∈ x.qualifiers, a.type ∈ k.annotatedWith

/-- The constraint selects the observer, in the same way by the type that is observed. -/
structure SelectsObserver (k : Constraint) (c : Corpus) (o : Observer) : Prop where
  typed : k.AdmitsType c o.observed.erased
  qualified : k.annotatedWith = [] ∨ ∃ a ∈ o.qualifiers, a.type ∈ k.annotatedWith

variable {k : Constraint} {c : Corpus}

theorem mem_types {name : TypeName} : name ∈ k.types c ↔ k.AdmitsType c name := by
  cases scope : k.scope with
  | exact => simp [types, AdmitsType, scope]
  | subtypes => simp [types, AdmitsType, scope, Corpus.mem_allSubtypes]

/-- A constraint on the subtypes of a type without any admits nothing. -/
theorem not_admitsType_of_childless (scope : k.scope = .subtypes) (childless : c.allSubtypes k.type = [])
    (name : TypeName) : ¬ k.AdmitsType c name := by
  rw [← mem_types, types, scope]
  dsimp only
  rw [childless]
  exact List.not_mem_nil

/-- The search for the classes of a constraint admits what the constraint selects. -/
theorem classQuery_admits_iff {v : View} {d : ClassDecl} :
    d ∈ v.corpus.classes ∧ k.classQuery.Admits v d ↔ k.SelectsClass v d := by
  have named : (∃ criterion ∈ k.classQuery.criteria, criterion.Names v.corpus d.name) ↔ k.AdmitsType v.corpus d.name := by
    cases scope : k.scope with
    | exact => simp [classQuery, AdmitsType, scope, ClassCriterion.Names]
    | subtypes => simp [classQuery, AdmitsType, scope, ClassCriterion.Names, Corpus.mem_allSubtypes]
  have naming : ∃ criterion ∈ k.classQuery.criteria, criterion.IsNaming := by
    cases scope : k.scope with
    | exact => simp [classQuery, scope, ClassCriterion.IsNaming]
    | subtypes => simp [classQuery, scope, ClassCriterion.IsNaming]
  have asked (type : TypeName) : .annotatedWith type ∈ k.classQuery.criteria ↔ type ∈ k.annotatedWith := by
    cases scope : k.scope with
    | exact => simp [classQuery, scope]
    | subtypes => simp [classQuery, scope]
  constructor
  · rintro ⟨indexed, admits⟩
    refine ⟨indexed, named.1 (admits.named naming), ?_⟩
    cases listed : k.annotatedWith with
    | nil => exact .inl rfl
    | cons first rest =>
      right
      have found := admits.annotated ⟨first, (asked first).2 (by simp [listed])⟩
      simpa only [asked, listed] using found
  · rintro ⟨indexed, typed, annotated⟩
    refine ⟨indexed, fun _ => named.2 typed, ?_⟩
    rintro ⟨type, member⟩
    simp only [asked] at member ⊢
    exact annotated.resolve_left (List.ne_nil_of_mem member)

theorem admitsAny_iff {wanted names : List TypeName} :
    admitsAny wanted names = true ↔ wanted = [] ∨ ∃ name ∈ names, name ∈ wanted := by
  simp [admitsAny]

theorem beanQuery_admits_iff {types qualifiers : List TypeName} {x : Bean} :
    (⟨types.map (fun n => .beanType (.named n)) ++ qualifiers.map .qualifier⟩ : BeanQuery).admits x = true ↔
      (types = [] ∨ ∃ type ∈ x.types, type.erased ∈ types) ∧
        (qualifiers = [] ∨ ∃ a ∈ x.qualifiers, a.type ∈ qualifiers) := by
  simp [BeanQuery.admits, admitsAny_iff, BeanQuery.scopes, BeanQuery.types, BeanQuery.qualifiers,
    BeanQuery.declaringClasses, List.filterMap_map, Function.comp_def, Ty.erased]

theorem observerQuery_admits_iff {types qualifiers : List TypeName} {o : Observer} :
    (⟨types.map (fun n => .observedType (.named n)) ++ qualifiers.map .qualifier⟩ : ObserverQuery).admits o = true ↔
      (types = [] ∨ o.observed.erased ∈ types) ∧ (qualifiers = [] ∨ ∃ a ∈ o.qualifiers, a.type ∈ qualifiers) := by
  simp [ObserverQuery.admits, admitsAny_iff, ObserverQuery.observedTypes, ObserverQuery.qualifiers,
    ObserverQuery.declaringClasses, List.filterMap_map, Function.comp_def, Ty.erased]

theorem mem_beans {d : Deployment} {x : Bean} : x ∈ k.beans c d ↔ x ∈ d.beans ∧ k.SelectsBean c x := by
  have typed : (∃ type ∈ x.types, type.erased ∈ k.types c) ↔ ∃ type ∈ x.types, k.AdmitsType c type.erased := by
    simp only [mem_types]
  unfold beans
  cases types : k.types c with
  | nil =>
    -- Without types the query would admit all beans; it is not asked.
    rw [types] at typed
    refine ⟨fun member => absurd member List.not_mem_nil, ?_⟩
    rintro ⟨-, selected⟩
    obtain ⟨type, -, listed⟩ := typed.2 selected.typed
    exact absurd listed List.not_mem_nil
  | cons first rest =>
    rw [types] at typed
    dsimp only
    rw [BeanQuery.find, List.mem_filter, beanQuery_admits_iff]
    constructor
    · rintro ⟨member, named, qualified⟩
      exact ⟨member, typed.1 (named.resolve_left (List.cons_ne_nil _ _)), qualified⟩
    · rintro ⟨member, selected⟩
      exact ⟨member, .inr (typed.2 selected.typed), selected.qualified⟩

theorem mem_observers {d : Deployment} {o : Observer} :
    o ∈ k.observers c d ↔ o ∈ d.observers ∧ k.SelectsObserver c o := by
  have typed : o.observed.erased ∈ k.types c ↔ k.AdmitsType c o.observed.erased := mem_types
  unfold observers
  cases types : k.types c with
  | nil =>
    rw [types] at typed
    refine ⟨fun member => absurd member List.not_mem_nil, ?_⟩
    rintro ⟨-, selected⟩
    exact absurd (typed.2 selected.typed) List.not_mem_nil
  | cons first rest =>
    rw [types] at typed
    dsimp only
    rw [ObserverQuery.find, List.mem_filter, observerQuery_admits_iff]
    constructor
    · rintro ⟨member, named, qualified⟩
      exact ⟨member, typed.1 (named.resolve_left (List.cons_ne_nil _ _)), qualified⟩
    · rintro ⟨member, selected⟩
      exact ⟨member, .inr (typed.2 selected.typed), selected.qualified⟩

end Constraint

/-! ### Subjects -/

namespace Build

variable {b : Build} {constraints : List Constraint}

/-- Some constraint selects the class as it is now. -/
def SelectsClass (b : Build) (constraints : List Constraint) (d : ClassDecl) : Prop :=
  ∃ k ∈ constraints, k.SelectsClass b.view d

/-- What a query role stands for: a selected class, a regular method or a field of one, or a selected bean or
    observer of the deployment. -/
def Matches (b : Build) (constraints : List Constraint) : Role → Subject → Prop
  | .classConfig, .type d | .classInfo, .type d => b.SelectsClass constraints d
  | .methodConfig, .method m | .methodInfo, .method m =>
    ∃ d, b.SelectsClass constraints d ∧ m ∈ d.methods ∧ m.isRegular = true
  | .fieldConfig, .field f | .fieldInfo, .field f => ∃ d, b.SelectsClass constraints d ∧ f ∈ d.fields
  | .beanInfo, .bean x => x ∈ b.deployment.beans ∧ ∃ k ∈ constraints, k.SelectsBean b.corpus x
  | .observerInfo, .observer o => o ∈ b.deployment.observers ∧ ∃ k ∈ constraints, k.SelectsObserver b.corpus o
  | _, _ => False

/-- The selected classes are found, each once. -/
theorem matchingClasses_spec (readable : b.view.IsReadable) (constraints : List Constraint) :
    ∃ classes, b.matchingClasses constraints = .ok classes ∧ (classes.map (·.name)).Nodup ∧
      ∀ d, d ∈ classes ↔ b.SelectsClass constraints d := by
  have selects (k : Constraint) : ∃ found, k.classQuery.find b.view = .ok found ∧
      ∀ d, d ∈ found ↔ k.SelectsClass b.view d := by
    obtain ⟨found, answered, -, listed⟩ := ClassQuery.find_spec readable k.classQuery
    exact ⟨found, answered, fun d => (listed d).trans Constraint.classQuery_admits_iff⟩
  obtain ⟨lists, answered, listed⟩ := exists_mapM_ok (fun k => (selects k).imp fun _ spec => spec.1) constraints
  have among (d : ClassDecl) : d ∈ lists.flatten ↔ b.SelectsClass constraints d := by
    rw [List.mem_flatten]
    constructor
    · rintro ⟨found, member, inside⟩
      obtain ⟨k, asked, search⟩ := (listed found).1 member
      obtain ⟨found', answered', selected⟩ := selects k
      obtain rfl := Except.ok.inj (search.symm.trans answered')
      exact ⟨k, asked, (selected d).1 inside⟩
    · rintro ⟨k, asked, selected⟩
      obtain ⟨found, search, selects⟩ := selects k
      exact ⟨found, (listed found).2 ⟨k, asked, search⟩, (selects d).2 selected⟩
  have indexed : lists.flatten ⊆ b.view.corpus.classes := by
    intro d member
    obtain ⟨_, -, selected⟩ := (among d).1 member
    exact selected.indexed
  have left := (eraseDupsBy_spec b.view.corpus.nodup_names indexed).2
  exact ⟨_, by rw [matchingClasses, answered]; rfl, nodup_map_eraseDupsBy _ _, fun d => (left d).trans (among d)⟩

/-- Among what ids tell apart, what the constraints select is found, each once. -/
theorem selected_spec {α : Type} {id : α → String} {all : List α} (distinct : (all.map id).Nodup)
    {found : Constraint → List α} {selects : Constraint → α → Prop}
    (listed : ∀ k x, x ∈ found k ↔ x ∈ all ∧ selects k x) (constraints : List Constraint) :
    ((constraints.flatMap found).eraseDupsBy fun x y => id x == id y).Nodup ∧
      ∀ x, x ∈ ((constraints.flatMap found).eraseDupsBy fun x y => id x == id y) ↔
        x ∈ all ∧ ∃ k ∈ constraints, selects k x := by
  have among (x : α) : x ∈ constraints.flatMap found ↔ x ∈ all ∧ ∃ k ∈ constraints, selects k x := by
    simp only [List.mem_flatMap, listed]
    exact ⟨fun ⟨k, asked, member, selected⟩ => ⟨member, k, asked, selected⟩,
      fun ⟨member, k, asked, selected⟩ => ⟨k, asked, member, selected⟩⟩
  obtain ⟨once, left⟩ := eraseDupsBy_spec distinct fun x member => ((among x).1 member).1
  exact ⟨once, fun x => (left x).trans (among x)⟩

theorem matchingBeans_spec (distinct : (b.deployment.beans.map (·.id)).Nodup) (constraints : List Constraint) :
    (b.matchingBeans constraints).Nodup ∧
      ∀ x, x ∈ b.matchingBeans constraints ↔
        x ∈ b.deployment.beans ∧ ∃ k ∈ constraints, k.SelectsBean b.corpus x :=
  selected_spec distinct (fun _ _ => Constraint.mem_beans) constraints

theorem matchingObservers_spec (distinct : (b.deployment.observers.map (·.id)).Nodup) (constraints : List Constraint) :
    (b.matchingObservers constraints).Nodup ∧
      ∀ o, o ∈ b.matchingObservers constraints ↔
        o ∈ b.deployment.observers ∧ ∃ k ∈ constraints, k.SelectsObserver b.corpus o :=
  selected_spec distinct (fun _ _ => Constraint.mem_observers) constraints

/-- Members of a kind are distinct in distinct classes, since their keys are. -/
theorem nodup_flatMap_of_keys {α : Type} {own : ClassDecl → List α} (key : α → DeclKey) {kind : MemberKind}
    (keyed : ∀ d, (own d).map key = (d.members kind).map (·.key)) {c : Corpus} {classes : List ClassDecl}
    (indexed : ∀ d ∈ classes, d ∈ c.classes) (distinct : (classes.map (·.name)).Nodup) : (classes.flatMap own).Nodup := by
  have keys := Corpus.nodup_flatMap_members indexed distinct kind
  have same : (classes.flatMap (·.members kind)).map (·.key) = (classes.flatMap own).map key := by
    simp only [List.map_flatMap, keyed]
  exact (same ▸ keys).of_map _

theorem nodup_regularMethods {c : Corpus} {classes : List ClassDecl} (indexed : ∀ d ∈ classes, d ∈ c.classes)
    (distinct : (classes.map (·.name)).Nodup) : (classes.flatMap (·.regularMethods)).Nodup := by
  have keyed (d : ClassDecl) :
      d.regularMethods.map (fun m => DeclKey.method m.key) = (d.members .method).map (·.key) := by
    simp only [ClassDecl.members, List.map_map]
    rfl
  exact nodup_flatMap_of_keys _ keyed indexed distinct

theorem nodup_fields {c : Corpus} {classes : List ClassDecl} (indexed : ∀ d ∈ classes, d ∈ c.classes)
    (distinct : (classes.map (·.name)).Nodup) : (classes.flatMap (·.fields)).Nodup := by
  have keyed (d : ClassDecl) : d.fields.map (fun f => DeclKey.field f.key) = (d.members .field).map (·.key) := by
    simp only [ClassDecl.members, List.map_map]
    rfl
  exact nodup_flatMap_of_keys _ keyed indexed distinct

/-- A query role stands for exactly what matches, each once. -/
theorem subjects_spec (readable : b.view.IsReadable) (beans : (b.deployment.beans.map (·.id)).Nodup)
    (observers : (b.deployment.observers.map (·.id)).Nodup) (role : Role) (constraints : List Constraint) :
    ∃ subjects, b.subjects role constraints = .ok subjects ∧ subjects.Nodup ∧
      ∀ s, s ∈ subjects ↔ b.Matches constraints role s := by
  obtain ⟨classes, found, distinct, selected⟩ := matchingClasses_spec readable constraints
  have indexed : ∀ d ∈ classes, d ∈ b.view.corpus.classes := by
    intro d member
    obtain ⟨_, -, selects⟩ := (selected d).1 member
    exact selects.indexed
  cases role with
  | classConfig | classInfo =>
    refine ⟨classes.map .type, by rw [subjects, found]; rfl, ?_, ?_⟩
    · exact List.Nodup.map (fun _ _ same => Subject.type.inj same) (distinct.of_map _)
    · intro s
      cases s <;> simp [Matches, selected]
  | methodConfig | methodInfo =>
    refine ⟨(classes.flatMap (·.regularMethods)).map .method, by rw [subjects, found]; rfl, ?_, ?_⟩
    · exact List.Nodup.map (fun _ _ same => Subject.method.inj same) (nodup_regularMethods indexed distinct)
    · intro s
      cases s <;> simp [Matches, selected, ClassDecl.regularMethods]
  | fieldConfig | fieldInfo =>
    refine ⟨(classes.flatMap (·.fields)).map .field, by rw [subjects, found]; rfl, ?_, ?_⟩
    · exact List.Nodup.map (fun _ _ same => Subject.field.inj same) (nodup_fields indexed distinct)
    · intro s
      cases s <;> simp [Matches, selected]
  | beanInfo =>
    obtain ⟨once, listed⟩ := matchingBeans_spec beans constraints
    refine ⟨_, rfl, List.Nodup.map (fun _ _ same => Subject.bean.inj same) once, ?_⟩
    intro s
    cases s <;> simp [Matches, listed]
  | observerInfo =>
    obtain ⟨once, listed⟩ := matchingObservers_spec observers constraints
    refine ⟨_, rfl, List.Nodup.map (fun _ _ same => Subject.observer.inj same) once, ?_⟩
    intro s
    cases s <;> simp [Matches, listed]
  | _ =>
    refine ⟨[], rfl, List.nodup_nil, ?_⟩
    intro s
    simp [Matches]

end Build

/-! ### Callbacks of a plan -/

/-- The callback is a declaration of an extension that was found fit to run. -/
structure CallbackDecl.Yields (d : CallbackDecl) (extension : String) (c : Callback) : Prop where
  phases : d.phases = [c.phase]
  extension : c.extension = extension
  name : c.name = d.name
  roles : c.roles = d.roles
  constraints : c.constraints = d.constraints
  body : d.body? = some c.body
  paired : constraintFault? d.queryRoles d.constraints = none

theorem CallbackDecl.yields_of_check {d : CallbackDecl} {extension : String} {c : Callback}
    (checked : d.check extension = .ok c) : d.Yields extension c := by
  unfold check at checked
  split at checked
  · next phase phases =>
    split at checked
    · cases checked
    · split at checked
      · cases checked
      · next body given =>
        split at checked
        · cases checked
        · split at checked
          · cases checked
          · next paired =>
            obtain rfl := Except.ok.inj checked
            exact ⟨phases, rfl, rfl, rfl, rfl, given, paired⟩
  · cases checked

/-- Every callback of a plan is a declaration of one of the extensions. -/
theorem Registry.exists_yields {r : Registry} {plan : Plan} (discovered : r.discover = .ok plan) {phase : Phase}
    {c : Callback} (planned : c ∈ plan.of phase) : ∃ e ∈ r.extensions, ∃ d ∈ e.callbacks, d.Yields e.name c := by
  have listed : c ∈ plan.callbacks := (List.mem_filter.1 (List.mem_mergeSort.1 planned)).1
  unfold discover at discovered
  cases checked : r.extensions.mapM (·.check) with
  | error e =>
    rw [checked] at discovered
    cases discovered
  | ok lists =>
    rw [checked] at discovered
    obtain rfl := Except.ok.inj discovered
    obtain ⟨callbacks, among, member⟩ := List.mem_flatten.1 listed
    obtain ⟨e, registered, fit⟩ := exists_of_forall₂_right (forall₂_of_mapM_ok checked) among
    obtain ⟨d, declared, yields⟩ := exists_of_forall₂_right (forall₂_of_mapM_ok fit) member
    refine ⟨e, registered, d, declared, ?_⟩
    cases sound : d.check e.name with
    | error fault =>
      rw [sound] at yields
      cases yields
    | ok c' =>
      rw [sound] at yields
      obtain rfl := Except.ok.inj yields
      exact CallbackDecl.yields_of_check sound

/-- What a callback is run for on a build: all runs have the declared parameters; there is one run for everything that
    the query role stands for, or a single one if there is no query role. -/
structure Callback.Resolves (c : Callback) (b : Build) (invocations : List Invocation) : Prop where
  found : c.invocations b = .ok invocations
  roles : ∀ i ∈ invocations, i.arguments.map (·.role) = c.roles
  single : c.queryRole? = none → ∃ i, invocations = [i]
  matched : ∀ role, c.queryRole? = some role → ∃ subjects : List Subject, subjects.Nodup ∧
    (∀ s, s ∈ subjects ↔ b.Matches c.constraints role s) ∧ invocations = subjects.map fun s => c.invocationFor (some s)
  /-- A constraint on the subtypes of a type without any selects nothing. -/
  childless : ∀ k ∈ c.constraints, k.scope = .subtypes → ∀ corpus : Corpus, corpus.allSubtypes k.type = [] →
    ∀ name, ¬ k.AdmitsType corpus name

/-- On a readable build whose beans and observers have ids of their own, every callback of a plan is run with exactly
    the parameters that were declared, for exactly what matches. -/
theorem planned_callbacks_resolve (r : Registry) {plan : Plan} (discovered : r.discover = .ok plan) {phase : Phase}
    {c : Callback} (planned : c ∈ plan.of phase) (b : Build) (readable : b.view.IsReadable)
    (beans : (b.deployment.beans.map (·.id)).Nodup) (observers : (b.deployment.observers.map (·.id)).Nodup) :
    (∃ e ∈ r.extensions, ∃ d ∈ e.callbacks, d.Yields e.name c) ∧ ∃ invocations, c.Resolves b invocations := by
  refine ⟨Registry.exists_yields discovered planned, ?_⟩
  have childless : ∀ k ∈ c.constraints, k.scope = .subtypes → ∀ corpus : Corpus, corpus.allSubtypes k.type = [] →
      ∀ name, ¬ k.AdmitsType corpus name := fun k _ scope _ none => k.not_admitsType_of_childless scope none
  cases query : c.queryRole? with
  | none =>
    refine ⟨_, Callback.invocations_of_none query b, ?_, fun _ => ⟨_, rfl⟩, ?_, childless⟩
    · intro i member
      rw [List.mem_singleton.1 member, Callback.roles_invocationFor]
    · intro role some
      rw [query] at some
      cases some
  | some role =>
    obtain ⟨subjects, found, once, matched⟩ := Build.subjects_spec readable beans observers role c.constraints
    refine ⟨_, by rw [Callback.invocations_of_some query, found]; rfl, ?_, ?_, ?_, childless⟩
    · intro i member
      obtain ⟨s, -, rfl⟩ := List.mem_map.1 member
      exact Callback.roles_invocationFor c (some s)
    · intro none
      rw [query] at none
      cases none
    · intro role' same
      obtain rfl := Option.some.inj (query.symm.trans same)
      exact ⟨subjects, once, matched, rfl⟩

/-- What a courier does. -/
def send : MethodOutline := ⟨"send", [], .void, [], none, false⟩

/-- A courier that provides a service and is fast. -/
def mail : ClassOutline :=
  ⟨⟨"t.Mail"⟩, .regular, none, [⟨"t.Service"⟩], [.marker ⟨"t.Fast"⟩], [send, { send with name := "<init>" }], []⟩

/-- A service and a courier that provides it. -/
def couriers : Corpus where
  outlines := [⟨⟨"t.Service"⟩, .interface, none, [], [], [send], []⟩, mail]
  classes := _
  declared := rfl
  accepted := by decide +kernel

/-- A callback for the methods of the fast classes that provide the service. -/
def inspection : Callback where
  extension := "t::Courier"
  name := "inspect"
  phase := .enhancement
  priority := none
  roles := [.messages, .methodConfig]
  constraints := [⟨.subtypes, ⟨"t.Service"⟩, [⟨"t.Fast"⟩]⟩]
  body := fun _ => pure ()
  legal := by decide

/-- An extension that declares it. -/
def inspecting : Registry := Registry.empty.register
  ⟨"t::Courier", "t::Courier", [⟨inspection.name, [inspection.phase], inspection.priority, inspection.roles,
    inspection.constraints, true, false, some inspection.body⟩]⟩

theorem planned_callbacks_resolve_for_couriers :
    inspecting.discover = .ok ⟨[inspection]⟩ ∧ inspection ∈ Plan.of ⟨[inspection]⟩ .enhancement ∧
      (Build.start couriers .default 0).view.IsReadable ∧ ∃ invocations,
        inspection.Resolves (Build.start couriers .default 0) invocations ∧
          inspection.invocationFor (some (.method (send.declare ⟨"t.Mail"⟩))) ∈ invocations := by
  have planned : inspection ∈ Plan.of ⟨[inspection]⟩ .enhancement :=
    List.mem_mergeSort.2 (List.mem_filter.2 ⟨List.mem_cons_self, rfl⟩)
  have readable : (Build.start couriers .default 0).view.IsReadable := rfl
  have discovered : inspecting.discover = .ok ⟨[inspection]⟩ := rfl
  obtain ⟨-, invocations, resolves⟩ := planned_callbacks_resolve inspecting discovered planned
    (Build.start couriers .default 0) readable .nil .nil
  refine ⟨discovered, planned, readable, invocations, resolves, ?_⟩
  have indexed : mail.declare ∈ couriers.classes := List.mem_cons_of_mem _ List.mem_cons_self
  have provides : couriers.IsProperSubtype ⟨"t.Mail"⟩ ⟨"t.Service"⟩ :=
    ⟨by decide, .single ⟨mail.declare, indexed, rfl, List.mem_singleton_self _⟩⟩
  have fast : (Build.start couriers .default 0).view.Carries (.type ⟨"t.Mail"⟩) ⟨"t.Fast"⟩ :=
    (View.carries_iff readable).2 (by decide +kernel)
  have selected : (Build.start couriers .default 0).SelectsClass inspection.constraints mail.declare :=
    ⟨_, List.mem_singleton_self _, indexed, provides, .inr ⟨_, List.mem_singleton_self _, fast⟩⟩
  obtain ⟨subjects, -, matched, rfl⟩ := resolves.matched .methodConfig rfl
  exact List.mem_map_of_mem ((matched _).2 ⟨mail.declare, selected, List.mem_cons_self, rfl⟩)

end AnnotationWeaver
