import AnnotationWeaver.Proofs.QualifierRuns

/-!
What a build that succeeded has compiled and written. Nothing is written before all qualifiers are compiled, and writing
stops at the first refusal, so behind a success stand all of it: the classes of the compiler in their order, each as the
generator renders it, and after them the class of the components if there are any.
-/
namespace AnnotationWeaver

/-- The entry holds the class as the generator renders it. -/
def Generator.Renders (g : Generator) (k : LiteralClass) (entry : TypeName × String) : Prop :=
  entry.1 = k.name ∧ g.literal k = .ok entry.2

theorem map_fst_of_renders {g : Generator} {classes : List LiteralClass} {entries : List (TypeName × String)}
    (each : List.Forall₂ g.Renders classes entries) : entries.map (·.1) = classes.map (·.name) := by
  induction each with
  | nil => rfl
  | cons head _ ih => rw [List.map_cons, List.map_cons, head.1, ih]

/-- The name under which components are written, if they are. -/
def ComponentsClass.writtenNames (x : ComponentsClass) : List TypeName := if x.isEmpty then [] else [x.name]

/-- What is written for components: nothing, or their class and the service entry that announces it. -/
inductive ComponentsClass.IsWrittenAs (g : Generator) (x : ComponentsClass) : List Write → Prop
  | nothing (empty : x.isEmpty = true) : IsWrittenAs g x []
  | announced {text : String} (filled : x.isEmpty = false) (rendered : g.components x = .ok text) :
    IsWrittenAs g x [.type x.name text, .service componentsProvider x.name]

theorem class?_map_type (entries : List (TypeName × String)) :
    (entries.map fun entry => Write.type entry.1 entry.2).filterMap (·.class?) = entries := by
  simp [Write.class?]

/-! ### Writing -/

namespace WriteM

variable {α β : Type} {x : WriteM α} {next : α → WriteM β} {w w' : Written}

theorem run_bind_ok {a : α} (ran : x.run w = (.ok a, w')) : (x >>= next).run w = (next a).run w' := by
  show ExceptT.bindCont next (x.run w).1 (x.run w).2 = _
  rw [ran]
  rfl

theorem run_bind_error {e : BuildError} (ran : x.run w = (.error e, w')) : (x >>= next).run w = (.error e, w') := by
  show ExceptT.bindCont next (x.run w).1 (x.run w).2 = _
  rw [ran]
  rfl

theorem exists_of_bind_ok {y : β} (ends : (x >>= next).run w = (.ok y, w')) :
    ∃ a between, x.run w = (.ok a, between) ∧ (next a).run between = (.ok y, w') := by
  cases first : x.run w with
  | mk result between =>
    cases result with
    | error e =>
      rw [run_bind_error first] at ends
      cases ends
    | ok a =>
      rw [run_bind_ok first] at ends
      exact ⟨a, between, rfl, ends⟩

theorem run_get_bind (next : Written → WriteM β) (w : Written) : (get >>= next).run w = (next w).run w := rfl

end WriteM

theorem orFail_ok {α : Type} {name : TypeName} {result : Except String α} {w w' : Written} {a : α}
    (ends : (orFail name result).run w = (.ok a, w')) : result = .ok a ∧ w = w' := by
  cases result with
  | error cause => cases ends
  | ok b =>
    cases ends
    exact ⟨rfl, rfl⟩

namespace Sink

variable {sink : Sink} {g : Generator} {classes : List LiteralClass} {components : ComponentsClass} {w w' : Written}

theorem hand_run_ok {name : TypeName} {write : Write} (takes : sink.take w.taken write = .ok ()) :
    (sink.hand name write).run w = (.ok (), { w with taken := w.taken ++ [write] }) := by
  rw [hand, WriteM.run_get_bind, takes]
  rfl

theorem hand_run_error {name : TypeName} {write : Write} {cause : String}
    (refuses : sink.take w.taken write = .error cause) :
    (sink.hand name write).run w = (.error (.output name.text cause), { w with refused? := some write }) := by
  rw [hand, WriteM.run_get_bind, refuses]
  rfl

theorem hand_ok {name : TypeName} {write : Write} (ends : (sink.hand name write).run w = (.ok (), w')) :
    w' = { w with taken := w.taken ++ [write] } := by
  cases answer : sink.take w.taken write with
  | ok _ =>
    rw [hand_run_ok answer] at ends
    exact (congrArg Prod.snd ends).symm
  | error cause =>
    rw [hand_run_error answer] at ends
    cases ends

theorem writeClass_ok {name : TypeName} {rendered : Except String String}
    (ends : (sink.writeClass name rendered).run w = (.ok (), w')) :
    ∃ text, rendered = .ok text ∧ w' = { w with taken := w.taken ++ [.type name text] } := by
  obtain ⟨text, w₁, first, later⟩ := WriteM.exists_of_bind_ok ends
  obtain ⟨made, rfl⟩ := orFail_ok first
  exact ⟨text, made, hand_ok later⟩

theorem writeClasses_ok (ends : (classes.forM fun k => sink.writeClass k.name (g.literal k)).run w = (.ok (), w')) :
    ∃ entries, List.Forall₂ g.Renders classes entries ∧
      w' = { w with taken := w.taken ++ entries.map fun entry => .type entry.1 entry.2 } := by
  induction classes generalizing w with
  | nil =>
    cases ends
    exact ⟨[], .nil, by simp⟩
  | cons k rest ih =>
    obtain ⟨_, w₁, first, later⟩ := WriteM.exists_of_bind_ok ends
    obtain ⟨text, made, rfl⟩ := writeClass_ok first
    obtain ⟨entries, each, rfl⟩ := ih later
    exact ⟨(k.name, text) :: entries, .cons ⟨rfl, made⟩ each, by simp⟩

/-- Behind a success stand the classes in their order, and then what is written for the components. -/
theorem writeAll_taken (ends : (sink.writeAll g classes components).run .none = (.ok (), w)) :
    ∃ entries announced, List.Forall₂ g.Renders classes entries ∧ components.IsWrittenAs g announced ∧
      w.taken = (entries.map fun entry => .type entry.1 entry.2) ++ announced := by
  obtain ⟨_, w₁, first, later⟩ := WriteM.exists_of_bind_ok ends
  obtain ⟨entries, each, rfl⟩ := writeClasses_ok first
  cases empty : components.isEmpty with
  | true =>
    simp only [empty] at later
    cases later
    exact ⟨entries, [], each, .nothing empty, by simp [Written.none]⟩
  | false =>
    simp only [empty] at later
    obtain ⟨_, w₂, class_written, service⟩ := WriteM.exists_of_bind_ok later
    obtain ⟨text, rendered, rfl⟩ := writeClass_ok class_written
    obtain rfl := hand_ok service
    exact ⟨entries, _, each, .announced empty rendered, by simp [Written.none]⟩

theorem writeAll_ok (ends : (sink.writeAll g classes components).run .none = (.ok (), w)) :
    ∃ entries rest, List.Forall₂ g.Renders classes entries ∧ w.classes = entries ++ rest ∧
      rest.map (·.1) = components.writtenNames := by
  obtain ⟨entries, announced, each, written, taken⟩ := writeAll_taken ends
  refine ⟨entries, announced.filterMap (·.class?), each, ?_, ?_⟩
  · rw [Written.classes, taken, List.filterMap_append, class?_map_type]
  · cases written with
    | nothing empty => simp [ComponentsClass.writtenNames, empty]
    | announced filled _ => simp [ComponentsClass.writtenNames, filled, Write.class?]

end Sink

/-! ### Builds -/

/-- What a run that succeeded compiled and wrote. -/
structure Pipeline.Delivers (p : Pipeline) (id : BuildId) (r : PipelineRun) (o : Outcome) (components : ComponentsClass)
    (s : QualifierState) : Prop where
  compiled : (p.literalSettings.compileBuild id r.build).run .initial = .ok ((components, o.qualifierLiterals), s)
  rendered : ∃ entries rest, List.Forall₂ p.generator.Renders (p.literalClasses s.literals) entries ∧
    r.written.classes = entries ++ rest ∧ rest.map (·.1) = components.writtenNames
  names : o.written = r.written.classes.map (·.1)

namespace Pipeline

variable {p : Pipeline} {id : BuildId} {sink : Sink}

theorem conclude_of_error {b : Build} {e : LiteralError}
    (compiled : (p.literalSettings.compileBuild id b).run .initial = .error e) (sink : Sink) :
    p.conclude id sink b = (.error (.literal e), .none) := by
  unfold LiteralSettings.compileBuild at compiled
  rw [conclude, compiled]

theorem conclude_of_ok {b : Build} {components : ComponentsClass} {literals : QualifierLiterals} {s : QualifierState}
    (compiled : (p.literalSettings.compileBuild id b).run .initial = .ok ((components, literals), s)) (sink : Sink)
    {answer : Except BuildError Unit} {written : Written}
    (writing : (sink.writeAll p.generator (p.literalClasses s.literals) components).run .none = (answer, written)) :
    p.conclude id sink b = (answer.map fun _ => ⟨id, b.messages, b.scanned, b.metas, b.synthetic,
      written.classes.map (·.1), literals, s.literals.stats⟩, written) := by
  unfold LiteralSettings.compileBuild at compiled
  simp only [conclude, compiled, writing]

/-- What a build that succeeds has written, and for which components. -/
theorem writing_of_conclude_ok {b : Build} {o : Outcome} {w : Written} (ends : p.conclude id sink b = (.ok o, w)) :
    ∃ components s, (p.literalSettings.compileBuild id b).run .initial = .ok ((components, o.qualifierLiterals), s) ∧
      (sink.writeAll p.generator (p.literalClasses s.literals) components).run .none = (.ok (), w) ∧
      o.written = w.classes.map (·.1) := by
  cases compiled : (p.literalSettings.compileBuild id b).run .initial with
  | error e => simp [conclude_of_error compiled] at ends
  | ok result =>
    obtain ⟨⟨components, literals⟩, s⟩ := result
    generalize writing : (sink.writeAll p.generator (p.literalClasses s.literals) components).run .none = outcome
    obtain ⟨answer, written⟩ := outcome
    rw [conclude_of_ok compiled sink writing] at ends
    cases answer with
    | error e => cases ends
    | ok _ =>
      cases ends
      exact ⟨components, s, rfl, writing, rfl⟩

/-- The phases of a run that succeeds have ended well, and what it is comes of their state. -/
theorem conclude_of_run_ok {resolutions : Nat} {o : Outcome} (succeeds : (p.run id sink resolutions).result = .ok o) :
    (∃ plan, p.registry.discover = .ok plan) ∧
      p.conclude id sink (p.run id sink resolutions).build = (.ok o, (p.run id sink resolutions).written) := by
  unfold run at succeeds ⊢
  cases discovered : p.registry.discover with
  | error e => simp [discovered] at succeeds
  | ok plan =>
    simp only [discovered] at succeeds ⊢
    generalize (p.runPhases plan).run (Build.start p.corpus p.config resolutions) = phases at succeeds ⊢
    obtain ⟨result, b⟩ := phases
    cases result with
    | error e => cases succeeds
    | ok _ => exact ⟨⟨plan, rfl⟩, Prod.ext succeeds rfl⟩

theorem run_ok {resolutions : Nat} {o : Outcome} (succeeds : (p.run id sink resolutions).result = .ok o) :
    ∃ components s, p.Delivers id (p.run id sink resolutions) o components s := by
  obtain ⟨components, s, compiled, writing, names⟩ := writing_of_conclude_ok (conclude_of_run_ok succeeds).2
  exact ⟨components, s, compiled, Sink.writeAll_ok writing, names⟩

theorem Delivers.written_eq {r : PipelineRun} {o : Outcome} {components : ComponentsClass} {s : QualifierState}
    (delivers : p.Delivers id r o components s) :
    o.written = (p.literalClasses s.literals).map (·.name) ++ components.writtenNames := by
  obtain ⟨entries, rest, each, written, last⟩ := delivers.rendered
  have names : entries.map (·.1) = (p.literalClasses s.literals).map (·.name) := map_fst_of_renders each
  rw [delivers.names, written, List.map_append, names, last]

/-- Behind what a run delivers stand the qualifiers that its build asked for. -/
theorem Delivers.served {r : PipelineRun} {o : Outcome} {components : ComponentsClass} {s : QualifierState}
    (delivers : p.Delivers id r o components s) :
    (∃ trace, p.literalSettings.Served (p.literalSettings.requests r.build) s trace) ∧
      components.name = componentsName p.config.generatedPackage id ∧ components.constructions ⊆ s.built ∧
      o.qualifierLiterals.constructions ⊆ s.built := by
  obtain ⟨served, -, held⟩ :=
    LiteralSettings.serves_compileBuild id r.build [] .initial [] p.literalSettings.served_initial (List.nil_subset _) _ _
      delivers.compiled
  exact ⟨served, held⟩

end Pipeline

/-- An annotation type whose only member, if it has one, is a unit. -/
def measureType (name : String) (members : List MethodOutline) : ClassOutline :=
  ⟨⟨name⟩, .annotationType, none, [], [], members, []⟩

/-- The member that holds the unit. -/
def unitMember : MethodOutline := ⟨"unit", [], .named ⟨"app.Unit"⟩, [], none, false⟩

/-- A unit, and two annotation types that have one. -/
def measures : Corpus where
  outlines :=
    [measureType "app.Unit" [], measureType "app.Size" [unitMember], measureType "app.Weight" [unitMember]]
  classes := _
  declared := rfl
  accepted := by decide +kernel

/-- An annotation of one of these types. -/
def measured (type : String) : Annotation := ⟨⟨type⟩, [⟨"unit", .nested (.marker ⟨"app.Unit"⟩)⟩]⟩

/-- A build of a bean alone that is qualified by annotations of the types. -/
def measuring (shared : Bool) (types : List String) : Pipeline where
  corpus := measures
  registry := .empty
  config := { Config.default with sharedLiterals := shared }
  resolver := .fixed ⟨[{ Bean.ofClass "b" ⟨"app.B"⟩ ⟨"app.Dependent"⟩ with qualifiers := types.map measured }], []⟩
  generator := .compact

end AnnotationWeaver
