import AnnotationWeaver.Proofs.SharedNames
import AnnotationWeaver.Proofs.OneOffNames
import AnnotationWeaver.Proofs.SyntheticRuns

/-!
The class of the components. It lists what was registered in the run, in the order of registration: the beans and
observers with how each of their qualifiers is built, and the contexts. If a bean or an observer was registered, a run that
succeeds has written this class, no other under its name, and one service entry for it. Contexts alone do not make a
class: whoever registers nothing else finds them nowhere in what is written.
-/
namespace AnnotationWeaver

/-! ### Qualifiers, one by one -/

namespace LiteralSettings

/-- What the literal compiler keeps of qualifiers is how they are built. -/
structure Recalls (c : LiteralSettings) (s : QualifierState) : Prop where
  orderly : c.IsOrderly s.literals
  compiled : ∀ entry ∈ s.compiled, ∃ trace, c.Compiles entry.1 entry.2.1 entry.2.2 trace

/-- A qualifier is built as an annotation is that is the same, since that may have been compiled before. -/
def BuildsQualifier (c : LiteralSettings) (package : String) (a : Annotation) (x : Construction) : Prop :=
  ∃ earlier, (earlier == a) = true ∧ ∃ trace, c.Compiles earlier package x trace

/-- The results of a success are related, and it is recalled what was compiled. -/
def Answers (c : LiteralSettings) {α : Type} (x : QualifierM α) (R : α → Prop) : Prop :=
  ∀ s, c.Recalls s → ∀ y s', x.run s = .ok (y, s') → c.Recalls s' ∧ R y

variable {c : LiteralSettings}

theorem recalls_initial : c.Recalls .initial :=
  ⟨isOrderly_initial, fun _ listed => absurd listed List.not_mem_nil⟩

namespace Answers

variable {α β ι : Type} {R : α → Prop}

theorem pure {y : α} (related : R y) : c.Answers (Pure.pure y) R := by
  rintro s recalls _ _ ⟨⟩
  exact ⟨recalls, related⟩

theorem weaken {S : α → Prop} {x : QualifierM α} (answers : c.Answers x R) (implied : ∀ y, R y → S y) :
    c.Answers x S := by
  intro s recalls y s' ends
  obtain ⟨recalls', related⟩ := answers s recalls y s' ends
  exact ⟨recalls', implied y related⟩

theorem bind {S : β → Prop} {x : QualifierM α} {next : α → QualifierM β} (answers : c.Answers x R)
    (further : ∀ y, R y → c.Answers (next y) S) : c.Answers (x >>= next) S := by
  intro s recalls z s'' ends
  rw [StateT.run_bind] at ends
  cases first : x.run s with
  | error e =>
    rw [first] at ends
    cases ends
  | ok result =>
    obtain ⟨y, s'⟩ := result
    rw [first] at ends
    obtain ⟨recalls', related⟩ := answers s recalls y s' first
    exact further y related s' recalls' z s'' ends

theorem mapM {R : ι → α → Prop} {f : ι → QualifierM α} (each : ∀ x, c.Answers (f x) (R x)) (xs : List ι) :
    c.Answers (xs.mapM f) (List.Forall₂ R xs) := by
  induction xs with
  | nil =>
    rw [List.mapM_nil]
    exact pure .nil
  | cons x rest ih =>
    rw [List.mapM_cons]
    exact (each x).bind fun y head => ih.bind fun ys tail => pure (.cons head tail)

end Answers

/-- A qualifier that is new is compiled, and one that was compiled before is built as it was then. -/
theorem answers_compileQualifier (package : String) (a : Annotation) :
    c.Answers (c.compileQualifier package a) (c.BuildsQualifier package a) := by
  intro s recalls x s' ends
  cases search : s.find? a package with
  | some known =>
    rw [compileQualifier_run_of_known search] at ends
    cases ends
    obtain ⟨entry, listed, same, held⟩ := QualifierState.exists_of_find? search
    obtain ⟨trace, compiles⟩ := recalls.compiled entry listed
    rw [held] at compiles
    exact ⟨recalls, entry.1, same, trace, compiles⟩
  | none =>
    obtain ⟨literals, compiled, rfl⟩ := exists_compiled_of_new search ends
    obtain ⟨trace, leads, related⟩ := yields_materializeFromCorpus a package s.literals recalls.orderly
    rw [compiled] at leads related
    have compiles := related x rfl
    refine ⟨⟨leads.orderly, ?_⟩, a, a.beq_refl, trace, compiles⟩
    intro entry listed
    rcases List.mem_append.1 listed with before | last
    · exact recalls.compiled entry before
    · obtain rfl := List.mem_singleton.1 last
      exact ⟨trace, compiles⟩

theorem listed_of_forall₂ {κ ν : Type} {P : κ × ν → Prop} {xs : List κ} {entries : List (κ × ν)}
    (each : List.Forall₂ (fun x entry => entry.1 = x ∧ P entry) xs entries) :
    entries.map (·.1) = xs ∧ ∀ entry ∈ entries, P entry := by
  induction each with
  | nil => exact ⟨rfl, fun _ none => absurd none List.not_mem_nil⟩
  | cons head _ ih => exact ⟨by rw [List.map_cons, head.1, ih.1], List.forall_mem_cons.2 ⟨head.2, ih.2⟩⟩

/-- Each thing is listed with how its qualifiers are built. -/
def ListsQualifiers {κ : Type} (c : LiteralSettings) (qualifiers : κ → List Annotation)
    (entries : List (κ × List Construction)) : Prop :=
  ∀ entry ∈ entries, List.Forall₂ (c.BuildsQualifier c.generatedPackage) (qualifiers entry.1) entry.2

theorem answers_labelled {κ : Type} (qualifiers : κ → List Annotation) (xs : List κ) :
    c.Answers (xs.mapM fun x => do return (x, ← c.compileQualifiers c.generatedPackage (qualifiers x)))
      fun entries => entries.map (·.1) = xs ∧ c.ListsQualifiers qualifiers entries := by
  have each (x : κ) : c.Answers (do return (x, ← c.compileQualifiers c.generatedPackage (qualifiers x)))
      fun entry => entry.1 = x ∧ List.Forall₂ (c.BuildsQualifier c.generatedPackage) (qualifiers entry.1) entry.2 :=
    (Answers.mapM (answers_compileQualifier c.generatedPackage) (qualifiers x)).bind fun built made => .pure ⟨rfl, made⟩
  exact (Answers.mapM each xs).weaken fun _ listed => listed_of_forall₂ listed

/-- The class holds what the build has registered, with how the qualifiers are built. -/
structure Holds (c : LiteralSettings) (id : BuildId) (b : Build) (x : ComponentsClass) : Prop where
  name : x.name = componentsName c.generatedPackage id
  beans : x.beans.map (·.1) = b.synthetic.beans
  observers : x.observers.map (·.1) = b.synthetic.observers
  contexts : x.contexts = b.metas.contexts
  ofBeans : c.ListsQualifiers (·.qualifiers) x.beans
  ofObservers : c.ListsQualifiers (·.qualifiers) x.observers

theorem answers_components (id : BuildId) (b : Build) : c.Answers (c.components id b) (c.Holds id b) :=
  (answers_labelled SyntheticBean.qualifiers b.synthetic.beans).bind fun _ beans =>
    (answers_labelled SyntheticObserver.qualifiers b.synthetic.observers).bind fun _ observers =>
      .pure ⟨rfl, beans.1, observers.1, rfl, beans.2, observers.2⟩

theorem holds_of_compileBuild {id : BuildId} {b : Build} {x : ComponentsClass} {literals : QualifierLiterals}
    {s : QualifierState} (ends : (c.compileBuild id b).run .initial = .ok ((x, literals), s)) : c.Holds id b x := by
  rw [compileBuild, StateT.run_bind] at ends
  cases first : (c.components id b).run .initial with
  | error e =>
    rw [first] at ends
    cases ends
  | ok result =>
    obtain ⟨components, s'⟩ := result
    rw [first] at ends
    obtain ⟨-, holds⟩ := answers_components id b .initial recalls_initial components s' first
    change ((c.deploymentLiterals b.deployment >>= fun literals => pure (components, literals)).run s') = _ at ends
    rw [StateT.run_bind] at ends
    cases second : (c.deploymentLiterals b.deployment).run s' with
    | error e =>
      rw [second] at ends
      cases ends
    | ok result' =>
      rw [second] at ends
      cases ends
      exact holds

end LiteralSettings

/-! ### What is written -/

/-- The class of the components lists what was registered in events. -/
structure ComponentsClass.Lists (c : LiteralSettings) (id : BuildId) (events : List Event) (x : ComponentsClass) : Prop where
  name : x.name = componentsName c.generatedPackage id
  /-- Each bean that was registered, as it was refined, and so each observer. -/
  beans : x.beans.map (·.1) = (Synthetic.empty.after (Event.calls events)).beans
  observers : x.observers.map (·.1) = (Synthetic.empty.after (Event.calls events)).observers
  /-- They are in the order of their registration. -/
  beansInOrder : x.beans.map (fun entry => (entry.1.extension, entry.1.implementation)) =
    RecordCall.added ((Event.calls events).filterMap (·.bean?))
  observersInOrder : x.observers.map (fun entry => entry.1.observed) =
    (RecordCall.added ((Event.calls events).filterMap (·.observer?))).map (·.2)
  contexts : x.contexts = Event.contexts events
  /-- One construction for each qualifier. -/
  ofBeans : c.ListsQualifiers (·.qualifiers) x.beans
  ofObservers : c.ListsQualifiers (·.qualifiers) x.observers

theorem LiteralSettings.Holds.lists {c : LiteralSettings} {id : BuildId} {b : Build} {x : ComponentsClass}
    {events : List Event} (holds : c.Holds id b x) (registered : b.registrations = Registrations.after ⟨.empty, []⟩ events) :
    x.Lists c id events := by
  have synthetic : b.synthetic = Synthetic.empty.after (Event.calls events) := congrArg Registrations.synthetic registered
  have contexts : b.metas.contexts = Event.contexts events := congrArg Registrations.contexts registered
  have beans : x.beans.map (·.1) = (Synthetic.empty.after (Event.calls events)).beans :=
    holds.beans.trans (by rw [synthetic])
  have observers : x.observers.map (·.1) = (Synthetic.empty.after (Event.calls events)).observers :=
    holds.observers.trans (by rw [synthetic])
  refine ⟨holds.name, beans, observers, ?_, ?_, holds.contexts.trans contexts, holds.ofBeans, holds.ofObservers⟩
  · rw [← Synthetic.registrations_of_beans_after, ← beans, List.map_map]
    rfl
  · rw [← Synthetic.observed_of_observers_after, ← observers, List.map_map]
    rfl

theorem ComponentsClass.Lists.isEmpty_iff {c : LiteralSettings} {id : BuildId} {x : ComponentsClass} {events : List Event}
    (lists : x.Lists c id events) : x.isEmpty = true ↔ ∀ e ∈ events, e.registers = false := by
  have empty : x.isEmpty = (Synthetic.empty.after (Event.calls events)).isEmpty := by
    rw [isEmpty, Synthetic.isEmpty, ← lists.beans, ← lists.observers, List.isEmpty_map, List.isEmpty_map]
  rw [empty, Synthetic.isEmpty_after_iff, Event.calls]
  constructor
  · intro none e happens
    cases call : e.call? with
    | none => simp [Event.registers, call]
    | some k => simpa [Event.registers, call] using none k (List.mem_filterMap.2 ⟨e, happens, call⟩)
  · intro none k called
    obtain ⟨e, happens, call⟩ := List.mem_filterMap.1 called
    simpa [Event.registers, call] using none e happens

/-- All classes of annotations have the ending of their names in common. -/
theorem Pipeline.exists_stem_of_literalClasses {p : Pipeline} {s : LiteralState} {trace : List Compiled}
    (leads : p.literalSettings.Leads trace .initial s) {k : LiteralClass} (listed : k ∈ p.literalClasses s) :
    ∃ stem, k.name.text = stem ++ Literal.nameEnd := by
  rcases List.mem_append.1 listed with written | generated
  · rcases leads.exists_of_mem_written written with none | ⟨alone, e, -, rfl⟩
    · exact absurd none List.not_mem_nil
    · rw [Compiled.name_oneOffClass alone]
      exact Literal.exists_stem_oneOffName _ _ _
  · obtain ⟨type, name⟩ := leads.orderly.prepared.exists_type_of_generate generated
    rw [name]
    exact Literal.exists_stem_sharedName _ _

theorem Pipeline.ne_componentsName_of_renders {p : Pipeline} {s : LiteralState} {trace : List Compiled}
    (leads : p.literalSettings.Leads trace .initial s) {entries : List (TypeName × String)}
    (rendered : List.Forall₂ p.generator.Renders (p.literalClasses s) entries) (n : Nat) {entry : TypeName × String}
    (listed : entry ∈ entries) : entry.1 ≠ componentsName p.literalSettings.generatedPackage (.ofNumber n) := by
  have named : entry.1 ∈ (p.literalClasses s).map (·.name) := by
    rw [← map_fst_of_renders rendered]
    exact List.mem_map_of_mem listed
  obtain ⟨k, member, own⟩ := List.mem_map.1 named
  obtain ⟨stem, ends⟩ := exists_stem_of_literalClasses leads member
  intro same
  rw [own, same] at ends
  exact componentsName_ne_of_nameEnd _ n stem ends

/-- One class has the name and the text, all others are classes of annotations, and one service entry announces it. -/
structure Written.Announces (w : Written) (g : Generator) (name : TypeName) (text : String) : Prop where
  classes : w.classes.filter (·.1 == name) = [(name, text)]
  others : ∀ entry ∈ w.classes, entry.1 ≠ name → ∃ k, g.Renders k entry
  services : w.services = [(componentsProvider, name)]

/-- No class has the name, and nothing is announced. -/
structure Written.Omits (w : Written) (name : TypeName) : Prop where
  classes : w.classes.filter (·.1 == name) = []
  services : w.services = []

theorem filter_name_eq_nil {entries : List (TypeName × String)} {name : TypeName}
    (apart : ∀ entry ∈ entries, entry.1 ≠ name) : entries.filter (·.1 == name) = [] :=
  List.filter_eq_nil_iff.2 fun entry listed same => apart entry listed (eq_of_beq same)

theorem service?_map_type (entries : List (TypeName × String)) :
    (entries.map fun entry => Write.type entry.1 entry.2).filterMap (·.service?) = [] := by
  simp [Write.service?]

/-- Where no other class has the name, what is written for the components announces them or omits them. -/
theorem ComponentsClass.IsWrittenAs.announces {g : Generator} {x : ComponentsClass} {announced : List Write} {w : Written}
    {classes : List LiteralClass} {entries : List (TypeName × String)} (written : x.IsWrittenAs g announced)
    (taken : w.taken = (entries.map fun entry => .type entry.1 entry.2) ++ announced)
    (rendered : List.Forall₂ g.Renders classes entries) (apart : ∀ entry ∈ entries, entry.1 ≠ x.name) :
    x.isEmpty = true ∧ w.Omits x.name ∨
      x.isEmpty = false ∧ ∃ text, g.components x = .ok text ∧ w.Announces g x.name text := by
  have whole : w.classes = entries ++ announced.filterMap (·.class?) := by
    rw [Written.classes, taken, List.filterMap_append, class?_map_type]
  have named : w.classes.filter (·.1 == x.name) = (announced.filterMap (·.class?)).filter (·.1 == x.name) := by
    rw [whole, List.filter_append, filter_name_eq_nil apart, List.nil_append]
  have services : w.services = announced.filterMap (·.service?) := by
    rw [Written.services, taken, List.filterMap_append, service?_map_type, List.nil_append]
  cases written with
  | nothing empty => exact .inl ⟨empty, named, services⟩
  | @announced text filled made =>
    refine .inr ⟨filled, text, made, ?_, ?_, services⟩
    · rw [named]
      simp [Write.class?]
    · intro entry listed other
      rw [whole] at listed
      rcases List.mem_append.1 listed with early | last
      · obtain ⟨k, -, renders⟩ := exists_of_forall₂_right rendered early
        exact ⟨k, renders⟩
      · obtain rfl : entry = (x.name, text) := by simpa [Write.class?] using last
        exact absurd rfl other

namespace Pipeline

variable {p : Pipeline} {resolutions : Nat} {sink : Sink} {o : Outcome}

/-- What is registered in a run that succeeds is asked for in the events of its plan. -/
theorem registrations_of_run_ok {id : BuildId} (succeeds : (p.run id sink resolutions).result = .ok o) :
    ∃ plan, p.registry.discover = .ok plan ∧
      (p.run id sink resolutions).build.registrations = Registrations.after ⟨.empty, []⟩ (p.events plan resolutions) := by
  obtain ⟨⟨plan, discovered⟩, -⟩ := conclude_of_run_ok succeeds
  refine ⟨plan, discovered, ?_⟩
  rw [build_run discovered]
  exact (p.follow_events plan resolutions).registered

end Pipeline

/-- A run that succeeds has one class for all components that were registered in it, if there are any: it lists them with
    the contexts, each once and in the order of their registration, and with a construction for each of their qualifiers.
    It is written if a bean or an observer is among them; a context alone is not written anywhere. -/
theorem components_class_lists_registrations (p : Pipeline) (n : Nat) (sink : Sink) (resolutions : Nat) {o : Outcome}
    (succeeds : (p.run (.ofNumber n) sink resolutions).result = .ok o) :
    ∃ plan components, p.registry.discover = .ok plan ∧
      components.Lists p.literalSettings (.ofNumber n) (p.events plan resolutions) ∧
      ((∃ e ∈ p.events plan resolutions, e.registers = true) → ∃ text, p.generator.components components = .ok text ∧
        (p.run (.ofNumber n) sink resolutions).written.Announces p.generator components.name text) ∧
      ((∀ e ∈ p.events plan resolutions, e.registers = false) →
        (p.run (.ofNumber n) sink resolutions).written.Omits components.name) := by
  obtain ⟨plan, discovered, registered⟩ := Pipeline.registrations_of_run_ok succeeds
  obtain ⟨components, s, compiled, writing, names⟩ :=
    Pipeline.writing_of_conclude_ok (Pipeline.conclude_of_run_ok succeeds).2
  have lists := (LiteralSettings.holds_of_compileBuild compiled).lists registered
  have delivers : p.Delivers (.ofNumber n) (p.run (.ofNumber n) sink resolutions) o components s :=
    ⟨compiled, Sink.writeAll_ok writing, names⟩
  obtain ⟨⟨trace, served⟩, -⟩ := delivers.served
  obtain ⟨entries, announced, rendered, written, taken⟩ := Sink.writeAll_taken writing
  have apart : ∀ entry ∈ entries, entry.1 ≠ components.name :=
    fun entry listed => lists.name ▸ Pipeline.ne_componentsName_of_renders served.leads rendered n listed
  refine ⟨plan, components, discovered, lists, ?_, ?_⟩
  · rintro ⟨e, happens, registers⟩
    rcases written.announces taken rendered apart with ⟨empty, -⟩ | ⟨-, announces⟩
    · rw [lists.isEmpty_iff.1 empty e happens] at registers
      cases registers
    · exact announces
  · intro none
    rcases written.announces taken rendered apart with ⟨-, omits⟩ | ⟨filled, -⟩
    · exact omits
    · rw [lists.isEmpty_iff.2 none] at filled
      cases filled

/-- A build of an extension that registers a context, and has other callbacks. -/
def scoping (others : List CallbackDecl) : Pipeline where
  corpus := measures
  registry := Registry.empty.register ⟨"t::Scopes", "t::Scopes",
    plainly "scope" .discovery [.metaAnnotations]
      (CallbackProgram.addContext ⟨⟨"t.Daily"⟩, ⟨"t.DailyContext"⟩, true⟩) :: others⟩
  config := .default
  resolver := .fixed .empty
  generator := .compact

/-- Registers a bean that is qualified by a unit. -/
def supplying : CallbackDecl :=
  plainly "supply" .synthesis [.syntheticComponents] (CallbackProgram.addBean ⟨"t.Clock"⟩
    [.qualifier (.marker ⟨"app.Unit"⟩), .createWith ⟨"t.ClockMaker"⟩])

theorem components_class_lists_registrations_when_scoping :
    let p := scoping [supplying]
    ∃ (o : Outcome) (plan : Plan) (x : ComponentsClass), (p.run (.ofNumber 1) .accepting 0).result = .ok o ∧
      (∃ e ∈ p.events plan 0, e.registers = true) ∧
      x.Lists p.literalSettings (.ofNumber 1) (p.events plan 0) ∧
      x.contexts = [⟨⟨"t.Daily"⟩, ⟨"t.DailyContext"⟩, true⟩] ∧
      ∃ text, (p.run (.ofNumber 1) .accepting 0).written.Announces p.generator x.name text := by
  intro p
  have ran : (p.run (.ofNumber 1) .accepting 0).result.isOk = true := by decide +kernel
  have asked : p.registry.discover.toOption.map (fun plan =>
      (Event.contexts (p.events plan 0), (p.events plan 0).any (·.registers))) =
        some ([⟨⟨"t.Daily"⟩, ⟨"t.DailyContext"⟩, true⟩], true) := by decide +kernel
  cases ends : (p.run (.ofNumber 1) .accepting 0).result with
  | error e =>
    rw [ends] at ran
    cases ran
  | ok o =>
    obtain ⟨plan, x, discovered, lists, announced, -⟩ := components_class_lists_registrations p 1 .accepting 0 ends
    rw [discovered] at asked
    simp only [Except.toOption, Option.map_some, Option.some.injEq, Prod.mk.injEq] at asked
    obtain ⟨contexts, registered⟩ := asked
    have registers := List.any_eq_true.1 registered
    obtain ⟨text, -, announces⟩ := announced registers
    exact ⟨o, plan, x, rfl, registers, lists, lists.contexts.trans contexts, text, announces⟩

/-- The run succeeds with the context, and writes nothing. -/
theorem components_class_loses_contexts :
    ∃ o, ((scoping []).run (.ofNumber 1) .accepting 0).result = .ok o ∧
      o.metas.contexts = [⟨⟨"t.Daily"⟩, ⟨"t.DailyContext"⟩, true⟩] ∧
      ((scoping []).run (.ofNumber 1) .accepting 0).written.taken = [] := by
  have ran : (((scoping []).run (.ofNumber 1) .accepting 0).result.toOption.map (·.metas.contexts),
      ((scoping []).run (.ofNumber 1) .accepting 0).written.taken) =
        (some [⟨⟨"t.Daily"⟩, ⟨"t.DailyContext"⟩, true⟩], []) := by decide +kernel
  obtain ⟨contexts, taken⟩ := Prod.mk.inj ran
  cases ends : ((scoping []).run (.ofNumber 1) .accepting 0).result with
  | error e =>
    rw [ends] at contexts
    cases contexts
  | ok o =>
    rw [ends] at contexts
    exact ⟨o, rfl, Option.some.inj contexts, taken⟩

end AnnotationWeaver
