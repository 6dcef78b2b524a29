import AnnotationWeaver.Proofs.Held
import AnnotationWeaver.Proofs.LegibleTexts

/-!
Classes with one name. A class of its own is named after the canonical text of its annotation, and what it holds is decided
by the values of all members, those inside annotations included. Where the annotations and the defaults of the corpus
are legible, the text gives these values back, so that a name stands for one class, however often it is written. Without
that it may stand for several: empty arrays of two kinds have one text, but only one of them is the default.
-/
namespace AnnotationWeaver

variable {κ : TypeName → String → ValueKind}

/-- The defaults of the corpus are legible. -/
def Corpus.isLegible (κ : TypeName → String → ValueKind) (corpus : Corpus) : Bool :=
  corpus.classes.all fun d => d.methods.all fun m => m.default?.all fun v => v.isLegible κ (κ d.name m.name)

/-! ### Legible annotations lead to legible ones -/

theorem Annotation.isLegible_of_effectiveValue? {corpus : Corpus} (defaults : corpus.isLegible κ = true) {a : Annotation}
    (legible : a.isLegible κ = true) {d : ClassDecl} (declared : corpus.class? a.type = some d) {m : MethodDecl}
    (member : m ∈ d.regularMethods) {v : Value} (value : a.effectiveValue? m = some v) :
    v.isLegible κ (κ a.type m.name) = true := by
  unfold effectiveValue? at value
  cases explicit : a.value? m.name with
  | some w =>
    rw [explicit] at value
    obtain rfl := Option.some.inj value
    exact isLegible_of_value? legible explicit
  | none =>
    rw [explicit] at value
    obtain ⟨listed, named⟩ := Corpus.class?_eq_some_iff.1 declared
    have methods := List.all_eq_true.1 (List.all_eq_true.1 defaults d listed) m (List.mem_filter.1 member).1
    have default : m.default? = some v := value
    rw [default, named] at methods
    exact methods

theorem MethodDecl.Builds.isLegible {m : MethodDecl} {v : Value} {inner : Annotation} (builds : m.Builds v inner)
    {k : ValueKind} (legible : v.isLegible κ k = true) : inner.isLegible κ = true := by
  cases builds with
  | alone single fits => rwa [Value.isLegible] at legible
  | element several member fits =>
    rw [Value.isLegible, Bool.and_eq_true] at legible
    have element := Value.allLegible_iff.1 legible.2 _ member
    rwa [Value.isLegible] at element

theorem Corpus.Asks.isLegible {corpus : Corpus} (defaults : corpus.isLegible κ = true) {a inner : Annotation}
    (asks : corpus.Asks a inner) (legible : a.isLegible κ = true) : inner.isLegible κ = true := by
  obtain ⟨d, declared, m, member, v, value, -, builds⟩ := asks
  exact builds.isLegible <| Annotation.isLegible_of_effectiveValue? defaults legible declared member value

/-! ### What is compiled was asked for -/

section

variable {N : Annotation → Construction → List Compiled → Prop} {x : Construction} {trace : List Compiled} {e : Compiled}

theorem Value.BuildsAs.exists_nested {expected : Ty} {v : Value} (builds : v.BuildsAs N expected x trace)
    (member : e ∈ trace) : ∃ inner, v = .nested inner ∧ v.fits expected = true ∧ N inner x trace := by
  cases builds with
  | plain fits built => exact absurd member List.not_mem_nil
  | nested fits inside => exact ⟨_, rfl, fits, inside⟩

theorem MethodDecl.Loads.exists_built {name : TypeName} {m : MethodDecl} {v : Value} (loads : m.Loads N name v x trace)
    (member : e ∈ trace) :
    Literal.readsStatic m v = false ∧ ∃ inner y t, m.Builds v inner ∧ N inner y t ∧ e ∈ t := by
  cases loads with
  | static kept => exact absurd member List.not_mem_nil
  | single made alone builds =>
    obtain ⟨inner, rfl, fits, inside⟩ := builds.exists_nested member
    exact ⟨made, inner, _, _, .alone alone fits, inside, member⟩
  | none made several => exact absurd member List.not_mem_nil
  | several made several each =>
    obtain ⟨v, listed, y, -, t, builds, inside, -⟩ := each.exists_of_mem_trace member
    obtain ⟨inner, rfl, fits, built⟩ := builds.exists_nested inside
    exact ⟨made, inner, y, t, .element several listed fits, built, inside⟩

end

namespace Compiled

/-- A legible annotation, with how it is compiled. -/
structure IsFaithful (c : LiteralSettings) (κ : TypeName → String → ValueKind) (e : Compiled) : Prop where
  legible : e.annotation.isLegible κ = true
  declared : c.corpus.class? e.annotation.type = some e.declaration
  values : ∃ depth inside, Each
    (MethodDecl.LoadsFrom (fun a => c.CompilesWithin depth a a.type.package) (e.literal c).name e.annotation)
    e.declaration.regularMethods e.values inside

end Compiled

namespace LiteralSettings

/-- One compilation after the other. -/
def materializeAll (c : LiteralSettings) (calls : List QualifierRequest) : Compilation (List Construction) :=
  calls.mapM fun r => c.materializeFromCorpus r.qualifier r.package

variable {c : LiteralSettings} (defaults : c.corpus.isLegible κ = true)
include defaults

theorem CompilesWithin.isFaithful {depth : Nat} {a : Annotation} {package : String} {x : Construction}
    {trace : List Compiled} (compiles : c.CompilesWithin depth a package x trace) (legible : a.isLegible κ = true) :
    ∀ e ∈ trace, e.IsFaithful c κ := by
  -- The depth falls from an annotation to those that it asks for, which are legible as it is.
  induction depth generalizing a package x trace with
  | zero => exact compiles.elim
  | succ depth ih =>
    cases compiles with
    | @intro d values inside declared members =>
      intro e member
      rcases List.mem_append.1 member with before | last
      · obtain ⟨m, listed, y, -, t, ⟨v, value, loads⟩, held, -⟩ := members.exists_of_mem_trace before
        obtain ⟨made, inner, z, u, builds, compiled, deeper⟩ := loads.exists_built held
        have asks : c.corpus.Asks a inner := ⟨d, declared, m, listed, v, value, made, builds⟩
        exact ih compiled (asks.isLegible defaults legible) e deeper
      · obtain rfl := List.mem_singleton.1 last
        exact ⟨legible, declared, depth, inside, members⟩

theorem isFaithful_of_each {calls : List QualifierRequest} {built : List Construction} {trace : List Compiled}
    (each : Each (fun r => c.Compiles r.qualifier r.package) calls built trace)
    (legible : ∀ r ∈ calls, r.qualifier.isLegible κ = true) : ∀ e ∈ trace, e.IsFaithful c κ := by
  intro e member
  obtain ⟨r, listed, x, -, t, ⟨depth, compiles⟩, inside, -⟩ := each.exists_of_mem_trace member
  exact compiles.isFaithful defaults (legible r listed) e inside

end LiteralSettings

/-! ### One name, one class -/

namespace Compiled

variable {c : LiteralSettings} {trace : List Compiled} {e f : Compiled}

/-- The text gives the values of all members, so what they are built as is the same. -/
theorem IsFaithful.oneOffClass_eq (alone : c.shared = false) (faithful : e.IsFaithful c κ) (faithful' : f.IsFaithful c κ)
    (same : (e.oneOffClass c).name = (f.oneOffClass c).name) (repeats : e.Repeats c f) :
    e.oneOffClass c = f.oneOffClass c := by
  obtain ⟨-, texts, -⟩ := repeats
  obtain ⟨type, values⟩ := Literal.value?_eq_of_canonicalText faithful.legible faithful'.legible texts
  have declarations : e.declaration = f.declaration :=
    Option.some.inj (faithful.declared.symm.trans (type ▸ faithful'.declared))
  have literals : e.literal c = f.literal c := by
    have names : Literal.oneOffName e.annotation e.package c.generatedPackage =
        Literal.oneOffName f.annotation f.package c.generatedPackage := by
      rw [← name_oneOffClass alone, ← name_oneOffClass alone, same]
    simp [literal, LiteralSettings.literalFor, alone, names, declarations]
  obtain ⟨depth, inside, each⟩ := faithful.values
  obtain ⟨depth', inside', each'⟩ := faithful'.values
  have agree (m : MethodDecl) : e.annotation.effectiveValue? m = f.annotation.effectiveValue? m := by
    unfold Annotation.effectiveValue?
    rw [values m.name]
  rw [← literals, ← declarations] at each'
  have built := (Each.unique_members (fun _ _ _ _ _ first second => first.unique second) (fun m _ => agree m) each each').1
  rw [oneOffClass, oneOffClass, literals, built]

end Compiled

/-- Without sharing, successful compilations write one class for each annotation that is compiled. If the annotations and the
    defaults of the corpus are legible, then classes with one name are one class. -/
theorem written_classes_eq_of_name (c : LiteralSettings) (alone : c.shared = false)
    (defaults : c.corpus.isLegible κ = true) (calls : List QualifierRequest)
    (legible : ∀ r ∈ calls, r.qualifier.isLegible κ = true) {built : List Construction} {s : LiteralState}
    (succeeds : (c.materializeAll calls).run .initial = (.ok built, s)) :
    ∃ trace, Each (fun r => c.Compiles r.qualifier r.package) calls built trace ∧
      s.written = trace.map (·.oneOffClass c) ∧
      (Compiled.ToldApart trace → ∀ k ∈ s.written, ∀ k' ∈ s.written, k.name = k'.name → k = k') := by
  have yields := LiteralSettings.Yields.mapM calls fun r _ =>
    LiteralSettings.yields_materializeFromCorpus (c := c) r.qualifier r.package
  obtain ⟨trace, leads, related⟩ := yields .initial LiteralSettings.isOrderly_initial
  rw [LiteralSettings.materializeAll] at succeeds
  rw [succeeds] at leads related
  have each := related built rfl
  have written : s.written = trace.map (·.oneOffClass c) := by
    rw [leads.written, if_neg (by simp [alone])]
    rfl
  refine ⟨trace, each, written, fun apart k listed k' listed' same => ?_⟩
  rw [written] at listed listed'
  obtain ⟨e, member, rfl⟩ := List.mem_map.1 listed
  obtain ⟨f, member', rfl⟩ := List.mem_map.1 listed'
  have faithful := LiteralSettings.isFaithful_of_each defaults each legible
  exact (faithful e member).oneOffClass_eq alone (faithful f member') same
    (Compiled.repeats_of_name_eq alone apart member member' same)

/-- A compiler for the units and what has them, without sharing. -/
def measureSettings : LiteralSettings := ⟨measures, false, "anvil.generated", fun _ => true⟩

/-- The size is compiled twice, and so is the unit in it: both times the classes are the same. -/
theorem written_classes_eq_of_name_in_measures :
    let calls : List QualifierRequest := [⟨measured "app.Size", "app"⟩, ⟨measured "app.Size", "app"⟩]
    measureSettings.shared = false ∧ measureSettings.corpus.isLegible (fun _ _ => .nested) = true ∧
      (∀ r ∈ calls, r.qualifier.isLegible (fun _ _ => .nested) = true) ∧
      ∃ built s, (measureSettings.materializeAll calls).run .initial = (.ok built, s) ∧
        s.written.length = 4 ∧ ∀ k ∈ s.written, ∀ k' ∈ s.written, k.name = k'.name → k = k' := by
  intro calls
  have defaults : measureSettings.corpus.isLegible (fun _ _ => .nested) = true := by decide +kernel
  have legible : ∀ r ∈ calls, r.qualifier.isLegible (fun _ _ => .nested) = true := by
    have size : (measured "app.Size").isLegible (fun _ _ => .nested) = true := by decide +kernel
    simp [calls, size]
  have succeeds : ((measureSettings.materializeAll calls).run .initial).1.isOk = true := by decide +kernel
  generalize ends : (measureSettings.materializeAll calls).run .initial = outcome at succeeds
  obtain ⟨result, s⟩ := outcome
  cases result with
  | error e => cases succeeds
  | ok built =>
    obtain ⟨trace, each, written, one⟩ :=
      written_classes_eq_of_name measureSettings rfl defaults calls legible ends
    have size := Compiled.compiles_size (c := measureSettings) rfl
    obtain ⟨-, rfl⟩ := each.unique (.cons size (.cons size .nil)) fun _ _ _ _ _ _ first second => first.unique second
    exact ⟨rfl, defaults, legible, built, s, rfl, by rw [written]; rfl, one (by decide +kernel)⟩

/-- An annotation type with a member that holds classes, none by default. -/
def groupsType : ClassOutline :=
  measureType "app.Groups"
    [⟨"value", [], .array (.named classType), [], some (.array .classLiteral []), false⟩]

/-- A compiler for that type, without sharing. -/
def groupSettings : LiteralSettings where
  corpus := { outlines := [groupsType], classes := _, declared := rfl, accepted := by decide +kernel }
  shared := false
  generatedPackage := "anvil.generated"
  isApplication _ := true

/-- No groups, in an array of the kind. -/
def noGroups (kind : ValueKind) : Annotation := ⟨⟨"app.Groups"⟩, [⟨"value", .array kind []⟩]⟩

/-- Both kinds, one after the other. -/
def groupCalls : List QualifierRequest := [⟨noGroups .classLiteral, "app"⟩, ⟨noGroups .string, "app"⟩]

/-- The annotation whose member is the default: it is read from the static field of the class. -/
def defaultGroups : Compiled where
  annotation := noGroups .classLiteral
  package := "app"
  declaration := groupsType.declare
  values := [.staticField (Literal.oneOffName (noGroups .classLiteral) "app" "anvil.generated") "value_default_value"
    (.array (.named classType))]

/-- The annotation whose member is empty as well, but is not the default. -/
def emptyGroups : Compiled := ⟨noGroups .string, "app", groupsType.declare, [.emptyArray .classes]⟩

/-- One name stands for two classes, which return different values. -/
theorem written_classes_differ_of_groups :
    groupSettings.shared = false ∧
      ∃ built s, (groupSettings.materializeAll groupCalls).run .initial = (.ok built, s) ∧
        ∃ k ∈ s.written, ∃ k' ∈ s.written, k.name = k'.name ∧ k ≠ k' := by
  have ends : (groupSettings.materializeAll groupCalls).run .initial =
      (.ok [defaultGroups.construction groupSettings, emptyGroups.construction groupSettings],
        ⟨[], [defaultGroups.oneOffClass groupSettings, emptyGroups.oneOffClass groupSettings], 2, 2⟩) := rfl
  have repeats : defaultGroups.Repeats groupSettings emptyGroups := by decide +kernel
  refine ⟨rfl, _, _, ends, _, by simp, _, by simp, Compiled.name_eq_of_repeats rfl repeats, fun same => ?_⟩
  have first : (defaultGroups.oneOffClass groupSettings).methods.map (·.body) =
      defaultGroups.values.map .returnValue := rfl
  have second : (emptyGroups.oneOffClass groupSettings).methods.map (·.body) =
      emptyGroups.values.map .returnValue := rfl
  rw [same, second] at first
  simp [defaultGroups, emptyGroups] at first

end AnnotationWeaver
