import AnnotationWeaver.Build.Output
import AnnotationWeaver.Build.Phases

/-!
The build as a whole. The extensions are checked, the four phases run, the qualifiers of all beans and
observers are compiled, and only then is anything written. An annotation that was compiled for a
package before is not compiled again for it.
-/
namespace AnnotationWeaver

/-- The state of the literal compiler, and what was compiled for which package. -/
structure QualifierState where
  literals : LiteralState
  compiled : List <| Annotation × String × Construction

/-- Compiling qualifiers: a failure ends the build, so no state is kept. -/
abbrev QualifierM (α : Type) : Type := StateT QualifierState (Except LiteralError) α

namespace QualifierState

def initial : QualifierState := ⟨.initial, []⟩

/-- What was compiled before for an equal annotation and the same package. -/
def find? (s : QualifierState) (a : Annotation) (package : String) : Option Construction :=
  (s.compiled.find? fun (b, p, _) => b == a && p == package).map fun (_, _, c) => c

end QualifierState

namespace LiteralSettings

/-- Compiles one qualifier for a package. -/
def compileQualifier (c : LiteralSettings) (package : String) (a : Annotation) : QualifierM Construction := do
  let s ← get
  match s.find? a package with
  | some known => return known
  | none =>
    let (result, literals) := (c.materializeFromCorpus a package).run s.literals
    match result with
    | .ok built =>
      set (⟨literals, s.compiled ++ [(a, package, built)]⟩ : QualifierState)
      return built
    | .error e => throw e

def compileQualifiers (c : LiteralSettings) (package : String) (qualifiers : List Annotation) :
    QualifierM (List Construction) :=
  qualifiers.mapM (c.compileQualifier package)

/-- The class of the synthetic components; their qualifiers are compiled for the generated package. -/
def components (c : LiteralSettings) (id : BuildId) (b : Build) : QualifierM ComponentsClass := do
  let package := c.generatedPackage
  let beans ← b.synthetic.beans.mapM fun x => do return (x, ← c.compileQualifiers package x.qualifiers)
  let observers ← b.synthetic.observers.mapM fun x => do
    return (x, ← c.compileQualifiers package x.qualifiers)
  return ⟨componentsName package id, id, beans, observers, b.metas.contexts⟩

/-- The qualifiers of what the deployment holds beside the synthetic components, compiled for the
    packages of the declaring classes. Of two with one id the later counts, in the place of the first. -/
def deploymentLiterals (c : LiteralSettings) (d : Deployment) : QualifierM QualifierLiterals := do
  let beans := d.beans.filter fun x => x.kind != .synthetic && !x.qualifiers.isEmpty
  let observers := d.observers.filter fun x => !x.isSynthetic && !x.qualifiers.isEmpty
  let ofBeans ← beans.mapM fun x => do
    return (x.id, ← c.compileQualifiers x.declaringClass.package x.qualifiers)
  let ofObservers ← observers.mapM fun x => do
    return (x.id, ← c.compileQualifiers x.declaringClass.package x.qualifiers)
  return ⟨collect ofBeans, collect ofObservers⟩
where
  collect (entries : List (String × List Construction)) : List (String × List Construction) :=
    entries.foldl (fun m (id, built) => Assoc.set id built m) []

end LiteralSettings

/-- A build that can be run. -/
structure Pipeline where
  corpus : Corpus
  registry : Registry
  config : Config
  resolver : Resolver
  generator : Generator

/-- One run of a pipeline: how it ended, the state it ended in, and what it wrote. -/
structure PipelineRun where
  result : Except BuildError Outcome
  build : Build
  written : Written

namespace Pipeline

def literalSettings (p : Pipeline) : LiteralSettings where
  corpus := p.corpus
  shared := p.config.sharedLiterals
  generatedPackage := p.config.generatedPackage
  isApplication := p.config.isApplication

/-- The phases, one after the other. -/
def runPhases (p : Pipeline) (plan : Plan) : BuildM Unit := Phase.all.forM (Build.runPhase plan p.resolver)

/-- The classes that are written: those of single annotations, then the shared ones that are not in
    the corpus. -/
def literalClasses (p : Pipeline) (s : LiteralState) : List LiteralClass :=
  s.written ++ s.generate (p.corpus.classes.map (·.name))

/-- Compiles the qualifiers of a build whose phases succeeded, and writes. -/
def conclude (p : Pipeline) (id : BuildId) (sink : Sink) (b : Build) : Except BuildError Outcome × Written :=
  let c := p.literalSettings
  let compiled := (do
    let components ← c.components id b
    let literals ← c.deploymentLiterals b.deployment
    return (components, literals) : QualifierM (ComponentsClass × QualifierLiterals)).run .initial
  match compiled with
  | .error e => (.error (.literal e), .none)
  | .ok ((components, qualifierLiterals), s) =>
    let (result, written) := (sink.writeAll p.generator (p.literalClasses s.literals) components).run .none
    let outcome : Outcome :=
      ⟨id, b.messages, b.scanned, b.metas, b.synthetic, written.classes.map fun (name, _) => name,
        qualifierLiterals, s.literals.stats⟩
    (result.map fun _ => outcome, written)

/-- Runs the build; `resolutions` tells how often the resolver was asked before. -/
def run (p : Pipeline) (id : BuildId) (sink : Sink) (resolutions : Nat) : PipelineRun :=
  let start := Build.start p.corpus p.config resolutions
  match p.registry.discover with
  | .error e => ⟨.error (.configuration e), start, .none⟩
  | .ok plan =>
    let (result, b) := (p.runPhases plan).run start
    match result with
    | .error e => ⟨.error e, b, .none⟩
    | .ok () =>
      let (result, written) := p.conclude id sink b
      ⟨result, b, written⟩

end Pipeline

end AnnotationWeaver
