import AnnotationWeaver.Build.Invocations
import AnnotationWeaver.Build.Resolver

/-!
Running the phases of a build. A phase is entered only right after the one before it, and only once.
In the enhancement the pending configurators run first, then the callbacks; whether or not all of that
succeeds, the edits are frozen and the overlay is put out of use, and only then does a final view come
out. A phase fails if messages severe enough were reported in it. After the enhancement and the
synthesis the deployment is resolved; after the synthesis it also holds the synthetic components.
-/
namespace AnnotationWeaver

/-- A part of a build: the state is kept on failure. -/
abbrev BuildM (α : Type) : Type := ExceptT BuildError (StateM Build) α

/-- What comes of a part of a build, be it an error. -/
def BuildM.attempt {α : Type} (part : BuildM α) : BuildM (Except BuildError α) := ExceptT.lift (ExceptT.run part)

namespace Build

/-- The only phase that can be entered. -/
def expected? (b : Build) : Option Phase :=
  match b.entered? with
  | none => some .discovery
  | some last => last.next?

def enter (phase : Phase) : BuildM Unit := do
  let b ← get
  if b.expected? = some phase then set { b with entered? := some phase }
  else throw (.phaseOrder phase b.expected?)

/-- The state with the run of a callback noted. -/
def noting (b : Build) (i : Invocation) : Build := { b with calls := b.calls ++ [.callback i] }

/-- Runs the body of a callback. -/
def invoke (body : Invocation → CallbackProgram Unit) (i : Invocation) : BuildM Unit := do
  modify (·.noting i)
  let (result, b) := Program.run (answer i) (body i) (← get)
  set b
  match result with
  | .ok () => return
  | .error cause => throw (.callback i.phase i.extension i.callback cause)

/-- Runs a callback for everything that it matches. -/
def runCallback (c : Callback) : BuildM Unit := do
  match c.invocations (← get) with
  | .ok invocations => invocations.forM (invoke c.body)
  | .error e => throw e

/-- What is reported of an annotation type that is not in the corpus. -/
def skipped (kind : MetaKind) (type : TypeName) : Message :=
  ⟨.warning, kind.title ++ " " ++ type.text ++ " is not indexed; its configuration was skipped", none⟩

/-- Runs the configurator of an annotation type; one that is not in the corpus is reported. -/
def configure (kind : MetaKind) (type : TypeName) (configurator : Configurator) : BuildM Unit := do
  let b ← get
  match b.corpus.class? type with
  | none => set { b with messages := b.messages ++ [skipped kind type] }
  | some d =>
    let (result, bench) := (configurator d).run b.bench
    set { b with bench, calls := b.calls ++ [Call.configurator kind type configurator] }
    match result with
    | .ok () => return
    | .error cause => throw (.callback .enhancement type.text "configure" cause)

/-- Runs the pending configurators. -/
def configureAll : BuildM Unit := do
  let b ← get
  set { b with metas := b.metas.taken }
  b.metas.pending.forM fun (kind, type, configurator) => configure kind type configurator

/-- Freezes the edits and puts the overlay out of use. -/
def conclude : BuildM (Except EditError FinalView) := do
  let b ← get
  let (result, edits) := b.edits.freeze
  set { b with bench := { b.bench with edits := edits.withOverlay edits.overlay.invalidate } }
  return result

/-- The configurators and the callbacks of the enhancement. -/
def runEnhancement (callbacks : List Callback) : BuildM Unit := do
  configureAll
  callbacks.forM runCallback

/-- The enhancement and what ends it in any case. -/
def enhance (callbacks : List Callback) : BuildM Unit := do
  let result ← BuildM.attempt (runEnhancement callbacks)
  let frozen ← conclude
  match result, frozen with
  | .error e, _ => throw e
  | .ok (), .error e => throw (.edit e)
  | .ok (), .ok view => modify fun b => { b with final? := some view }

/-- The least level of a message that makes a phase fail. -/
def threshold (b : Build) : Level := if b.config.failOnWarnings then .warning else .error

/-- Fails if a message that is severe enough was reported after the first ones. -/
def checkMessages (phase : Phase) (earlier : Nat) : BuildM Unit := do
  let b ← get
  let failing := Message.atLeast b.threshold (b.messages.drop earlier)
  if failing.isEmpty then return else throw (.validation phase failing)

/-- The deployment that goes with the annotations as they are now. -/
def resolve (resolver : Resolver) (phase : Phase) : BuildM Deployment := do
  let b ← get
  set { b with resolutions := b.resolutions + 1 }
  match resolver.resolve b.resolutions b.view with
  | .ok d => return d
  | .error cause => throw (.deployment phase cause)

/-- What follows the callbacks of a phase that did not fail. -/
def finish (resolver : Resolver) : Phase → BuildM Unit
  | .enhancement => do
    let deployment ← resolve resolver .enhancement
    modify fun b => { b with deployment }
  | .synthesis => do
    let b ← get
    if b.synthetic.problems.isEmpty then
      let deployment ← resolve resolver .synthesis
      modify fun b => { b with deployment := b.synthetic.extend deployment }
    else throw (.synthetic b.synthetic.problems)
  | .discovery | .validation => return

/-- Runs one phase. -/
def runPhase (plan : Plan) (resolver : Resolver) (phase : Phase) : BuildM Unit := do
  enter phase
  let earlier := (← get).messages.length
  match phase with
  | .enhancement => enhance (plan.of phase)
  | _ => (plan.of phase).forM runCallback
  checkMessages phase earlier
  finish resolver phase

end Build

end AnnotationWeaver
