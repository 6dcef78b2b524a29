import AnnotationWeaver.Build.Config
import AnnotationWeaver.Build.Error
import AnnotationWeaver.EditLog.Freeze

/-!
The state of a build, and what is done for the callbacks that run on it. `answer` first checks that the
callback declared the parameter that allows its request; then the request is carried out on the part
of the state that the parameter stands for.
-/
namespace AnnotationWeaver

/-- A body that was run: a configurator, for the annotation type that it was registered for, or a callback. -/
inductive Call where
  | configurator (kind : MetaKind) (type : TypeName) (configure : Configurator)
  | callback (i : Invocation)

/-- The state of a build. -/
structure Build where
  config : Config
  bench : Workbench
  /-- The final annotations, once there are any. -/
  final? : Option FinalView
  messages : List Message
  scanned : List TypeName
  metas : MetaAnnotations
  synthetic : Synthetic
  deployment : Deployment
  /-- The last phase that was entered. -/
  entered? : Option Phase
  /-- How often a deployment was resolved. -/
  resolutions : Nat
  /-- The bodies that were run, in order. -/
  calls : List Call

namespace Build

/-- The state before the first phase. -/
def start (corpus : Corpus) (config : Config) (resolutions : Nat) : Build where
  config := config
  bench := ⟨.ofCorpus corpus, []⟩
  final? := none
  messages := []
  scanned := []
  metas := .empty
  synthetic := .empty
  deployment := .empty
  entered? := none
  resolutions := resolutions
  calls := []

def edits (b : Build) : EditLog := b.bench.edits

def corpus (b : Build) : Corpus := b.edits.overlay.corpus

/-- The annotations as they are now: final ones if there are any. -/
def view (b : Build) : View :=
  match b.final? with
  | some v => .final v
  | none => .live b.edits.overlay

end Build

namespace Invocation

/-- What a parameter lets a callback edit: a class and its members, or a single member. -/
def covers (key : DeclKey) (a : Argument) : Bool :=
  match a.role, a.subject? with
  | .archiveConfig, _ => true
  | .classConfig, some (.type d) => key.declaringClass == d.name
  | .methodConfig, some (.method m) => key.owner == .method m.key
  | .fieldConfig, some (.field f) => key == .field f.key
  | _, _ => false

/-- Why a request is refused, if it is. -/
def refusal? (i : Invocation) (r : Request) : Option Failure :=
  match r with
  | .edit e =>
    match e.key? with
    | some key => if i.arguments.any (covers key) then none else some (i.undeclared .archiveConfig)
    | none => none
  | _ =>
    match r.role? with
    | some role => if (i.argument? role).isSome then none else some (i.undeclared role)
    | none => none

/-- The class that a parameter stands for. -/
def class? (i : Invocation) (role : Role) : Except Failure ClassDecl :=
  match i.subject? role with
  | some (.type d) => .ok d
  | _ => .error (i.undeclared role)

def method? (i : Invocation) (role : Role) : Except Failure MethodDecl :=
  match i.subject? role with
  | some (.method m) => .ok m
  | _ => .error (i.undeclared role)

def field? (i : Invocation) (role : Role) : Except Failure FieldDecl :=
  match i.subject? role with
  | some (.field f) => .ok f
  | _ => .error (i.undeclared role)

def bean? (i : Invocation) : Except Failure Bean :=
  match i.subject? .beanInfo with
  | some (.bean b) => .ok b
  | _ => .error (i.undeclared .beanInfo)

def observer? (i : Invocation) : Except Failure Observer :=
  match i.subject? .observerInfo with
  | some (.observer o) => .ok o
  | _ => .error (i.undeclared .observerInfo)

end Invocation

namespace Build

/-- Carries out a request that is not refused. -/
def perform (i : Invocation) (b : Build) : (r : Request) → Except Failure r.Reply × Build
  | .edit r =>
    let (reply, bench) := Workbench.answer r b.bench
    (reply, { b with bench })
  | .require _ => (.ok (), b)
  | .report m => (.ok (), { b with messages := b.messages ++ [m] })
  | .scan name => (.ok (), { b with scanned := addScanned b.scanned name })
  | .addContext c => (.ok (), { b with metas := b.metas.addContext c })
  | .registerMeta kind type configure =>
    (.ok (), { b with metas := b.metas.register kind type configure })
  | .classConfig => (i.class? .classConfig, b)
  | .methodConfig => (i.method? .methodConfig, b)
  | .fieldConfig => (i.field? .fieldConfig, b)
  | .classInfo => (i.class? .classInfo, b)
  | .methodInfo => (i.method? .methodInfo, b)
  | .fieldInfo => (i.field? .fieldInfo, b)
  | .bean => (i.bean?, b)
  | .observer => (i.observer?, b)
  | .configurable q => ((q.find (.live b.edits.overlay)).mapError .overlay, b)
  | .search q => ((q.find b.view).mapError .overlay, b)
  | .deployed q => (.ok (q.find b.deployment), b)
  | .isIndexed name => (.ok (b.corpus.hasClass name), b)
  | .addBean implementation =>
    (.ok b.synthetic.beans.length,
      { b with synthetic := b.synthetic.addBean (extensionClass i.extension) implementation })
  | .refineBean place r => (.ok (), { b with synthetic := b.synthetic.refineBean place r })
  | .addObserver observed =>
    (.ok b.synthetic.observers.length,
      { b with synthetic := b.synthetic.addObserver (extensionClass i.extension) observed })
  | .refineObserver place r => (.ok (), { b with synthetic := b.synthetic.refineObserver place r })

/-- Answers a request of a callback. -/
def answer (i : Invocation) (r : Request) (b : Build) : Except Failure r.Reply × Build :=
  match i.refusal? r with
  | some failure => (.error failure, b)
  | none => b.perform i r

end Build

end AnnotationWeaver
