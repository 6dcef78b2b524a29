import AnnotationWeaver.Extension.Plan
import AnnotationWeaver.Json.Writer
import AnnotationWeaver.Script.Editing

/-!
Scripts: bodies of callbacks written as lists of actions. A run of a script first notes the call, then
carries out the actions; what an action finds out is left as a note. The first failure ends the script.
-/
namespace AnnotationWeaver

/-- The parameters whose subject a message can be about. -/
inductive MessageSubject where
  | bean | observer | type | method | field
  deriving DecidableEq, Repr

inductive Action where
  | log (content : Json)
  | listArguments
  | fail (text : String)
  | report (m : Message)
  | reportAbout (level : Level) (text : String) (subject : MessageSubject)
  | scan (name : TypeName)
  | addContext (c : ScopeContext)
  | registerMeta (kind : MetaKind) (type : TypeName) (actions : List EditAction)
  | configureClass (actions : List EditAction)
  | configureMethod (actions : List EditAction)
  | configureField (actions : List EditAction)
  | showClass
  | showMethod
  | showField
  | create (type : TypeName) (members : List (String × Value))
  | configure (q : Query) (actions : List EditAction)
  | searchConfigurable (q : Query)
  | search (q : Query)
  | searchDeployed (q : DeployedQuery)
  | showBean (qualifier : TypeName)
  | showObserver
  | showType (type : Ty)
  | isIndexed (name : TypeName)
  | addBean (implementation : TypeName) (refinements : List BeanRefinement)
  | addObserver (observed : Ty) (refinements : List ObserverRefinement)

namespace Action

/-- What a message about a subject is about. -/
def context : MessageSubject → CallbackProgram MessageContext
  | .bean => do return .bean (← CallbackProgram.bean).id
  | .observer => do return .observer (← CallbackProgram.observer).id
  | .type => do return .declaration (.type (← CallbackProgram.classConfig).name)
  | .method => do return .declaration (.method (← CallbackProgram.methodConfig).key)
  | .field => do return .declaration (.field (← CallbackProgram.fieldConfig).key)

/-- The parameters of an invocation, each with what it stands for. -/
def argumentsJson (i : Invocation) : Json :=
  .list (fun a => .arr [.str a.role.text, .option .str (a.subject?.map (·.identity))]) i.arguments

/-- Carries out an action in a run of a callback; the corpus is that of the build. -/
def run (corpus : Corpus) (i : Invocation) : Action → CallbackProgram Unit
  | .log content => CallbackProgram.note content
  | .listArguments => CallbackProgram.note (argumentsJson i)
  | .fail text => .giveUp (.text text)
  | .report m => CallbackProgram.report m
  | .reportAbout level text subject => do
    CallbackProgram.report ⟨level, text, some (← context subject)⟩
  | .scan name => CallbackProgram.scan name
  | .addContext c => CallbackProgram.addContext c
  | .registerMeta kind type actions =>
    CallbackProgram.registerMeta kind type (EditAction.configurator actions)
  | .configureClass actions => do
    CallbackProgram.edit (EditAction.runAll actions (.type (← CallbackProgram.classConfig)))
  | .configureMethod actions => do
    CallbackProgram.edit (EditAction.runAll actions (.method (← CallbackProgram.methodConfig)))
  | .configureField actions => do
    CallbackProgram.edit (EditAction.runAll actions (.field (← CallbackProgram.fieldConfig)))
  | .showClass => do
    let d ← CallbackProgram.classInfo
    CallbackProgram.note (.arr [.str d.name.text, annotationTexts d.annotations])
  | .showMethod => do
    let m ← CallbackProgram.methodInfo
    CallbackProgram.note (.arr [.str m.key.text, .str m.returns.text, annotationTexts m.annotations])
  | .showField => do
    let f ← CallbackProgram.fieldInfo
    CallbackProgram.note (.arr [.str f.key.text, .str f.type.text, annotationTexts f.annotations])
  | .create type members => do
    CallbackProgram.require .annotations
    CallbackProgram.note (.str (.ofList type members : Annotation).text)
  | .configure q actions => do
    let keys ← CallbackProgram.configurable q
    CallbackProgram.edit (EditAction.runOn corpus actions (sortKeys keys))
  | .searchConfigurable q => do CallbackProgram.note (keysJson (← CallbackProgram.configurable q))
  | .search q => do CallbackProgram.note (keysJson (← CallbackProgram.search q))
  | .searchDeployed q => do CallbackProgram.note (foundJson (← CallbackProgram.deployed q))
  | .showBean qualifier => do
    let b ← CallbackProgram.bean
    CallbackProgram.note (.arr [.str b.toJson.compact, .bool (b.hasQualifier qualifier)])
  | .showObserver => do CallbackProgram.note (.str (← CallbackProgram.observer).toJson.compact)
  | .showType type => do
    CallbackProgram.require .types
    CallbackProgram.note (.str type.toJson.compact)
  | .isIndexed name => do CallbackProgram.note (.bool (← CallbackProgram.isIndexed name))
  | .addBean implementation refinements => CallbackProgram.addBean implementation refinements
  | .addObserver observed refinements => CallbackProgram.addObserver observed refinements

/-- The body of a callback that carries out actions. -/
def body (corpus : Corpus) (actions : List Action) (i : Invocation) : CallbackProgram Unit := do
  CallbackProgram.note (.arr [.str "call", .str i.phase.label, .str i.extension, .str i.callback])
  actions.forM (run corpus i)

end Action

end AnnotationWeaver
