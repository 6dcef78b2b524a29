import AnnotationWeaver.Extension.MetaAnnotation
import AnnotationWeaver.Query.Members
import AnnotationWeaver.Report.Basic

/-!
Editing scripts: editing programs written as lists of actions on a declaration. An action that answers
something leaves the answer as a note; actions can be carried over to the members of a class and to the
parameters of a method.
-/
namespace AnnotationWeaver

/-- The sorts of parts that a declaration has. -/
inductive PartKind where
  | methods | fields | parameters
  deriving DecidableEq, Repr

/-- The parts of a sort, in the order of their declaration. -/
def Declaration.parts : Declaration → PartKind → List Declaration
  | .type d, .methods => d.methods.map .method
  | .type d, .fields => d.fields.map .field
  | .method m, .parameters => m.parameters.map .parameter
  | _, _ => []

inductive EditAction where
  | add (a : Annotation)
  | remove (predicate : Predicate)
  | read
  | has (type : TypeName)
  | key
  | parts (kind : PartKind) (actions : List EditAction)

namespace EditAction

mutual

/-- Carries out an action on a declaration. -/
def run (action : EditAction) (target : Declaration) : EditProgram Unit :=
  match action with
  | .add a => do
    EditProgram.add target.key a
    EditProgram.note (.bool true)
  | .remove p => do EditProgram.note (.bool (← EditProgram.remove target.key p))
  | .read => do EditProgram.note (← EditProgram.read target.key).json
  | .has type => do EditProgram.note (.bool (← EditProgram.has target.key type))
  | .key => EditProgram.note (.str target.key.text)
  | .parts kind actions => (target.parts kind).forM fun part => runAll actions part
termination_by structural action

/-- Carries out actions one after the other. -/
def runAll (actions : List EditAction) (target : Declaration) : EditProgram Unit :=
  match actions with
  | [] => pure ()
  | action :: rest => do
    action.run target
    runAll rest target
termination_by structural actions

end

/-- Carries out actions on each declaration of a corpus that has one of the keys. -/
def runOn (c : Corpus) (actions : List EditAction) (keys : List DeclKey) : EditProgram Unit :=
  keys.forM fun key =>
    match c.find? key with
    | some target => runAll actions target
    | none => pure ()

/-- The configurator of an annotation type: it notes the type and carries out the actions on it. -/
def configurator (actions : List EditAction) : Configurator := fun d => do
  EditProgram.note (.arr [.str "configure", .str d.name.text])
  runAll actions (.type d)

end EditAction

/-- Carries out actions on all that a query admits, in the order of the keys' texts. -/
def EditLog.configure (l : EditLog) (q : Query) (actions : List EditAction) : Except Failure Unit × Workbench :=
  match q.find (.live l.overlay) with
  | .error e => (.error (.overlay e), ⟨l, []⟩)
  | .ok keys => (EditAction.runOn l.overlay.corpus actions (sortKeys keys)).run ⟨l, []⟩

end AnnotationWeaver
