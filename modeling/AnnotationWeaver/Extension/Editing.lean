import AnnotationWeaver.Extension.Failure
import AnnotationWeaver.Json.Basic
import AnnotationWeaver.Program

/-!
Programs that edit annotations. They add and remove annotations of declarations, look at the current
ones, and leave notes. They work on an edit log and a list of notes.
-/
namespace AnnotationWeaver

/-- What an editing program asks for. -/
inductive EditRequest where
  | add (key : DeclKey) (a : Annotation)
  | remove (key : DeclKey) (predicate : Predicate)
  | read (key : DeclKey)
  | has (key : DeclKey) (type : TypeName)
  | note (content : Json)

namespace EditRequest

/-- What is replied: for a removal, whether it altered the set. -/
def Reply : EditRequest → Type
  | .add _ _ => Unit
  | .remove _ _ => Bool
  | .read _ => AnnotationSet
  | .has _ _ => Bool
  | .note _ => Unit

/-- The declaration that a request is about; a note is about none. -/
def key? : EditRequest → Option DeclKey
  | .add key _ | .remove key _ | .read key | .has key _ => some key
  | .note _ => none

end EditRequest

abbrev EditProgram (α : Type) : Type := Program Failure EditRequest EditRequest.Reply α

namespace EditProgram

def ask (r : EditRequest) : EditProgram r.Reply := Program.request r

def add (key : DeclKey) (a : Annotation) : EditProgram Unit := ask (.add key a)

/-- Removes what the predicate holds of; tells whether that was anything. -/
def remove (key : DeclKey) (predicate : Predicate) : EditProgram Bool := ask (.remove key predicate)

def read (key : DeclKey) : EditProgram AnnotationSet := ask (.read key)

def has (key : DeclKey) (type : TypeName) : EditProgram Bool := ask (.has key type)

def note (content : Json) : EditProgram Unit := ask (.note content)

end EditProgram

/-- An edit log and the notes that were left. -/
structure Workbench where
  edits : EditLog
  notes : List Json

namespace Workbench

/-- Answers a request of an editing program. -/
def answer : (r : EditRequest) → Workbench → Except Failure r.Reply × Workbench
  | .add key a, w =>
    match w.edits.add key a with
    | .ok edits => (.ok (), { w with edits })
    | .error e => (.error (.edit e), w)
  | .remove key p, w =>
    match w.edits.remove key p with
    | .ok (altered, edits) => (.ok altered, { w with edits })
    | .error e => (.error (.edit e), w)
  | .read key, w =>
    match w.edits.overlay.read key with
    | .ok (set, overlay) => (.ok set, { w with edits := w.edits.withOverlay overlay })
    | .error e => (.error (.overlay e), w)
  | .has key type, w => ((w.edits.overlay.has key type).mapError .overlay, w)
  | .note content, w => (.ok (), { w with notes := w.notes ++ [content] })

end Workbench

/-- Runs an editing program. -/
def EditProgram.run {α : Type} (p : EditProgram α) (w : Workbench) : Except Failure α × Workbench :=
  Program.run Workbench.answer p w

end AnnotationWeaver
