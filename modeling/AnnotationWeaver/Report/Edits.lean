import AnnotationWeaver.EditLog.Freeze
import AnnotationWeaver.Report.Basic

/-!
Reports of edit logs: the logged changes, and the state of the log and its overlay.
-/
namespace AnnotationWeaver

def EditTarget.report : EditTarget → Json
  | .declaration => .str "declaration"
  | .parameter position => countJson position.toNat

/-- An addition is told with its annotation, a removal without its predicate. -/
def Change.report (target : EditTarget) : Change → Json
  | .add a => .arr [.str "add", target.report, .str a.text]
  | .remove _ _ => .arr [.str "remove", target.report]

def EditLog.report (l : EditLog) : Json :=
  let o := l.overlay
  let sizes := [DeclKind.type, .method, .field, .parameter].map o.sizeOf
  .object [("len", countJson o.size), ("empty", .bool (o.size == 0)), ("valid", .bool o.valid),
    ("frozen", .bool l.isFrozen), ("kinds", .list countJson sizes),
    ("empties", .list (fun n => .bool (n == 0)) sizes)]

end AnnotationWeaver
