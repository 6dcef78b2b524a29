import AnnotationWeaver.Build.Pipeline
import AnnotationWeaver.Report.Error

/-!
Reports of builds: the plan of the callbacks, what a phase did, and how a run of a pipeline ended.
-/
namespace AnnotationWeaver

def Constraint.report (c : Constraint) : Json := .arr [c.type.toJson, namesJson c.annotatedWith]

def Callback.report (c : Callback) : Json :=
  .arr [.str c.extension, .str c.name, .str c.phase.label, .option int32Json c.priority,
    .option (fun r => .str r.text) c.queryRole?, .list Constraint.report c.constraints]

/-- The callbacks of a plan in the order in which they run. -/
def Plan.report (p : Plan) : Json :=
  .object [("phases", .list (fun phase => .list Callback.report (p.of phase)) Phase.all),
    ("len", countJson p.callbacks.length), ("empty", .bool p.callbacks.isEmpty),
    ("order", .texts (p.ordered.map (·.name)))]

def Outcome.report (o : Outcome) : Json :=
  .object [("outcome", .str o.toJson.compact), ("warnings", countJson o.warnings),
    ("qualifier_literals", countJson o.qualifierLiterals.size),
    ("stats", .list countJson [o.stats.shared, o.stats.oneOffs, o.stats.materialized])]

def PipelineRun.report (r : PipelineRun) : Json :=
  .object [("log", .arr r.build.bench.notes),
    ("result", match r.result with
      | .ok o => o.report
      | .error e => e.report),
    ("written", .list (fun (name, content) => .texts [name.text, content]) r.written.classes),
    ("services", .list (fun (service, provider) => namesJson [service, provider]) r.written.services)]

/-- The annotations that a build shows of a declaration. -/
def Build.probeReport (b : Build) (key : DeclKey) : Json :=
  match b.view.annotations key with
  | .ok set => set.json
  | .error e => e.report

/-- How a phase ended and the state it left; notes are told from the given position on. -/
def Build.report (b : Build) (result : Except BuildError Unit) (seen : Nat) (probe : Option DeclKey) : Json :=
  .object [("result", match result with
      | .ok () => .str "ok"
      | .error e => e.report),
    ("log", .arr (b.bench.notes.drop seen)), ("probe", .option b.probeReport probe),
    ("entered", phaseJson b.entered?), ("frozen", .option (fun v => countJson v.size) b.final?),
    ("valid", .bool b.edits.overlay.valid), ("registry_frozen", .bool b.edits.isFrozen),
    ("transformed", keysJson b.edits.owners), ("beans", .texts (b.deployment.beans.map (·.id))),
    ("observers", .texts (b.deployment.observers.map (·.id))), ("messages", messagesJson b.messages),
    ("scanned", namesJson b.scanned), ("meta", .str b.metas.registrationsJson.compact),
    ("synthetic_empty", .bool b.synthetic.isEmpty), ("config", .str b.config.toJson.compact),
    ("classes", countJson b.corpus.classes.length)]

end AnnotationWeaver
