import AnnotationWeaver.Corpus.Basic
import AnnotationWeaver.Extension.Plan
import AnnotationWeaver.Literal.Compiler

/-!
Why a build fails.
-/
namespace AnnotationWeaver

inductive BuildError where
  | phaseOrder (requested : Phase) (expected : Option Phase)
  | configuration (e : ConfigurationError)
  | validation (phase : Phase) (messages : List Message)
  | callback (phase : Phase) (extension : String) (callback : String) (cause : Failure)
  | synthetic (problems : List String)
  | edit (e : EditError)
  | overlay (e : OverlayError)
  | literal (e : LiteralError)
  | corpus (e : CorpusError)
  | deployment (phase : Phase) (cause : String)
  | output (name : String) (cause : String)

namespace BuildError

def message : BuildError → String
  | .phaseOrder requested expected =>
    "phase " ++ requested.label ++ " cannot run now (expected "
      ++ ((expected.map (·.label)).getD "none") ++ ")"
  | .configuration e => "configuration error: " ++ e.message
  | .validation phase messages =>
    phase.label ++ " reported " ++ toString messages.length ++ " problem(s): "
      ++ "; ".intercalate (messages.map (·.shown))
  | .callback phase extension name cause =>
    extension ++ "::" ++ name ++ " failed during " ++ phase.label ++ ": " ++ cause.message
  | .synthetic problems => "incomplete synthetic components: " ++ "; ".intercalate problems
  | .edit e => "transformation error: " ++ e.message
  | .overlay e => "overlay error: " ++ e.message
  | .literal e => "literal error: " ++ e.message
  | .corpus e => "index error: " ++ e.message
  | .deployment phase cause => "deployment resolution failed after " ++ phase.label ++ ": " ++ cause
  | .output name cause => "cannot write " ++ name ++ ": " ++ cause

/-- The phase that an error belongs to. -/
def phase? : BuildError → Option Phase
  | .phaseOrder requested _ => some requested
  | .validation phase _ | .callback phase _ _ _ | .deployment phase _ => some phase
  | .synthetic _ => some .synthesis
  | .configuration e => match e.fault with
    | .illegalRole _ phase => some phase
    | _ => none
  | _ => none

/-- The messages that made a phase fail. -/
def messages : BuildError → List Message
  | .validation _ messages => messages
  | _ => []

def isConfiguration : BuildError → Bool
  | .configuration _ => true
  | _ => false

def isValidation : BuildError → Bool
  | .validation _ _ => true
  | _ => false

end BuildError

end AnnotationWeaver
