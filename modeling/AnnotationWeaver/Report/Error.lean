import AnnotationWeaver.Build.Error
import AnnotationWeaver.ModelError
import AnnotationWeaver.Report.Basic

/-!
Reports of errors. Every cause has a label of one word; where one error is the cause of another, the
label of the outer one stands in front, parted by a stroke.
-/
namespace AnnotationWeaver

def ModelError.label : ModelError → String
  | .invalidTypeName _ => "InvalidTypeName"
  | .unknownPrimitive _ => "UnknownPrimitive"
  | .mixedArray _ _ => "HeterogeneousArray"

def CorpusError.label : CorpusError → String
  | .duplicateClass _ => "DuplicateClass"
  | .duplicateMethod _ => "DuplicateMethod"
  | .duplicateField _ => "DuplicateField"
  | .invalidName _ => "InvalidName"

/-- An overlay fails in one way only. -/
def OverlayError.label (_ : OverlayError) : String := "Invalidated"

def EditError.label : EditError → String
  | .frozen => "Frozen"
  | .overlay e => "Overlay/" ++ e.label
  | .keyMismatch _ => "KeyMismatch"
  | .replayDivergence _ => "ReplayDivergence"

def LiteralError.label : LiteralError → String
  | .missingValue _ _ => "MissingValue"
  | .missingNestedClass _ => "MissingNestedAnnotationClass"
  | .missingClass _ => "MissingAnnotationClass"
  | .mismatch _ _ => "AnnotationMismatch"
  | .unsupportedValue _ _ _ => "UnsupportedValue"
  | .endlessNesting _ => "EndlessNesting"

def ConfigurationFault.label : ConfigurationFault → String
  | .phaseMarkers _ => "PhaseMarkers"
  | .modifiers => "Modifiers"
  | .missingInvoker => "MissingInvoker"
  | .unknownRole _ => "UnknownRole"
  | .illegalRole _ _ => "IllegalRole"
  | .multipleQueryRoles _ => "MultipleQueryRoles"
  | .missingConstraint _ => "MissingConstraint"
  | .unexpectedConstraint => "UnexpectedConstraint"

/-- What is no error of the overlay or of an edit is the callback's own. -/
def Failure.label : Failure → String
  | .overlay e => e.label
  | .edit e => e.label
  | _ => "Callback"

def BuildError.label : BuildError → String
  | .phaseOrder _ _ => "PhaseOrder"
  | .configuration e => "Configuration/" ++ e.fault.label
  | .validation _ _ => "Validation"
  | .callback _ _ _ _ => "Callback"
  | .synthetic _ => "Synthetic"
  | .edit e => "Transform/" ++ e.label
  | .overlay e => "Overlay/" ++ e.label
  | .literal e => "Literal/" ++ e.label
  | .corpus e => "Index/" ++ e.label
  | .deployment _ _ => "Deployment"
  | .output _ _ => "Output"

def ModelError.report (e : ModelError) : Json := failureReport e.label e.message

def CorpusError.report (e : CorpusError) : Json := failureReport e.label e.message

def OverlayError.report (e : OverlayError) : Json := failureReport e.label e.message

def EditError.report (e : EditError) : Json := failureReport e.label e.message

def LiteralError.report (e : LiteralError) : Json := failureReport e.label e.message

def Failure.report (f : Failure) : Json := failureReport f.label f.message

/-- The callback that an error is about: its extension and its name. -/
def ConfigurationError.place (e : ConfigurationError) : String × Json :=
  ("at", .texts [e.extension, e.callback])

def ConfigurationError.report (e : ConfigurationError) : Json := failureReport e.fault.label e.message

def phaseJson (p : Option Phase) : Json := .option (fun p => .str p.label) p

def messagesJson (ms : List Message) : Json := .texts (ms.map (·.shown))

def BuildError.report (e : BuildError) : Json :=
  let place := match e with
    | .configuration c => [c.place]
    | _ => []
  .object ([("error", .str e.label), ("message", .str e.message), ("phase", phaseJson e.phase?),
    ("flags", .arr [.bool e.isConfiguration, .bool e.isValidation]),
    ("messages", messagesJson e.messages)] ++ place)

end AnnotationWeaver
