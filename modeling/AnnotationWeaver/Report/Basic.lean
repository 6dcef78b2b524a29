import AnnotationWeaver.Annotation.Text
import AnnotationWeaver.AnnotationSet
import AnnotationWeaver.Json.Basic
import AnnotationWeaver.Key

/-!
Reports: what people are told of a result. A report is JSON in which names, keys and annotations stand
as their texts.
-/
namespace AnnotationWeaver

/-- A failure: the label of its cause, and its message. -/
def failureReport (label message : String) : Json :=
  .object [("error", .str label), ("message", .str message)]

def countJson (n : Nat) : Json := .int n

/-- The texts of type names. -/
def namesJson (names : List TypeName) : Json := .texts (names.map (·.text))

/-- The texts of the keys that a search found. -/
def keysJson (keys : List DeclKey) : Json := .texts (keys.map (·.text))

def annotationTexts (xs : List Annotation) : Json := .texts (xs.map (·.text))

/-- The ids that a search in the deployment found. -/
def foundJson (ids : List String) : Json :=
  .object [("ids", .texts ids), ("empty", .bool ids.isEmpty)]

/-- The texts of the annotations of a set. -/
def AnnotationSet.json (s : AnnotationSet) : Json := annotationTexts s.entries

end AnnotationWeaver
