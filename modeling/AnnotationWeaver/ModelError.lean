import AnnotationWeaver.Annotation.Basic
import AnnotationWeaver.Text.Escape

/-!
Why a text is no name or keyword, and why values do not make up an array.
-/
namespace AnnotationWeaver

inductive ModelError where
  | invalidTypeName (text : String)
  | unknownPrimitive (text : String)
  | mixedArray (expected : ValueKind) (actual : ValueKind)
  deriving DecidableEq, Repr

/-- The rejected name is quoted as it was given. -/
def ModelError.message : ModelError → String
  | .invalidTypeName text => "invalid type name: " ++ Text.quoted text
  | .unknownPrimitive text => "unknown primitive type: " ++ text
  | .mixedArray expected actual => "array of " ++ expected.label ++ " contains a " ++ actual.label ++ " element"

/-- The valid name that a text holds between blanks. -/
def TypeName.parse (text : String) : Except ModelError TypeName :=
  match parse? text with
  | some n => .ok n
  | none => .error (.invalidTypeName text)

/-- The primitive type with a keyword. -/
def Primitive.parse (text : String) : Except ModelError Primitive :=
  match ofKeyword? text with
  | some p => .ok p
  | none => .error (.unknownPrimitive text)

/-- The array of elements that are all of one kind. -/
def Value.arrayOf (component : ValueKind) (elements : List Value) : Except ModelError Value :=
  match elements.find? (·.kind != component) with
  | some bad => .error (.mixedArray component bad.kind)
  | none => .ok (.array component elements)

end AnnotationWeaver
