import AnnotationWeaver.Json.Basic
import AnnotationWeaver.Text.Base32
import AnnotationWeaver.TypeName

/-!
Build ids and the name of the class that holds the components of a build.
-/
namespace AnnotationWeaver

structure BuildId where
  text : String
  deriving DecidableEq, Repr

/-- The id of a number of 128 bits: 26 digits of base 32. -/
def BuildId.ofNumber (n : Nat) : BuildId := ⟨String.ofList (Text.base32 26 n)⟩

def BuildId.toJson (id : BuildId) : Json := .str id.text

/-- The name of the class that holds the synthetic components of a build. -/
def componentsName (package : String) (id : BuildId) : TypeName :=
  ⟨package ++ ".SyntheticComponents_" ++ id.text⟩

end AnnotationWeaver
