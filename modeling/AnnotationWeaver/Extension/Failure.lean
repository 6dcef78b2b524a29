import AnnotationWeaver.EditLog.Basic
import AnnotationWeaver.Extension.Role

/-!
Why a callback gives up.
-/
namespace AnnotationWeaver

inductive Failure where
  | text (s : String)
  | overlay (e : OverlayError)
  | edit (e : EditError)
  /-- The callback did not declare the parameter that it uses. -/
  | undeclared (extension : String) (callback : String) (role : Role)
  deriving DecidableEq, Repr

def Failure.message : Failure → String
  | .text s => s
  | .overlay e => e.message
  | .edit e => e.message
  | .undeclared extension callback role =>
    extension ++ "::" ++ callback ++ " did not declare a " ++ role.text ++ " parameter"

end AnnotationWeaver
