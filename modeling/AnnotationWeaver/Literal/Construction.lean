import AnnotationWeaver.Annotation.Basic

/-!
Constructions: how a value is built when the generated program runs. A construction is a constant, a
reference, or a container built from the constructions of its parts.
-/
namespace AnnotationWeaver

open Decimal (Binary32 Binary64)

/-- A value that is written into the program as it stands. -/
inductive Constant where
  | boolean (b : Bool)
  | byte (n : Int8)
  | short (n : Int16)
  | int (n : Int32)
  | long (n : Int64)
  | float (x : Binary32)
  | double (x : Binary64)
  | char (c : Char)
  | string (s : String)
  deriving DecidableEq, Repr

/-- The component kinds whose empty arrays exist once for all uses. -/
inductive EmptyArray where
  | primitive (kind : Primitive)
  | string
  | classes
  deriving DecidableEq, Repr

namespace EmptyArray

/-- The shared empty array of a component type, if there is one. -/
def ofComponent? : Ty → Option EmptyArray
  | .primitive p => some (.primitive p)
  | t =>
    if t.className? = some stringType then some .string
    else if t.className? = some classType then some .classes
    else none

def label : EmptyArray → String
  | .primitive p => p.keyword
  | .string => "string"
  | .classes => "class"

/-- The name of the constant that holds the array. -/
def constantName (e : EmptyArray) : String := "EMPTY_" ++ e.label.toUpper ++ "_ARRAY"

end EmptyArray

/-- How a value is built. -/
inductive Construction where
  | const (value : Constant)
  | enumConstant (type : TypeName) (constant : String)
  | loadClass (name : TypeName)
  | staticField (owner : TypeName) (field : String) (type : Ty)
  | newArray (component : Ty) (elements : List Construction)
  | emptyArray (kind : EmptyArray)
  | newInstance (name : TypeName) (constructor : List Ty) (arguments : List Construction)

namespace Construction

instance : Inhabited Construction := ⟨.const (.boolean false)⟩

/-- The class of which an instance is made, and the number of its arguments. -/
def instantiated? : Construction → Option (TypeName × Nat)
  | .newInstance name _ arguments => some (name, arguments.length)
  | _ => none

end Construction

end AnnotationWeaver
