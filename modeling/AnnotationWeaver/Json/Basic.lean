import AnnotationWeaver.Decimal.Binary

/-!
JSON values. Members keep their order and may repeat a name; numbers are integers or floating-point
numbers of either width, so that writing loses nothing. `invalid` stands for well-formed text that
denotes no value: a number out of range, an unpaired surrogate, too deep a nesting.
-/
namespace AnnotationWeaver

open Decimal (Binary32 Binary64)

mutual

inductive Json where
  | null
  | bool (b : Bool)
  | int (n : Int)
  | single (x : Binary32)
  | double (x : Binary64)
  | str (s : String)
  | arr (elements : List Json)
  | obj (members : List JsonMember)
  | invalid

/-- A member of an object. -/
structure JsonMember where
  name : String
  value : Json

end

namespace Json

instance : Inhabited Json := ⟨.null⟩

/-- An object with the given members. -/
def object (members : List (String × Json)) : Json :=
  .obj (members.map fun (name, value) => ⟨name, value⟩)

/-- An array of texts. -/
def texts (s : List String) : Json := .arr (s.map .str)

/-- An array of what becomes of the elements of a list. -/
def list {α : Type} (element : α → Json) (xs : List α) : Json := .arr (xs.map element)

/-- A value or `null`. -/
def optional (value : Option Json) : Json := value.getD .null

/-- What becomes of something that may be absent, or `null`. -/
def option {α : Type} (value : α → Json) (x : Option α) : Json := .optional (x.map value)

mutual

/-- No part of the value is `invalid`. -/
def sound (j : Json) : Bool :=
  match j with
  | .invalid => false
  | .arr elements => soundElements elements
  | .obj members => soundMembers members
  | _ => true
termination_by structural j

def soundElements (elements : List Json) : Bool :=
  match elements with
  | [] => true
  | j :: rest => j.sound && soundElements rest
termination_by structural elements

def soundMembers (members : List JsonMember) : Bool :=
  match members with
  | [] => true
  | m :: rest => soundMember m && soundMembers rest
termination_by structural members

def soundMember (m : JsonMember) : Bool :=
  match m with
  | ⟨_, value⟩ => value.sound
termination_by structural m

end

end Json

end AnnotationWeaver
