import AnnotationWeaver.Json.Basic
import AnnotationWeaver.Json.Reader

/-!
Taking JSON values apart. A record is an object that names each of its members once, in any order and
among others, or, unless it has no array form, an array that lists all of them in order. A choice is
named by a label; where the choice decides what the rest means, label and rest are members of one
object, in either order, or the label is the first element of an array. A value that came before its
label was held back and is looked at again later: inside such a value the label among other members
or at the head of an array may also be given by its number.
-/
namespace AnnotationWeaver.Json

def string? : Json → Option String
  | .str s => some s
  | _ => none

def bool? : Json → Option Bool
  | .bool b => some b
  | _ => none

/-- An integer between two bounds. -/
def within? (least greatest : Int) : Json → Option Int
  | .int n => if least ≤ n ∧ n ≤ greatest then some n else none
  | _ => none

def int8? (j : Json) : Option Int8 := (j.within? Int8.minValue.toInt Int8.maxValue.toInt).map Int8.ofInt
def int16? (j : Json) : Option Int16 := (j.within? Int16.minValue.toInt Int16.maxValue.toInt).map Int16.ofInt
def int32? (j : Json) : Option Int32 := (j.within? Int32.minValue.toInt Int32.maxValue.toInt).map Int32.ofInt
def int64? (j : Json) : Option Int64 := (j.within? Int64.minValue.toInt Int64.maxValue.toInt).map Int64.ofInt
def uint16? (j : Json) : Option UInt16 := (j.within? 0 (UInt16.size - 1 : Nat)).map fun n => UInt16.ofNat n.toNat

/-- A text of exactly one character. -/
def char? : Json → Option Char
  | .str s => match s.toList with
    | [c] => some c
    | _ => none
  | _ => none

/-- The 64-bit number nearest to a number. -/
def binary64? : Json → Option Decimal.Binary64
  | .int n => some (.nearest (n < 0) n.natAbs 1)
  | .double x => some x
  | _ => none

/-- The 32-bit number nearest to a number. -/
def binary32? : Json → Option Decimal.Binary32
  | .int n => some (.nearest (n < 0) n.natAbs 1)
  | .double x => some x.narrow
  | _ => none

/-- The elements of an array, each taken apart. -/
def list? {α : Type} (element : Json → Option α) : Json → Option (List α)
  | .arr elements => elements.mapM element
  | _ => none

/-- The value of the member with a name, if there is one; two are an error. -/
def member? (members : List JsonMember) (name : String) : Option (Option Json) :=
  match members.filter (·.name == name) with
  | [] => some none
  | [m] => some (some m.value)
  | _ => none

/-- The members of a record that has no array form, in the order of their names. -/
def members? (names : List String) : Json → Option (List (Option Json))
  | .obj members => names.mapM (member? members)
  | _ => none

/-- The members of a record, in the order of their names. -/
def record? (names : List String) : Json → Option (List (Option Json))
  | .arr elements => if elements.length = names.length then some (elements.map some) else none
  | j => j.members? names

/-- The members of a record whose last members may be left out of the array form. -/
def partialRecord? (names : List String) : Json → Option (List (Option Json))
  | .arr elements =>
    if elements.length ≤ names.length then
      some (elements.map some ++ List.replicate (names.length - elements.length) none)
    else none
  | j => j.members? names

/-- A member that may be missing or `null`. -/
def optional? {α : Type} (value : Json → Option α) : Option Json → Option (Option α)
  | none => some none
  | some .null => some none
  | some j => (value j).map some

/-- A member that has a default. -/
def orElse? {α : Type} (value : Json → Option α) (default : α) : Option Json → Option α
  | none => some default
  | some j => value j

/-- The number of the label that a value names. -/
def label? (held : Bool) (labels : List String) : Json → Option Nat
  | .str s => labels.idxOf? s
  | .int n => if held ∧ 0 ≤ n ∧ n.toNat < labels.length then some n.toNat else none
  | _ => none

/-- The number of a label that stands alone, or is the name of the one, empty, member of an object. -/
def choice? (held : Bool) (labels : List String) : Json → Option Nat
  | .str s => labels.idxOf? s
  | .obj [⟨name, .null⟩] => labels.idxOf? name
  | .obj [⟨name, .obj []⟩] => if held then labels.idxOf? name else none
  | _ => none

/-- What a label and the content beside it are: the label's number, the content, and whether the
    content was held back. A label at the head of an array is not given as an object. -/
def tagged? (held : Bool) (tag content : String) (labels : List String) :
    Json → Option (Nat × Json × Bool)
  | .obj members =>
    match members.filter fun m => m.name == tag || m.name == content with
    | [a, b] =>
      if a.name == tag && b.name == content then
        (choice? held labels a.value).map fun i => (i, b.value, held)
      else if a.name == content && b.name == tag && a.value.sound then
        (choice? held labels b.value).map fun i => (i, a.value, true)
      else none
    | _ => none
  | .arr [t, c] => (label? held labels t).map fun i => (i, c, held)
  | _ => none

/-- What a label and the other members of the same object are; these are held back. -/
def inlineTagged? (held : Bool) (tag : String) (labels : List String) : Json → Option (Nat × Json)
  | .obj members =>
    let others := members.filter (·.name != tag)
    match members.filter (·.name == tag) with
    | [t] =>
      if soundMembers others then (label? held labels t.value).map fun i => (i, .obj others) else none
    | _ => none
  | .arr (t :: rest) =>
    if soundElements rest then (label? held labels t).map fun i => (i, .arr rest) else none
  | _ => none

end AnnotationWeaver.Json
