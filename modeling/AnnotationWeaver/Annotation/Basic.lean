import AnnotationWeaver.Decimal.Binary
import AnnotationWeaver.Ty

/-!
Annotations and the values of their members. An annotation has a type and named members; setting a
member again replaces its value and keeps its place. Two annotations are the same (`==`) when they
have the same type and the same members, in whatever order, at every depth; floating-point values
are the same when their bits are, and arrays when their component kinds and elements are.
-/
namespace AnnotationWeaver

open Decimal (Binary32 Binary64)

/-- The kinds of values. -/
inductive ValueKind where
  | boolean | byte | short | int | long | float | double | char | string
  | enumConstant | classLiteral | nested | array
  deriving DecidableEq, Repr

namespace ValueKind

def all : List ValueKind :=
  [.boolean, .byte, .short, .int, .long, .float, .double, .char, .string, .enumConstant,
    .classLiteral, .nested, .array]

def label : ValueKind → String
  | .boolean => "boolean"
  | .byte => "byte"
  | .short => "short"
  | .int => "int"
  | .long => "long"
  | .float => "float"
  | .double => "double"
  | .char => "char"
  | .string => "string"
  | .enumConstant => "enum"
  | .classLiteral => "class"
  | .nested => "nested"
  | .array => "array"

/-- The kind of the values of a primitive type. -/
def ofPrimitive : Primitive → ValueKind
  | .boolean => .boolean
  | .byte => .byte
  | .short => .short
  | .int => .int
  | .long => .long
  | .float => .float
  | .double => .double
  | .char => .char

end ValueKind

mutual

/-- The value of an annotation member. -/
inductive Value where
  | boolean (b : Bool)
  | byte (n : Int8)
  | short (n : Int16)
  | int (n : Int32)
  | long (n : Int64)
  | float (x : Binary32)
  | double (x : Binary64)
  | char (c : Char)
  | string (s : String)
  | enumConstant (type : TypeName) (constant : String)
  | classLiteral (type : Ty)
  | nested (a : Annotation)
  | array (component : ValueKind) (elements : List Value)

/-- An annotation: its type and the members that are set, in the order they were first set. -/
structure Annotation where
  type : TypeName
  members : List Member

/-- A member and its value. -/
structure Member where
  name : String
  value : Value

end

/-- The name of the member that is meant where none is named. -/
def valueMember : String := "value"

/-- The value of the first member with a name. -/
def Member.lookup? (members : List Member) (name : String) : Option Value :=
  (members.find? (·.name == name)).map (·.value)

/-- The members with one of them set: in its place if it is there, else at the end. -/
def Member.set (name : String) (value : Value) : List Member → List Member
  | [] => [⟨name, value⟩]
  | m :: rest => if m.name = name then ⟨name, value⟩ :: rest else m :: set name value rest

namespace Annotation

/-- The annotation of a type without members. -/
def marker (type : TypeName) : Annotation := ⟨type, []⟩

/-- The annotation with one member set. -/
def set (a : Annotation) (name : String) (value : Value) : Annotation :=
  ⟨a.type, Member.set name value a.members⟩

/-- The annotation of a type with members set one after the other. -/
def ofList (type : TypeName) (members : List (String × Value)) : Annotation :=
  members.foldl (fun a (name, value) => a.set name value) (marker type)

def value? (a : Annotation) (name : String) : Option Value := Member.lookup? a.members name

/-- No member is set. -/
def isMarker (a : Annotation) : Bool := a.members.isEmpty

end Annotation

namespace Value

def kind : Value → ValueKind
  | .boolean _ => .boolean
  | .byte _ => .byte
  | .short _ => .short
  | .int _ => .int
  | .long _ => .long
  | .float _ => .float
  | .double _ => .double
  | .char _ => .char
  | .string _ => .string
  | .enumConstant _ _ => .enumConstant
  | .classLiteral _ => .classLiteral
  | .nested _ => .nested
  | .array _ _ => .array

def string? : Value → Option String
  | .string s => some s
  | _ => none

def nested? : Value → Option Annotation
  | .nested a => some a
  | _ => none

def elements? : Value → Option (List Value)
  | .array _ elements => some elements
  | _ => none

end Value

mutual

/-- Values are the same up to the order of members. -/
def Value.same (v w : Value) : Bool :=
  match v, w with
  | .boolean a, .boolean b => a == b
  | .byte a, .byte b => a == b
  | .short a, .short b => a == b
  | .int a, .int b => a == b
  | .long a, .long b => a == b
  | .float a, .float b => a == b
  | .double a, .double b => a == b
  | .char a, .char b => a == b
  | .string a, .string b => a == b
  | .enumConstant s a, .enumConstant t b => s == t && a == b
  | .classLiteral s, .classLiteral t => s == t
  | .nested a, .nested b => a.same b
  | .array c xs, .array d ys => c == d && Value.sameAll xs ys
  | _, _ => false
termination_by structural v

def Value.sameAll (vs ws : List Value) : Bool :=
  match vs, ws with
  | [], [] => true
  | v :: vs, w :: ws => v.same w && Value.sameAll vs ws
  | _, _ => false
termination_by structural vs

/-- Annotations are the same up to the order of members. -/
def Annotation.same (a b : Annotation) : Bool :=
  match a with
  | ⟨type, members⟩ => type == b.type && Member.sameAll members b.members
termination_by structural a

/-- The members are the others in some order. -/
def Member.sameAll (members others : List Member) : Bool :=
  match members with
  | [] => others.isEmpty
  | m :: rest =>
    others.any (fun other => m.same other) && Member.sameAll rest (others.eraseP fun other => m.same other)
termination_by structural members

def Member.same (m other : Member) : Bool :=
  match m with
  | ⟨name, value⟩ => name == other.name && value.same other.value
termination_by structural m

end

instance : BEq Value := ⟨fun v w => v.same w⟩

instance : BEq Annotation := ⟨fun a b => a.same b⟩

end AnnotationWeaver
