import AnnotationWeaver.TypeName

/-!
Declared types. `text` is the full form of a type, `erased` its name without type arguments; both
write an array as its component followed by brackets.
-/
namespace AnnotationWeaver

/-- The primitive types. -/
inductive Primitive where
  | boolean | byte | short | int | long | float | double | char
  deriving DecidableEq, Repr

namespace Primitive

def all : List Primitive := [.boolean, .byte, .short, .int, .long, .float, .double, .char]

def keyword : Primitive → String
  | .boolean => "boolean"
  | .byte => "byte"
  | .short => "short"
  | .int => "int"
  | .long => "long"
  | .float => "float"
  | .double => "double"
  | .char => "char"

def ofKeyword? (s : String) : Option Primitive := all.find? (·.keyword == s)

end Primitive

/-- A type as a member or parameter declares it. -/
inductive Ty where
  | void
  | primitive (kind : Primitive)
  | named (name : TypeName)
  | array (component : Ty)
  | parameterized (raw : TypeName) (arguments : List Ty)
  deriving Repr

namespace Ty

instance : Inhabited Ty := ⟨.void⟩

mutual

/-- Equality of types is decidable. -/
def decEq (a b : Ty) : Decidable (a = b) :=
  match a, b with
  | .void, .void => .isTrue rfl
  | .primitive p, .primitive q =>
    if h : p = q then .isTrue (h ▸ rfl) else .isFalse fun e => h (by cases e; rfl)
  | .named n, .named m =>
    if h : n = m then .isTrue (h ▸ rfl) else .isFalse fun e => h (by cases e; rfl)
  | .array s, .array t =>
    match s.decEq t with
    | .isTrue h => .isTrue (h ▸ rfl)
    | .isFalse h => .isFalse fun e => h (by cases e; rfl)
  | .parameterized r ss, .parameterized q ts =>
    if h : r = q then
      match decEqs ss ts with
      | .isTrue h' => .isTrue (h ▸ h' ▸ rfl)
      | .isFalse h' => .isFalse fun e => h' (by cases e; rfl)
    else .isFalse fun e => h (by cases e; rfl)
  | .void, .primitive _ | .void, .named _ | .void, .array _ | .void, .parameterized _ _ => .isFalse nofun
  | .primitive _, .void | .primitive _, .named _ | .primitive _, .array _
  | .primitive _, .parameterized _ _ => .isFalse nofun
  | .named _, .void | .named _, .primitive _ | .named _, .array _ | .named _, .parameterized _ _ =>
    .isFalse nofun
  | .array _, .void | .array _, .primitive _ | .array _, .named _ | .array _, .parameterized _ _ =>
    .isFalse nofun
  | .parameterized _ _, .void | .parameterized _ _, .primitive _ | .parameterized _ _, .named _
  | .parameterized _ _, .array _ => .isFalse nofun
termination_by structural a

def decEqs (ss ts : List Ty) : Decidable (ss = ts) :=
  match ss, ts with
  | [], [] => .isTrue rfl
  | s :: ss, t :: ts =>
    match s.decEq t, decEqs ss ts with
    | .isTrue h, .isTrue h' => .isTrue (h ▸ h' ▸ rfl)
    | .isFalse h, _ => .isFalse fun e => h (by cases e; rfl)
    | _, .isFalse h => .isFalse fun e => h (by cases e; rfl)
  | [], _ :: _ => .isFalse nofun
  | _ :: _, [] => .isFalse nofun
termination_by structural ss

end

instance : DecidableEq Ty := decEq

mutual

/-- The type with its arguments, as declared. -/
def text (t : Ty) : String :=
  match t with
  | .void => "void"
  | .primitive p => p.keyword
  | .named n => n.text
  | .array component => component.text ++ "[]"
  | .parameterized raw arguments => raw.text ++ "<" ++ ", ".intercalate (texts arguments) ++ ">"
termination_by structural t

def texts (ts : List Ty) : List String :=
  match ts with
  | [] => []
  | t :: rest => t.text :: texts rest
termination_by structural ts

end

/-- The name of the type without its arguments. -/
def erased : Ty → TypeName
  | .void => ⟨"void"⟩
  | .primitive p => ⟨p.keyword⟩
  | .named n => n
  | .array component => ⟨component.erased.text ++ "[]"⟩
  | .parameterized raw _ => raw

def component? : Ty → Option Ty
  | .array component => some component
  | _ => none

def isArray (t : Ty) : Bool := t.component?.isSome

/-- The class of a class type, with or without arguments. -/
def className? : Ty → Option TypeName
  | .named n => some n
  | .parameterized raw _ => some raw
  | _ => none

/-- `java.lang.Class` or an array of it. -/
def holdsClasses (t : Ty) : Bool :=
  (t.component?.getD t).className? == some classType

end Ty

end AnnotationWeaver
