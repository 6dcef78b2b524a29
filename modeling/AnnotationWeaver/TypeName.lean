import AnnotationWeaver.Text.Blank

/-!
Fully qualified names. A name is a text cut into segments by its dots: the last segment is the
simple name and what stands before the last dot is the package. A name is valid if no segment is
empty; names need not be valid to be used.
-/
namespace AnnotationWeaver

/-- The name of a class, interface, enum or annotation type. -/
structure TypeName where
  text : String
  deriving DecidableEq, Repr

/-- The pieces between the dots; there is always one. -/
def splitDots : List Char → List (List Char)
  | [] => [[]]
  | c :: rest =>
    if c = '.' then [] :: splitDots rest
    else
      match splitDots rest with
      | first :: others => (c :: first) :: others
      | [] => [[c]]

/-- Pieces put together with dots between them. -/
def joinDots : List (List Char) → List Char
  | [] => []
  | [piece] => piece
  | piece :: others => piece ++ '.' :: joinDots others

/-- `text` starts with `package` and a dot. -/
def startsWithPackage (package text : String) : Bool :=
  (package.toList ++ ['.']).isPrefixOf text.toList

namespace TypeName

instance : Inhabited TypeName := ⟨⟨""⟩⟩

/-- The text as characters. -/
def chars (n : TypeName) : List Char := n.text.toList

def ofChars (s : List Char) : TypeName := ⟨String.ofList s⟩

def segments (n : TypeName) : List String := (splitDots n.chars).map String.ofList

/-- What stands before the last dot; empty without a dot. -/
def package (n : TypeName) : String := String.ofList (joinDots (splitDots n.chars).dropLast)

/-- What stands after the last dot. -/
def simple (n : TypeName) : String := String.ofList ((splitDots n.chars).getLastD [])

/-- The package contains the name, directly or in a package inside it; the empty package contains
    every name. -/
def isInPackage (n : TypeName) (package : String) : Bool :=
  package == "" || startsWithPackage package n.text

def isJavaLang (n : TypeName) : Bool := n.isInPackage "java.lang"

/-- No segment is empty. -/
def isValid (n : TypeName) : Bool := (splitDots n.chars).all fun s => !s.isEmpty

/-- The valid name that a text holds between blanks. -/
def parse? (text : String) : Option TypeName :=
  let n := ofChars (Text.trim text.toList)
  if n.isValid then some n else none

/-- The order of names by their code points. -/
def le (a b : TypeName) : Bool := decide (a.text ≤ b.text)

/-- The name with slashes for its dots. -/
def internal (n : TypeName) : String :=
  String.ofList (n.chars.map fun c => if c = '.' then '/' else c)

end TypeName

/-- The type of class literals. -/
def classType : TypeName := ⟨"java.lang.Class"⟩

/-- The type of strings. -/
def stringType : TypeName := ⟨"java.lang.String"⟩

/-- The annotation type that makes another one apply to subclasses. -/
def inheritedType : TypeName := ⟨"java.lang.annotation.Inherited"⟩

end AnnotationWeaver
