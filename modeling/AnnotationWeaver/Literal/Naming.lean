import AnnotationWeaver.Annotation.Text
import AnnotationWeaver.Hash.Digest

/-!
Names of literal classes. A shared literal class is named after its annotation type and stands in its
package; a one-off literal class is named after the annotation and the digest of its canonical text,
which sorts the outermost members, and stands in the package that asks for it. No class is put into
`java.lang`: the generated package takes its place.
-/
namespace AnnotationWeaver.Literal

/-- How the name of every literal class ends. -/
def nameEnd : String := "_AnnotationLiteral"

def sharedMark : String := "_Shared"

/-- The package of what has no other place. -/
def defaultGeneratedPackage : String := "anvil.generated"

/-- What every literal class extends. -/
def superclass : TypeName := ⟨"anvil.runtime.AnnotationLiteral"⟩

/-- `java.lang` and the packages inside it take no new classes. -/
def isProtected (package : String) : Bool := package == "java.lang" || startsWithPackage "java.lang" package

/-- The name of the literal class that all annotations of a type share. -/
def sharedName (type : TypeName) (generatedPackage : String) : TypeName :=
  let base := if type.isJavaLang then generatedPackage ++ "." ++ type.simple else type.text
  ⟨base ++ sharedMark ++ nameEnd⟩

/-- The members in the order of their names. -/
def sortedMembers (a : Annotation) : List Member :=
  a.members.mergeSort fun m n => decide (m.name ≤ n.name)

/-- The text whose digest tells an annotation from others of its type. -/
def canonicalText (a : Annotation) : String :=
  "@" ++ a.type.text ++ "(" ++ ", ".intercalate (Member.texts (sortedMembers a)) ++ ")"

/-- The digest that the name of a one-off class holds. -/
def annotationDigest (a : Annotation) : String := digest (canonicalText a)

/-- The name of the literal class of one annotation. -/
def oneOffName (a : Annotation) (targetPackage generatedPackage : String) : TypeName :=
  let package := if isProtected targetPackage then generatedPackage else targetPackage
  let simple := a.type.simple ++ annotationDigest a ++ nameEnd
  if package = "" then ⟨simple⟩ else ⟨package ++ "." ++ simple⟩

/-- The static field that holds the default of a member. -/
def defaultField (member : String) : String := member ++ "_default_value"

/-- The generic signature of a literal class. -/
def signature (type : TypeName) : String :=
  "L" ++ superclass.internal ++ "<L" ++ type.internal ++ ";>;L" ++ type.internal ++ ";"

end AnnotationWeaver.Literal
