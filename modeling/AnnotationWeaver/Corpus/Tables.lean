import AnnotationWeaver.Assoc
import AnnotationWeaver.Declaration

/-!
The tables of a corpus. They are filled in one pass over the classes: a class is linked to its supertypes, its
declarations are noted at the types of their annotations, each of its members goes into the table of its kind, and in
the end the class itself is entered by its name.
-/
namespace AnnotationWeaver

/-- What a corpus is looked up in. The last three say what extends a class, what implements or extends an interface, and
    what carries an annotation of a type. -/
structure Tables where
  classes : List (TypeName × ClassDecl)
  methods : List (MethodKey × MethodDecl)
  fields : List (FieldKey × FieldDecl)
  subclasses : List (TypeName × List TypeName)
  implementors : List (TypeName × List TypeName)
  byAnnotation : List (TypeName × List DeclKey)

namespace Tables

def empty : Tables := ⟨[], [], [], [], [], []⟩

/-- Notes a key at the types of annotations, once at each type that was not seen yet. -/
def noteKey (key : DeclKey) : (seen : List TypeName) → List Annotation → List (TypeName × List DeclKey) →
    List (TypeName × List DeclKey)
  | _, [], noted => noted
  | seen, a :: rest, noted =>
    if a.type ∈ seen then noteKey key seen rest noted
    else noteKey key (a.type :: seen) rest (Assoc.push a.type key noted)

/-- Notes a declaration at the types of its annotations. -/
def note (t : Tables) (d : Declaration) : Tables :=
  { t with byAnnotation := noteKey d.key [] d.annotations t.byAnnotation }

/-- Links a class to its superclass and its interfaces. -/
def link (t : Tables) (c : ClassDecl) : Tables :=
  { t with
    subclasses := c.superclass.toList.foldl (fun edges above => Assoc.push above c.name edges) t.subclasses
    implementors := c.interfaces.foldl (fun edges above => Assoc.push above c.name edges) t.implementors }

def enterMethod (t : Tables) (m : MethodDecl) : Tables :=
  let noted := m.parameters.foldl (fun t p => t.note (.parameter p)) (t.note (.method m))
  { noted with methods := Assoc.set m.key m noted.methods }

def enterField (t : Tables) (f : FieldDecl) : Tables :=
  let noted := t.note (.field f)
  { noted with fields := Assoc.set f.key f noted.fields }

def enterClass (t : Tables) (c : ClassDecl) : Tables :=
  let withMethods := c.methods.foldl enterMethod ((t.link c).note (.type c))
  let withMembers := c.fields.foldl enterField withMethods
  { withMembers with classes := Assoc.set c.name c withMembers.classes }

/-- The tables of classes that are entered one after another. -/
def ofClasses (classes : List ClassDecl) : Tables := classes.foldl enterClass empty

end Tables

end AnnotationWeaver
