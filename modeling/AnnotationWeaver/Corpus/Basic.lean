import AnnotationWeaver.Corpus.Tables
import AnnotationWeaver.Text.Escape

/-!
The corpus: all declarations of an application, looked up by key, by annotation and by package. A
list of classes is accepted if every class name is valid and no class, no method of a class and no
field of a class is given twice; `Corpus.ofOutlines` says which rule the first unfit class breaks, and
otherwise fills the tables that answer. `sorted` is the order of the classes by name. A package is
looked up in a table of the names, as the text of its name and the dot that has to follow.
-/
namespace AnnotationWeaver

/-- Why a list of classes is no corpus. -/
inductive CorpusError where
  | duplicateClass (name : TypeName)
  | duplicateMethod (key : MethodKey)
  | duplicateField (key : FieldKey)
  | invalidName (text : String)
  deriving DecidableEq, Repr

def CorpusError.message : CorpusError → String
  | .duplicateClass name => "duplicate class: " ++ name.text
  | .duplicateMethod key => "duplicate method: " ++ key.text
  | .duplicateField key => "duplicate field: " ++ key.text
  | .invalidName text => "invalid class name: " ++ Text.quoted text

/-- The first element that is in the list or stands earlier in the row. -/
def firstRepeat? {α : Type} [DecidableEq α] : (seen : List α) → List α → Option α
  | _, [] => none
  | seen, x :: rest => if x ∈ seen then some x else firstRepeat? (x :: seen) rest

/-- What a class breaks by itself: its name, then its methods, then its fields. -/
def ClassDecl.error? (c : ClassDecl) : Option CorpusError :=
  if c.name.isValid then
    match firstRepeat? [] (c.methods.map (·.key)) with
    | some key => some (.duplicateMethod key)
    | none => (firstRepeat? [] (c.fields.map (·.key))).map .duplicateField
  else some (.invalidName c.name.text)

/-- What the first unfit class breaks, given the names of the classes before. -/
def corpusError? : (seen : List TypeName) → List ClassDecl → Option CorpusError
  | _, [] => none
  | seen, c :: rest =>
    match c.error? with
    | some e => some e
    | none => if c.name ∈ seen then some (.duplicateClass c.name) else corpusError? (c.name :: seen) rest

/-- The declarations of an application: classes that are accepted, and the tables that they were entered into. -/
structure Corpus where
  outlines : List ClassOutline
  classes : List ClassDecl
  tables : Tables := .ofClasses classes
  declared : classes = outlines.map (·.declare)
  accepted : corpusError? [] classes = none
  filled : tables = .ofClasses classes := by rfl

/-- The corpus of a list of classes. -/
def Corpus.ofOutlines (outlines : List ClassOutline) : Except CorpusError Corpus :=
  let classes := outlines.map (·.declare)
  match h : corpusError? [] classes with
  | none => .ok { outlines, classes, declared := rfl, accepted := h }
  | some e => .error e

namespace Corpus

/-- The corpus without classes. -/
def empty : Corpus := { outlines := [], classes := [], declared := rfl, accepted := rfl }

instance : Inhabited Corpus := ⟨empty⟩

/-- The classes in the order of their names. -/
def sorted (c : Corpus) : List ClassDecl := (c.tables.classes.map (·.2)).mergeSort fun a b => a.name.le b.name

def methods (c : Corpus) : List MethodDecl := c.sorted.flatMap (·.methods)

def fields (c : Corpus) : List FieldDecl := c.sorted.flatMap (·.fields)

/-- Every declaration, class by class in the order given. -/
def declarations (c : Corpus) : List Declaration := c.classes.flatMap (·.declarations)

def class? (c : Corpus) (name : TypeName) : Option ClassDecl := Assoc.find? name c.tables.classes

def hasClass (c : Corpus) (name : TypeName) : Bool := (c.class? name).isSome

def method? (c : Corpus) (key : MethodKey) : Option MethodDecl := Assoc.find? key c.tables.methods

def field? (c : Corpus) (key : FieldKey) : Option FieldDecl := Assoc.find? key c.tables.fields

def parameter? (c : Corpus) (key : ParamKey) : Option ParamDecl :=
  (c.method? key.method).bind fun m => m.parameters[key.position.toNat]?

/-- The declaration with a key. -/
def find? (c : Corpus) : DeclKey → Option Declaration
  | .type name => (c.class? name).map .type
  | .method key => (c.method? key).map .method
  | .field key => (c.field? key).map .field
  | .parameter key => (c.parameter? key).map .parameter

def contains (c : Corpus) (key : DeclKey) : Bool := (c.find? key).isSome

/-- The annotations that stand at a declaration; an absent one has none. -/
def declaredAnnotations (c : Corpus) (key : DeclKey) : List Annotation :=
  ((c.find? key).map (·.annotations)).getD []

/-- The declarations that carry an annotation of a type themselves. -/
def annotatedWith (c : Corpus) (type : TypeName) : List DeclKey := Assoc.listed type c.tables.byAnnotation

/-- The classes whose names start with a text, by name. -/
def startingWith (c : Corpus) (text : String) : List ClassDecl :=
  c.sorted.filter fun d => text.toList.isPrefixOf d.name.chars

/-- The annotation type applies to subclasses: it is in the corpus and says so. -/
def isInherited (c : Corpus) (type : TypeName) : Bool :=
  match c.class? type with
  | some d => d.declares inheritedType
  | none => false

end Corpus

/-- A table of the classes of a corpus. Below a text it lists classes in the order of their names, and among them all
    whose names start with the text; where there is none of these it may have no list at all. -/
structure NameTable (c : Corpus) where
  below? : String → Option (List ClassDecl)
  ordered : ∀ text found, below? text = some found → found.Sublist c.sorted
  complete : ∀ text, ∀ d ∈ c.sorted, text.toList <+: d.name.chars → ∃ found, below? text = some found ∧ d ∈ found

namespace Corpus

/-- The table that lists nothing but the classes whose names start with the text. -/
def nameTable (c : Corpus) : NameTable c where
  below? text := if (c.startingWith text).isEmpty then none else some (c.startingWith text)
  ordered := by
    intro text found listed
    split at listed
    · cases listed
    · cases listed
      exact List.filter_sublist
  complete := by
    intro text d member start
    have listed : d ∈ c.startingWith text :=
      List.mem_filter.2 ⟨member, List.isPrefixOf_iff_prefix.2 start⟩
    have something : ¬(c.startingWith text).isEmpty = true := by
      rw [List.isEmpty_iff]
      exact List.ne_nil_of_mem listed
    exact ⟨_, if_neg something, listed⟩

/-- The classes that a table has in a package and in the packages inside it, by name; the empty package has all of
    them. What the table lists is looked through once more, as it may list others beside. -/
def classesBy (c : Corpus) (table : NameTable c) (package : String) : List ClassDecl :=
  if package = "" then c.sorted
  else
    match table.below? (package ++ ".") with
    | some found => found.filter (·.name.isInPackage package)
    | none => []

/-- The classes of a package and of the packages inside it, by name. -/
def classesIn (c : Corpus) (package : String) : List ClassDecl := c.classesBy c.nameTable package

end Corpus

end AnnotationWeaver
