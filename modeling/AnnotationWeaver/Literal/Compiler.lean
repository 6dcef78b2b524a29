import AnnotationWeaver.Annotation.Nesting
import AnnotationWeaver.Corpus.Basic
import AnnotationWeaver.Literal.LiteralClass

/-!
The literal compiler turns annotations into constructions. With sharing, an annotation is an instance
of the shared class of its type, which is prepared when the type is first met, and the values of the
members are the arguments; without, a class is written for the annotation alone. A member without a
value has its default. Values have to fit the types of their members. Nested annotations are compiled
in the same way, and a default that holds an annotation of its own type has no end; such nesting is an
error. What was prepared and written stays when a later part of an annotation fails.
-/
namespace AnnotationWeaver

inductive LiteralError where
  | missingValue (type : TypeName) (member : String)
  | missingNestedClass (nested : String)
  | missingClass (type : TypeName)
  | mismatch (expected : TypeName) (actual : TypeName)
  | unsupportedValue (type : TypeName) (member : String) (value : String)
  | endlessNesting (type : TypeName)
  deriving DecidableEq, Repr

def LiteralError.message : LiteralError → String
  | .missingValue type member =>
    "value is not set for " ++ type.text ++ "." ++ member
      ++ "(); the annotation metadata is stale or inconsistent"
  | .missingNestedClass nested => "class of nested annotation " ++ nested ++ " missing"
  | .missingClass type => "annotation class not available: " ++ type.text
  | .mismatch expected actual =>
    "annotation instance of " ++ actual.text ++ " does not match annotation class " ++ expected.text
  | .unsupportedValue type member value =>
    "unsupported value for " ++ type.text ++ "." ++ member ++ "(): " ++ value
  | .endlessNesting type => "annotation " ++ type.text ++ " is nested without end"

/-- What a compiler is set up with. -/
structure LiteralSettings where
  corpus : Corpus
  shared : Bool
  generatedPackage : String
  isApplication : TypeName → Bool

/-- What a compiler has done: the shared literals in the order in which they were first met, the
    classes that were written, and counts. -/
structure LiteralState where
  literals : List Literal
  written : List LiteralClass
  oneOffs : Nat
  materialized : Nat

def LiteralState.initial : LiteralState := ⟨[], [], 0, 0⟩

/-- A compilation: the state is kept on failure. -/
abbrev Compilation (α : Type) : Type := ExceptT LiteralError (StateM LiteralState) α

namespace LiteralState

def literal? (s : LiteralState) (type : TypeName) : Option Literal := s.literals.find? (·.type == type)

/-- The shared classes, apart from those that exist already. -/
def generate (s : LiteralState) (existing : List TypeName) : List LiteralClass :=
  (s.literals.filter fun l => !existing.contains l.name).map (·.sharedClass)

end LiteralState

/-- A value can be what a member of the type returns, or an element of it. -/
def Value.fits (v : Value) (expected : Ty) : Bool :=
  match expected with
  | .primitive p => v.kind == .ofPrimitive p
  | _ =>
    match expected.className? with
    | none => false
    | some name =>
      match v with
      | .string _ => name == stringType
      | .classLiteral _ => name == classType
      | .enumConstant type _ => type == name
      | .nested a => a.type == name
      | _ => false

/-- The value of a member: the explicit one, else its default. -/
def Annotation.effectiveValue? (a : Annotation) (m : MethodDecl) : Option Value :=
  match a.value? m.name with
  | some v => some v
  | none => m.default?

namespace Literal

def unsupported (l : Literal) (m : MethodDecl) (v : Value) : LiteralError :=
  .unsupportedValue l.type m.name v.text

/-- How a value that is no array is built; `nested` compiles an annotation inside it. -/
def loadScalar (nested : Annotation → Compilation Construction) (l : Literal) (m : MethodDecl)
    (expected : Ty) (v : Value) : Compilation Construction :=
  if v.fits expected then
    match v with
    | .boolean b => pure (.const (.boolean b))
    | .byte n => pure (.const (.byte n))
    | .short n => pure (.const (.short n))
    | .int n => pure (.const (.int n))
    | .long n => pure (.const (.long n))
    | .float x => pure (.const (.float x))
    | .double x => pure (.const (.double x))
    | .char c => pure (.const (.char c))
    | .string s => pure (.const (.string s))
    | .enumConstant type constant => pure (.enumConstant type constant)
    | .classLiteral type => pure (.loadClass type.erased)
    | .nested a => nested a
    | .array _ _ => throw (l.unsupported m v)
  else throw (l.unsupported m v)

/-- The value is the default of a member whose default is kept in a static field. -/
def readsStatic (m : MethodDecl) (v : Value) : Bool :=
  m.returns.holdsClasses && m.default?.any (· == v)

/-- How the value of a member is built. -/
def loadValue (nested : Annotation → Compilation Construction) (l : Literal) (m : MethodDecl) (v : Value) :
    Compilation Construction :=
  if readsStatic m v then pure (.staticField l.name (defaultField m.name) m.returns)
  else
    match v, m.returns.component? with
    | .array _ [], some component =>
      pure <| match EmptyArray.ofComponent? component with
        | some kind => .emptyArray kind
        | none => .newArray component []
    | .array _ elements, some component => do
      let built ← elements.mapM (l.loadScalar nested m component)
      return .newArray component built
    | .array _ _, none => throw (l.unsupported m v)
    | _, some _ => throw (l.unsupported m v)
    | _, none => l.loadScalar nested m m.returns v

/-- How the member of an annotation is built. -/
def loadMember (nested : Annotation → Compilation Construction) (l : Literal) (a : Annotation)
    (m : MethodDecl) : Compilation Construction :=
  match a.effectiveValue? m with
  | some v => l.loadValue nested m v
  | none => throw (.missingValue l.type m.name)

end Literal

namespace LiteralSettings

/-- The shared literal of an annotation type, as its declaration is when the type is first met. -/
def prepare (c : LiteralSettings) (d : ClassDecl) : Literal :=
  ⟨Literal.sharedName d.name c.generatedPackage, c.isApplication d.name, d⟩

/-- The shared literal of a type, prepared now if it was not before. -/
def sharedLiteral (c : LiteralSettings) (d : ClassDecl) : Compilation Literal := do
  let s ← get
  match s.literal? d.name with
  | some l => return l
  | none =>
    let l := c.prepare d
    set { s with literals := s.literals ++ [l] }
    return l

/-- An instance of the shared class. -/
def construct (c : LiteralSettings) (nested : Annotation → Compilation Construction) (d : ClassDecl)
    (a : Annotation) : Compilation Construction := do
  let l ← c.sharedLiteral d
  let arguments ← l.members.mapM (l.loadMember nested a)
  return .newInstance l.name l.constructor arguments

/-- An instance of a class that is written for the annotation. -/
def constructOneOff (c : LiteralSettings) (nested : Annotation → Compilation Construction) (d : ClassDecl)
    (a : Annotation) (targetPackage : String) : Compilation Construction := do
  let l : Literal := ⟨Literal.oneOffName a targetPackage c.generatedPackage, false, d⟩
  let values ← l.members.mapM (l.loadMember nested a)
  modify fun s => { s with written := s.written ++ [l.oneOffClass values], oneOffs := s.oneOffs + 1 }
  return .newInstance l.name [] []

/-- One step of compilation: `nested` compiles the annotations inside. -/
def materializeWith (c : LiteralSettings) (d : ClassDecl) (a : Annotation) (targetPackage : String)
    (nested : Annotation → Compilation Construction) : Compilation Construction := do
  if d.name ≠ a.type then throw (.mismatch d.name a.type)
  modify fun s => { s with materialized := s.materialized + 1 }
  if c.shared then c.construct nested d a else c.constructOneOff nested d a targetPackage

/-- Compiles annotations that are nested no deeper than the first argument says. A nested annotation
    is compiled for the package of its type. -/
def materializeWithin (c : LiteralSettings) :
    (depth : Nat) → ClassDecl → Annotation → String → Compilation Construction
  | 0, _, a, _ => throw (.endlessNesting a.type)
  | depth + 1, d, a, targetPackage =>
    c.materializeWith d a targetPackage fun inner =>
      match c.corpus.class? inner.type with
      | some inside => c.materializeWithin depth inside inner inner.type.package
      | none => throw (.missingNestedClass inner.text)

/-- The defaults of a class. -/
def defaults (d : ClassDecl) : List Value := d.methods.filterMap (·.default?)

/-- More steps inward than this pass the same annotation twice, and so have no end. -/
def depthBound (c : LiteralSettings) (s : LiteralState) (d : ClassDecl) (a : Annotation) : Nat :=
  a.nestedCount + Value.nestedCounts (defaults d)
    + Value.nestedCounts (s.literals.flatMap fun l => defaults l.declaration)
    + Value.nestedCounts (c.corpus.classes.flatMap defaults) + 1

/-- Compiles an annotation, given the declaration of its type. -/
def materialize (c : LiteralSettings) (d : ClassDecl) (a : Annotation) (targetPackage : String) :
    Compilation Construction := do
  c.materializeWithin (c.depthBound (← get) d a) d a targetPackage

/-- Compiles an annotation whose type is looked up in the corpus. -/
def materializeFromCorpus (c : LiteralSettings) (a : Annotation) (targetPackage : String) :
    Compilation Construction :=
  match c.corpus.class? a.type with
  | some d => c.materialize d a targetPackage
  | none => throw (.missingClass a.type)

end LiteralSettings

end AnnotationWeaver
