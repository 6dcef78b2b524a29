import AnnotationWeaver.Proofs.LinkClosure

/-!
Types of constructions. With sharing, whatever is built for an annotation conforms to the declared types: the
shared class is given one argument for each member, in the order of their declaration, each of the type that the
member returns, and so on at every depth. Values that do not fit are refused before anything is built of them, and
the shortcuts for empty arrays and for defaults that are kept in static fields have the type that is expected.
-/
namespace AnnotationWeaver

/-- The primitive type of a constant; a string has none. -/
def Constant.primitive? : Constant → Option Primitive
  | .boolean _ => some .boolean
  | .byte _ => some .byte
  | .short _ => some .short
  | .int _ => some .int
  | .long _ => some .long
  | .float _ => some .float
  | .double _ => some .double
  | .char _ => some .char
  | .string _ => none

/-- A construction is one of the type: what is instantiated is the shared class of the annotation type that is
    expected, and its arguments are of the types that the members return. -/
inductive Construction.Conforms (c : LiteralSettings) : Ty → Construction → Prop
  | primitive {p : Primitive} {value : Constant} (kind : value.primitive? = some p) :
    Conforms c (.primitive p) (.const value)
  | string {t : Ty} {s : String} (named : t.className? = some stringType) : Conforms c t (.const (.string s))
  | loadClass {t : Ty} {name : TypeName} (named : t.className? = some classType) : Conforms c t (.loadClass name)
  | enumConstant {t : Ty} {type : TypeName} {constant : String} (named : t.className? = some type) :
    Conforms c t (.enumConstant type constant)
  | staticField {t : Ty} {owner : TypeName} {field : String} : Conforms c t (.staticField owner field t)
  | newArray {component : Ty} {elements : List Construction} (each : ∀ x ∈ elements, Conforms c component x) :
    Conforms c (.array component) (.newArray component elements)
  | emptyArray {component : Ty} {kind : EmptyArray} (shared : EmptyArray.ofComponent? component = some kind) :
    Conforms c (.array component) (.emptyArray kind)
  | newInstance {t : Ty} {type : TypeName} {d : ClassDecl} {arguments : List Construction}
    (named : t.className? = some type) (declared : c.corpus.class? type = some d)
    (typed : List.Forall₂ (Conforms c) (d.regularMethods.map (·.returns)) arguments) :
    Conforms c t (.newInstance (Literal.sharedName type c.generatedPackage) (d.regularMethods.map (·.returns)) arguments)

/-- An instance of the shared class of an annotation type, with an argument of the right type for each member. -/
def Construction.IsInstanceOf (c : LiteralSettings) (type : TypeName) (x : Construction) : Prop :=
  ∃ d arguments, c.corpus.class? type = some d ∧
    x = .newInstance (Literal.sharedName type c.generatedPackage) (d.regularMethods.map (·.returns)) arguments ∧
    List.Forall₂ (Conforms c) (d.regularMethods.map (·.returns)) arguments

namespace Construction

variable {c : LiteralSettings} {t : Ty} {type : TypeName} {x : Construction}

theorem IsInstanceOf.conforms (made : x.IsInstanceOf c type) (named : t.className? = some type) : x.Conforms c t := by
  obtain ⟨d, arguments, declared, rfl, typed⟩ := made
  exact .newInstance named declared typed

theorem Conforms.isInstanceOf {name : TypeName} {constructor : List Ty} {arguments : List Construction}
    (conforms : (Construction.newInstance name constructor arguments).Conforms c t) :
    ∃ type, t.className? = some type ∧ (Construction.newInstance name constructor arguments).IsInstanceOf c type := by
  cases conforms with
  | newInstance named declared typed => exact ⟨_, named, _, _, declared, rfl, typed⟩

/-- What stands inside a construction of a type is one of a type itself. -/
theorem Conforms.exists_of_occursIn {y : Construction} (occurs : y.OccursIn x) (conforms : x.Conforms c t) :
    ∃ u, y.Conforms c u := by
  induction occurs generalizing t with
  | here => exact ⟨t, conforms⟩
  | element listed deeper ih =>
    cases conforms with
    | newArray each => exact ih (each _ listed)
  | argument listed deeper ih =>
    cases conforms with
    | newInstance named declared typed =>
      obtain ⟨u, -, conforms'⟩ := exists_of_forall₂_right typed listed
      exact ih conforms'

end Construction

/-! ### What is built -/

section

variable {c : LiteralSettings} {t : Ty} {x : Construction} {trace : List Compiled}

/-- What fits where the type is expected is built as a construction of the type. -/
theorem Value.conforms_of_plain? {v : Value} (fits : v.fits t = true) (built : v.plain? = some x) : x.Conforms c t := by
  have named {name : TypeName} (class_eq : t.className? = some name) : x.Conforms c t := by
    have other : ∀ p, t ≠ .primitive p := by
      rintro p rfl
      cases class_eq
    cases v <;> cases built <;> simp [Value.fits, class_eq] at fits
    case string => exact .string (fits ▸ class_eq)
    case enumConstant => exact .enumConstant (fits ▸ class_eq)
    case classLiteral => exact .loadClass (fits ▸ class_eq)
  cases t with
  | primitive p =>
    have kind : v.kind = .ofPrimitive p := by simpa [Value.fits] using fits
    cases v <;> cases built <;> cases p <;> cases kind
    all_goals exact .primitive rfl
  | named name => exact named rfl
  | parameterized raw arguments => exact named rfl
  | void => simp [Value.fits, Ty.className?] at fits
  | array component => simp [Value.fits, Ty.className?] at fits

theorem Construction.conforms_emptyArrayOf (component : Ty) :
    (Construction.emptyArrayOf component).Conforms c (.array component) := by
  unfold emptyArrayOf
  cases shared : EmptyArray.ofComponent? component with
  | some kind => exact .emptyArray shared
  | none => exact .newArray (by simp)

theorem Ty.eq_array_of_component? {component : Ty} (several : t.component? = some component) : t = .array component := by
  cases t <;> cases several
  rfl

theorem Value.className?_of_fits {a : Annotation} (fits : (Value.nested a).fits t = true) :
    t.className? = some a.type := by
  have same {name : TypeName} (type : (a.type == name) = true) : some name = some a.type := by rw [eq_of_beq type]
  cases t with
  | primitive p => cases p <;> cases fits
  | named name => exact same fits
  | parameterized raw arguments => exact same fits
  | void => cases fits
  | array component => cases fits

theorem Each.forall₂ {ι : Type} {R : ι → Construction → List Compiled → Prop} {S : ι → Construction → Prop} {is : List ι}
    {xs : List Construction} (each : Each R is xs trace) (implied : ∀ i y u, R i y u → S i y) : List.Forall₂ S is xs := by
  induction each with
  | nil => exact .nil
  | cons head tail ih => exact .cons (implied _ _ _ head) ih

section

variable {N : Annotation → Construction → List Compiled → Prop}
  (inside : ∀ a y u, N a y u → y.IsInstanceOf c a.type)
include inside

theorem Value.BuildsAs.conforms {v : Value} (builds : v.BuildsAs N t x trace) : x.Conforms c t := by
  cases builds with
  | plain fits built => exact v.conforms_of_plain? fits built
  | @nested a _ _ fits made =>
    exact (inside a x trace made).conforms (Value.className?_of_fits fits)

/-- Whatever way the value of a member takes, it is built as one of the type that the member returns. -/
theorem MethodDecl.LoadsFrom.conforms {name : TypeName} {a : Annotation} {m : MethodDecl}
    (loads : m.LoadsFrom N name a x trace) : x.Conforms c m.returns := by
  obtain ⟨v, -, loads⟩ := loads
  cases loads with
  | static kept => exact .staticField
  | single made alone builds => exact builds.conforms inside
  | none made several =>
    rw [Ty.eq_array_of_component? several]
    exact Construction.conforms_emptyArrayOf _
  | several made several each =>
    rw [Ty.eq_array_of_component? several]
    refine .newArray fun y listed => ?_
    have related := each.forall₂ fun _ _ _ builds => builds.conforms inside
    obtain ⟨_, -, conforms⟩ := exists_of_forall₂_right related listed
    exact conforms

theorem LiteralSettings.CompilesWith.isInstanceOf (sharing : c.shared = true) {a : Annotation} {package : String}
    (compiles : c.CompilesWith N a package x trace) : x.IsInstanceOf c a.type := by
  cases compiles with
  | @intro d values _ declared members =>
    have same : d.name = a.type := (Corpus.class?_eq_some_iff.1 declared).2
    refine ⟨d, values, declared, ?_, ?_⟩
    · simp [Compiled.construction, Compiled.literal, literalFor, sharing, prepare, Literal.constructor, Literal.members, same]
    · rw [List.forall₂_map_left_iff]
      exact members.forall₂ fun _ _ _ loads => loads.conforms inside

end

/-- The induction is on the depth of the nesting: the annotations inside are instances of their types. -/
theorem LiteralSettings.CompilesWithin.isInstanceOf (sharing : c.shared = true) {depth : Nat} {a : Annotation}
    {package : String} (compiles : c.CompilesWithin depth a package x trace) : x.IsInstanceOf c a.type := by
  induction depth generalizing a package x trace with
  | zero => exact compiles.elim
  | succ depth ih => exact LiteralSettings.CompilesWith.isInstanceOf (fun _ _ _ made => ih made) sharing compiles

end

/-- With sharing, materialization is type sound in every state of a compiler: what is built for an annotation is an
    instance of the shared class of its type, called with an argument of the right type for each member in the order
    of their declaration, and so is every instance inside it for a type of its own. -/
theorem materialization_is_type_sound {c : LiteralSettings} (sharing : c.shared = true) {s s' : LiteralState}
    (reached : c.Reached s) {a : Annotation} {package : String} {x : Construction}
    (built : (c.materializeFromCorpus a package).run s = (.ok x, s')) :
    x.IsInstanceOf c a.type ∧ ∀ name constructor arguments, x.Instantiates name constructor arguments →
      ∃ type, (Construction.newInstance name constructor arguments).IsInstanceOf c type := by
  obtain ⟨trace, -, compiles⟩ := LiteralSettings.yields_materializeFromCorpus a package s reached.isOrderly
  rw [built] at compiles
  obtain ⟨depth, compiles⟩ := compiles x rfl
  have made := compiles.isInstanceOf sharing
  refine ⟨made, ?_⟩
  intro name constructor arguments occurs
  have conforms : x.Conforms c (.named a.type) := made.conforms rfl
  obtain ⟨t, conforms'⟩ := conforms.exists_of_occursIn occurs
  obtain ⟨type, -, instantiated⟩ := conforms'.isInstanceOf
  exact ⟨type, instantiated⟩

/-- A compiler that shares the literals of `measures`. -/
def measuresCompiler : LiteralSettings := ⟨measures, true, Literal.defaultGeneratedPackage, fun _ => true⟩

/-- What an annotation of the unit is built as. -/
def builtUnit : Construction := .newInstance ⟨"app.Unit_Shared_AnnotationLiteral"⟩ [] []

/-- What a size is built as: an instance that is given one of its unit. -/
def builtSize : Construction :=
  .newInstance ⟨"app.Size_Shared_AnnotationLiteral"⟩ [.named ⟨"app.Unit"⟩] [builtUnit]

theorem materialization_is_type_sound_in_measures :
    measuresCompiler.shared = true ∧ measuresCompiler.Reached .initial ∧
      (∃ s, (measuresCompiler.materializeFromCorpus (measured "app.Size") "app").run .initial = (.ok builtSize, s)) ∧
      builtSize.IsInstanceOf measuresCompiler ⟨"app.Size"⟩ ∧ ∃ type, builtUnit.IsInstanceOf measuresCompiler type := by
  have built : (measuresCompiler.materializeFromCorpus (measured "app.Size") "app").run .initial =
    (.ok builtSize, ((measuresCompiler.materializeFromCorpus (measured "app.Size") "app").run .initial).2) := rfl
  obtain ⟨made, inside⟩ := materialization_is_type_sound rfl .fresh built
  exact ⟨rfl, .fresh, ⟨_, built⟩, made, inside _ _ _ (.argument List.mem_cons_self .here)⟩

end AnnotationWeaver
