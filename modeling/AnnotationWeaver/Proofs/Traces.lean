import AnnotationWeaver.Proofs.Sharing

/-!
Traces of compilations. The trace of an annotation lists what is compiled for it: first whatever the annotations inside
it lead to, in the order of the members, then the annotation itself, each with its package and with how the values
of its members are built. `Compiles` says what an annotation is built as and which trace it has, without the state of
the compiler, and it says so in one way only. A compilation adds to the state what its trace says, and nothing else; if it
succeeds, then with what the annotation is built as.
-/
namespace AnnotationWeaver

/-- An annotation that was compiled for a package, and how the values of its members are built. -/
structure Compiled where
  annotation : Annotation
  package : String
  declaration : ClassDecl
  values : List Construction

/-- The literal of which an annotation becomes an instance: that of its type, or one for it alone. -/
def LiteralSettings.literalFor (c : LiteralSettings) (d : ClassDecl) (a : Annotation) (package : String) : Literal :=
  if c.shared then c.prepare d else ⟨Literal.oneOffName a package c.generatedPackage, false, d⟩

namespace Compiled

variable (c : LiteralSettings) (e : Compiled)

def literal : Literal := c.literalFor e.declaration e.annotation e.package

/-- The class that is written for the annotation, if literals are not shared. -/
def oneOffClass : LiteralClass := (e.literal c).oneOffClass e.values

/-- What the annotation is built as: a shared class is given the values, and a class of its own has them. -/
def construction : Construction :=
  if c.shared then .newInstance (e.literal c).name (e.literal c).constructor e.values
  else .newInstance (e.literal c).name [] []

end Compiled

/-! ### What annotations are built as -/

/-- One result for each element, and the traces one after the other. -/
inductive Each {ι α : Type} (R : ι → α → List Compiled → Prop) : List ι → List α → List Compiled → Prop
  | nil : Each R [] [] []
  | cons {i : ι} {x : α} {trace more : List Compiled} {is : List ι} {xs : List α} (head : R i x trace)
    (tail : Each R is xs more) : Each R (i :: is) (x :: xs) (trace ++ more)

namespace Each

variable {ι α : Type} {R S : ι → α → List Compiled → Prop} {is : List ι} {xs ys : List α} {trace other : List Compiled}

theorem unique (each : Each R is xs trace) (again : Each S is ys other)
    (one : ∀ i ∈ is, ∀ x t y u, R i x t → S i y u → x = y ∧ t = u) : xs = ys ∧ trace = other := by
  induction each generalizing ys other with
  | nil =>
    cases again
    exact ⟨rfl, rfl⟩
  | cons head tail ih =>
    cases again with
    | cons head' tail' =>
      obtain ⟨rfl, rfl⟩ := one _ List.mem_cons_self _ _ _ _ head head'
      obtain ⟨rfl, rfl⟩ := ih tail' fun i later => one i (List.mem_cons_of_mem _ later)
      exact ⟨rfl, rfl⟩

theorem append {js : List ι} (each : Each R is xs trace) (more : Each R js ys other) :
    Each R (is ++ js) (xs ++ ys) (trace ++ other) := by
  induction each with
  | nil => exact more
  | cons head tail ih =>
    rw [List.append_assoc]
    exact .cons head ih

theorem length (each : Each R is xs trace) : xs.length = is.length := by
  induction each with
  | nil => rfl
  | cons _ _ ih => rw [List.length_cons, List.length_cons, ih]

/-- What the trace holds is in the trace of an element. -/
theorem exists_of_mem_trace (each : Each R is xs trace) {e : Compiled} (member : e ∈ trace) :
    ∃ i ∈ is, ∃ x ∈ xs, ∃ t, R i x t ∧ e ∈ t ∧ t ⊆ trace := by
  induction each with
  | nil => exact absurd member List.not_mem_nil
  | cons head tail ih =>
    rcases List.mem_append.1 member with first | later
    · exact ⟨_, List.mem_cons_self, _, List.mem_cons_self, _, head, first, List.subset_append_left _ _⟩
    · obtain ⟨i, listed, x, made, t, related, held, part⟩ := ih later
      exact ⟨i, List.mem_cons_of_mem _ listed, x, List.mem_cons_of_mem _ made, t, related, held,
        List.Subset.trans part (List.subset_append_right _ _)⟩

end Each

/-- What a value without parts is built as. -/
def Value.plain? : Value → Option Construction
  | .boolean b => some (.const (.boolean b))
  | .byte n => some (.const (.byte n))
  | .short n => some (.const (.short n))
  | .int n => some (.const (.int n))
  | .long n => some (.const (.long n))
  | .float x => some (.const (.float x))
  | .double x => some (.const (.double x))
  | .char c => some (.const (.char c))
  | .string s => some (.const (.string s))
  | .enumConstant type constant => some (.enumConstant type constant)
  | .classLiteral type => some (.loadClass type.erased)
  | .nested _ => none
  | .array _ _ => none

/-- An array without elements. -/
def Construction.emptyArrayOf (component : Ty) : Construction :=
  match EmptyArray.ofComponent? component with
  | some kind => .emptyArray kind
  | none => .newArray component []

section

/- What the annotations inside are built as, and their traces. -/
variable (N : Annotation → Construction → List Compiled → Prop)

/-- What a value that is no array is built as, where one of the type is expected. -/
inductive Value.BuildsAs (expected : Ty) : Value → Construction → List Compiled → Prop
  | plain {v : Value} {x : Construction} (fits : v.fits expected = true) (built : v.plain? = some x) :
    BuildsAs expected v x []
  | nested {a : Annotation} {x : Construction} {trace : List Compiled} (fits : (Value.nested a).fits expected = true)
    (inside : N a x trace) : BuildsAs expected (.nested a) x trace

/-- What the value of a member is built as, for a literal with the name. -/
inductive MethodDecl.Loads (name : TypeName) (m : MethodDecl) : Value → Construction → List Compiled → Prop
  | static {v : Value} (kept : Literal.readsStatic m v = true) :
    Loads name m v (.staticField name (Literal.defaultField m.name) m.returns) []
  | single {v : Value} {x : Construction} {trace : List Compiled} (made : Literal.readsStatic m v = false)
    (alone : m.returns.component? = none) (builds : v.BuildsAs N m.returns x trace) : Loads name m v x trace
  | none {kind : ValueKind} {component : Ty} (made : Literal.readsStatic m (.array kind []) = false)
    (several : m.returns.component? = some component) :
    Loads name m (.array kind []) (.emptyArrayOf component) []
  | several {kind : ValueKind} {v : Value} {rest : List Value} {component : Ty} {xs : List Construction}
    {trace : List Compiled} (made : Literal.readsStatic m (.array kind (v :: rest)) = false)
    (several : m.returns.component? = some component)
    (each : Each (Value.BuildsAs N component) (v :: rest) xs trace) :
    Loads name m (.array kind (v :: rest)) (.newArray component xs) trace

/-- What a member of an annotation is built as. -/
def MethodDecl.LoadsFrom (name : TypeName) (a : Annotation) (m : MethodDecl) (x : Construction)
    (trace : List Compiled) : Prop :=
  ∃ v, a.effectiveValue? m = some v ∧ m.Loads N name v x trace

/-- What an annotation is built as, and its trace, if the annotations inside are as said. -/
inductive LiteralSettings.CompilesWith (c : LiteralSettings) (a : Annotation) (package : String) :
    Construction → List Compiled → Prop
  | intro {d : ClassDecl} {values : List Construction} {inside : List Compiled}
    (declared : c.corpus.class? a.type = some d)
    (members : Each (MethodDecl.LoadsFrom N (c.literalFor d a package).name a) d.regularMethods values inside) :
    CompilesWith c a package (Compiled.construction c ⟨a, package, d, values⟩) (inside ++ [⟨a, package, d, values⟩])

end

namespace LiteralSettings

/-- Annotations that are nested no deeper than the first argument says. -/
def CompilesWithin (c : LiteralSettings) : (depth : Nat) → Annotation → String → Construction → List Compiled → Prop
  | 0, _, _, _, _ => False
  | depth + 1, a, package, x, trace =>
    c.CompilesWith (fun inner => c.CompilesWithin depth inner inner.type.package) a package x trace

/-- What an annotation is built as for a package, and its trace. -/
def Compiles (c : LiteralSettings) (a : Annotation) (package : String) (x : Construction) (trace : List Compiled) :
    Prop :=
  ∃ depth, c.CompilesWithin depth a package x trace

end LiteralSettings

section

variable {N N' : Annotation → Construction → List Compiled → Prop}

/-! ### One way only -/

variable (one : ∀ a x t y u, N a x t → N' a y u → x = y ∧ t = u)
include one

theorem Value.BuildsAs.unique {expected : Ty} {v : Value} {x y : Construction} {trace other : List Compiled}
    (builds : v.BuildsAs N expected x trace) (again : v.BuildsAs N' expected y other) : x = y ∧ trace = other := by
  cases builds with
  | plain fits built =>
    cases again with
    | plain fits' built' => exact ⟨Option.some.inj (built.symm.trans built'), rfl⟩
    | nested fits' inside => cases built
  | nested fits inside =>
    cases again with
    | plain fits' built' => cases built'
    | nested fits' inside' => exact one _ _ _ _ _ inside inside'

theorem MethodDecl.Loads.unique {name : TypeName} {m : MethodDecl} {v : Value} {x y : Construction}
    {trace other : List Compiled} (loads : m.Loads N name v x trace) (again : m.Loads N' name v y other) :
    x = y ∧ trace = other := by
  cases loads with
  | static kept =>
    cases again with
    | static kept' => exact ⟨rfl, rfl⟩
    | single made => simp [made] at kept
    | none made => simp [made] at kept
    | several made => simp [made] at kept
  | single made alone builds =>
    cases again with
    | static kept => simp [made] at kept
    | single made' alone' builds' => exact builds.unique one builds'
    | none made' several => simp [alone] at several
    | several made' several each => simp [alone] at several
  | none made several =>
    cases again with
    | static kept => simp [made] at kept
    | single made' alone builds => simp [alone] at several
    | none made' several' =>
      obtain rfl := Option.some.inj (several.symm.trans several')
      exact ⟨rfl, rfl⟩
  | several made several each =>
    cases again with
    | static kept => simp [made] at kept
    | single made' alone builds => simp [alone] at several
    | several made' several' each' =>
      obtain rfl := Option.some.inj (several.symm.trans several')
      obtain ⟨rfl, rfl⟩ := each.unique each' fun _ _ _ _ _ _ builds builds' => builds.unique one builds'
      exact ⟨rfl, rfl⟩

/-- The values of two annotations that agree on all members are built alike. -/
theorem Each.unique_members {name : TypeName} {a b : Annotation} {ms : List MethodDecl} {xs ys : List Construction}
    {trace other : List Compiled} (agree : ∀ m ∈ ms, a.effectiveValue? m = b.effectiveValue? m)
    (each : Each (MethodDecl.LoadsFrom N name a) ms xs trace) (again : Each (MethodDecl.LoadsFrom N' name b) ms ys other) :
    xs = ys ∧ trace = other := by
  refine each.unique again fun m member x t y u loads loads' => ?_
  obtain ⟨v, value, loads⟩ := loads
  obtain ⟨w, value', loads'⟩ := loads'
  rw [agree m member, value'] at value
  obtain rfl := Option.some.inj value
  exact loads.unique one loads'

end

namespace LiteralSettings

variable {c : LiteralSettings}

theorem CompilesWithin.unique {depth depth' : Nat} {a : Annotation} {package : String} {x y : Construction}
    {trace other : List Compiled} (compiles : c.CompilesWithin depth a package x trace)
    (again : c.CompilesWithin depth' a package y other) : x = y ∧ trace = other := by
  induction depth generalizing depth' a package x y trace other with
  | zero => exact compiles.elim
  | succ depth ih =>
    cases depth' with
    | zero => exact again.elim
    | succ depth' =>
      cases compiles with
      | intro declared members =>
        cases again with
        | intro declared' members' =>
          obtain rfl := Option.some.inj (declared.symm.trans declared')
          have inside (inner : Annotation) (y : Construction) (t : List Compiled) (z : Construction) (u : List Compiled)
              (first : c.CompilesWithin depth inner inner.type.package y t)
              (second : c.CompilesWithin depth' inner inner.type.package z u) : y = z ∧ t = u := ih first second
          obtain ⟨rfl, rfl⟩ := Each.unique_members inside (fun _ _ => rfl) members members'
          exact ⟨rfl, rfl⟩

/-- An annotation is built in one way, and has one trace. -/
theorem Compiles.unique {a : Annotation} {package : String} {x y : Construction} {trace other : List Compiled}
    (compiles : c.Compiles a package x trace) (again : c.Compiles a package y other) : x = y ∧ trace = other := by
  obtain ⟨depth, compiles⟩ := compiles
  obtain ⟨depth', again⟩ := again
  exact compiles.unique again

end LiteralSettings

end AnnotationWeaver
