import AnnotationWeaver.Proofs.Traces

/-!
Which compilations an annotation starts. They are listed by the types of the annotations, in the order in which they are
started, whether or not they come to an end: an annotation starts its own, and then the members start those of the
annotations inside, one member after the other, until one fails. An annotation whose type is not in the corpus starts none
and fails. The list depends on the annotation and on the corpus alone, and there is only one.
-/
namespace AnnotationWeaver

/-- One after the other, until one fails: the types in their order, and whether none failed. -/
inductive InTurn {ι : Type} (R : ι → List TypeName → Bool → Prop) : List ι → List TypeName → Bool → Prop
  | nil : InTurn R [] [] true
  | stops {i : ι} {is : List ι} {started : List TypeName} (head : R i started false) : InTurn R (i :: is) started false
  | goes {i : ι} {is : List ι} {started later : List TypeName} {ok : Bool} (head : R i started true)
    (tail : InTurn R is later ok) : InTurn R (i :: is) (started ++ later) ok

/-- What is related in one way only is so in turn. -/
theorem InTurn.unique {ι : Type} {R S : ι → List TypeName → Bool → Prop} {is : List ι} {started other : List TypeName}
    {ok ok' : Bool} (inTurn : InTurn R is started ok) (again : InTurn S is other ok')
    (one : ∀ i ∈ is, ∀ t b u b', R i t b → S i u b' → t = u ∧ b = b') : started = other ∧ ok = ok' := by
  induction inTurn generalizing other ok' with
  | nil =>
    cases again
    exact ⟨rfl, rfl⟩
  | stops head =>
    cases again with
    | stops head' => exact one _ List.mem_cons_self _ _ _ _ head head'
    | goes head' tail' => cases (one _ List.mem_cons_self _ _ _ _ head head').2
  | goes head tail ih =>
    cases again with
    | stops head' => cases (one _ List.mem_cons_self _ _ _ _ head head').2
    | goes head' tail' =>
      obtain ⟨rfl, -⟩ := one _ List.mem_cons_self _ _ _ _ head head'
      obtain ⟨rfl, rfl⟩ := ih tail' fun i later => one i (List.mem_cons_of_mem _ later)
      exact ⟨rfl, rfl⟩

section

/- What the annotations inside start, and whether they succeed. -/
variable (N : Annotation → List TypeName → Bool → Prop)

/-- What a value starts as one of the type that is no array. -/
inductive Value.Starts (expected : Ty) : Value → List TypeName → Bool → Prop
  | plain {v : Value} {x : Construction} (fits : v.fits expected = true) (built : v.plain? = some x) :
    Starts expected v [] true
  | nested {a : Annotation} {started : List TypeName} {ok : Bool} (fits : (Value.nested a).fits expected = true)
    (inside : N a started ok) : Starts expected (.nested a) started ok
  | unfit {v : Value} (unfit : v.fits expected = false) : Starts expected v [] false

/-- What the value of a member starts. -/
inductive MethodDecl.Starts (m : MethodDecl) : Value → List TypeName → Bool → Prop
  | static {v : Value} (kept : Literal.readsStatic m v = true) : Starts m v [] true
  | single {v : Value} {started : List TypeName} {ok : Bool} (made : Literal.readsStatic m v = false)
    (alone : m.returns.component? = none) (starts : v.Starts N m.returns started ok) : Starts m v started ok
  | several {kind : ValueKind} {elements : List Value} {component : Ty} {started : List TypeName} {ok : Bool}
    (made : Literal.readsStatic m (.array kind elements) = false) (several : m.returns.component? = some component)
    (inTurn : InTurn (Value.Starts N component) elements started ok) : Starts m (.array kind elements) started ok
  | unsuited {v : Value} {component : Ty} (made : Literal.readsStatic m v = false)
    (several : m.returns.component? = some component) (alone : ∀ kind elements, v ≠ .array kind elements) :
    Starts m v [] false

/-- What a member of an annotation starts. -/
inductive MethodDecl.StartsFrom (a : Annotation) (m : MethodDecl) : List TypeName → Bool → Prop
  | value {v : Value} {started : List TypeName} {ok : Bool} (value : a.effectiveValue? m = some v)
    (starts : m.Starts N v started ok) : StartsFrom a m started ok
  | missing (missing : a.effectiveValue? m = none) : StartsFrom a m [] false

/-- What an annotation starts, if the annotations inside start what is said. -/
inductive Corpus.StartsWith (c : Corpus) (a : Annotation) : List TypeName → Bool → Prop
  | declared {d : ClassDecl} {inside : List TypeName} {ok : Bool} (declared : c.class? a.type = some d)
    (members : InTurn (MethodDecl.StartsFrom N a) d.regularMethods inside ok) : StartsWith c a (a.type :: inside) ok
  | undeclared (undeclared : c.class? a.type = none) : StartsWith c a [] false

end

namespace Corpus

/-- Annotations with no more annotations inside each other than the first argument says. -/
def StartsWithin (c : Corpus) : (depth : Nat) → Annotation → List TypeName → Bool → Prop
  | 0 => c.StartsWith fun _ _ _ => False
  | depth + 1 => c.StartsWith (c.StartsWithin depth)

/-- The compilations that an annotation starts, and whether it succeeds. -/
def Starts (c : Corpus) (a : Annotation) (started : List TypeName) (ok : Bool) : Prop :=
  ∃ depth, c.StartsWithin depth a started ok

/-- The compilations that annotations start, one after the other, whether they succeed or fail. -/
inductive StartsAll (c : Corpus) : List Annotation → List TypeName → Prop
  | nil : StartsAll c [] []
  | cons {a : Annotation} {started later : List TypeName} {ok : Bool} {rest : List Annotation}
    (head : c.Starts a started ok) (tail : StartsAll c rest later) : StartsAll c (a :: rest) (started ++ later)

end Corpus

/-! ### One way only -/

section

variable {N N' : Annotation → List TypeName → Bool → Prop}
  (one : ∀ a t b u b', N a t b → N' a u b' → t = u ∧ b = b')
include one

theorem Value.Starts.unique {expected : Ty} {v : Value} {started other : List TypeName} {ok ok' : Bool}
    (starts : v.Starts N expected started ok) (again : v.Starts N' expected other ok') : started = other ∧ ok = ok' := by
  cases starts with
  | plain fits built =>
    cases again with
    | plain => exact ⟨rfl, rfl⟩
    | nested => cases built
    | unfit unfit => simp [unfit] at fits
  | nested fits inside =>
    cases again with
    | plain _ built => cases built
    | nested _ inside' => exact one _ _ _ _ _ inside inside'
    | unfit unfit => simp [unfit] at fits
  | unfit unfit =>
    cases again with
    | plain fits => simp [unfit] at fits
    | nested fits => simp [unfit] at fits
    | unfit => exact ⟨rfl, rfl⟩

theorem MethodDecl.Starts.unique {m : MethodDecl} {v : Value} {started other : List TypeName} {ok ok' : Bool}
    (starts : m.Starts N v started ok) (again : m.Starts N' v other ok') : started = other ∧ ok = ok' := by
  cases starts with
  | static kept =>
    cases again with
    | static => exact ⟨rfl, rfl⟩
    | single made => simp [made] at kept
    | several made => simp [made] at kept
    | unsuited made => simp [made] at kept
  | single made alone starts =>
    cases again with
    | static kept => simp [made] at kept
    | single _ _ starts' => exact starts.unique one starts'
    | several _ several => simp [alone] at several
    | unsuited _ several => simp [alone] at several
  | several made several inTurn =>
    cases again with
    | static kept => simp [made] at kept
    | single _ alone => simp [alone] at several
    | several _ several' inTurn' =>
      obtain rfl := Option.some.inj (several.symm.trans several')
      exact inTurn.unique inTurn' fun _ _ _ _ _ _ starts starts' => starts.unique one starts'
    | unsuited _ _ alone => exact absurd rfl (alone _ _)
  | unsuited made several alone =>
    cases again with
    | static kept => simp [made] at kept
    | single _ alone => simp [alone] at several
    | several => exact absurd rfl (alone _ _)
    | unsuited => exact ⟨rfl, rfl⟩

theorem MethodDecl.StartsFrom.unique {a : Annotation} {m : MethodDecl} {started other : List TypeName} {ok ok' : Bool}
    (starts : m.StartsFrom N a started ok) (again : m.StartsFrom N' a other ok') : started = other ∧ ok = ok' := by
  cases starts with
  | value value starts =>
    cases again with
    | value value' starts' =>
      obtain rfl := Option.some.inj (value.symm.trans value')
      exact starts.unique one starts'
    | missing missing => simp [value] at missing
  | missing missing =>
    cases again with
    | value value => simp [value] at missing
    | missing => exact ⟨rfl, rfl⟩

theorem Corpus.StartsWith.unique {c : Corpus} {a : Annotation} {started other : List TypeName} {ok ok' : Bool}
    (starts : c.StartsWith N a started ok) (again : c.StartsWith N' a other ok') : started = other ∧ ok = ok' := by
  cases starts with
  | declared declared members =>
    cases again with
    | declared declared' members' =>
      obtain rfl := Option.some.inj (declared.symm.trans declared')
      obtain ⟨rfl, rfl⟩ := members.unique members' fun _ _ _ _ _ _ starts starts' => starts.unique one starts'
      exact ⟨rfl, rfl⟩
    | undeclared undeclared => simp [declared] at undeclared
  | undeclared undeclared =>
    cases again with
    | declared declared => simp [declared] at undeclared
    | undeclared => exact ⟨rfl, rfl⟩

end

namespace Corpus

variable {c : Corpus}

theorem StartsWithin.unique {depth depth' : Nat} {a : Annotation} {started other : List TypeName} {ok ok' : Bool}
    (starts : c.StartsWithin depth a started ok) (again : c.StartsWithin depth' a other ok') :
    started = other ∧ ok = ok' := by
  induction depth generalizing depth' a started other ok ok' with
  | zero =>
    cases depth' with
    | zero => exact StartsWith.unique (fun _ _ _ _ _ none => none.elim) starts again
    | succ depth' => exact StartsWith.unique (fun _ _ _ _ _ none => none.elim) starts again
  | succ depth ih =>
    cases depth' with
    | zero => exact StartsWith.unique (fun _ _ _ _ _ _ none => none.elim) starts again
    | succ depth' =>
      have inside (inner : Annotation) (t : List TypeName) (b : Bool) (u : List TypeName) (b' : Bool)
          (first : c.StartsWithin depth inner t b) (second : c.StartsWithin depth' inner u b') : t = u ∧ b = b' :=
        ih first second
      exact StartsWith.unique inside starts again

/-- An annotation starts one list of compilations. -/
theorem Starts.unique {a : Annotation} {started other : List TypeName} {ok ok' : Bool}
    (starts : c.Starts a started ok) (again : c.Starts a other ok') : started = other ∧ ok = ok' := by
  obtain ⟨depth, starts⟩ := starts
  obtain ⟨depth', again⟩ := again
  exact starts.unique again

theorem StartsAll.unique {annotations : List Annotation} {started other : List TypeName}
    (starts : c.StartsAll annotations started) (again : c.StartsAll annotations other) : started = other := by
  induction starts generalizing other with
  | nil =>
    cases again
    rfl
  | cons head tail ih =>
    cases again with
    | cons head' tail' => rw [(head.unique head').1, ih tail']

end Corpus

end AnnotationWeaver
