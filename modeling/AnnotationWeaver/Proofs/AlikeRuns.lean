import AnnotationWeaver.Proofs.Termination
import AnnotationWeaver.Report.Error

/-!
Compilations of annotations that resemble each other. The compiler looks at an annotation in two ways: it asks for the
effective values of members, and whether such a value is a default that is kept in a static field. Annotations
that no chain of such questions can tell apart are built as the same if literals are shared, or fail with errors of one
kind, or are both nested without end, from whatever states of the compiler.
-/
namespace AnnotationWeaver

namespace Compilation

/-- The same is built, or the errors are of one kind. -/
inductive SameResult {α : Type} : Except LiteralError α → Except LiteralError α → Prop
  | ok (x : α) : SameResult (.ok x) (.ok x)
  | error {e e' : LiteralError} (label : e.label = e'.label) : SameResult (.error e) (.error e')

namespace SameResult

variable {α : Type} {x y z : Except LiteralError α}

theorem refl (x : Except LiteralError α) : SameResult x x := by
  cases x with
  | ok x => exact .ok x
  | error e => exact .error rfl

theorem symm (same : SameResult x y) : SameResult y x := by
  cases same with
  | ok x => exact .ok x
  | error label => exact .error label.symm

theorem trans (same : SameResult x y) (further : SameResult y z) : SameResult x z := by
  cases same with
  | ok x => exact further
  | error label =>
    cases further with
    | error label' => exact .error (label.trans label')

end SameResult

/-- Nesting without end is an error of a kind of its own. -/
theorem isEndless_iff_of_sameResult {α : Type} {p q : Except LiteralError α × LiteralState}
    (same : SameResult p.1 q.1) : IsEndless p ↔ IsEndless q := by
  have endless_of {p q : Except LiteralError α × LiteralState} (same : SameResult p.1 q.1) (endless : IsEndless p) :
      IsEndless q := by
    obtain ⟨type, t, rfl⟩ := endless
    obtain ⟨outcome, u⟩ := q
    cases same with
    | @error _ e label =>
      rw [isEndless_error]
      cases e with
      | endlessNesting type => exact ⟨type, rfl⟩
      | _ => simp [LiteralError.label] at label
  exact ⟨endless_of same, endless_of same.symm⟩

theorem sameResult_of_isEndless {α : Type} {p q : Except LiteralError α × LiteralState} (endless : IsEndless p)
    (endless' : IsEndless q) : SameResult p.1 q.1 := by
  obtain ⟨type, t, rfl⟩ := endless
  obtain ⟨type', t', rfl⟩ := endless'
  exact .error rfl

/-- From all states with the invariant, the compilations have the same result and leave the invariant in place. -/
def Alike {α : Type} (I : LiteralState → Prop) (first second : Compilation α) : Prop :=
  ∀ s t, I s → I t → SameResult (first.run s).1 (second.run t).1 ∧ I (first.run s).2 ∧ I (second.run t).2

namespace Alike

variable {α β : Type} {I : LiteralState → Prop}

theorem pure (x : α) : Alike I (pure x) (pure x) := fun _ _ before before' => ⟨.ok x, before, before'⟩

theorem throw {e e' : LiteralError} (label : e.label = e'.label) :
    Alike (α := α) I (throw e) (throw e') := fun _ _ before before' => ⟨.error label, before, before'⟩

theorem modify {f g : LiteralState → LiteralState} (keeps : ∀ s, I s → I (f s)) (keeps' : ∀ s, I s → I (g s)) :
    Alike I (modify f) (modify g) := fun s t before before' => ⟨.ok (), keeps s before, keeps' t before'⟩

theorem bind {first second : Compilation α} {next next' : α → Compilation β} (alike : Alike I first second)
    (later : ∀ x, Alike I (next x) (next' x)) : Alike I (first >>= next) (second >>= next') := by
  intro s t before before'
  obtain ⟨same, after, after'⟩ := alike s t before before'
  rw [run_bind, run_bind]
  revert same after after'
  generalize first.run s = left
  generalize second.run t = right
  intro same after after'
  obtain ⟨x, s'⟩ := left
  obtain ⟨y, t'⟩ := right
  cases same with
  | ok x => exact later x s' t' after after'
  | error label => exact ⟨.error label, after, after'⟩

theorem mapM {ι : Type} {f g : ι → Compilation α} {is js : List ι}
    (each : List.Forall₂ (fun i j => Alike I (f i) (g j)) is js) : Alike I (is.mapM f) (js.mapM g) := by
  induction each with
  | nil => exact pure []
  | cons head tail ih =>
    rw [List.mapM_cons, List.mapM_cons]
    exact head.bind fun x => ih.bind fun xs => pure (x :: xs)

end Alike

end Compilation

open Compilation (Alike SameResult IsEndless)

/-! ### Values that resemble each other -/

/-- A member has either value in its static field or neither, and the values are related. -/
def MethodDecl.LoadsAlike (m : MethodDecl) (R : Value → Value → Prop) (v w : Value) : Prop :=
  Literal.readsStatic m v = Literal.readsStatic m w ∧ R v w

/-- Two values resemble each other if their parts are related: they are equal and have no parts, or arrays of elements
    that are related, or annotations of one type whose effective values are loaded alike for each member. -/
inductive Value.ResemblesBy (c : Corpus) (R : Value → Value → Prop) : Value → Value → Prop
  | plain {v : Value} (alone : v.nested? = none) (whole : v.elements? = none) : ResemblesBy c R v v
  | array {kind kind' : ValueKind} {vs ws : List Value} (each : List.Forall₂ R vs ws) :
    ResemblesBy c R (.array kind vs) (.array kind' ws)
  | nested {a b : Annotation} (type : a.type = b.type)
    (members : ∀ d, c.class? a.type = some d → ∀ m ∈ d.regularMethods,
      Option.Rel (m.LoadsAlike R) (a.effectiveValue? m) (b.effectiveValue? m)) : ResemblesBy c R (.nested a) (.nested b)

theorem Value.ResemblesBy.fits_eq {c : Corpus} {R : Value → Value → Prop} {v w : Value} (alike : v.ResemblesBy c R w)
    (expected : Ty) : v.fits expected = w.fits expected := by
  cases alike with
  | plain => rfl
  | array each => cases expected <;> rfl
  | nested type members => cases expected <;> simp [Value.fits, Value.kind, type]

section

variable {c : LiteralSettings} {R : Value → Value → Prop} {I : LiteralState → Prop}
  (closed : ∀ v w, R v w → v.ResemblesBy c.corpus R w)

namespace Literal

variable {nested nested' : Annotation → Compilation Construction}
  (inside : ∀ a b, R (.nested a) (.nested b) → Alike I (nested a) (nested' b))
include closed inside

theorem alike_loadScalar (l : Literal) (m : MethodDecl) (expected : Ty) {v w : Value} (related : R v w) :
    Alike I (l.loadScalar nested m expected v) (l.loadScalar nested' m expected w) := by
  have alike := closed v w related
  unfold loadScalar
  rw [alike.fits_eq expected]
  by_cases fits : w.fits expected
  · rw [if_pos fits, if_pos fits]
    cases alike with
    | plain alone whole =>
      cases v with
      | nested a => cases alone
      | array kind elements => cases whole
      | _ => exact .pure _
    | array each => exact .throw rfl
    | @nested a b type members => exact inside a b related
  · rw [if_neg fits, if_neg fits]
    exact .throw rfl

theorem alike_loadValue (l : Literal) (m : MethodDecl) {v w : Value} (loads : m.LoadsAlike R v w) :
    Alike I (l.loadValue nested m v) (l.loadValue nested' m w) := by
  obtain ⟨static, related⟩ := loads
  unfold loadValue
  rw [static]
  by_cases kept : readsStatic m w
  · rw [if_pos kept, if_pos kept]
    exact .pure _
  · rw [if_neg kept, if_neg kept]
    have alike := closed v w related
    cases several : m.returns.component? with
    | none =>
      cases alike with
      | plain alone whole =>
        cases v with
        | array kind elements => cases whole
        | _ => exact alike_loadScalar closed inside l m m.returns related
      | array each => cases each <;> exact .throw rfl
      | nested type members => exact alike_loadScalar closed inside l m m.returns related
    | some component =>
      cases alike with
      | plain alone whole =>
        cases v with
        | array kind elements => cases whole
        | _ => exact .throw rfl
      | array each =>
        cases each with
        | nil => exact .pure _
        | cons head tail =>
          have built := Alike.mapM ((List.Forall₂.cons head tail).imp fun _ _ =>
            alike_loadScalar closed inside l m component)
          exact built.bind fun xs => .pure _
      | nested type members => exact .throw rfl

theorem alike_loadMember (l : Literal) {a b : Annotation} {m : MethodDecl}
    (values : Option.Rel (m.LoadsAlike R) (a.effectiveValue? m) (b.effectiveValue? m)) :
    Alike I (l.loadMember nested a m) (l.loadMember nested' b m) := by
  unfold loadMember
  revert values
  generalize a.effectiveValue? m = value
  generalize b.effectiveValue? m = value'
  intro values
  cases values with
  | some loads => exact alike_loadValue closed inside l m loads
  | none => exact .throw rfl

end Literal

/-! ### Annotations that resemble each other -/

namespace LiteralSettings

/-- Whatever the states are, the shared literal is that of the type. -/
theorem alike_sharedLiteral_bind {α : Type} {d : ClassDecl} (declared : c.corpus.class? d.name = some d)
    {next next' : Literal → Compilation α} (rest : Alike c.Prepared (next (c.prepare d)) (next' (c.prepare d))) :
    Alike c.Prepared (c.sharedLiteral d >>= next) (c.sharedLiteral d >>= next') := by
  intro s t before before'
  obtain ⟨s', got, after⟩ := exists_sharedLiteral_run before declared
  obtain ⟨t', got', after'⟩ := exists_sharedLiteral_run before' declared
  rw [Compilation.run_bind, Compilation.run_bind, got, got']
  exact rest s' t' after after'

section

variable {nested nested' : Annotation → Compilation Construction}
  (inside : ∀ a b, R (.nested a) (.nested b) → Alike c.Prepared (nested a) (nested' b))
include closed inside

theorem alike_construct {d : ClassDecl} (declared : c.corpus.class? d.name = some d) {a b : Annotation}
    (members : ∀ m ∈ d.regularMethods, Option.Rel (m.LoadsAlike R) (a.effectiveValue? m) (b.effectiveValue? m)) :
    Alike c.Prepared (c.construct nested d a) (c.construct nested' d b) := by
  refine alike_sharedLiteral_bind declared ?_
  have built := Alike.mapM (List.forall₂_same.2 fun m member =>
    Literal.alike_loadMember closed inside (c.prepare d) (members m member))
  exact built.bind fun arguments => .pure _

theorem alike_materializeWith (sharing : c.shared = true) {a b : Annotation} (type : a.type = b.type) {d : ClassDecl}
    (declared : c.corpus.class? a.type = some d)
    (members : ∀ m ∈ d.regularMethods, Option.Rel (m.LoadsAlike R) (a.effectiveValue? m) (b.effectiveValue? m))
    (package package' : String) :
    Alike c.Prepared (c.materializeWith d a package nested) (c.materializeWith d b package' nested') := by
  have same : d.name = a.type := (Corpus.class?_eq_some_iff.1 declared).2
  rw [materializeWith_eq c same, materializeWith_eq c (same.trans type), if_pos sharing, if_pos sharing]
  refine .bind (.modify (fun _ before => before) fun _ before => before) fun _ => ?_
  exact alike_construct closed inside (same ▸ declared) members

end

include closed in
/-- To whatever depth, related annotations are compiled alike. The induction is on the depth: where their values are
    related, so are the annotations inside. -/
theorem alike_materializeWithin (sharing : c.shared = true) (depth : Nat) {a b : Annotation}
    (related : R (.nested a) (.nested b)) {d : ClassDecl} (declared : c.corpus.class? a.type = some d)
    (package package' : String) :
    Alike c.Prepared (c.materializeWithin depth d a package) (c.materializeWithin depth d b package') := by
  induction depth generalizing a b d package package' with
  | zero => exact .throw rfl
  | succ depth ih =>
    cases closed _ _ related with
    | plain alone => cases alone
    | nested type members =>
      refine alike_materializeWith closed ?_ sharing type declared (members d declared) package package'
      intro inner inner' related'
      cases closed _ _ related' with
      | plain alone => cases alone
      | nested type' members' =>
        rw [← type']
        cases found : c.corpus.class? inner.type with
        | some d' => exact ih related' found _ _
        | none => exact .throw rfl

/-- All depths that are great enough lead to the result that the compiler gets to. -/
theorem sameResult_materializeWithin {s : LiteralState} (reached : c.Reached s) {d : ClassDecl} {a : Annotation}
    (declared : c.corpus.class? a.type = some d) (package : String) {depth : Nat} (enough : c.depthBound s d a ≤ depth) :
    SameResult ((c.materializeFromCorpus a package).run s).1 ((c.materializeWithin depth d a package).run s).1 := by
  rw [materializeFromCorpus_run declared]
  by_cases endless : IsEndless ((c.materializeWithin (c.depthBound s d a) d a package).run s)
  · have further := isEndless_of_isEndless_depthBound declared package reached.isSound endless depth
    exact Compilation.sameResult_of_isEndless endless further
  · rw [materializeWithin_run_eq declared package reached.isSound enough endless]
    exact .refl _

include closed in
/-- Related annotations have the same result in all states of the compiler. -/
theorem sameResult_materializeFromCorpus (sharing : c.shared = true) {s t : LiteralState} (reached : c.Reached s)
    (reached' : c.Reached t) {a b : Annotation} (related : R (.nested a) (.nested b)) (package package' : String) :
    SameResult ((c.materializeFromCorpus a package).run s).1 ((c.materializeFromCorpus b package').run t).1 := by
  cases closed _ _ related with
  | plain alone => cases alone
  | nested type members =>
    cases declared : c.corpus.class? a.type with
    | none =>
      rw [materializeFromCorpus, materializeFromCorpus, ← type, declared]
      exact .error rfl
    | some d =>
      -- The depths that are allowed differ, so both are compared at one that suffices for either.
      let depth := max (c.depthBound s d a) (c.depthBound t d b)
      have first := sameResult_materializeWithin reached declared package (Nat.le_max_left _ _ : _ ≤ depth)
      have second := sameResult_materializeWithin reached' (type ▸ declared) package' (Nat.le_max_right _ _ : _ ≤ depth)
      have alike := alike_materializeWithin closed sharing depth related declared package package'
      exact (first.trans (alike s t reached.isSound.prepared reached'.isSound.prepared).1).trans second.symm

end LiteralSettings

end

end AnnotationWeaver
