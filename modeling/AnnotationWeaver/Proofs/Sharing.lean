import AnnotationWeaver.Proofs.Compilations
import AnnotationWeaver.Proofs.Directory

/-!
Shared literals and one-off literals. An instance of a shared class gets the values of the members as its
arguments; an instance of a one-off class has them in the methods that were written for it. Constructions
correspond when they differ in this alone, at every depth. A compiler that shares and one that does not, both
of them fresh, fail with the same error or build constructions that correspond.
-/
namespace AnnotationWeaver

open Compilation (Parallel Lasting)

/-- The class implements the annotation type: its methods are the members, in order, and return the values. -/
structure LiteralClass.Implements (k : LiteralClass) (d : ClassDecl) (values : List Construction) : Prop where
  annotationType : k.annotationType = d.name
  members : k.methods.map (fun m => (m.name, m.returns)) = d.regularMethods.map fun m => (m.name, m.returns)
  bodies : k.methods.map (·.body) = values.map .returnValue

/-- A one-off class implements its type, given one value for each member. -/
theorem Literal.implements_oneOffClass (l : Literal) {values : List Construction}
    (length : values.length = l.members.length) : (l.oneOffClass values).Implements l.declaration values where
  annotationType := rfl
  members := by
    have firsts : (l.members.zip values).map (·.1) = l.members := List.map_fst_zip (Nat.le_of_eq length.symm)
    have members := congrArg (List.map fun m => (m.name, m.returns)) firsts
    rw [List.map_map] at members
    rw [oneOffClass, List.map_map]
    exact members
  bodies := by
    have seconds : (l.members.zip values).map (·.2) = values := List.map_snd_zip (Nat.le_of_eq length)
    have bodies := congrArg (List.map MethodBody.returnValue) seconds
    rw [List.map_map] at bodies
    rw [oneOffClass, List.map_map]
    exact bodies

/-! ### Correspondence -/

section

variable (c : Corpus) (package : String)

mutual

/-- The second construction builds with one-off classes, all of them written, what the first builds with shared
    ones. Inside an instance, `enclosing` is the pair of classes that are instantiated. -/
def Construction.Corresponds (enclosing : Option (TypeName × TypeName)) (written : List LiteralClass)
    (x y : Construction) : Prop :=
  match x with
  | .newInstance name types arguments =>
    ∃ d ∈ c.classes, name = Literal.sharedName d.name package ∧ types = d.regularMethods.map (·.returns) ∧
      ∃ k ∈ written, y = .newInstance k.name [] [] ∧ ∃ values, k.Implements d values ∧
        Construction.AllCorrespond (some (name, k.name)) written arguments values
  | .newArray component elements =>
    ∃ others, y = .newArray component others ∧ Construction.AllCorrespond enclosing written elements others
  | .staticField owner field type => ∃ other, enclosing = some (owner, other) ∧ y = .staticField other field type
  | .const value => y = .const value
  | .enumConstant type constant => y = .enumConstant type constant
  | .loadClass name => y = .loadClass name
  | .emptyArray kind => y = .emptyArray kind
termination_by structural x

/-- As many constructions on both sides, and each corresponds to the one in its place. -/
def Construction.AllCorrespond (enclosing : Option (TypeName × TypeName)) (written : List LiteralClass)
    (xs ys : List Construction) : Prop :=
  match xs, ys with
  | [], [] => True
  | x :: xs, y :: ys => x.Corresponds enclosing written y ∧ Construction.AllCorrespond enclosing written xs ys
  | _, _ => False
termination_by structural xs

end

variable {c package} {enclosing : Option (TypeName × TypeName)} {written more : List LiteralClass}

theorem allCorrespond_iff {xs ys : List Construction} :
    Construction.AllCorrespond c package enclosing written xs ys ↔
      List.Forall₂ (Construction.Corresponds c package enclosing written) xs ys := by
  induction xs generalizing ys with
  | nil => cases ys <;> simp [Construction.AllCorrespond]
  | cons x xs ih => cases ys <;> simp [Construction.AllCorrespond, ih]

mutual

/-- Writing more classes keeps constructions corresponding. -/
theorem Construction.Corresponds.widen {enclosing : Option (TypeName × TypeName)} {x y : Construction}
    (corresponds : x.Corresponds c package enclosing written y) (wider : written ⊆ more) :
    x.Corresponds c package enclosing more y := by
  cases x with
  | newInstance name types arguments =>
    rw [Construction.Corresponds] at corresponds ⊢
    obtain ⟨d, declared, shared, returns, k, member, built, values, implements, inside⟩ := corresponds
    exact ⟨d, declared, shared, returns, k, wider member, built, values, implements, inside.widen wider⟩
  | newArray component elements =>
    rw [Construction.Corresponds] at corresponds ⊢
    obtain ⟨others, built, inside⟩ := corresponds
    exact ⟨others, built, inside.widen wider⟩
  | _ => simpa only [Construction.Corresponds] using corresponds
termination_by structural x

theorem Construction.AllCorrespond.widen {enclosing : Option (TypeName × TypeName)} {xs ys : List Construction}
    (correspond : Construction.AllCorrespond c package enclosing written xs ys) (wider : written ⊆ more) :
    Construction.AllCorrespond c package enclosing more xs ys := by
  cases xs with
  | nil => cases ys <;> exact correspond
  | cons x rest =>
    cases ys with
    | nil => exact correspond
    | cons y others =>
      rw [Construction.AllCorrespond] at correspond ⊢
      exact ⟨correspond.1.widen wider, correspond.2.widen wider⟩
termination_by structural xs

end

theorem lasting_corresponds : Lasting (Construction.Corresponds c package enclosing) :=
  fun _ _ _ _ wider corresponds => corresponds.widen wider

variable (c package)

/-- Constructions that correspond wherever they stand, as those of whole annotations do. -/
def Construction.Agrees (written : List LiteralClass) (x y : Construction) : Prop :=
  ∀ enclosing, x.Corresponds c package enclosing written y

end

/-! ### Values of members -/

namespace Literal

variable {I : LiteralState → Prop} {base : List LiteralClass} {c : Corpus} {package : String}
  {nested nested' : Annotation → Compilation Construction} {l l' : Literal}

theorem unsupported_congr (same : l.declaration = l'.declaration) (m : MethodDecl) (v : Value) :
    l.unsupported m v = l'.unsupported m v := by
  simp [unsupported, type, same]

variable (same : l.declaration = l'.declaration)
  (inside : ∀ a, Parallel I base (Construction.Agrees c package) (nested a) (nested' a))
include same inside

/-- Scalars are built in the same way for two classes of an annotation type, if annotations inside are. -/
theorem parallel_loadScalar (m : MethodDecl) (expected : Ty) (v : Value) :
    Parallel I base (Construction.Corresponds c package (some (l.name, l'.name)))
      (l.loadScalar nested m expected v) (l'.loadScalar nested' m expected v) := by
  unfold loadScalar
  by_cases fits : v.fits expected
  · rw [if_pos fits, if_pos fits, unsupported_congr same]
    cases v with
    | nested a => exact (inside a).weaken fun _ _ _ agrees => agrees _
    | array component elements => exact .throw _
    | _ => exact .pure fun _ _ => by simp [Construction.Corresponds]
  · rw [if_neg fits, if_neg fits, unsupported_congr same]
    exact .throw _

/-- So are the values of members, but for the static fields: each class reads its own. -/
theorem parallel_loadValue (m : MethodDecl) (v : Value) :
    Parallel I base (Construction.Corresponds c package (some (l.name, l'.name)))
      (l.loadValue nested m v) (l'.loadValue nested' m v) := by
  unfold loadValue
  by_cases kept : readsStatic m v
  · rw [if_pos kept, if_pos kept]
    exact .pure fun _ _ => by simp [Construction.Corresponds]
  · rw [if_neg kept, if_neg kept, unsupported_congr same]
    cases m.returns.component? with
    | none =>
      cases v with
      | array kind elements => cases elements <;> exact .throw _
      | _ => exact parallel_loadScalar same inside m m.returns _
    | some component =>
      cases v with
      | array kind elements =>
        cases elements with
        | nil =>
          refine .pure fun _ _ => ?_
          cases EmptyArray.ofComponent? component with
          | none => exact ⟨[], rfl, trivial⟩
          | some kind => rfl
        | cons v rest =>
          have built := Parallel.mapM lasting_corresponds (v :: rest) fun v _ =>
            parallel_loadScalar same inside m component v
          refine built.bind fun written xs ys _ built => ?_
          exact .pure fun more wider => ⟨ys, rfl, (allCorrespond_iff.2 built.1).widen wider⟩
      | _ => exact .throw _

theorem parallel_loadMember (a : Annotation) (m : MethodDecl) :
    Parallel I base (Construction.Corresponds c package (some (l.name, l'.name)))
      (l.loadMember nested a m) (l'.loadMember nested' a m) := by
  unfold loadMember
  cases a.effectiveValue? m with
  | some v => exact parallel_loadValue same inside m v
  | none =>
    have missing : l.type = l'.type := congrArg (·.name) same
    simp only [missing]
    exact .throw _

end Literal

/-! ### Annotations -/

namespace LiteralSettings

variable (c : LiteralSettings)

/-- What was prepared are the shared literals of annotation types in the corpus. -/
def Prepared (s : LiteralState) : Prop :=
  ∀ l ∈ s.literals, l = c.prepare l.declaration ∧ c.corpus.class? l.type = some l.declaration

variable {c}

theorem sharedLiteral_run (d : ClassDecl) (s : LiteralState) :
    (c.sharedLiteral d).run s =
      match s.literal? d.name with
      | some l => (.ok l, s)
      | none => (.ok (c.prepare d), { s with literals := s.literals ++ [c.prepare d] }) := by
  have got : (get : Compilation LiteralState).run s = (.ok s, s) := rfl
  rw [sharedLiteral, Compilation.run_bind, got]
  cases found : s.literal? d.name with
  | some l => simp only [found]; rfl
  | none => simp only [found]; rfl

/-- A literal that was prepared before is the one that would be prepared now. -/
theorem Prepared.eq_prepare {s : LiteralState} (prepared : c.Prepared s) {d : ClassDecl}
    (declared : c.corpus.class? d.name = some d) {l : Literal} (found : s.literal? d.name = some l) :
    l = c.prepare d := by
  have type : l.type = d.name := by simpa using List.find?_some found
  obtain ⟨equal, indexed⟩ := prepared l (List.mem_of_find?_eq_some found)
  rw [type, declared] at indexed
  rw [equal, ← Option.some.inj indexed]

theorem Prepared.insert {s : LiteralState} (prepared : c.Prepared s) {d : ClassDecl}
    (declared : c.corpus.class? d.name = some d) :
    c.Prepared { s with literals := s.literals ++ [c.prepare d] } := by
  intro l member
  rcases List.mem_append.1 member with earlier | last
  · exact prepared l earlier
  · obtain rfl := List.mem_singleton.1 last
    exact ⟨rfl, declared⟩

/-- A literal of the corpus is got as it is prepared, whether that is done now or was before. -/
theorem exists_sharedLiteral_run {s : LiteralState} (prepared : c.Prepared s) {d : ClassDecl}
    (declared : c.corpus.class? d.name = some d) :
    ∃ s', (c.sharedLiteral d).run s = (.ok (c.prepare d), s') ∧ c.Prepared s' := by
  rw [sharedLiteral_run]
  cases found : s.literal? d.name with
  | some l => exact ⟨s, by rw [prepared.eq_prepare declared found], prepared⟩
  | none => exact ⟨_, rfl, prepared.insert declared⟩

theorem parallel_sharedLiteral_bind {α β : Type} {base : List LiteralClass} {R : List LiteralClass → α → β → Prop}
    {d : ClassDecl} (declared : c.corpus.class? d.name = some d) {next : Literal → Compilation α}
    {other : Compilation β} (rest : Parallel c.Prepared base R (next (c.prepare d)) other) :
    Parallel c.Prepared base R (c.sharedLiteral d >>= next) other := by
  intro s t prepared kept
  obtain ⟨s', got, prepared'⟩ := exists_sharedLiteral_run prepared declared
  rw [Compilation.run_bind, got]
  exact rest s' t prepared' kept

theorem materializeWith_eq (c : LiteralSettings) {d : ClassDecl} {a : Annotation} (same : d.name = a.type)
    (targetPackage : String) (nested : Annotation → Compilation Construction) :
    c.materializeWith d a targetPackage nested = (do
      modify fun s => { s with materialized := s.materialized + 1 }
      if c.shared then c.construct nested d a else c.constructOneOff nested d a targetPackage) := by
  simp [materializeWith, same]

section

variable {base : List LiteralClass} {nested nested' : Annotation → Compilation Construction}
  (inside : ∀ a, Parallel c.Prepared base (Construction.Agrees c.corpus c.generatedPackage) (nested a) (nested' a))
include inside

/-- An instance of the shared class and one of a class written for the annotation. -/
theorem parallel_construct {d : ClassDecl} (declared : c.corpus.class? d.name = some d) (a : Annotation)
    (targetPackage : String) :
    Parallel c.Prepared base (Construction.Agrees c.corpus c.generatedPackage)
      (c.construct nested d a) (c.constructOneOff nested' d a targetPackage) := by
  refine parallel_sharedLiteral_bind declared ?_
  have same : (c.prepare d).declaration =
      Literal.declaration ⟨Literal.oneOffName a targetPackage c.generatedPackage, false, d⟩ := rfl
  have members := Parallel.mapM lasting_corresponds d.regularMethods fun m _ =>
    Literal.parallel_loadMember same inside a m
  refine members.bind fun written arguments values _ built => ?_
  refine .pure_modify (fun t => List.subset_append_left _ _) fun t kept enclosing => ?_
  have correspond := allCorrespond_iff.2 built.1
  have implements := Literal.implements_oneOffClass
    ⟨Literal.oneOffName a targetPackage c.generatedPackage, false, d⟩ built.2
  refine ⟨d, (Corpus.class?_eq_some_iff.1 declared).1, rfl, rfl, _, List.mem_append_right _ List.mem_cons_self, rfl,
    values, implements, ?_⟩
  exact correspond.widen (List.Subset.trans kept (List.subset_append_left _ _))

theorem parallel_materializeWith {d : ClassDecl} {a : Annotation} (declared : c.corpus.class? a.type = some d)
    (targetPackage : String) :
    Parallel c.Prepared base (Construction.Agrees c.corpus c.generatedPackage)
      ({ c with shared := true }.materializeWith d a targetPackage nested)
      ({ c with shared := false }.materializeWith d a targetPackage nested') := by
  have same : d.name = a.type := (Corpus.class?_eq_some_iff.1 declared).2
  rw [materializeWith_eq _ same, materializeWith_eq _ same]
  have counted : Parallel c.Prepared base (fun _ _ _ => True)
      (modify fun s => { s with materialized := s.materialized + 1 })
      (modify fun s => { s with materialized := s.materialized + 1 }) :=
    .modify_both (fun s prepared => prepared) fun t _ member => member
  refine counted.bind fun written _ _ wider _ => ?_
  exact parallel_construct (fun inner => (inside inner).widen wider) (same ▸ declared) a targetPackage

end

/-- The induction is on the depth: an annotation is compiled in parallel if the annotations inside it are. -/
theorem parallel_materializeWithin (depth : Nat) {d : ClassDecl} {a : Annotation}
    (declared : c.corpus.class? a.type = some d) (targetPackage : String) (base : List LiteralClass) :
    Parallel c.Prepared base (Construction.Agrees c.corpus c.generatedPackage)
      ({ c with shared := true }.materializeWithin depth d a targetPackage)
      ({ c with shared := false }.materializeWithin depth d a targetPackage) := by
  induction depth generalizing d a targetPackage base with
  | zero => exact .throw _
  | succ depth ih =>
    refine parallel_materializeWith (fun inner => ?_) declared targetPackage
    dsimp only
    cases found : c.corpus.class? inner.type with
    | some inside => exact ih found inner.type.package base
    | none => exact .throw _

theorem materialize_run (c : LiteralSettings) (d : ClassDecl) (a : Annotation) (targetPackage : String)
    (s : LiteralState) :
    (c.materialize d a targetPackage).run s = (c.materializeWithin (c.depthBound s d a) d a targetPackage).run s := by
  have got : (get : Compilation LiteralState).run s = (.ok s, s) := rfl
  rw [materialize, Compilation.run_bind, got]

theorem parallel_materializeFromCorpus (a : Annotation) (targetPackage : String) :
    Compilation.Outcome c.Prepared (Construction.Agrees c.corpus c.generatedPackage) []
      (({ c with shared := true }.materializeFromCorpus a targetPackage).run .initial)
      (({ c with shared := false }.materializeFromCorpus a targetPackage).run .initial) := by
  have prepared : c.Prepared .initial := by simp [Prepared, LiteralState.initial]
  unfold materializeFromCorpus
  cases found : c.corpus.class? a.type with
  | some d =>
    -- Both start from the same state, so the same depth is allowed to both.
    have parallel := parallel_materializeWithin (c.depthBound .initial d a) found targetPackage []
    simp only [materialize_run]
    exact parallel .initial .initial prepared (List.nil_subset _)
  | none => exact .failure prepared (List.nil_subset _)

end LiteralSettings

/-- A compiler that shares literals and one that does not, both fresh, fail on an annotation with the same error,
    or both succeed, with constructions that correspond by the classes that the second has written. -/
theorem shared_and_one_off_literals_agree (c : LiteralSettings) (a : Annotation) (targetPackage : String) :
    ∃ s t,
      (∃ e, ({ c with shared := true }.materializeFromCorpus a targetPackage).run .initial = (.error e, s) ∧
        ({ c with shared := false }.materializeFromCorpus a targetPackage).run .initial = (.error e, t)) ∨
      ∃ x y, ({ c with shared := true }.materializeFromCorpus a targetPackage).run .initial = (.ok x, s) ∧
        ({ c with shared := false }.materializeFromCorpus a targetPackage).run .initial = (.ok y, t) ∧
        x.Corresponds c.corpus c.generatedPackage none t.written y := by
  have ends := LiteralSettings.parallel_materializeFromCorpus (c := c) a targetPackage
  revert ends
  generalize ({ c with shared := true }.materializeFromCorpus a targetPackage).run .initial = left
  generalize ({ c with shared := false }.materializeFromCorpus a targetPackage).run .initial = right
  rintro (⟨-, -⟩ | ⟨-, -, agrees⟩)
  · exact ⟨_, _, .inl ⟨_, rfl, rfl⟩⟩
  · exact ⟨_, _, .inr ⟨_, _, rfl, rfl, agrees none⟩⟩

end AnnotationWeaver
