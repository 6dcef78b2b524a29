import AnnotationWeaver.Proofs.Sharing

/-!
Runs of the compiler. A compilation is followed by another when from every sound state it ends in such a state, with a
result for which a postcondition holds or with an expected error, and the other ends in the same way; only if the
first finds an annotation nested without end may the other differ, as it may allow more depth. No literal that
was prepared is taken back. One step of the compiler compiles the annotations that fit among the values of the members,
and no others; what it builds reads static fields of its own class only, and of classes that the annotations inside
have settled.
-/
namespace AnnotationWeaver

/-- The error of an annotation that is nested without end. -/
def LiteralError.IsEndless (e : LiteralError) : Prop := ∃ type, e = .endlessNesting type

namespace Compilation

section

variable {α β : Type} (I : LiteralState → Prop) (E : LiteralError → Prop) (lasts : Prop)

/-- How a compilation ends, and the one that follows it. If `lasts`, what is endless in the first is so in the other. -/
inductive Ends (base : List Literal) (R : List Literal → α → Prop) :
    Except LiteralError α × LiteralState → Except LiteralError α × LiteralState → Prop
  | success {x : α} {s : LiteralState} (invariant : I s) (kept : base ⊆ s.literals) (holds : R s.literals x) :
    Ends base R (.ok x, s) (.ok x, s)
  | failure {e : LiteralError} {s : LiteralState} (invariant : I s) (kept : base ⊆ s.literals) (expected : E e) :
    Ends base R (.error e, s) (.error e, s)
  | endless {e : LiteralError} {s : LiteralState} {other : Except LiteralError α × LiteralState} (invariant : I s)
    (kept : base ⊆ s.literals) (expected : E e) (endless : e.IsEndless)
    (again : lasts → ∃ e' t, other = (.error e', t) ∧ e'.IsEndless) : Ends base R (.error e, s) other

/-- From every state that satisfies the invariant and has at least the literals of `base`. -/
def Follows (base : List Literal) (R : List Literal → α → Prop) (x y : Compilation α) : Prop :=
  ∀ s, I s → base ⊆ s.literals → Ends I E lasts s.literals R (x.run s) (y.run s)

end

variable {α β : Type} {I : LiteralState → Prop} {E : LiteralError → Prop} {lasts : Prop} {base : List Literal}
  {R S : List Literal → α → Prop}

theorem Ends.grow {more : List Literal} {first second : Except LiteralError α × LiteralState}
    (ends : Ends I E lasts more R first second) (wider : base ⊆ more) : Ends I E lasts base R first second := by
  cases ends with
  | success invariant kept holds => exact .success invariant (List.Subset.trans wider kept) holds
  | failure invariant kept expected => exact .failure invariant (List.Subset.trans wider kept) expected
  | endless invariant kept expected endless again =>
    exact .endless invariant (List.Subset.trans wider kept) expected endless again

namespace Follows

theorem widen {more : List Literal} (wider : base ⊆ more) {x y : Compilation α}
    (follows : Follows I E lasts base R x y) : Follows I E lasts more R x y :=
  fun s invariant kept => follows s invariant (List.Subset.trans wider kept)

theorem weaken {x y : Compilation α} (follows : Follows I E lasts base R x y)
    (implied : ∀ literals z, base ⊆ literals → R literals z → S literals z) : Follows I E lasts base S x y := by
  intro s invariant kept
  have ends := follows s invariant kept
  revert ends
  generalize x.run s = first
  generalize y.run s = second
  rintro (⟨invariant', kept', holds⟩ | ⟨invariant', kept', expected⟩ | ⟨invariant', kept', expected, endless, again⟩)
  · exact .success invariant' kept' (implied _ _ (List.Subset.trans kept kept') holds)
  · exact .failure invariant' kept' expected
  · exact .endless invariant' kept' expected endless again

theorem pure {z : α} (holds : ∀ literals, base ⊆ literals → R literals z) :
    Follows I E lasts base R (Pure.pure z) (Pure.pure z) :=
  fun _ invariant kept => .success invariant (fun _ member => member) (holds _ kept)

theorem throw {e : LiteralError} (expected : E e) : Follows I E lasts base R (throw e) (throw e) :=
  fun _ invariant _ => .failure invariant (fun _ member => member) expected

/-- Where no depth is left, any compilation follows. -/
theorem throw_endless {type : TypeName} (expected : E (.endlessNesting type)) (y : Compilation α) :
    Follows I E False base R (MonadExcept.throw (LiteralError.endlessNesting type)) y :=
  fun _ invariant _ => .endless invariant (fun _ member => member) expected ⟨type, rfl⟩ False.elim

theorem modify {f : LiteralState → LiteralState} (keeps : ∀ s, I s → I (f s))
    (grows : ∀ s, s.literals ⊆ (f s).literals) :
    Follows I E lasts base (fun _ _ => True) (modify f) (modify f) :=
  fun s invariant _ => .success (keeps s invariant) (grows s) trivial

/-- One after the other: the second parts run from wherever the first ones end. -/
theorem bind {S : List Literal → β → Prop} {x y : Compilation α} {next next' : α → Compilation β}
    (follows : Follows I E lasts base R x y)
    (later : ∀ literals z, base ⊆ literals → R literals z → Follows I E lasts literals S (next z) (next' z)) :
    Follows I E lasts base S (x >>= next) (y >>= next') := by
  intro s invariant kept
  have ends := follows s invariant kept
  rw [run_bind, run_bind]
  revert ends
  generalize x.run s = first
  generalize y.run s = second
  rintro (⟨invariant', kept', holds⟩ | ⟨invariant', kept', expected⟩ | ⟨invariant', kept', expected, endless, again⟩)
  · exact (later _ _ (List.Subset.trans kept kept') holds _ invariant' fun _ member => member).grow kept'
  · exact .failure invariant' kept' expected
  · refine .endless invariant' kept' expected endless fun still => ?_
    obtain ⟨e', t, rfl, endless'⟩ := again still
    exact ⟨e', t, rfl, endless'⟩

/-- What holds for each result as it is made holds for all of them, if more literals cannot break it. -/
theorem mapM (lasting : ∀ literals more z, literals ⊆ more → R literals z → R more z) {ι : Type}
    {f g : ι → Compilation α} (xs : List ι) (each : ∀ x ∈ xs, Follows I E lasts base R (f x) (g x)) :
    Follows I E lasts base (fun literals zs => ∀ z ∈ zs, R literals z) (xs.mapM f) (xs.mapM g) := by
  induction xs generalizing base with
  | nil =>
    rw [List.mapM_nil, List.mapM_nil]
    exact pure fun _ _ z member => absurd member List.not_mem_nil
  | cons x rest ih =>
    rw [List.mapM_cons, List.mapM_cons]
    refine (each x List.mem_cons_self).bind fun literals z wider head => ?_
    have others : ∀ x' ∈ rest, Follows I E lasts literals R (f x') (g x') :=
      fun x' member => (each x' (List.mem_cons_of_mem _ member)).widen wider
    refine (ih others).bind fun more zs wider' tail => ?_
    refine pure fun most widest z' member => ?_
    rcases List.mem_cons.1 member with rfl | later
    · exact lasting _ _ _ (List.Subset.trans wider' widest) head
    · exact lasting _ _ _ widest (tail z' later)

end Follows

end Compilation

open Compilation (Follows)

/-! ### Annotations inside -/

/-- A value of the member is built from the construction of the annotation, which fits where it stands. -/
inductive MethodDecl.Builds (m : MethodDecl) : Value → Annotation → Prop
  | alone {a : Annotation} (single : m.returns.component? = none) (fits : (Value.nested a).fits m.returns = true) :
    Builds m (.nested a) a
  | element {kind : ValueKind} {elements : List Value} {component : Ty} {a : Annotation}
    (several : m.returns.component? = some component) (member : .nested a ∈ elements)
    (fits : (Value.nested a).fits component = true) : Builds m (.array kind elements) a

/-- Compiling the first annotation as one of the declared type asks for the second: it is among the values of the
    members, and not read from a static field. -/
def ClassDecl.Asks (d : ClassDecl) (a inner : Annotation) : Prop :=
  ∃ m ∈ d.regularMethods, ∃ v, a.effectiveValue? m = some v ∧ Literal.readsStatic m v = false ∧ m.Builds v inner

/-! ### Reads of static fields -/

/-- A read of a static field, and the class in an instance of which it stands, if it stands in one. -/
structure StaticRead where
  holder : Option TypeName
  owner : TypeName
  field : String
  type : Ty

/-- The reads in a construction that stands in an instance of `holder`, at every depth. -/
inductive Construction.Reads : Option TypeName → Construction → StaticRead → Prop
  | here {holder : Option TypeName} {owner : TypeName} {field : String} {type : Ty} :
    Reads holder (.staticField owner field type) ⟨holder, owner, field, type⟩
  | element {holder : Option TypeName} {component : Ty} {elements : List Construction} {x : Construction}
    {r : StaticRead} (member : x ∈ elements) (inside : Reads holder x r) :
    Reads holder (.newArray component elements) r
  | argument {holder : Option TypeName} {name : TypeName} {types : List Ty} {arguments : List Construction}
    {x : Construction} {r : StaticRead} (member : x ∈ arguments) (inside : Reads (some name) x r) :
    Reads holder (.newInstance name types arguments) r

/-- The read stands in an instance of the literal's class, and reads the field for the default of a member. -/
structure Literal.Owns (l : Literal) (r : StaticRead) : Prop where
  holder : r.holder = some l.name
  owner : r.owner = l.name
  default : ∃ m ∈ l.members, ∃ v, m.default? = some v ∧ m.returns.holdsClasses = true ∧
    r.field = Literal.defaultField m.name ∧ r.type = m.returns

namespace LiteralSettings

/-- The class that the read stands in is shared. -/
def Settles (c : LiteralSettings) (literals : List Literal) (r : StaticRead) : Prop :=
  c.shared = true ∧ ∃ l ∈ literals, l.Owns r

/-- The class was written for an annotation of the corpus, without sharing, and reads its own static fields only. -/
def Wrote (c : LiteralSettings) (k : LiteralClass) : Prop :=
  c.shared = false ∧ ∃ (l : Literal) (values : List Construction), k = l.oneOffClass values ∧
    c.corpus.class? l.type = some l.declaration ∧ ∀ x ∈ values, ∀ r, x.Reads (some l.name) r → l.Owns r

/-- What holds for the state of a compiler after any run. -/
structure IsSound (c : LiteralSettings) (s : LiteralState) : Prop where
  prepared : c.Prepared s
  written : ∀ k ∈ s.written, c.Wrote k

/-- Wherever it stands, the construction reads static fields of shared classes only. -/
def Settled (c : LiteralSettings) (literals : List Literal) (x : Construction) : Prop :=
  ∀ holder r, x.Reads holder r → c.Settles literals r

/-- As the value of a member, the construction reads static fields of the class itself and of shared classes. -/
def SettledIn (c : LiteralSettings) (l : Literal) (literals : List Literal) (x : Construction) : Prop :=
  ∀ r, x.Reads (some l.name) r → l.Owns r ∨ c.Settles literals r

variable {c : LiteralSettings}

theorem Settles.widen {literals more : List Literal} {r : StaticRead} (settles : c.Settles literals r)
    (wider : literals ⊆ more) : c.Settles more r := by
  obtain ⟨sharing, l, listed, owns⟩ := settles
  exact ⟨sharing, l, wider listed, owns⟩

theorem SettledIn.widen {l : Literal} {literals more : List Literal} {x : Construction}
    (settled : c.SettledIn l literals x) (wider : literals ⊆ more) : c.SettledIn l more x :=
  fun r reads => (settled r reads).imp_right (·.widen wider)

theorem settledIn_of_no_reads {l : Literal} {literals : List Literal} {x : Construction}
    (none : ∀ r, ¬x.Reads (some l.name) r) : c.SettledIn l literals x :=
  fun r reads => absurd reads (none r)

theorem settledIn_newArray {l : Literal} {literals : List Literal} {component : Ty} {elements : List Construction}
    (each : ∀ x ∈ elements, c.SettledIn l literals x) : c.SettledIn l literals (.newArray component elements) := by
  intro r reads
  cases reads with
  | element member inside => exact each _ member r inside

end LiteralSettings

/-! ### Values of members -/

section

variable {I : LiteralState → Prop} {E : LiteralError → Prop} {lasts : Prop} {base : List Literal}
  {c : LiteralSettings} {nested nested' : Annotation → Compilation Construction}
  (ordinary : ∀ e : LiteralError, ¬e.IsEndless → E e)
include ordinary

namespace Literal

theorem expected_unsupported (l : Literal) (m : MethodDecl) (v : Value) : E (l.unsupported m v) := by
  refine ordinary _ ?_
  rintro ⟨type, equal⟩
  cases equal

theorem follows_loadScalar (l : Literal) (m : MethodDecl) (expected : Ty) (v : Value)
    (inside : ∀ a, v = .nested a → v.fits expected = true →
      Follows I E lasts base c.Settled (nested a) (nested' a)) :
    Follows I E lasts base (c.SettledIn l) (l.loadScalar nested m expected v) (l.loadScalar nested' m expected v) := by
  unfold loadScalar
  by_cases fits : v.fits expected
  · rw [if_pos fits, if_pos fits]
    cases v with
    | nested a => exact (inside a rfl fits).weaken fun _ _ _ settled r reads => .inr (settled _ r reads)
    | array component elements => exact .throw (expected_unsupported ordinary l m _)
    | _ => exact .pure fun _ _ => LiteralSettings.settledIn_of_no_reads nofun
  · rw [if_neg fits, if_neg fits]
    exact .throw (expected_unsupported ordinary l m v)

/-- A value is read from a static field of the class, or built of what the annotations inside are compiled to. -/
theorem follows_loadValue (l : Literal) {m : MethodDecl} (member : m ∈ l.members) (v : Value)
    (inside : ∀ a, readsStatic m v = false → m.Builds v a →
      Follows I E lasts base c.Settled (nested a) (nested' a)) :
    Follows I E lasts base (c.SettledIn l) (l.loadValue nested m v) (l.loadValue nested' m v) := by
  unfold loadValue
  by_cases kept : readsStatic m v
  · rw [if_pos kept, if_pos kept]
    rw [readsStatic, Bool.and_eq_true, Option.any_eq_true] at kept
    obtain ⟨holdsClasses, default, declared, -⟩ := kept
    refine .pure fun _ _ r reads => .inl ?_
    cases reads with
    | here => exact ⟨rfl, rfl, m, member, default, declared, holdsClasses, rfl, rfl⟩
  · rw [if_neg kept, if_neg kept]
    have asked : readsStatic m v = false := Bool.eq_false_iff.2 kept
    cases type : m.returns.component? with
    | none =>
      cases v with
      | array kind elements => cases elements <;> exact .throw (expected_unsupported ordinary l m _)
      | _ =>
        refine follows_loadScalar ordinary l m m.returns _ ?_
        rintro a equal fits
        exact inside a asked (equal ▸ .alone type (equal ▸ fits))
    | some component =>
      cases v with
      | array kind elements =>
        cases elements with
        | nil =>
          refine .pure fun _ _ => LiteralSettings.settledIn_of_no_reads ?_
          cases EmptyArray.ofComponent? component with
          | none =>
            rintro r (_ | ⟨element, _⟩)
            exact absurd element List.not_mem_nil
          | some kind => exact nofun
        | cons first rest =>
          have each : ∀ v ∈ first :: rest, Follows I E lasts base (c.SettledIn l)
              (l.loadScalar nested m component v) (l.loadScalar nested' m component v) := by
            intro v element
            refine follows_loadScalar ordinary l m component v ?_
            rintro a rfl fits
            exact inside a asked (.element type element fits)
          have built := Follows.mapM (fun _ _ _ wider settled => settled.widen wider) (first :: rest) each
          refine built.bind fun literals ys _ settled => ?_
          exact .pure fun more wider => (LiteralSettings.settledIn_newArray settled).widen wider
      | _ => exact .throw (expected_unsupported ordinary l m _)

theorem follows_loadMember (l : Literal) (a : Annotation) {m : MethodDecl} (member : m ∈ l.members)
    (inside : ∀ inner, l.declaration.Asks a inner →
      Follows I E lasts base c.Settled (nested inner) (nested' inner)) :
    Follows I E lasts base (c.SettledIn l) (l.loadMember nested a m) (l.loadMember nested' a m) := by
  unfold loadMember
  cases value : a.effectiveValue? m with
  | some v =>
    refine follows_loadValue ordinary l member v fun inner asked builds => ?_
    exact inside inner ⟨m, member, v, value, asked, builds⟩
  | none =>
    refine .throw (ordinary _ ?_)
    rintro ⟨type, equal⟩
    cases equal

end Literal

/-! ### Annotations -/

namespace LiteralSettings

omit ordinary in
theorem follows_sharedLiteral {d : ClassDecl} (declared : c.corpus.class? d.name = some d) :
    Follows c.IsSound E lasts base (fun literals l => l = c.prepare d ∧ l ∈ literals) (c.sharedLiteral d)
      (c.sharedLiteral d) := by
  intro s sound kept
  rw [sharedLiteral_run]
  cases found : s.literal? d.name with
  | some l =>
    have earlier := List.mem_of_find?_eq_some found
    exact .success sound (fun _ member => member) ⟨sound.prepared.eq_prepare declared found, earlier⟩
  | none =>
    exact .success ⟨sound.prepared.insert declared, sound.written⟩ (List.subset_append_left _ _)
      ⟨rfl, List.mem_append_right _ List.mem_cons_self⟩

section

variable {d : ClassDecl} {a : Annotation}
  (inside : ∀ inner, d.Asks a inner → Follows c.IsSound E lasts base c.Settled (nested inner) (nested' inner))
include inside

/-- An instance of the shared class settles the reads of that class. -/
theorem follows_construct (sharing : c.shared = true) (declared : c.corpus.class? d.name = some d) :
    Follows c.IsSound E lasts base c.Settled (c.construct nested d a) (c.construct nested' d a) := by
  refine (follows_sharedLiteral declared).bind fun literals l wider got => ?_
  obtain ⟨rfl, listed⟩ := got
  have later : ∀ inner, d.Asks a inner → Follows c.IsSound E lasts literals c.Settled (nested inner) (nested' inner) :=
    fun inner asks => (inside inner asks).widen wider
  have members := Follows.mapM (fun _ _ _ wider settled => settled.widen wider) (c.prepare d).members fun m member =>
    Literal.follows_loadMember (c := c) ordinary (c.prepare d) a member later
  refine members.bind fun more arguments wider' settled => ?_
  refine .pure fun most widest holder r reads => ?_
  cases reads with
  | argument member inside =>
    rcases settled _ member r inside with owns | settles
    · exact ⟨sharing, _, widest (wider' listed), owns⟩
    · exact settles.widen widest

/-- A class that is written reads its own static fields, and an instance of it reads nothing. -/
theorem follows_constructOneOff (alone : c.shared = false) (declared : c.corpus.class? d.name = some d)
    (targetPackage : String) :
    Follows c.IsSound E lasts base c.Settled (c.constructOneOff nested d a targetPackage)
      (c.constructOneOff nested' d a targetPackage) := by
  let l : Literal := ⟨Literal.oneOffName a targetPackage c.generatedPackage, false, d⟩
  have members := Follows.mapM (fun _ _ _ wider settled => settled.widen wider) l.members fun m member =>
    Literal.follows_loadMember (c := c) ordinary l a member inside
  refine members.bind fun literals values wider settled => ?_
  have wrote : c.Wrote (l.oneOffClass values) := by
    refine ⟨alone, l, values, rfl, declared, fun x member r reads => ?_⟩
    rcases settled x member r reads with owns | settles
    · exact owns
    · exact absurd settles.1 (by simp [alone])
  have recorded : Follows c.IsSound E lasts literals (fun _ _ => True)
      (modify fun s => { s with written := s.written ++ [l.oneOffClass values], oneOffs := s.oneOffs + 1 })
      (modify fun s => { s with written := s.written ++ [l.oneOffClass values], oneOffs := s.oneOffs + 1 }) := by
    refine .modify (fun s sound => ⟨sound.prepared, fun k member => ?_⟩) fun _ _ member => member
    rcases List.mem_append.1 member with earlier | last
    · exact sound.written k earlier
    · exact List.mem_singleton.1 last ▸ wrote
  refine recorded.bind fun more _ _ _ => .pure fun _ _ holder r reads => ?_
  cases reads with
  | argument member _ => exact absurd member List.not_mem_nil

/-- One step of the compiler, if the compilations of the annotations that it asks for follow each other. -/
theorem follows_materializeWith (declared : c.corpus.class? a.type = some d) (targetPackage : String) :
    Follows c.IsSound E lasts base c.Settled (c.materializeWith d a targetPackage nested)
      (c.materializeWith d a targetPackage nested') := by
  have same : d.name = a.type := (Corpus.class?_eq_some_iff.1 declared).2
  rw [materializeWith_eq _ same, materializeWith_eq _ same]
  have counted : Follows c.IsSound E lasts base (fun _ _ => True)
      (modify fun s => { s with materialized := s.materialized + 1 })
      (modify fun s => { s with materialized := s.materialized + 1 }) :=
    .modify (fun s sound => ⟨sound.prepared, sound.written⟩) fun _ _ member => member
  refine counted.bind fun literals _ wider _ => ?_
  have later : ∀ inner, d.Asks a inner → Follows c.IsSound E lasts literals c.Settled (nested inner) (nested' inner) :=
    fun inner asks => (inside inner asks).widen wider
  by_cases sharing : c.shared = true
  · rw [if_pos sharing, if_pos sharing]
    exact follows_construct ordinary later sharing (same ▸ declared)
  · rw [if_neg sharing, if_neg sharing]
    exact follows_constructOneOff ordinary later (Bool.eq_false_iff.2 sharing) (same ▸ declared) targetPackage

end

/-- One step further out, of compilations to one depth and to another. -/
theorem follows_materializeWithin_succ {depth depth' : Nat} {d : ClassDecl} {a : Annotation}
    (declared : c.corpus.class? a.type = some d) (targetPackage : String)
    (inside : ∀ inner d', d.Asks a inner → c.corpus.class? inner.type = some d' →
      Follows c.IsSound E lasts base c.Settled (c.materializeWithin depth d' inner inner.type.package)
        (c.materializeWithin depth' d' inner inner.type.package)) :
    Follows c.IsSound E lasts base c.Settled (c.materializeWithin (depth + 1) d a targetPackage)
      (c.materializeWithin (depth' + 1) d a targetPackage) := by
  refine follows_materializeWith ordinary (fun inner asks => ?_) declared targetPackage
  cases found : c.corpus.class? inner.type with
  | some d' => exact inside inner d' asks found
  | none =>
    refine .throw (ordinary _ ?_)
    rintro ⟨type, equal⟩
    cases equal

end LiteralSettings

end

namespace LiteralSettings

variable {c : LiteralSettings}

/-- Compilations to more depth follow those to less. The induction is on the lesser depth: what an annotation asks for
    is compiled one step further in. -/
theorem follows_materializeWithin (depth more : Nat) {d : ClassDecl} {a : Annotation}
    (declared : c.corpus.class? a.type = some d) (targetPackage : String) (base : List Literal) :
    Follows c.IsSound (fun _ => True) False base c.Settled (c.materializeWithin depth d a targetPackage)
      (c.materializeWithin (depth + more) d a targetPackage) := by
  induction depth generalizing d a targetPackage with
  | zero => exact .throw_endless trivial _
  | succ depth ih =>
    rw [Nat.succ_add]
    exact follows_materializeWithin_succ (fun _ _ => trivial) declared targetPackage fun inner d' _ declared' =>
      ih declared' inner.type.package

theorem materializeFromCorpus_run {d : ClassDecl} {a : Annotation} (declared : c.corpus.class? a.type = some d)
    (targetPackage : String) (s : LiteralState) :
    (c.materializeFromCorpus a targetPackage).run s =
      (c.materializeWithin (c.depthBound s d a) d a targetPackage).run s := by
  simp only [materializeFromCorpus, declared]
  exact materialize_run c d a targetPackage s

/-- What holds after a compilation of an annotation of the corpus, whether it succeeds or fails. -/
theorem IsSound.materializeFromCorpus {s : LiteralState} (sound : c.IsSound s) (a : Annotation)
    (targetPackage : String) :
    c.IsSound ((c.materializeFromCorpus a targetPackage).run s).2 ∧
      ∀ x s', (c.materializeFromCorpus a targetPackage).run s = (.ok x, s') → c.Settled s'.literals x := by
  cases declared : c.corpus.class? a.type with
  | some d =>
    have ends := follows_materializeWithin (c.depthBound s d a) 0 declared targetPackage [] s sound (List.nil_subset _)
    rw [materializeFromCorpus_run declared]
    revert ends
    generalize (c.materializeWithin (c.depthBound s d a) d a targetPackage).run s = outcome
    rintro (⟨sound', -, settled⟩ | ⟨sound', -, -⟩ | ⟨sound', -, -, -, -⟩)
    · exact ⟨sound', fun x s' same => by cases same; exact settled⟩
    · exact ⟨sound', nofun⟩
    · exact ⟨sound', nofun⟩
  | none =>
    simp only [LiteralSettings.materializeFromCorpus, declared]
    exact ⟨sound, nofun⟩

/-- The states of a compiler: it starts with nothing, compiles annotations of the corpus one after the other, and
    gives away what it has written at any time. -/
inductive Reached (c : LiteralSettings) : LiteralState → Prop
  | fresh : Reached c .initial
  | compiled {s : LiteralState} (reached : Reached c s) (a : Annotation) (targetPackage : String) :
    Reached c ((c.materializeFromCorpus a targetPackage).run s).2
  | taken {s : LiteralState} (reached : Reached c s) : Reached c { s with written := [] }

/-- Every state of a compiler is sound. -/
theorem Reached.isSound {s : LiteralState} (reached : c.Reached s) : c.IsSound s := by
  induction reached with
  | fresh => exact ⟨by simp [Prepared, LiteralState.initial], by simp [LiteralState.initial]⟩
  | compiled _ a targetPackage ih => exact (ih.materializeFromCorpus a targetPackage).1
  | taken _ ih => exact ⟨ih.prepared, by simp⟩

end LiteralSettings

end AnnotationWeaver
