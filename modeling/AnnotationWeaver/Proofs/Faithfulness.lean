import AnnotationWeaver.Proofs.Conformance
import AnnotationWeaver.Proofs.EffectiveValues
import AnnotationWeaver.Proofs.Termination

/-!
Shared constructions tell effective values apart. If two annotations of one type are built as the same construction,
their effective values agree, member by member and at every depth: each way in which a value can be built shows the
value, up to the component kinds of arrays and to the type arguments of class literals. Defaults that are kept in
static fields are built without being looked into; there the values agree because both are the same as the default.
-/
namespace AnnotationWeaver

/-- Two values agree if their parts do: scalars are equal, class literals have the same erased type, arrays agree
    element by element, and annotations have the same type and agree in the effective values of its members. -/
inductive Value.AgreesBy (c : Corpus) (R : Value → Value → Prop) : Value → Value → Prop
  | scalar {v : Value} (alone : v.nested? = none) (whole : v.elements? = none) : AgreesBy c R v v
  | classLiteral {t u : Ty} (erased : t.erased = u.erased) : AgreesBy c R (.classLiteral t) (.classLiteral u)
  | array {kind kind' : ValueKind} {vs ws : List Value} (each : List.Forall₂ R vs ws) :
    AgreesBy c R (.array kind vs) (.array kind' ws)
  | nested {a b : Annotation} (type : a.type = b.type)
    (members : ∀ d, c.class? a.type = some d → ∀ m ∈ d.regularMethods,
      Option.Rel R (a.effectiveValue? m) (b.effectiveValue? m)) : AgreesBy c R (.nested a) (.nested b)

/-- Two values agree at every depth. As a default can hold an annotation of its own type, following effective values may
    have no end, so this is the largest relation whose pairs agree if their parts do. -/
def Value.Agrees (c : Corpus) (v w : Value) : Prop :=
  ∃ R : Value → Value → Prop, (∀ v w, R v w → v.AgreesBy c R w) ∧ R v w

/-- Every annotation in a default, at every depth, sets each of its members once. -/
def Corpus.DefaultsSetOnce (c : Corpus) : Prop := ∀ d ∈ c.classes, ∀ v ∈ LiteralSettings.defaults d, v.SetsOnce

instance (c : Corpus) : Decidable c.DefaultsSetOnce :=
  inferInstanceAs (Decidable (∀ d ∈ c.classes, ∀ v ∈ LiteralSettings.defaults d, v.SetsOnce))

section

variable {c : LiteralSettings} {a b : Annotation} {v w : Value} {x : Construction}

/-- An effective value is explicit or a default, and sets members once if all of these do. -/
theorem Value.SetsOnce.effectiveValue? (once : (Value.nested a).SetsOnce) (defaults : c.corpus.DefaultsSetOnce)
    {d : ClassDecl} (declared : c.corpus.class? a.type = some d) {m : MethodDecl} (member : m ∈ d.regularMethods)
    (value : a.effectiveValue? m = some v) : v.SetsOnce := by
  unfold Annotation.effectiveValue? at value
  cases explicit : a.value? m.name with
  | some w =>
    rw [explicit] at value
    obtain rfl := Option.some.inj value
    obtain ⟨n, listed, -, rfl⟩ := Annotation.exists_member_of_value? explicit
    exact (Value.setsOnce_nested_iff.1 once).2 n listed
  | none =>
    rw [explicit] at value
    have listed : m ∈ d.methods := (List.mem_filter.1 member).1
    exact defaults d (Corpus.class?_eq_some_iff.1 declared).1 v (List.mem_filterMap.2 ⟨m, listed, value⟩)

/-! ### Built alike -/

/-- What the annotations inside are built as, with their traces, if they are nested no deeper. -/
def LiteralSettings.CompilesInside (c : LiteralSettings) (depth : Nat) (inner : Annotation) :
    Construction → List Compiled → Prop :=
  c.CompilesWithin depth inner inner.type.package

/-- Two values are built as the same construction, be it where the same type is expected or for the same member, or
    they are the same. -/
inductive Value.BuiltAlike (c : LiteralSettings) (v w : Value) : Prop
  | builds {t : Ty} {x : Construction} {depth depth' : Nat} {trace trace' : List Compiled}
    (first : v.BuildsAs (c.CompilesInside depth) t x trace) (second : w.BuildsAs (c.CompilesInside depth') t x trace')
  | loads {m : MethodDecl} {name name' : TypeName} {x : Construction} {depth depth' : Nat} {trace trace' : List Compiled}
    (first : m.Loads (c.CompilesInside depth) name v x trace)
    (second : m.Loads (c.CompilesInside depth') name' w x trace')
  | same (equal : v.same w = true)

/-- Built alike, with all members set once. -/
def Value.Matches (c : LiteralSettings) (v w : Value) : Prop := v.BuiltAlike c w ∧ v.SetsOnce ∧ w.SetsOnce

/-- Elements that have the same results have a result in common each. -/
theorem Each.forall₂_of_same_results {ι : Type} {R S : ι → Construction → List Compiled → Prop} {is js : List ι}
    {xs : List Construction} {trace trace' : List Compiled} (first : Each R is xs trace) (second : Each S js xs trace') :
    List.Forall₂ (fun i j => ∃ x t u, R i x t ∧ S j x u) is js := by
  induction first generalizing js trace' with
  | nil =>
    cases second
    exact .nil
  | cons head tail ih =>
    cases second with
    | cons head' tail' => exact .cons ⟨_, _, _, head, head'⟩ (ih tail')

/-- Annotations of one type that are built as the same have effective values that are built alike. -/
theorem LiteralSettings.CompilesWithin.members_builtAlike (sharing : c.shared = true) (type : a.type = b.type)
    {depth depth' : Nat} {package package' : String} {trace trace' : List Compiled}
    (first : c.CompilesWithin depth a package x trace) (second : c.CompilesWithin depth' b package' x trace') :
    ∃ d, c.corpus.class? a.type = some d ∧ ∀ m ∈ d.regularMethods,
      ∃ v w, a.effectiveValue? m = some v ∧ b.effectiveValue? m = some w ∧ v.BuiltAlike c w := by
  cases depth with
  | zero => exact first.elim
  | succ depth =>
    cases depth' with
    | zero => exact second.elim
    | succ depth' =>
      obtain ⟨construction, shown⟩ : ∃ y, y = x := ⟨x, rfl⟩
      rw [← shown] at second
      cases first with
      | @intro d values _ declared members =>
        cases second with
        | @intro d' values' _ declared' members' =>
          rw [← type, declared] at declared'
          obtain rfl := Option.some.inj declared'
          have arguments : values' = values := by
            simp [Compiled.construction, sharing] at shown
            exact shown.2.2
          subst arguments
          have results := List.forall₂_same.1 (members.forall₂_of_same_results members')
          refine ⟨d, declared, fun m member => ?_⟩
          obtain ⟨y, t, u, ⟨v, value, loads⟩, ⟨w, value', loads'⟩⟩ := results m member
          exact ⟨v, w, value, value', .loads loads loads'⟩

/-! ### Static fields -/

/-- Values that are read from the static field of one member are the same as its default, and as each other. -/
theorem Literal.same_of_readsStatic {m : MethodDecl} (kept : readsStatic m v = true) (kept' : readsStatic m w = true) :
    v.same w = true := by
  rw [readsStatic, Bool.and_eq_true, Option.any_eq_true] at kept kept'
  obtain ⟨-, default, declared, equal⟩ := kept
  obtain ⟨-, default', declared', equal'⟩ := kept'
  obtain rfl := Option.some.inj (declared.symm.trans declared')
  exact Value.same_trans ((Value.same_comm _ _).1 equal) equal'

theorem Construction.emptyArrayOf_ne_newArray_cons (component : Ty) {component' : Ty} {first : Construction}
    {rest : List Construction} : Construction.emptyArrayOf component ≠ .newArray component' (first :: rest) := by
  rw [emptyArrayOf]
  cases EmptyArray.ofComponent? component <;> simp

theorem Construction.emptyArrayOf_ne_staticField (component : Ty) {owner : TypeName} {field : String} {t : Ty} :
    Construction.emptyArrayOf component ≠ .staticField owner field t := by
  rw [emptyArrayOf]
  cases EmptyArray.ofComponent? component <;> simp

/-- What a member is built as shows whether a static field is read. -/
theorem MethodDecl.Loads.readsStatic_iff (sharing : c.shared = true) {m : MethodDecl} {name : TypeName} {depth : Nat}
    {trace : List Compiled} (loads : m.Loads (c.CompilesInside depth) name v x trace) :
    Literal.readsStatic m v = true ↔ ∃ owner field t, x = .staticField owner field t := by
  cases loads with
  | static kept => exact iff_of_true kept ⟨_, _, _, rfl⟩
  | single made alone builds =>
    refine iff_of_false (by simp [made]) ?_
    rintro ⟨owner, field, t, rfl⟩
    cases builds with
    | plain fits built => cases v <;> cases built
    | nested fits inside =>
      obtain ⟨d, arguments, -, instantiated, -⟩ := inside.isInstanceOf sharing
      cases instantiated
  | none made several =>
    refine iff_of_false (by simp [made]) ?_
    rintro ⟨owner, field, t, equal⟩
    exact Construction.emptyArrayOf_ne_staticField _ equal
  | several made several each => exact iff_of_false (by simp [made]) (by simp)

/-! ### What is built alike agrees -/

/-- Values without parts that are built as the same are equal, or classes of which the same is loaded. -/
theorem Value.eq_or_classLiteral_of_plain? (built : v.plain? = some x) (built' : w.plain? = some x) :
    v = w ∨ ∃ t u, v = .classLiteral t ∧ w = .classLiteral u ∧ t.erased = u.erased := by
  have alike : v.plain? = w.plain? := built.trans built'.symm
  cases v with
  | nested a => cases built
  | array kind elements => cases built
  | _ =>
    clear built built'
    cases w <;> simp_all [Value.plain?]

theorem Value.agreesBy_of_plain? {R : Value → Value → Prop} (built : v.plain? = some x) (built' : w.plain? = some x) :
    v.AgreesBy c.corpus R w := by
  rcases Value.eq_or_classLiteral_of_plain? built built' with rfl | ⟨t, u, rfl, rfl, erased⟩
  · cases v with
    | nested a => cases built
    | array kind elements => cases built
    | _ => exact .scalar rfl rfl
  · exact .classLiteral erased

/-- What a value without parts is built as is no instance. -/
theorem Value.not_isInstanceOf_of_plain? {type : TypeName} (built : v.plain? = some x) : ¬x.IsInstanceOf c type := by
  rintro ⟨d, arguments, -, rfl, -⟩
  cases v <;> cases built

section

variable (sharing : c.shared = true) (defaults : c.corpus.DefaultsSetOnce)
include sharing defaults

/-- Values that are no arrays and are built alike where the same type is expected agree, as far as is built alike
    what they hold. -/
theorem Value.BuildsAs.agreesBy {t : Ty} {depth depth' : Nat} {trace trace' : List Compiled}
    (first : v.BuildsAs (c.CompilesInside depth) t x trace) (second : w.BuildsAs (c.CompilesInside depth') t x trace')
    (once : v.SetsOnce) (once' : w.SetsOnce) : v.AgreesBy c.corpus (Matches c) w := by
  cases first with
  | plain fits built =>
    cases second with
    | plain fits' built' => exact Value.agreesBy_of_plain? built built'
    | nested fits' inside => exact absurd (inside.isInstanceOf sharing) (Value.not_isInstanceOf_of_plain? built)
  | @nested a _ _ fits inside =>
    cases second with
    | plain fits' built' => exact absurd (inside.isInstanceOf sharing) (Value.not_isInstanceOf_of_plain? built')
    | @nested b _ _ fits' inside' =>
      have type : a.type = b.type :=
        Option.some.inj ((Value.className?_of_fits fits).symm.trans (Value.className?_of_fits fits'))
      obtain ⟨d, declared, members⟩ := inside.members_builtAlike sharing type inside'
      refine .nested type fun d' declared' m member => ?_
      obtain rfl : d = d' := Option.some.inj (declared.symm.trans declared')
      obtain ⟨v, w, value, value', alike⟩ := members m member
      rw [value, value']
      exact .some ⟨alike, once.effectiveValue? defaults declared member value,
        once'.effectiveValue? defaults (type ▸ declared) member value'⟩

/-- Values of a member that are not read from a static field agree likewise if they are built alike for it. -/
theorem MethodDecl.Loads.agreesBy {m : MethodDecl} {name name' : TypeName} {depth depth' : Nat}
    {trace trace' : List Compiled} (first : m.Loads (c.CompilesInside depth) name v x trace)
    (second : m.Loads (c.CompilesInside depth') name' w x trace') (once : v.SetsOnce) (once' : w.SetsOnce)
    (made : Literal.readsStatic m v = false) (made' : Literal.readsStatic m w = false) :
    v.AgreesBy c.corpus (Value.Matches c) w := by
  cases first with
  | static kept => simp [made] at kept
  | single _ alone builds =>
    cases second with
    | static kept => simp [made'] at kept
    | single _ alone' builds' => exact builds.agreesBy sharing defaults builds' once once'
    | none _ several => simp [alone] at several
    | several _ several each => simp [alone] at several
  | none _ several =>
    generalize built : Construction.emptyArrayOf _ = y at second
    cases second with
    | static kept => simp [made'] at kept
    | single _ alone builds => simp [several] at alone
    | none _ several' => exact .array .nil
    | several _ several' each =>
      cases each with
      | cons head tail => exact absurd built (Construction.emptyArrayOf_ne_newArray_cons _)
  | several _ several each =>
    generalize built : Construction.newArray _ _ = y at second
    cases second with
    | static kept => simp [made'] at kept
    | single _ alone builds => simp [several] at alone
    | none _ several' =>
      cases each with
      | cons head tail => exact absurd built.symm (Construction.emptyArrayOf_ne_newArray_cons _)
    | several _ several' each' =>
      obtain ⟨rfl, rfl⟩ := Construction.newArray.inj built
      rw [Value.setsOnce_array_iff] at once once'
      refine .array (forall₂_imp_of_mem (each.forall₂_of_same_results each') ?_)
      intro v listed w listed' results
      obtain ⟨x, t, u, builds, builds'⟩ := results
      exact ⟨.builds builds builds', once v listed, once' w listed'⟩

omit sharing in
/-- Values that are the same agree, as far as what they hold does. -/
theorem Value.agreesBy_of_same (equal : v.same w = true) (once : v.SetsOnce) (once' : w.SetsOnce) :
    v.AgreesBy c.corpus (Matches c) w := by
  cases v with
  | nested a =>
    cases w with
    | nested b =>
      have type : a.type = b.type := (Value.same_nested_iff.1 equal).1
      refine .nested type fun d declared m member => ?_
      have effective := Annotation.effectiveValue?_of_same equal (Value.setsOnce_nested_iff.1 once).1 m
      refine optionRel_imp effective fun v w value value' alike => ?_
      exact ⟨.same alike, once.effectiveValue? defaults declared member value,
        once'.effectiveValue? defaults (type ▸ declared) member value'⟩
    | _ => simp [Value.same] at equal
  | array kind elements =>
    cases w with
    | array kind' elements' =>
      rw [Value.same, Bool.and_eq_true, Value.sameAll_iff_forall₂] at equal
      rw [Value.setsOnce_array_iff] at once once'
      refine .array (forall₂_imp_of_mem equal.2 ?_)
      intro v listed w listed' alike
      exact ⟨.same alike, once v listed, once' w listed'⟩
    | _ => simp [Value.same] at equal
  | _ =>
    obtain rfl := (Value.same_plain_iff rfl rfl w).1.1 equal
    exact .scalar rfl rfl

/-- Values that are built alike agree, and so do their parts. -/
theorem Value.Matches.agreesBy (alike : v.Matches c w) : v.AgreesBy c.corpus (Matches c) w := by
  obtain ⟨alike, once, once'⟩ := alike
  cases alike with
  | builds first second => exact first.agreesBy sharing defaults second once once'
  | @loads m name name' x _ _ _ _ first second =>
    have reads : Literal.readsStatic m v = true ↔ Literal.readsStatic m w = true :=
      (first.readsStatic_iff sharing).trans (second.readsStatic_iff sharing).symm
    cases kept : Literal.readsStatic m v with
    | true =>
      have equal := Literal.same_of_readsStatic kept (reads.1 kept)
      exact Value.agreesBy_of_same defaults equal once once'
    | false =>
      have made' : Literal.readsStatic m w = false := by rwa [← Bool.not_eq_true, ← reads, Bool.not_eq_true]
      exact first.agreesBy sharing defaults second once once' kept made'
  | same equal => exact Value.agreesBy_of_same defaults equal once once'

end

end

/-- With sharing, constructions are faithful in all states of a compiler: annotations of one type that are built as the
    same construction have values for all members of their type, and these agree at every depth. -/
theorem shared_constructions_are_faithful {c : LiteralSettings} (sharing : c.shared = true)
    (defaults : c.corpus.DefaultsSetOnce) {s s' t t' : LiteralState} (reached : c.Reached s) (reached' : c.Reached t)
    {a b : Annotation} (type : a.type = b.type) (once : (Value.nested a).SetsOnce) (once' : (Value.nested b).SetsOnce)
    {package package' : String} {x : Construction} (built : (c.materializeFromCorpus a package).run s = (.ok x, s'))
    (built' : (c.materializeFromCorpus b package').run t = (.ok x, t')) :
    ∃ d, c.corpus.class? a.type = some d ∧ ∀ m ∈ d.regularMethods,
      ∃ v w, a.effectiveValue? m = some v ∧ b.effectiveValue? m = some w ∧ v.Agrees c.corpus w := by
  obtain ⟨trace, -, compiles⟩ := LiteralSettings.yields_materializeFromCorpus a package s reached.isOrderly
  obtain ⟨trace', -, compiles'⟩ := LiteralSettings.yields_materializeFromCorpus b package' t reached'.isOrderly
  rw [built] at compiles
  rw [built'] at compiles'
  obtain ⟨depth, compiles⟩ := compiles x rfl
  obtain ⟨depth', compiles'⟩ := compiles' x rfl
  obtain ⟨d, declared, members⟩ := compiles.members_builtAlike sharing type compiles'
  refine ⟨d, declared, fun m member => ?_⟩
  obtain ⟨v, w, value, value', alike⟩ := members m member
  have agree : v.Matches c w :=
    ⟨alike, once.effectiveValue? defaults declared member value,
      once'.effectiveValue? defaults (type ▸ declared) member value'⟩
  exact ⟨v, w, value, value', Value.Matches c, fun _ _ => Value.Matches.agreesBy sharing defaults, agree⟩

/-- A compiler that shares the literals of `limits`. -/
def sharedLimitsCompiler : LiteralSettings := { limitsCompiler with shared := true }

/-- A limit whose range says what it has by default. -/
def explicitLimit : Annotation := ⟨⟨"app.Limit"⟩, [⟨"range", .nested ⟨⟨"app.Range"⟩, [⟨"max", .int 9⟩]⟩⟩]⟩

/-- What a limit is built as, be its range explicit or not. -/
def builtLimit : Construction :=
  .newInstance ⟨"app.Limit_Shared_AnnotationLiteral"⟩ [.named ⟨"app.Range"⟩]
    [.newInstance ⟨"app.Range_Shared_AnnotationLiteral"⟩ [.primitive .int] [.const (.int 9)]]

theorem shared_constructions_are_faithful_in_limits :
    sharedLimitsCompiler.shared = true ∧ limits.DefaultsSetOnce ∧ sharedLimitsCompiler.Reached .initial ∧
      (Value.nested (.marker ⟨"app.Limit"⟩)).SetsOnce ∧ (Value.nested explicitLimit).SetsOnce ∧
      (∃ s, (sharedLimitsCompiler.materializeFromCorpus (.marker ⟨"app.Limit"⟩) "app").run .initial = (.ok builtLimit, s)) ∧
      (∃ s, (sharedLimitsCompiler.materializeFromCorpus explicitLimit "app").run .initial = (.ok builtLimit, s)) ∧
      ∃ d m v w, limits.class? ⟨"app.Limit"⟩ = some d ∧ m ∈ d.regularMethods ∧
        (.marker ⟨"app.Limit"⟩ : Annotation).effectiveValue? m = some v ∧ explicitLimit.effectiveValue? m = some w ∧
        v.Agrees limits w := by
  have built : (sharedLimitsCompiler.materializeFromCorpus (.marker ⟨"app.Limit"⟩) "app").run .initial =
    (.ok builtLimit, ((sharedLimitsCompiler.materializeFromCorpus (.marker ⟨"app.Limit"⟩) "app").run .initial).2) := rfl
  have built' : (sharedLimitsCompiler.materializeFromCorpus explicitLimit "app").run .initial =
    (.ok builtLimit, ((sharedLimitsCompiler.materializeFromCorpus explicitLimit "app").run .initial).2) := rfl
  have type : (.marker ⟨"app.Limit"⟩ : Annotation).type = explicitLimit.type := rfl
  have defaults : limits.DefaultsSetOnce := by decide
  have once : (Value.nested (.marker ⟨"app.Limit"⟩)).SetsOnce := by decide
  have once' : (Value.nested explicitLimit).SetsOnce := by decide
  obtain ⟨d, declared, agree⟩ :=
    shared_constructions_are_faithful rfl defaults .fresh .fresh type once once' built built'
  obtain rfl := Option.some.inj declared
  obtain ⟨v, w, value, value', agrees⟩ := agree _ List.mem_cons_self
  exact ⟨rfl, defaults, .fresh, once, once', ⟨_, built⟩, ⟨_, built'⟩, _, _, v, w, rfl, List.mem_cons_self, value, value',
    agrees⟩

end AnnotationWeaver
