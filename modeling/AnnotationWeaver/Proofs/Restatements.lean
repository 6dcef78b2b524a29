import AnnotationWeaver.Proofs.AlikeRuns
import AnnotationWeaver.Proofs.Faithfulness
import Mathlib.Data.List.Nodup

/-!
Restatements of annotations. An annotation can say the same in other ways: its members can be put into another order,
a default can be spelled out or left out, members come and go that its type does not declare, and all this in the
annotations inside it as well. However often it is restated, the same is built of it, or the same kind of error
ends its compilation. Members that hold classes stay as they are, as their values are compared with the default,
which does not see through defaults further in.
-/
namespace AnnotationWeaver

open Compilation (SameResult IsEndless)

/-- One restatement of a value. The default of a member may be spelled out with its own members in another order. All
    annotations set each of their members once; taken backwards, a member that is set is one that is left out. -/
inductive Value.RestatedAs (c : Corpus) : Value → Value → Prop
  | reordered {type : TypeName} {ms ns : List Member} (once : (ms.map (·.name)).Nodup) (perm : ms.Perm ns) :
    RestatedAs c (.nested ⟨type, ms⟩) (.nested ⟨type, ns⟩)
  | defaultSet {type : TypeName} {before after : List Member} {d : ClassDecl} {m : MethodDecl} {default v : Value}
    (declared : c.class? type = some d) (distinct : (d.regularMethods.map (·.name)).Nodup)
    (member : m ∈ d.regularMethods) (byDefault : m.default? = some default) (equal : v.same default = true)
    (once : v.SetsOnce) (unset : m.name ∉ (before ++ after).map (·.name)) :
    RestatedAs c (.nested ⟨type, before ++ after⟩) (.nested ⟨type, before ++ ⟨m.name, v⟩ :: after⟩)
  | undeclaredSet {type : TypeName} {before after : List Member} {name : String} {v : Value}
    (undeclared : ∀ d, c.class? type = some d → name ∉ d.regularMethods.map (·.name))
    (unset : name ∉ (before ++ after).map (·.name)) :
    RestatedAs c (.nested ⟨type, before ++ after⟩) (.nested ⟨type, before ++ ⟨name, v⟩ :: after⟩)
  | inside {type : TypeName} {before after : List Member} {name : String} {v w : Value}
    (once : name ∉ (before ++ after).map (·.name))
    (plain : ∀ d, c.class? type = some d → ∀ m ∈ d.regularMethods, m.name = name → m.returns.holdsClasses = false)
    (restated : RestatedAs c v w) :
    RestatedAs c (.nested ⟨type, before ++ ⟨name, v⟩ :: after⟩) (.nested ⟨type, before ++ ⟨name, w⟩ :: after⟩)
  | element {kind : ValueKind} {before after : List Value} {v w : Value} (restated : RestatedAs c v w) :
    RestatedAs c (.array kind (before ++ v :: after)) (.array kind (before ++ w :: after))

/-- One restatement of an annotation. -/
def Annotation.RestatedAs (c : Corpus) (a b : Annotation) : Prop := (Value.nested a).RestatedAs c (.nested b)

/-- Values that can stand for each other: they are equal, or the same, or one is a restatement of the other. -/
inductive Value.StandsFor (c : Corpus) : Value → Value → Prop
  | refl (v : Value) : StandsFor c v v
  | same {v w : Value} (equal : v.same w = true) (once : v.SetsOnce) : StandsFor c v w
  | restated {v w : Value} (restated : v.RestatedAs c w) : StandsFor c v w
  | back {v w : Value} (restated : w.RestatedAs c v) : StandsFor c v w

section

variable {c : Corpus} {m : MethodDecl} {a b : Annotation} {v w : Value}

theorem Value.StandsFor.symm (stands : v.StandsFor c w) : w.StandsFor c v := by
  cases stands with
  | refl => exact .refl v
  | same equal once => exact .same ((Value.same_comm v w).1 equal) (once.of_same equal)
  | restated restated => exact .back restated
  | back restated => exact .restated restated

/-! ### Effective values -/

/-- Among members of other names, one that is set is found by its name, and so are the others. -/
theorem Member.lookup?_insert {before after : List Member} {name : String} (v : Value)
    (unset : name ∉ (before ++ after).map (·.name)) (other : String) :
    lookup? (before ++ ⟨name, v⟩ :: after) other = if name = other then some v else lookup? (before ++ after) other := by
  induction before with
  | nil => exact lookup?_cons other ⟨name, v⟩ after
  | cons m rest ih =>
    rw [List.cons_append, List.map_cons, List.mem_cons, not_or] at unset
    rw [List.cons_append, List.cons_append, lookup?_cons, lookup?_cons, ih unset.2]
    by_cases first : m.name = other
    · rw [if_pos first, if_pos first, if_neg (first ▸ unset.1)]
    · rw [if_neg first, if_neg first]

theorem Annotation.effectiveValue?_insert {type : TypeName} {before after : List Member} {name : String} (v : Value)
    (unset : name ∉ (before ++ after).map (·.name)) (m : MethodDecl) :
    effectiveValue? ⟨type, before ++ ⟨name, v⟩ :: after⟩ m =
      if name = m.name then some v else effectiveValue? ⟨type, before ++ after⟩ m := by
  have value := Member.lookup?_insert v unset m.name
  rw [effectiveValue?, effectiveValue?, value?, value?, value]
  by_cases same : name = m.name
  · rw [if_pos same, if_pos same]
  · rw [if_neg same, if_neg same]

/-- What is not set has its default. -/
theorem Annotation.effectiveValue?_of_unset {type : TypeName} {members : List Member}
    (unset : m.name ∉ members.map (·.name)) : effectiveValue? ⟨type, members⟩ m = m.default? := by
  rw [← Member.lookup?_isSome_iff, Option.not_isSome_iff_eq_none] at unset
  rw [effectiveValue?, value?, unset]

/-- The order of members does not matter for effective values. -/
theorem Annotation.effectiveValue?_perm {type : TypeName} {ms ns : List Member} (once : (ms.map (·.name)).Nodup)
    (perm : ms.Perm ns) (m : MethodDecl) : effectiveValue? ⟨type, ms⟩ m = effectiveValue? ⟨type, ns⟩ m := by
  rw [effectiveValue?, effectiveValue?, value?, value?, Member.lookup?_perm perm once]

open Annotation (effectiveValue?_perm effectiveValue?_insert effectiveValue?_of_unset)

/-- What is the same is kept in a static field alike. -/
theorem Literal.readsStatic_of_same (m : MethodDecl) (equal : v.same w = true) : readsStatic m v = readsStatic m w := by
  have default_iff (default : Value) : (default == v) = (default == w) := by
    rw [Bool.eq_iff_iff]
    constructor
    · intro same
      exact Value.same_trans same equal
    · intro same
      exact Value.same_trans same ((Value.same_comm v w).1 equal)
  simp only [readsStatic, default_iff]

theorem loadsAlike_refl (value : Option Value) : Option.Rel (m.LoadsAlike (Value.StandsFor c)) value value := by
  cases value with
  | none => exact .none
  | some v => exact .some ⟨rfl, .refl v⟩

theorem loadsAlike_of_same (equal : v.same w = true) (once : v.SetsOnce) : m.LoadsAlike (Value.StandsFor c) v w :=
  ⟨Literal.readsStatic_of_same m equal, .same equal once⟩

/-! ### Values that stand for each other resemble each other -/

namespace Value

theorem resemblesBy_refl (v : Value) : v.ResemblesBy c (StandsFor c) v := by
  cases v with
  | nested a => exact .nested rfl fun d declared m member => loadsAlike_refl _
  | array kind elements => exact .array (List.forall₂_same.2 fun v _ => .refl v)
  | _ => exact .plain rfl rfl

theorem resemblesBy_of_same (equal : v.same w = true) (once : v.SetsOnce) : v.ResemblesBy c (StandsFor c) w := by
  cases v with
  | nested a =>
    cases w with
    | nested b =>
      refine .nested (same_nested_iff.1 equal).1 fun d declared m member => ?_
      have once := setsOnce_nested_iff.1 once
      have loads : Option.Rel (m.LoadsAlike (StandsFor c)) (a.value? m.name) (b.value? m.name) := by
        have values := Annotation.value?_of_same equal once.1 m.name
        refine optionRel_imp values fun v w found _ equal' => ?_
        obtain ⟨n, listed, -, rfl⟩ := Annotation.exists_member_of_value? found
        exact loadsAlike_of_same equal' (once.2 n listed)
      unfold Annotation.effectiveValue?
      revert loads
      generalize a.value? m.name = found
      generalize b.value? m.name = found'
      intro loads
      cases loads with
      | some loads => exact .some loads
      | none => exact loadsAlike_refl m.default?
    | _ => simp [same] at equal
  | array kind elements =>
    cases w with
    | array kind' elements' =>
      rw [same, Bool.and_eq_true, sameAll_iff_forall₂] at equal
      rw [setsOnce_array_iff] at once
      exact .array (forall₂_imp_of_mem equal.2 fun v listed w _ same => .same same (once v listed))
    | _ => simp [same] at equal
  | _ =>
    obtain rfl := (same_plain_iff rfl rfl w).1.1 equal
    exact .plain rfl rfl

theorem RestatedAs.resemblesBy (restated : v.RestatedAs c w) : v.ResemblesBy c (StandsFor c) w := by
  cases restated with
  | reordered once perm =>
    refine .nested rfl fun d declared n member => ?_
    rw [effectiveValue?_perm once perm]
    exact loadsAlike_refl _
  | @defaultSet type _ _ d m default v declared distinct member byDefault equal once unset =>
    refine .nested rfl fun d' declared' n member' => ?_
    obtain rfl : d = d' := Option.some.inj (declared.symm.trans declared')
    rw [effectiveValue?_insert v unset]
    by_cases named : m.name = n.name
    · obtain rfl := List.inj_on_of_nodup_map distinct member member' named
      rw [if_pos rfl, effectiveValue?_of_unset unset, byDefault]
      exact .some (loadsAlike_of_same ((same_comm _ _).1 equal) (once.of_same equal))
    · rw [if_neg named]
      exact loadsAlike_refl _
  | @undeclaredSet type _ _ name v undeclared unset =>
    refine .nested rfl fun d declared n member => ?_
    have other : name ≠ n.name := by
      rintro rfl
      exact undeclared d declared (List.mem_map_of_mem member)
    rw [effectiveValue?_insert v unset, if_neg other]
    exact loadsAlike_refl _
  | @inside type _ _ name v w once plain restated =>
    refine .nested rfl fun d declared n member => ?_
    rw [effectiveValue?_insert v once, effectiveValue?_insert w once]
    by_cases named : name = n.name
    · have holds : n.returns.holdsClasses = false := plain d declared n member named.symm
      rw [if_pos named, if_pos named]
      exact .some ⟨by simp [Literal.readsStatic, holds], .restated restated⟩
    · rw [if_neg named, if_neg named]
      exact loadsAlike_refl _
  | element restated =>
    have unchanged (vs : List Value) : List.Forall₂ (StandsFor c) vs vs := List.forall₂_same.2 fun v _ => .refl v
    exact .array (List.rel_append (unchanged _) (.cons (.restated restated) (unchanged _)))

theorem ResemblesBy.symm {R : Value → Value → Prop} (symmetric : ∀ v w, R v w → R w v) (alike : v.ResemblesBy c R w) :
    w.ResemblesBy c R v := by
  cases alike with
  | plain alone whole => exact .plain alone whole
  | array each => exact .array (each.imp fun v w => symmetric v w).flip
  | nested type members =>
    refine .nested type.symm fun d declared m member => ?_
    have values := members d (type ▸ declared) m member
    revert values
    generalize Annotation.effectiveValue? _ m = value
    generalize Annotation.effectiveValue? _ m = value'
    intro values
    cases values with
    | none => exact .none
    | some loads => exact .some ⟨loads.1.symm, symmetric _ _ loads.2⟩

/-- Values that stand for each other have parts that do. -/
theorem StandsFor.resemblesBy (stands : v.StandsFor c w) : v.ResemblesBy c (StandsFor c) w := by
  cases stands with
  | refl => exact resemblesBy_refl v
  | same equal once => exact resemblesBy_of_same equal once
  | restated restated => exact restated.resemblesBy
  | back restated => exact restated.resemblesBy.symm fun _ _ => StandsFor.symm

end Value

end

open Annotation (RestatedAs)

/-- With sharing, materialization depends on effective values only: if an annotation is restated, once or often and
    forwards or backwards, then in all states of a compiler and for all packages, either both annotations are nested
    without end or neither is, and the same is built of them, or the errors are of one kind. -/
theorem materialization_depends_on_effective_values {c : LiteralSettings} (sharing : c.shared = true) {a b : Annotation}
    (restated : Relation.EqvGen (RestatedAs c.corpus) a b) {s t : LiteralState} (reached : c.Reached s)
    (reached' : c.Reached t) (package package' : String) :
    (IsEndless ((c.materializeFromCorpus a package).run s) ↔ IsEndless ((c.materializeFromCorpus b package').run t)) ∧
      SameResult ((c.materializeFromCorpus a package).run s).1 ((c.materializeFromCorpus b package').run t).1 := by
  have same : SameResult ((c.materializeFromCorpus a package).run s).1 ((c.materializeFromCorpus b package').run t).1 := by
    have closed (v w : Value) : v.StandsFor c.corpus w → v.ResemblesBy c.corpus (Value.StandsFor c.corpus) w :=
      Value.StandsFor.resemblesBy
    induction restated generalizing s t package package' with
    | rel a b restated =>
      exact LiteralSettings.sameResult_materializeFromCorpus closed sharing reached reached' (.restated restated) _ _
    | refl a => exact LiteralSettings.sameResult_materializeFromCorpus closed sharing reached reached' (.refl _) _ _
    | symm a b _ ih => exact (ih reached' reached package' package).symm
    | trans a b d _ _ ih ih' =>
      -- The annotation between is compiled in either state.
      exact (ih reached reached package package).trans (ih' reached reached' package package')
  exact ⟨Compilation.isEndless_iff_of_sameResult same, same⟩

/-- A limit whose range says what it has by default, after a member that limits do not declare. -/
def notedLimit : Annotation := ⟨⟨"app.Limit"⟩, ⟨"note", .string "none"⟩ :: explicitLimit.members⟩

/-- The range is set to its default, which then says what it has by default, and the note is added. -/
theorem notedLimit_restates_marker : Relation.EqvGen (RestatedAs limits) (.marker ⟨"app.Limit"⟩) notedLimit := by
  let range : Annotation := .marker ⟨"app.Range"⟩
  have opened : Annotation.RestatedAs limits (.marker ⟨"app.Limit"⟩) ⟨⟨"app.Limit"⟩, [⟨"range", .nested range⟩]⟩ :=
    @Value.RestatedAs.defaultSet limits ⟨"app.Limit"⟩ [] [] _ _ (.nested range) (.nested range) rfl (by decide)
      List.mem_cons_self rfl (Value.same_refl _) (by decide) (by decide)
  have spelled : (Value.nested range).RestatedAs limits (.nested ⟨⟨"app.Range"⟩, [⟨"max", .int 9⟩]⟩) :=
    @Value.RestatedAs.defaultSet limits ⟨"app.Range"⟩ [] [] _ _ (.int 9) (.int 9) rfl (by decide) List.mem_cons_self rfl
      (Value.same_refl _) (by decide) (by decide)
  have inside : Annotation.RestatedAs limits ⟨⟨"app.Limit"⟩, [⟨"range", .nested range⟩]⟩ explicitLimit :=
    @Value.RestatedAs.inside limits ⟨"app.Limit"⟩ [] [] "range" _ _ (by decide) (by decide) spelled
  have noted : Annotation.RestatedAs limits explicitLimit notedLimit :=
    @Value.RestatedAs.undeclaredSet limits ⟨"app.Limit"⟩ [] explicitLimit.members "note" (.string "none") (by decide)
      (by decide)
  exact (.trans _ _ _ (.rel _ _ opened) (.trans _ _ _ (.rel _ _ inside) (.rel _ _ noted)))

theorem materialization_depends_on_effective_values_in_limits :
    sharedLimitsCompiler.shared = true ∧
      Relation.EqvGen (RestatedAs limits) (.marker ⟨"app.Limit"⟩) notedLimit ∧
      sharedLimitsCompiler.Reached .initial ∧
      (IsEndless ((sharedLimitsCompiler.materializeFromCorpus (.marker ⟨"app.Limit"⟩) "app").run .initial) ↔
        IsEndless ((sharedLimitsCompiler.materializeFromCorpus notedLimit "app").run .initial)) ∧
      SameResult ((sharedLimitsCompiler.materializeFromCorpus (.marker ⟨"app.Limit"⟩) "app").run .initial).1
        ((sharedLimitsCompiler.materializeFromCorpus notedLimit "app").run .initial).1 := by
  have restated := notedLimit_restates_marker
  exact ⟨rfl, restated, .fresh, materialization_depends_on_effective_values rfl restated .fresh .fresh "app" "app"⟩

end AnnotationWeaver
