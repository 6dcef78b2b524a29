import AnnotationWeaver.Proofs.ReadPaths
import AnnotationWeaver.Query.Classes

/-!
What class queries admit. `ClassQuery.Admits` says of one class whether a query admits it: each family that
is asked for does, by one of its criteria. The search takes one of three ways, from the named classes, from
the declarations with an annotation, or through the whole corpus; on a readable view each of them lists
exactly the admitted classes, each once.
-/
namespace AnnotationWeaver

namespace View

/-- The declaration has an annotation of the type. -/
def Carries (v : View) (key : DeclKey) (type : TypeName) : Prop :=
  ∃ set, v.annotations key = .ok set ∧ set.contains type = true

variable {v : View}

theorem carries_iff (readable : v.IsReadable) {key : DeclKey} {type : TypeName} :
    v.Carries key type ↔ (v.setOf key).contains type = true := by
  simp [Carries, annotations_eq readable]

theorem hasAny_eq (readable : v.IsReadable) (key : DeclKey) (types : List TypeName) :
    v.hasAny key types = .ok (types.any (v.setOf key).contains) := by
  induction types with
  | nil => rfl
  | cons type rest ih =>
    rw [hasAny, has_eq readable, List.any_cons]
    cases held : (v.setOf key).contains type with
    | true => rfl
    | false => exact ih

/-- Retaining keeps what has an annotation of one of the types; it keeps all where no type is asked for. -/
theorem retain_eq {α : Type} (readable : v.IsReadable) (types : List TypeName) (key : α → DeclKey) (xs : List α) :
    v.retain types key xs =
      .ok (xs.filter fun x => types.isEmpty || types.any (v.setOf (key x)).contains) := by
  unfold retain
  cases types with
  | nil => exact congrArg Except.ok (List.filter_eq_self.2 fun _ _ => rfl).symm
  | cons type rest => exact filterM_ok fun x => hasAny_eq readable (key x) _

/-- What is retained, as a condition on the declaration. -/
theorem retained_iff (readable : v.IsReadable) {types : List TypeName} {asked : TypeName → Prop}
    (listed : ∀ {type}, type ∈ types ↔ asked type) {key : DeclKey} :
    (types.isEmpty || types.any (v.setOf key).contains) = true ↔
      ((∃ type, asked type) → ∃ type, asked type ∧ v.Carries key type) := by
  simp only [carries_iff readable, ← listed, Bool.or_eq_true, List.isEmpty_iff, List.any_eq_true]
  constructor
  · rintro (rfl | held) some
    · simp at some
    · exact held
  · intro held
    by_cases nothing : types = []
    · exact .inl nothing
    · exact .inr (held (List.exists_mem_of_ne_nil types nothing))

theorem declarationsWithAny_spec (readable : v.IsReadable) (types : List TypeName) :
    ∃ keys, v.declarationsWithAny types = .ok keys ∧ keys.Nodup ∧
      ∀ key, key ∈ keys ↔ types.any (v.setOf key).contains = true := by
  have answers := fun type => declarationsWith_eq readable type
  refine ⟨_, by rw [declarationsWithAny, mapM_ok answers]; rfl, ?_, ?_⟩
  · exact (List.mergeSort_perm _ _).nodup_iff.2 (nodup_eraseDups _)
  · intro key
    rw [sortKeys, List.mem_mergeSort, List.mem_eraseDups, List.mem_flatten, List.any_eq_true]
    constructor
    · rintro ⟨found, listed, member⟩
      obtain ⟨type, asked, rfl⟩ := List.mem_map.1 listed
      exact ⟨type, asked, (List.mem_filter.1 member).2⟩
    · rintro ⟨type, asked, held⟩
      exact ⟨_, List.mem_map.2 ⟨type, asked, rfl⟩, List.mem_filter.2 ⟨mem_candidates held, held⟩⟩

theorem mem_classNames {keys : List DeclKey} {name : TypeName} : name ∈ classNames keys ↔ .type name ∈ keys :=
  mem_filterMap_unwrap fun key _ => by cases key <;> simp

theorem nodup_classNames {keys : List DeclKey} (distinct : keys.Nodup) : (classNames keys).Nodup := by
  have listed : ((classNames keys).map DeclKey.type).Nodup := by
    refine List.Sublist.nodup (map_filterMap_sublist ?_ keys) distinct
    intro key name same
    cases key with
    | type n => exact congrArg DeclKey.type (Option.some.inj same).symm
    | _ => cases same
  exact List.Pairwise.of_map DeclKey.type (fun _ _ other same => other (congrArg DeclKey.type same)) listed

end View

/-! ### Admission -/

namespace ClassCriterion

/-- The criterion names classes. -/
def IsNaming : ClassCriterion → Prop
  | .annotatedWith _ => False
  | _ => True

/-- The criterion names the class. -/
def Names (c : Corpus) : ClassCriterion → TypeName → Prop
  | .exactly name, n => n = name
  | .subtypeOf name, n => n ∈ c.allSubtypes name
  | .supertypeOf name, n => n ∈ c.allSupertypes name
  | .annotatedWith _, _ => False

theorem isNaming_iff (c : Corpus) (criterion : ClassCriterion) :
    criterion.IsNaming ↔ ∃ names, criterion.named? c = some names := by
  cases criterion <;> simp [IsNaming, named?]

theorem names_iff (c : Corpus) (criterion : ClassCriterion) (name : TypeName) :
    criterion.Names c name ↔ ∃ names, criterion.named? c = some names ∧ name ∈ names := by
  cases criterion <;> simp [Names, named?]

end ClassCriterion

namespace ClassQuery

/-- The query admits the class: where classes are named it is one of them, and where annotations are asked
    for it has one of them. -/
structure Admits (q : ClassQuery) (v : View) (d : ClassDecl) : Prop where
  named : (∃ criterion ∈ q.criteria, criterion.IsNaming) →
    ∃ criterion ∈ q.criteria, criterion.Names v.corpus d.name
  annotated : (∃ type, .annotatedWith type ∈ q.criteria) →
    ∃ type, .annotatedWith type ∈ q.criteria ∧ v.Carries (.type d.name) type

variable {q : ClassQuery} {v : View}

theorem mem_annotationTypes {type : TypeName} : type ∈ q.annotationTypes ↔ .annotatedWith type ∈ q.criteria :=
  mem_filterMap_unwrap fun criterion _ => by cases criterion <;> simp [ClassCriterion.annotationType?]

theorem named?_eq_none {c : Corpus} (unnamed : q.named? c = none) :
    ¬ ∃ criterion ∈ q.criteria, criterion.IsNaming := by
  unfold named? at unnamed
  split at unnamed
  · next nothing =>
    rintro ⟨criterion, member, naming⟩
    obtain ⟨names, named⟩ := (criterion.isNaming_iff c).1 naming
    rw [List.filterMap_eq_nil_iff.1 nothing criterion member] at named
    cases named
  · cases unnamed

theorem named?_eq_some {c : Corpus} {names : List TypeName} (named : q.named? c = some names) :
    (∃ criterion ∈ q.criteria, criterion.IsNaming) ∧ names.Nodup ∧
      ∀ name, name ∈ names ↔ ∃ criterion ∈ q.criteria, criterion.Names c name := by
  unfold named? at named
  split at named
  · cases named
  · next lists something =>
    obtain rfl := Option.some.inj named
    refine ⟨?_, nodup_eraseDups _, ?_⟩
    · obtain ⟨list, first⟩ := List.exists_mem_of_ne_nil _ something
      obtain ⟨criterion, member, same⟩ := List.mem_filterMap.1 first
      exact ⟨criterion, member, (criterion.isNaming_iff c).2 ⟨list, same⟩⟩
    · intro name
      rw [List.mem_eraseDups, List.mem_flatten]
      constructor
      · rintro ⟨list, listed, found⟩
        obtain ⟨criterion, member, same⟩ := List.mem_filterMap.1 listed
        exact ⟨criterion, member, (criterion.names_iff c name).2 ⟨list, same, found⟩⟩
      · rintro ⟨criterion, member, names⟩
        obtain ⟨list, same, found⟩ := (criterion.names_iff c name).1 names
        exact ⟨list, List.mem_filterMap.2 ⟨criterion, member, same⟩, found⟩

/-- A class query lists exactly the classes of the corpus that it admits, each once. -/
theorem find_spec (readable : v.IsReadable) (q : ClassQuery) :
    ∃ found, q.find v = .ok found ∧ (found.map (·.name)).Nodup ∧
      ∀ d, d ∈ found ↔ d ∈ v.corpus.classes ∧ q.Admits v d := by
  unfold find
  cases named : q.named? v.corpus with
  | some names =>
    obtain ⟨asked, distinct, listed⟩ := named?_eq_some named
    refine ⟨_, View.retain_eq readable _ _ _, ?_, ?_⟩
    · exact (List.filter_sublist.map _).nodup (Corpus.nodup_filterMap_class? distinct)
    · intro d
      rw [List.mem_filter, Corpus.mem_filterMap_class?, View.retained_iff readable mem_annotationTypes, listed]
      constructor
      · rintro ⟨⟨member, names⟩, annotated⟩
        exact ⟨member, fun _ => names, annotated⟩
      · rintro ⟨member, admitted⟩
        exact ⟨⟨member, admitted.named asked⟩, admitted.annotated⟩
  | none =>
    have unnamed := named?_eq_none named
    have admits (d : ClassDecl) : q.Admits v d ↔
        (q.annotationTypes.isEmpty || q.annotationTypes.any (v.setOf (.type d.name)).contains) = true := by
      rw [View.retained_iff readable mem_annotationTypes]
      exact ⟨fun admitted => admitted.annotated, fun annotated => ⟨fun asked => absurd asked unnamed, annotated⟩⟩
    by_cases nothing : q.annotationTypes.isEmpty
    · refine ⟨v.corpus.sorted, by simp [nothing], v.corpus.nodup_sorted, fun d => ?_⟩
      simp [admits, nothing, v.corpus.sorted_perm.mem_iff]
    · obtain ⟨keys, found, distinct, listed⟩ := View.declarationsWithAny_spec readable q.annotationTypes
      refine ⟨(View.classNames keys).filterMap v.corpus.class?, ?_, ?_, ?_⟩
      · simp only [nothing, found]
        rfl
      · exact Corpus.nodup_filterMap_class? (View.nodup_classNames distinct)
      · intro d
        rw [Corpus.mem_filterMap_class?, View.mem_classNames, listed, admits]
        simp [nothing]

end ClassQuery

end AnnotationWeaver
