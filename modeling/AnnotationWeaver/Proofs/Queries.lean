import AnnotationWeaver.Proofs.ClassQueries
import AnnotationWeaver.Query.Members

/-!
What queries admit. For members, too, admission is stated of one member, without saying where the search
for it starts. A search starts from the members of the classes asked for, from the declarations with an
annotation asked for, or from all members of the corpus; it lists the keys of exactly the admitted members,
each once. `Query.Admits` is the rule for declarations of every kind.
-/
namespace AnnotationWeaver

/-! ### Members of the corpus -/

theorem ClassDecl.mem_members_field {d : ClassDecl} {m : MemberOutline} :
    m ∈ d.members .field ↔ ∃ f ∈ d.fields, f.outline = m := List.mem_map

theorem ClassDecl.mem_members_of_ne_field {d : ClassDecl} {kind : MemberKind} (other : kind ≠ .field)
    {m : MemberOutline} :
    m ∈ d.members kind ↔ ∃ method ∈ d.methods, kind.admits method = true ∧ method.outline = m := by
  cases kind with
  | field => exact absurd rfl other
  | _ => simp [members, and_assoc]

namespace Corpus

variable {c : Corpus}

/-- A member bears the name of the class that declares it. -/
theorem member_declaringClass {d : ClassDecl} (declared : d ∈ c.classes) {kind : MemberKind} {m : MemberOutline}
    (member : m ∈ d.members kind) : m.key.declaringClass = d.name := by
  by_cases isField : kind = .field
  · subst isField
    obtain ⟨f, field, rfl⟩ := ClassDecl.mem_members_field.1 member
    exact c.field_owner declared field
  · obtain ⟨method, listed, -, rfl⟩ := (ClassDecl.mem_members_of_ne_field isField).1 member
    exact c.method_owner declared listed

theorem nodup_members {d : ClassDecl} (declared : d ∈ c.classes) (kind : MemberKind) :
    ((d.members kind).map (·.key)).Nodup := by
  have methods : ((d.methods.filter kind.admits).map fun m => DeclKey.method m.key).Nodup := by
    have kept : ((d.methods.filter kind.admits).map (·.key)).Nodup :=
      (List.filter_sublist.map _).nodup (c.nodup_methodKeys declared)
    simpa [List.Nodup, List.pairwise_map] using kept
  have fields : (d.fields.map fun f => DeclKey.field f.key).Nodup := by
    simpa [List.Nodup, List.pairwise_map] using c.nodup_fieldKeys declared
  cases kind with
  | field => simpa [ClassDecl.members, FieldDecl.outline, Function.comp_def] using fields
  | _ => simpa [ClassDecl.members, MethodDecl.outline, Function.comp_def] using methods

/-- The members of distinct classes are distinct. -/
theorem nodup_flatMap_members {classes : List ClassDecl} (declared : ∀ d ∈ classes, d ∈ c.classes)
    (distinct : (classes.map (·.name)).Nodup) (kind : MemberKind) :
    ((classes.flatMap (·.members kind)).map (·.key)).Nodup := by
  induction classes with
  | nil => exact List.nodup_nil
  | cons d rest ih =>
    obtain ⟨fresh, distinct⟩ := List.nodup_cons.1 distinct
    have later : ∀ e ∈ rest, e ∈ c.classes := fun e member => declared e (List.mem_cons_of_mem _ member)
    rw [List.flatMap_cons, List.map_append, List.nodup_append]
    refine ⟨nodup_members (declared d List.mem_cons_self) kind, ih later distinct, ?_⟩
    intro key own other elsewhere same
    obtain ⟨m, member, rfl⟩ := List.mem_map.1 own
    obtain ⟨n, listed, rfl⟩ := List.mem_map.1 elsewhere
    obtain ⟨e, after, declares⟩ := List.mem_flatMap.1 listed
    have owner := member_declaringClass (declared d List.mem_cons_self) member
    rw [same, member_declaringClass (later e after) declares] at owner
    exact fresh (List.mem_map.2 ⟨e, after, owner⟩)

/-- The member that is found under a key is the one of the corpus that has it. -/
theorem member?_eq_some_iff {kind : MemberKind} {key : DeclKey} {m : MemberOutline} :
    c.member? kind key = some m ↔ (∃ d ∈ c.classes, m ∈ d.members kind) ∧ m.key = key := by
  by_cases isField : kind = .field
  · subst isField
    simp only [ClassDecl.mem_members_field]
    constructor
    · intro found
      cases key with
      | field k =>
        obtain ⟨f, search, rfl⟩ := Option.map_eq_some_iff.1 found
        obtain ⟨⟨d, declared, field⟩, rfl⟩ := field?_eq_some_iff.1 search
        exact ⟨⟨d, declared, f, field, rfl⟩, rfl⟩
      | method k => simp [member?, MemberKind.admits] at found
      | _ => cases found
    · rintro ⟨⟨d, declared, f, field, rfl⟩, rfl⟩
      have search : c.field? f.key = some f := field?_eq_some_iff.2 ⟨⟨d, declared, field⟩, rfl⟩
      simp [member?, FieldDecl.outline, search]
  · simp only [ClassDecl.mem_members_of_ne_field isField]
    constructor
    · intro found
      cases key with
      | method k =>
        obtain ⟨method, search, rfl⟩ := Option.map_eq_some_iff.1 found
        obtain ⟨search, admitted⟩ := Option.filter_eq_some_iff.1 search
        obtain ⟨⟨d, declared, listed⟩, rfl⟩ := method?_eq_some_iff.1 search
        exact ⟨⟨d, declared, method, listed, admitted, rfl⟩, rfl⟩
      | field k => simp [member?, isField] at found
      | _ => cases found
    · rintro ⟨⟨d, declared, method, listed, admitted, rfl⟩, rfl⟩
      have search : c.method? method.key = some method := method?_eq_some_iff.2 ⟨⟨d, declared, listed⟩, rfl⟩
      exact Option.map_eq_some_iff.2 ⟨method, Option.filter_eq_some_iff.2 ⟨search, admitted⟩, rfl⟩

end Corpus

/-! ### Admission -/

namespace MemberQuery

/-- The query admits the member that a class declares: where classes are asked for it is declared by one of
    them, where types are asked for it has one of them, and where annotations are asked for it has one. -/
structure Admits (q : MemberQuery) (v : View) (owner : ClassDecl) (m : MemberOutline) : Prop where
  declared : (∃ site, .declaredOn site ∈ q.criteria) →
    ∃ site, .declaredOn site ∈ q.criteria ∧ ∃ found, site.find v = .ok found ∧ owner ∈ found
  typed : (∃ type, .ofType type ∈ q.criteria) → .ofType m.type ∈ q.criteria
  annotated : (∃ type, .annotatedWith type ∈ q.criteria) →
    ∃ type, .annotatedWith type ∈ q.criteria ∧ v.Carries m.key type

variable {q : MemberQuery} {v : View}

theorem mem_sites {site : ClassQuery} : site ∈ q.sites ↔ .declaredOn site ∈ q.criteria :=
  mem_filterMap_unwrap fun criterion _ => by cases criterion <;> simp

theorem mem_types {type : Ty} : type ∈ q.types ↔ .ofType type ∈ q.criteria :=
  mem_filterMap_unwrap fun criterion _ => by cases criterion <;> simp

theorem mem_annotationTypes {type : TypeName} : type ∈ q.annotationTypes ↔ .annotatedWith type ∈ q.criteria :=
  mem_filterMap_unwrap fun criterion _ => by cases criterion <;> simp

theorem admitsType_iff {m : MemberOutline} :
    q.admitsType m = true ↔ ((∃ type, .ofType type ∈ q.criteria) → .ofType m.type ∈ q.criteria) := by
  simp only [admitsType, Bool.or_eq_true, List.isEmpty_iff, List.contains_iff_mem, ← mem_types]
  constructor
  · rintro (nothing | listed) asked
    · simp [nothing] at asked
    · exact listed
  · intro listed
    by_cases nothing : q.types = []
    · exact .inl nothing
    · exact .inr (listed (List.exists_mem_of_ne_nil _ nothing))

theorem mem_among {kind : MemberKind} {classes : List ClassDecl} {m : MemberOutline} :
    m ∈ q.among kind classes ↔ (∃ d ∈ classes, m ∈ d.members kind) ∧ q.admitsType m = true := by
  rw [among, List.mem_filter, List.mem_flatMap]

/-- The sites list the classes that one of them admits, each once. -/
theorem declaring_spec (readable : v.IsReadable) (q : MemberQuery) :
    ∃ classes, q.declaring v = .ok classes ∧ (classes.map (·.name)).Nodup ∧
      (∀ d ∈ classes, d ∈ v.corpus.classes) ∧
      ∀ d, d ∈ classes ↔
        ∃ site, .declaredOn site ∈ q.criteria ∧ ∃ found, site.find v = .ok found ∧ d ∈ found := by
  have total (site : ClassQuery) : ∃ found, site.find v = .ok found :=
    (ClassQuery.find_spec readable site).imp fun _ spec => spec.1
  have indexed {site : ClassQuery} {found : List ClassDecl} (search : site.find v = .ok found) {d : ClassDecl}
      (member : d ∈ found) : d ∈ v.corpus.classes := by
    obtain ⟨found', answered, -, listed⟩ := ClassQuery.find_spec readable site
    obtain rfl := Except.ok.inj (search.symm.trans answered)
    exact ((listed d).1 member).1
  obtain ⟨lists, answered, listed⟩ := exists_mapM_ok total q.sites
  refine ⟨_, by rw [declaring, answered]; rfl, Corpus.nodup_filterMap_class? (nodup_eraseDups _), ?_, ?_⟩
  · exact fun d member => (Corpus.mem_filterMap_class?.1 member).1
  · intro d
    rw [Corpus.mem_filterMap_class?, List.mem_eraseDups, List.mem_map]
    constructor
    · rintro ⟨declared, e, somewhere, same⟩
      obtain ⟨found, among, member⟩ := List.mem_flatten.1 somewhere
      obtain ⟨site, asked, search⟩ := (listed found).1 among
      obtain rfl := Corpus.eq_of_name (indexed search member) declared same
      exact ⟨site, mem_sites.1 asked, found, search, member⟩
    · rintro ⟨site, asked, found, search, member⟩
      have among : found ∈ lists := (listed found).2 ⟨site, mem_sites.2 asked, search⟩
      exact ⟨indexed search member, d, List.mem_flatten.2 ⟨found, among, member⟩, rfl⟩

/-- Where no class is asked for, admission is by type and annotation alone. -/
theorem admits_of_no_sites (readable : v.IsReadable) (unplaced : q.sites = []) (d : ClassDecl) (m : MemberOutline) :
    q.Admits v d m ↔ q.admitsType m = true ∧
      (q.annotationTypes.isEmpty || q.annotationTypes.any (v.setOf m.key).contains) = true := by
  have anywhere : ¬ ∃ site, .declaredOn site ∈ q.criteria := by simp [← mem_sites, unplaced]
  rw [View.retained_iff readable mem_annotationTypes, admitsType_iff]
  exact ⟨fun admitted => ⟨admitted.typed, admitted.annotated⟩,
    fun both => ⟨fun asked => absurd asked anywhere, both.1, both.2⟩⟩

/-- The members listed are those of the corpus that the query admits, each once. -/
structure Lists (q : MemberQuery) (kind : MemberKind) (v : View) (found : List MemberOutline) : Prop where
  distinct : (found.map (·.key)).Nodup
  listed : ∀ m, m ∈ found ↔ ∃ d ∈ v.corpus.classes, m ∈ d.members kind ∧ q.Admits v d m

/-- The way through the whole corpus. -/
theorem lists_among_sorted (readable : v.IsReadable) (unplaced : q.sites = []) (unannotated : q.annotationTypes = [])
    (kind : MemberKind) : q.Lists kind v (q.among kind v.corpus.sorted) where
  distinct := by
    have declared : ∀ d ∈ v.corpus.sorted, d ∈ v.corpus.classes := fun d => v.corpus.sorted_perm.mem_iff.1
    exact (List.filter_sublist.map _).nodup (Corpus.nodup_flatMap_members declared v.corpus.nodup_sorted kind)
  listed := by
    intro m
    simp only [mem_among, admits_of_no_sites readable unplaced, unannotated, v.corpus.sorted_perm.mem_iff]
    constructor
    · rintro ⟨⟨d, declared, declares⟩, typed⟩
      exact ⟨d, declared, declares, typed, rfl⟩
    · rintro ⟨d, declared, declares, typed, -⟩
      exact ⟨⟨d, declared, declares⟩, typed⟩

/-- The way from the declarations that have an annotation asked for. -/
theorem lists_of_annotated (readable : v.IsReadable) (unplaced : q.sites = []) (annotated : q.annotationTypes ≠ [])
    (kind : MemberKind) {keys : List DeclKey} (distinct : keys.Nodup)
    (carrying : ∀ key, key ∈ keys ↔ q.annotationTypes.any (v.setOf key).contains = true) :
    q.Lists kind v ((keys.filterMap (v.corpus.member? kind)).filter q.admitsType) where
  distinct := by
    have own : ∀ key m, v.corpus.member? kind key = some m → m.key = key :=
      fun key m found => (Corpus.member?_eq_some_iff.1 found).2
    exact (List.filter_sublist.map _).nodup ((map_filterMap_sublist own keys).nodup distinct)
  listed := by
    intro m
    simp only [List.mem_filter, List.mem_filterMap, Corpus.member?_eq_some_iff, admits_of_no_sites readable unplaced]
    constructor
    · rintro ⟨⟨key, found, ⟨d, declared, declares⟩, rfl⟩, typed⟩
      exact ⟨d, declared, declares, typed, by simp [(carrying _).1 found]⟩
    · rintro ⟨d, declared, declares, typed, held⟩
      rw [List.isEmpty_eq_false_iff.2 annotated, Bool.false_or] at held
      exact ⟨⟨m.key, (carrying _).2 held, ⟨d, declared, declares⟩, rfl⟩, typed⟩

/-- The way from the classes asked for. -/
theorem lists_of_sites (readable : v.IsReadable) (placed : q.sites ≠ []) (kind : MemberKind)
    {classes : List ClassDecl} (distinct : (classes.map (·.name)).Nodup)
    (indexed : ∀ d ∈ classes, d ∈ v.corpus.classes)
    (found : ∀ d, d ∈ classes ↔
      ∃ site, .declaredOn site ∈ q.criteria ∧ ∃ found, site.find v = .ok found ∧ d ∈ found) :
    q.Lists kind v ((q.among kind classes).filter fun m =>
      q.annotationTypes.isEmpty || q.annotationTypes.any (v.setOf m.key).contains) where
  distinct := (List.filter_sublist.map _).nodup
    ((List.filter_sublist.map _).nodup (Corpus.nodup_flatMap_members indexed distinct kind))
  listed := by
    have asked : ∃ site, .declaredOn site ∈ q.criteria :=
      (List.exists_mem_of_ne_nil _ placed).imp fun _ => mem_sites.1
    intro m
    rw [List.mem_filter, mem_among, View.retained_iff readable mem_annotationTypes, admitsType_iff]
    constructor
    · rintro ⟨⟨⟨d, member, declares⟩, typed⟩, annotated⟩
      exact ⟨d, indexed d member, declares, fun _ => (found d).1 member, typed, annotated⟩
    · rintro ⟨d, -, declares, admitted⟩
      exact ⟨⟨⟨d, (found d).2 (admitted.declared asked), declares⟩, admitted.typed⟩, admitted.annotated⟩

/-- The three ways to search for members list the same. -/
theorem admitted_spec (readable : v.IsReadable) (q : MemberQuery) (kind : MemberKind) :
    ∃ found, q.admitted kind v = .ok found ∧ q.Lists kind v found := by
  unfold admitted
  by_cases unplaced : q.sites = []
  · rw [unplaced]
    by_cases unannotated : q.annotationTypes = []
    · exact ⟨_, by rw [unannotated]; rfl, lists_among_sorted readable unplaced unannotated kind⟩
    · obtain ⟨keys, search, distinct, carrying⟩ := View.declarationsWithAny_spec readable q.annotationTypes
      refine ⟨_, ?_, lists_of_annotated readable unplaced unannotated kind distinct carrying⟩
      rw [search, List.isEmpty_eq_false_iff.2 unannotated]
      rfl
  · obtain ⟨classes, answered, distinct, indexed, found⟩ := declaring_spec readable q
    refine ⟨_, ?_, lists_of_sites readable unplaced kind distinct indexed found⟩
    rw [List.isEmpty_eq_false_iff.2 unplaced, answered]
    exact View.retain_eq readable q.annotationTypes (·.key) (q.among kind classes)

/-- A member query finds the keys of exactly the members that it admits, each once. -/
theorem find_spec (readable : v.IsReadable) (q : MemberQuery) (kind : MemberKind) :
    ∃ keys, q.find kind v = .ok keys ∧ keys.Nodup ∧
      ∀ key, key ∈ keys ↔ ∃ d ∈ v.corpus.classes, ∃ m ∈ d.members kind, m.key = key ∧ q.Admits v d m := by
  obtain ⟨found, answered, distinct, listed⟩ := admitted_spec readable q kind
  have search : ∃ keys, q.find kind v = .ok keys ∧ keys.Perm (found.map (·.key)) := by
    refine ⟨if q.isLoose then sortKeys (found.map (·.key)) else found.map (·.key), ?_, ?_⟩
    · rw [find, answered]
      rfl
    · split
      · exact List.mergeSort_perm _ _
      · exact List.Perm.refl _
  obtain ⟨keys, search, arranged⟩ := search
  refine ⟨keys, search, arranged.nodup_iff.2 distinct, ?_⟩
  intro key
  simp only [arranged.mem_iff, List.mem_map, listed]
  constructor
  · rintro ⟨m, ⟨d, declared, declares, admitted⟩, same⟩
    exact ⟨d, declared, m, declares, same, admitted⟩
  · rintro ⟨d, declared, m, declares, same, admitted⟩
    exact ⟨m, ⟨d, declared, declares, admitted⟩, same⟩

end MemberQuery

/-- Static initializers are members of no kind. -/
theorem ClassDecl.name_ne_of_mem_members {d : ClassDecl} {kind : MemberKind} {m : MemberOutline} {key : MethodKey}
    (member : m ∈ d.members kind) (method : m.key = .method key) : key.name ≠ "<clinit>" := by
  by_cases isField : kind = .field
  · subst isField
    obtain ⟨f, -, rfl⟩ := mem_members_field.1 member
    cases method
  · obtain ⟨declared, -, admitted, rfl⟩ := (mem_members_of_ne_field isField).1 member
    obtain rfl := DeclKey.method.inj method
    intro initializer
    cases kind <;> simp [MemberKind.admits, MethodDecl.isRegular, MethodDecl.isConstructor, MethodDecl.name,
      initializer] at admitted

/-- The query admits the declaration that has the key. -/
def Query.Admits (v : View) : Query → DeclKey → Prop
  | .classes q, key => ∃ d ∈ v.corpus.classes, .type d.name = key ∧ q.Admits v d
  | .members kind q, key => ∃ d ∈ v.corpus.classes, ∃ m ∈ d.members kind, m.key = key ∧ q.Admits v d m

/-- On a readable view a query never fails. It finds exactly the declarations that it admits, each once, and
    no static initializer, whichever way the search takes. -/
theorem Query.find_iff_admits (v : View) (readable : v.IsReadable) (q : Query) :
    ∃ keys, q.find v = .ok keys ∧ keys.Nodup ∧ (∀ key, key ∈ keys ↔ q.Admits v key) ∧
      ∀ key, .method key ∈ keys → key.name ≠ "<clinit>" := by
  cases q with
  | classes q =>
    obtain ⟨found, answered, distinct, listed⟩ := ClassQuery.find_spec readable q
    refine ⟨found.map fun d => .type d.name, by rw [find, answered]; rfl, ?_, ?_, ?_⟩
    · simpa [List.Nodup, List.pairwise_map] using distinct
    · intro key
      simp only [List.mem_map, listed, Admits]
      constructor
      · rintro ⟨d, ⟨declared, admitted⟩, same⟩
        exact ⟨d, declared, same, admitted⟩
      · rintro ⟨d, declared, same, admitted⟩
        exact ⟨d, ⟨declared, admitted⟩, same⟩
    · intro key member
      obtain ⟨d, -, impossible⟩ := List.mem_map.1 member
      cases impossible
  | members kind q =>
    obtain ⟨keys, search, distinct, listed⟩ := MemberQuery.find_spec readable q kind
    refine ⟨keys, search, distinct, listed, ?_⟩
    intro key member
    obtain ⟨d, -, m, declares, method, -⟩ := (listed _).1 member
    exact ClassDecl.name_ne_of_mem_members declares method

/-- The classes that have an annotation which only one of two carries in the corpus, from which it was taken. -/
def trackedClasses : Query := .classes ⟨[.annotatedWith ⟨"app.Tracked"⟩]⟩

theorem Query.find_iff_admits_in_strippedLineage :
    strippedLineage.IsReadable ∧ ∃ keys, trackedClasses.find strippedLineage = .ok keys ∧ keys.Nodup ∧
      .type ⟨"app.Leaf"⟩ ∈ keys ∧ .type ⟨"app.Base"⟩ ∉ keys := by
  obtain ⟨keys, found, distinct, admitted, -⟩ := find_iff_admits strippedLineage isReadable_strippedLineage trackedClasses
  refine ⟨isReadable_strippedLineage, keys, found, distinct, (admitted _).2 ?_, fun member => ?_⟩
  · obtain ⟨leaf, declared, named⟩ : ∃ d ∈ cyclicLineage.classes, d.name = ⟨"app.Leaf"⟩ := by decide +kernel
    refine ⟨leaf, declared, congrArg DeclKey.type named, ?_, fun _ => ⟨_, List.mem_cons_self, ?_⟩⟩
    · simp [ClassCriterion.IsNaming]
    · rw [named, View.carries_iff isReadable_strippedLineage]
      exact contains_setOf_strippedLineage.1
  · obtain ⟨base, -, named, admits⟩ := (admitted _).1 member
    obtain ⟨type, asked, held⟩ := admits.annotated ⟨_, List.mem_cons_self⟩
    obtain rfl : type = ⟨"app.Tracked"⟩ := by simpa using asked
    rw [named, View.carries_iff isReadable_strippedLineage, contains_setOf_strippedLineage.2] at held
    cases held

end AnnotationWeaver
