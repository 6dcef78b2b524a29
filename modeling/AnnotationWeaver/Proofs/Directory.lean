import AnnotationWeaver.Corpus.Basic
import AnnotationWeaver.Proofs.Lists
import AnnotationWeaver.Proofs.Tables

/-!
The corpus as a directory. An accepted list of classes has distinct class names, and every class in it
distinct methods and fields that bear its name. So the tables of the corpus hold all of them
(`Corpus.reflects`): what is found under a key is what the corpus declares with that key, and nothing
else has it.
-/
namespace AnnotationWeaver

theorem firstRepeat?_eq_none_iff {α : Type} [DecidableEq α] {seen xs : List α} :
    firstRepeat? seen xs = none ↔ xs.Nodup ∧ ∀ x ∈ xs, x ∉ seen := by
  induction xs generalizing seen with
  | nil => simp [firstRepeat?]
  | cons x rest ih =>
    by_cases known : x ∈ seen
    · simp [firstRepeat?, known]
    · simp only [firstRepeat?, known, if_false, ih, List.nodup_cons, List.mem_cons, not_or]
      constructor
      · rintro ⟨distinct, fresh⟩
        refine ⟨⟨fun later => (fresh x later).1 rfl, distinct⟩, ?_⟩
        rintro y (rfl | later)
        · exact known
        · exact (fresh y later).2
      · rintro ⟨⟨absent, distinct⟩, fresh⟩
        exact ⟨distinct, fun y later => ⟨fun same => absent (same ▸ later), fresh y (.inr later)⟩⟩

/-- A list of classes is accepted when every class is and no name occurs twice. -/
theorem corpusError?_eq_none_iff {seen : List TypeName} {classes : List ClassDecl} :
    corpusError? seen classes = none ↔
      (∀ d ∈ classes, d.error? = none) ∧ (classes.map (·.name)).Nodup ∧ ∀ d ∈ classes, d.name ∉ seen := by
  induction classes generalizing seen with
  | nil => simp [corpusError?]
  | cons d rest ih =>
    cases unfit : d.error? with
    | some e => simp [corpusError?, unfit]
    | none =>
      by_cases known : d.name ∈ seen
      · simp [corpusError?, unfit, known]
      · simp only [corpusError?, unfit, known, if_false, ih, List.map_cons, List.nodup_cons, List.mem_cons,
          List.mem_map, not_or]
        constructor
        · rintro ⟨fit, distinct, fresh⟩
          refine ⟨?_, ⟨?_, distinct⟩, ?_⟩
          · rintro e (rfl | later)
            · exact unfit
            · exact fit e later
          · rintro ⟨e, later, same⟩
            exact (fresh e later).1 same
          · rintro e (rfl | later)
            · exact known
            · exact (fresh e later).2
        · rintro ⟨fit, ⟨absent, distinct⟩, fresh⟩
          refine ⟨fun e later => fit e (.inr later), distinct, fun e later => ⟨?_, fresh e (.inr later)⟩⟩
          exact fun same => absent ⟨e, later, same⟩

/-- A class is accepted when its name is valid and no key of a method or a field occurs twice. -/
theorem ClassDecl.error?_eq_none_iff {d : ClassDecl} :
    d.error? = none ↔
      d.name.isValid = true ∧ (d.methods.map (·.key)).Nodup ∧ (d.fields.map (·.key)).Nodup := by
  have distinct : ∀ {α : Type} [DecidableEq α] {xs : List α}, firstRepeat? [] xs = none ↔ xs.Nodup := by
    intro α _ xs
    rw [firstRepeat?_eq_none_iff]
    exact and_iff_left fun x _ => List.not_mem_nil
  rw [← distinct, ← distinct, error?]
  by_cases valid : d.name.isValid = true
  · rw [if_pos valid]
    cases firstRepeat? [] (d.methods.map (·.key)) with
    | some key => simp
    | none => simp [valid]
  · simp [valid]

theorem ClassDecl.nodup_keys {d : ClassDecl} (fit : d.error? = none) :
    (d.methods.map (·.key)).Nodup ∧ (d.fields.map (·.key)).Nodup :=
  (ClassDecl.error?_eq_none_iff.1 fit).2

theorem ClassDecl.mem_declarations {c : ClassDecl} {d : Declaration} :
    d ∈ c.declarations ↔ d = .type c ∨ (∃ m ∈ c.methods, d ∈ m.declarations) ∨ ∃ f ∈ c.fields, .field f = d := by
  rw [declarations, List.cons_append, List.mem_cons, List.mem_append, List.mem_flatMap, List.mem_map]

/-- Among elements with distinct keys, the one that is found by a key is the one that has it. -/
theorem find?_key_eq_some_iff {α κ : Type} [DecidableEq κ] {key : α → κ} {xs : List α}
    (distinct : (xs.map key).Nodup) {k : κ} {x : α} :
    xs.find? (fun y => key y == k) = some x ↔ x ∈ xs ∧ key x = k := by
  induction xs with
  | nil => simp
  | cons y rest ih =>
    obtain ⟨fresh, distinct⟩ := List.nodup_cons.1 distinct
    by_cases same : key y = k
    · simp only [List.find?_cons, same, beq_self_eq_true, Option.some.injEq, List.mem_cons]
      constructor
      · rintro rfl
        exact ⟨.inl rfl, same⟩
      · rintro ⟨rfl | later, found⟩
        · rfl
        · exact absurd (List.mem_map.2 ⟨x, later, found.trans same.symm⟩) fresh
    · simp only [List.find?_cons, beq_eq_false_iff_ne.2 same, ih distinct, List.mem_cons]
      constructor
      · exact fun found => ⟨.inr found.1, found.2⟩
      · rintro ⟨rfl | later, found⟩
        · exact absurd found same
        · exact ⟨later, found⟩

namespace Corpus

variable (c : Corpus)

theorem nodup_names : (c.classes.map (·.name)).Nodup := (corpusError?_eq_none_iff.1 c.accepted).2.1

theorem nodup_methodKeys {d : ClassDecl} (member : d ∈ c.classes) : (d.methods.map (·.key)).Nodup :=
  (ClassDecl.nodup_keys ((corpusError?_eq_none_iff.1 c.accepted).1 d member)).1

theorem nodup_fieldKeys {d : ClassDecl} (member : d ∈ c.classes) : (d.fields.map (·.key)).Nodup :=
  (ClassDecl.nodup_keys ((corpusError?_eq_none_iff.1 c.accepted).1 d member)).2

/-- Every class comes from an outline that its members were bound to. -/
theorem exists_outline {d : ClassDecl} (member : d ∈ c.classes) : ∃ outline : ClassOutline, d = outline.declare := by
  rw [c.declared] at member
  obtain ⟨outline, -, rfl⟩ := List.mem_map.1 member
  exact ⟨outline, rfl⟩

theorem method_owner {d : ClassDecl} (member : d ∈ c.classes) {m : MethodDecl} (declared : m ∈ d.methods) :
    m.key.owner = d.name := by
  obtain ⟨outline, rfl⟩ := c.exists_outline member
  obtain ⟨o, -, rfl⟩ := List.mem_map.1 declared
  rfl

theorem field_owner {d : ClassDecl} (member : d ∈ c.classes) {f : FieldDecl} (declared : f ∈ d.fields) :
    f.key.owner = d.name := by
  obtain ⟨outline, rfl⟩ := c.exists_outline member
  obtain ⟨o, -, rfl⟩ := List.mem_map.1 declared
  rfl

/-- Members whose keys bear the name of their class differ in their keys if those of each class do. -/
theorem nodup_memberKeys {α κ : Type} {members : ClassDecl → List α} {key : α → κ} {owner : κ → TypeName}
    (owned : ∀ d ∈ c.classes, ∀ x ∈ members d, owner (key x) = d.name)
    (distinct : ∀ d ∈ c.classes, ((members d).map key).Nodup) : ((c.classes.flatMap members).map key).Nodup := by
  rw [List.map_flatMap, List.nodup_flatMap]
  refine ⟨distinct, (List.pairwise_map.1 c.nodup_names).imp_of_mem ?_⟩
  intro d d' member member' other k listed listed'
  obtain ⟨x, declared, rfl⟩ := List.mem_map.1 listed
  obtain ⟨y, declared', same⟩ := List.mem_map.1 listed'
  exact other ((owned d member x declared).symm.trans (same ▸ owned d' member' y declared'))

theorem nodup_allMethodKeys : ((c.classes.flatMap (·.methods)).map (·.key)).Nodup :=
  c.nodup_memberKeys (fun _ member _ => c.method_owner member) fun _ => c.nodup_methodKeys

theorem nodup_allFieldKeys : ((c.classes.flatMap (·.fields)).map (·.key)).Nodup :=
  c.nodup_memberKeys (fun _ member _ => c.field_owner member) fun _ => c.nodup_fieldKeys

/-- The tables of the corpus hold its classes with all that they declare. -/
theorem reflects : c.tables.Reflects (.of c.classes) := by
  rw [c.filled]
  exact Tables.reflects_ofClasses c.nodup_names c.nodup_allMethodKeys c.nodup_allFieldKeys

theorem sorted_perm : c.sorted.Perm c.classes := by
  have entered : c.tables.classes.map (·.2) = c.classes := by
    rw [c.reflects.classes, List.map_map]
    exact List.map_id' _
  exact entered ▸ List.mergeSort_perm _ _

theorem nodup_sorted : (c.sorted.map (·.name)).Nodup := (c.sorted_perm.map _).nodup_iff.2 c.nodup_names

/-- The pass over the classes has noted each declaration once at each type that it carries an annotation of. -/
theorem annotatedWith_eq (type : TypeName) :
    c.annotatedWith type = (c.declarations.filter (·.declares type)).map (·.key) :=
  c.reflects.annotated type

variable {c}

theorem class?_eq_some_iff {name : TypeName} {d : ClassDecl} :
    c.class? name = some d ↔ d ∈ c.classes ∧ d.name = name := by
  rw [class?, c.reflects.classes, Assoc.find?_map_keyed ClassDecl.name]
  exact find?_key_eq_some_iff c.nodup_names

theorem eq_of_name {d e : ClassDecl} (member : d ∈ c.classes) (listed : e ∈ c.classes) (same : d.name = e.name) :
    d = e :=
  Option.some.inj ((class?_eq_some_iff.2 ⟨member, same⟩).symm.trans (class?_eq_some_iff.2 ⟨listed, rfl⟩))

/-- Looking up names finds the classes of the corpus that have one. -/
theorem mem_filterMap_class? {names : List TypeName} {d : ClassDecl} :
    d ∈ names.filterMap c.class? ↔ d ∈ c.classes ∧ d.name ∈ names := by
  rw [List.mem_filterMap]
  constructor
  · rintro ⟨name, listed, found⟩
    obtain ⟨member, rfl⟩ := class?_eq_some_iff.1 found
    exact ⟨member, listed⟩
  · rintro ⟨member, listed⟩
    exact ⟨d.name, listed, class?_eq_some_iff.2 ⟨member, rfl⟩⟩

theorem nodup_filterMap_class? {names : List TypeName} (distinct : names.Nodup) :
    ((names.filterMap c.class?).map (·.name)).Nodup :=
  (map_filterMap_sublist (fun _ _ found => (class?_eq_some_iff.1 found).2) names).nodup distinct

theorem method?_eq_some_iff {key : MethodKey} {m : MethodDecl} :
    c.method? key = some m ↔ (∃ d ∈ c.classes, m ∈ d.methods) ∧ m.key = key := by
  rw [method?, c.reflects.methods, Assoc.find?_map_keyed MethodDecl.key]
  exact (find?_key_eq_some_iff c.nodup_allMethodKeys).trans (and_congr_left fun _ => List.mem_flatMap)

theorem field?_eq_some_iff {key : FieldKey} {f : FieldDecl} :
    c.field? key = some f ↔ (∃ d ∈ c.classes, f ∈ d.fields) ∧ f.key = key := by
  rw [field?, c.reflects.fields, Assoc.find?_map_keyed FieldDecl.key]
  exact (find?_key_eq_some_iff c.nodup_allFieldKeys).trans (and_congr_left fun _ => List.mem_flatMap)

/-- A parameter that is found under a key bears this key: positions that a key can hold are their own. -/
theorem parameter_key {key : ParamKey} {p : ParamDecl} (found : c.parameter? key = some p) : p.key = key := by
  obtain ⟨m, method, at_position⟩ := Option.bind_eq_some_iff.1 found
  obtain ⟨⟨d, member, declared⟩, same⟩ := method?_eq_some_iff.1 method
  obtain ⟨outline, rfl⟩ := c.exists_outline member
  obtain ⟨o, -, rfl⟩ := List.mem_map.1 declared
  have bound : key.position.toNat ≤ 65535 := Nat.le_of_lt_succ key.position.toNat_lt
  have position : paramPosition key.position.toNat = key.position := by
    simp [paramPosition, Nat.min_eq_left bound]
  simp only [MethodOutline.declare, List.getElem?_map, List.getElem?_zipIdx, Option.map_map,
    Option.map_eq_some_iff, Function.comp_apply] at at_position
  obtain ⟨o', -, rfl⟩ := at_position
  cases key
  simp_all [MethodOutline.declare]

/-- What is found under a key is declared in the corpus and bears the key. -/
theorem mem_declarations_of_find? {key : DeclKey} {d : Declaration} (found : c.find? key = some d) :
    d ∈ c.declarations ∧ d.key = key := by
  cases key with
  | type name =>
    obtain ⟨e, search, rfl⟩ := Option.map_eq_some_iff.1 found
    obtain ⟨member, rfl⟩ := class?_eq_some_iff.1 search
    exact ⟨List.mem_flatMap.2 ⟨e, member, ClassDecl.mem_declarations.2 (.inl rfl)⟩, rfl⟩
  | method key =>
    obtain ⟨m, search, rfl⟩ := Option.map_eq_some_iff.1 found
    obtain ⟨⟨e, member, declared⟩, rfl⟩ := method?_eq_some_iff.1 search
    have inside : .method m ∈ m.declarations := List.mem_cons_self
    exact ⟨List.mem_flatMap.2 ⟨e, member, ClassDecl.mem_declarations.2 (.inr (.inl ⟨m, declared, inside⟩))⟩, rfl⟩
  | field key =>
    obtain ⟨f, search, rfl⟩ := Option.map_eq_some_iff.1 found
    obtain ⟨⟨e, member, declared⟩, rfl⟩ := field?_eq_some_iff.1 search
    exact ⟨List.mem_flatMap.2 ⟨e, member, ClassDecl.mem_declarations.2 (.inr (.inr ⟨f, declared, rfl⟩))⟩, rfl⟩
  | parameter key =>
    obtain ⟨p, search, rfl⟩ := Option.map_eq_some_iff.1 found
    obtain ⟨m, method, at_position⟩ := Option.bind_eq_some_iff.1 search
    obtain ⟨⟨e, member, declared⟩, -⟩ := method?_eq_some_iff.1 method
    have listed : p ∈ m.parameters := List.mem_of_getElem? at_position
    have inside : .parameter p ∈ m.declarations := List.mem_cons_of_mem _ (List.mem_map.2 ⟨p, listed, rfl⟩)
    exact ⟨List.mem_flatMap.2 ⟨e, member, ClassDecl.mem_declarations.2 (.inr (.inl ⟨m, declared, inside⟩))⟩,
      congrArg _ (parameter_key search)⟩

end Corpus

end AnnotationWeaver
