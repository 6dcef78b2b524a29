import AnnotationWeaver.EditLog.Basic
import AnnotationWeaver.Proofs.Directory

/-!
What a corpus lists. A list of classes forms a corpus exactly if every class name is valid and nothing in
it is given twice (`Admissible`). The corpus then lists these classes with everything they declare, each
declaration under a key of its own (`Corpus.IsDirectoryOf`): the keys are bound to their class and their
method by `ClassOutline.declare`, so keys of different classes differ in the declaring class, keys of
different methods in the method, and keys of one method in the position, as long as sixteen bits number
its parameters.
-/
namespace AnnotationWeaver

/-- Sixteen bits number the parameters of every method. -/
def ClassOutline.IsNumbered (o : ClassOutline) : Prop := ∀ m ∈ o.methods, m.parameters.length ≤ 65536

/-- Classes with valid names, no two of one name, in which no two methods have the same name and parameter
    types and no two fields the same name. -/
structure Admissible (outlines : List ClassOutline) : Prop where
  valid : ∀ o ∈ outlines, o.name.isValid = true
  classes : (outlines.map (·.name)).Nodup
  methods : ∀ o ∈ outlines, (o.methods.map fun m => (m.name, m.parameters.map (·.type))).Nodup
  fields : ∀ o ∈ outlines, (o.fields.map (·.name)).Nodup

/-- The members of a class have keys in it: methods by their parameter types, parameters by their method
    and their position. -/
structure ClassDecl.IsKeyed (d : ClassDecl) : Prop where
  methods : ∀ m ∈ d.methods, m.key.owner = d.name ∧ m.key.parameters = m.parameters.map (·.type)
  parameters : ∀ m ∈ d.methods, ∀ i (p : ParamDecl), m.parameters[i]? = some p →
    p.key.method = m.key ∧ p.key.position.toNat = i
  fields : ∀ f ∈ d.fields, f.key.owner = d.name

/-- Every declaration, class by class in the order of their names. -/
def Corpus.listed (c : Corpus) : List Declaration := c.sorted.flatMap (·.declarations)

/-- The corpus lists these classes and all that they declare, each declaration under its own key; and it
    answers by key and by annotation type with what it lists. -/
structure Corpus.IsDirectoryOf (c : Corpus) (outlines : List ClassOutline) : Prop where
  lists : c.sorted.Perm (outlines.map (·.declare))
  keyed : ∀ d ∈ c.sorted, d.IsKeyed
  distinct : (c.listed.map (·.key)).Nodup
  found : ∀ d ∈ c.listed, c.find? d.key = some d
  only : ∀ key, c.contains key = true ↔ ∃ d ∈ c.listed, d.key = key
  annotated : ∀ type, (c.annotatedWith type).Nodup ∧
    ∀ key, key ∈ c.annotatedWith type ↔ ∃ a ∈ c.declaredAnnotations key, a.type = type

/-! ## Which classes form a corpus -/

/-- Methods of one class have different keys when they differ in name or parameter types. -/
theorem ClassOutline.nodup_methodKeys_iff {o : ClassOutline} :
    (o.declare.methods.map (·.key)).Nodup ↔ (o.methods.map fun m => (m.name, m.parameters.map (·.type))).Nodup := by
  have keys : o.declare.methods.map (·.key) =
      (o.methods.map fun m => (m.name, m.parameters.map (·.type))).map fun i => ⟨o.name, i.1, i.2⟩ := by
    simp only [declare, List.map_map]
    rfl
  have injective : Function.Injective fun i : String × List Ty => (⟨o.name, i.1, i.2⟩ : MethodKey) := by
    intro i j same
    obtain ⟨-, name, parameters⟩ := MethodKey.mk.inj same
    exact Prod.ext name parameters
  rw [keys, List.nodup_map_iff injective]

theorem ClassOutline.nodup_fieldKeys_iff {o : ClassOutline} :
    (o.declare.fields.map (·.key)).Nodup ↔ (o.fields.map (·.name)).Nodup := by
  have keys : o.declare.fields.map (·.key) = (o.fields.map (·.name)).map (FieldKey.mk o.name) := by
    simp only [declare, List.map_map]
    rfl
  have injective : Function.Injective (FieldKey.mk o.name) := fun _ _ same => (FieldKey.mk.inj same).2
  rw [keys, List.nodup_map_iff injective]

theorem corpusError?_declare_eq_none_iff {outlines : List ClassOutline} :
    corpusError? [] (outlines.map (·.declare)) = none ↔ Admissible outlines := by
  have names : (outlines.map (·.declare)).map (·.name) = outlines.map (·.name) := by
    rw [List.map_map]
    rfl
  rw [corpusError?_eq_none_iff, names]
  simp only [List.forall_mem_map, ClassDecl.error?_eq_none_iff, ClassOutline.nodup_methodKeys_iff,
    ClassOutline.nodup_fieldKeys_iff]
  constructor
  · rintro ⟨fit, distinct, -⟩
    exact ⟨fun o listed => (fit o listed).1, distinct, fun o listed => (fit o listed).2.1,
      fun o listed => (fit o listed).2.2⟩
  · rintro ⟨valid, classes, methods, fields⟩
    exact ⟨fun o listed => ⟨valid o listed, methods o listed, fields o listed⟩, classes, fun _ _ => List.not_mem_nil⟩

namespace Corpus

/-- All that a corpus holds follows from the classes it is made from. -/
theorem eq_of_outlines {c c' : Corpus} (same : c.outlines = c'.outlines) : c = c' := by
  obtain ⟨given, classes, tables, rfl, accepted, rfl⟩ := c
  obtain ⟨given', classes', tables', rfl, accepted', rfl⟩ := c'
  obtain rfl : given = given' := same
  rfl

theorem ofOutlines_eq_ok_iff {outlines : List ClassOutline} {c : Corpus} :
    ofOutlines outlines = .ok c ↔ c.outlines = outlines := by
  unfold ofOutlines
  dsimp only
  split
  case h_1 accepted =>
    exact ⟨fun built => Except.ok.inj built ▸ rfl, fun same => congrArg Except.ok (eq_of_outlines same.symm)⟩
  case h_2 e refused =>
    refine ⟨fun built => (by cases built), fun same => ?_⟩
    rw [← same, ← c.declared, c.accepted] at refused
    cases refused

theorem exists_ofOutlines_iff {outlines : List ClassOutline} :
    (∃ c, ofOutlines outlines = .ok c) ↔ Admissible outlines := by
  rw [← corpusError?_declare_eq_none_iff]
  constructor
  · rintro ⟨c, built⟩
    obtain rfl := ofOutlines_eq_ok_iff.1 built
    exact c.declared ▸ c.accepted
  · intro accepted
    exact ⟨{ outlines, classes := _, declared := rfl, accepted }, ofOutlines_eq_ok_iff.2 rfl⟩

end Corpus

/-! ## Keys of a class -/

theorem paramPosition_toNat {n : Nat} (small : n < 65536) : (paramPosition n).toNat = n := by
  have least : min n 65535 = n := by omega
  rw [paramPosition, least]
  exact UInt16.toNat_ofNat_of_lt small

theorem ClassOutline.isKeyed_declare {o : ClassOutline} (numbered : o.IsNumbered) : o.declare.IsKeyed where
  methods := by
    intro m declared
    obtain ⟨given, -, rfl⟩ := List.mem_map.1 declared
    refine ⟨rfl, ?_⟩
    rw [MethodOutline.declare, List.map_map]
    show given.parameters.map (·.type) = given.parameters.zipIdx.map ((·.type) ∘ Prod.fst)
    rw [← List.map_map, List.zipIdx_map_fst]
  parameters := by
    intro m declared i p at_position
    obtain ⟨given, listed, rfl⟩ := List.mem_map.1 declared
    have short : i < given.parameters.length := by
      have := (List.getElem?_eq_some_iff.1 at_position).1
      simpa [MethodOutline.declare] using this
    simp only [MethodOutline.declare, List.getElem?_map, List.getElem?_zipIdx, Option.map_map,
      Option.map_eq_some_iff] at at_position
    obtain ⟨given', -, rfl⟩ := at_position
    have small : i < 65536 := Nat.lt_of_lt_of_le short (numbered given listed)
    exact ⟨rfl, by simpa using paramPosition_toNat small⟩
  fields := by
    intro f declared
    obtain ⟨given, -, rfl⟩ := List.mem_map.1 declared
    rfl

/-- The keys of a method and of its parameters. -/
def MethodDecl.keys (m : MethodDecl) : List DeclKey := .method m.key :: m.parameters.map fun p => .parameter p.key

theorem MethodDecl.map_key_declarations (m : MethodDecl) : m.declarations.map (·.key) = m.keys := by
  simp [declarations, keys, Declaration.key, Function.comp_def]

namespace ClassDecl

variable {d : ClassDecl}

theorem owner_of_mem_keys (keyed : d.IsKeyed) {m : MethodDecl} (declared : m ∈ d.methods) {key : DeclKey}
    (listed : key ∈ m.keys) : key.owner = .method m.key := by
  rcases List.mem_cons.1 listed with rfl | inside
  · rfl
  · obtain ⟨p, member, rfl⟩ := List.mem_map.1 inside
    obtain ⟨i, at_position⟩ := List.mem_iff_getElem?.1 member
    exact congrArg DeclKey.method (keyed.parameters m declared i p at_position).1

/-- Positions tell the parameters of a method apart. -/
theorem nodup_methodKeys (keyed : d.IsKeyed) {m : MethodDecl} (declared : m ∈ d.methods) : m.keys.Nodup := by
  refine List.nodup_cons.2 ⟨by simp, List.pairwise_iff_getElem.2 ?_⟩
  intro i j hi hj before same
  rw [List.length_map] at hi hj
  have position : ∀ k (hk : k < m.parameters.length), m.parameters[k].key.position.toNat = k :=
    fun k hk => (keyed.parameters m declared k _ (List.getElem?_eq_getElem hk)).2
  have equal : i = j := by
    rw [← position i hi, ← position j hj]
    simp only [List.getElem_map, DeclKey.parameter.injEq] at same
    rw [same]
  exact absurd equal (Nat.ne_of_lt before)

/-- The keys of a class: its own, then those of its methods, then those of its fields. -/
theorem map_key_declarations :
    d.declarations.map (·.key) =
      .type d.name :: (d.methods.flatMap (·.keys) ++ d.fields.map fun f => .field f.key) := by
  rw [declarations, List.cons_append, List.map_cons, List.map_append, List.map_flatMap, List.map_map]
  simp only [MethodDecl.map_key_declarations]
  rfl

theorem mem_keys_iff {key : DeclKey} :
    key ∈ d.declarations.map (·.key) ↔
      key = .type d.name ∨ (∃ m ∈ d.methods, key ∈ m.keys) ∨ ∃ f ∈ d.fields, .field f.key = key := by
  rw [map_key_declarations]
  simp only [List.mem_cons, List.mem_append, List.mem_flatMap, List.mem_map]

/-- A key of a class says which class it is. -/
theorem declaringClass_of_mem_keys (keyed : d.IsKeyed) {key : DeclKey} (listed : key ∈ d.declarations.map (·.key)) :
    key.declaringClass = d.name := by
  rcases mem_keys_iff.1 listed with rfl | ⟨m, declared, inside⟩ | ⟨f, declared, rfl⟩
  · rfl
  · have bound : key.owner.declaringClass = d.name := by
      rw [owner_of_mem_keys keyed declared inside]
      exact (keyed.methods m declared).1
    cases key <;> exact bound
  · exact keyed.fields f declared

theorem nodup_keys_declarations (keyed : d.IsKeyed) (fit : d.error? = none) :
    (d.declarations.map (·.key)).Nodup := by
  obtain ⟨methods, fields⟩ := ClassDecl.nodup_keys fit
  have within_methods : ∀ key ∈ d.methods.flatMap (·.keys), ∃ m, key.owner = .method m := by
    intro key listed
    obtain ⟨m, declared, inside⟩ := List.mem_flatMap.1 listed
    exact ⟨m.key, owner_of_mem_keys keyed declared inside⟩
  have between : d.methods.Pairwise fun m m' => m.keys.Disjoint m'.keys := by
    refine (List.pairwise_map.1 methods).imp_of_mem ?_
    intro m m' declared declared' other key inside inside'
    have same := (owner_of_mem_keys keyed declared inside).symm.trans (owner_of_mem_keys keyed declared' inside')
    exact other (DeclKey.method.inj same)
  rw [map_key_declarations, List.nodup_cons, List.nodup_append', List.nodup_flatMap]
  refine ⟨?own, ⟨fun m declared => nodup_methodKeys keyed declared, between⟩, ?fields, ?apart⟩
  case own =>
    intro listed
    rcases List.mem_append.1 listed with inside | field
    · obtain ⟨m, owner⟩ := within_methods _ inside
      cases owner
    · simp at field
  case fields =>
    have injective : Function.Injective DeclKey.field := fun _ _ same => DeclKey.field.inj same
    simpa [Function.comp_def] using (List.nodup_map_iff injective).2 fields
  case apart =>
    intro key inside field
    obtain ⟨m, owner⟩ := within_methods _ inside
    obtain ⟨f, -, rfl⟩ := List.mem_map.1 field
    cases owner

end ClassDecl

/-! ## The corpus as a directory -/

namespace Corpus

variable {c : Corpus}

/-- Sixteen bits number the parameters of every method of the corpus. -/
def IsNumbered (c : Corpus) : Prop := ∀ o ∈ c.outlines, o.IsNumbered

theorem isKeyed (numbered : c.IsNumbered) {d : ClassDecl} (member : d ∈ c.classes) : d.IsKeyed := by
  rw [c.declared] at member
  obtain ⟨o, listed, rfl⟩ := List.mem_map.1 member
  exact ClassOutline.isKeyed_declare (numbered o listed)

theorem listed_perm (c : Corpus) : c.listed.Perm c.declarations := c.sorted_perm.flatMap_right _

theorem nodup_keys (numbered : c.IsNumbered) : (c.declarations.map (·.key)).Nodup := by
  have fit := (corpusError?_eq_none_iff.1 c.accepted).1
  rw [declarations, List.map_flatMap, List.nodup_flatMap]
  refine ⟨fun d member => ClassDecl.nodup_keys_declarations (isKeyed numbered member) (fit d member), ?_⟩
  refine (List.pairwise_map.1 c.nodup_names).imp_of_mem ?_
  intro d d' member member' other key inside inside'
  exact other ((ClassDecl.declaringClass_of_mem_keys (isKeyed numbered member) inside).symm.trans
    (ClassDecl.declaringClass_of_mem_keys (isKeyed numbered member') inside'))

/-- What is declared with a key is found under it: class, method and field by their keys, which are
    distinct, and a parameter at its position. -/
theorem find?_key (numbered : c.IsNumbered) {d : Declaration} (declared : d ∈ c.declarations) :
    c.find? d.key = some d := by
  obtain ⟨e, member, inside⟩ := List.mem_flatMap.1 declared
  rcases ClassDecl.mem_declarations.1 inside with rfl | ⟨m, listed, inside⟩ | ⟨f, listed, rfl⟩
  · exact congrArg (Option.map Declaration.type) (class?_eq_some_iff.2 ⟨member, rfl⟩)
  · have method : c.method? m.key = some m := method?_eq_some_iff.2 ⟨⟨e, member, listed⟩, rfl⟩
    rcases List.mem_cons.1 inside with rfl | inside
    · exact congrArg (Option.map Declaration.method) method
    · obtain ⟨p, parameter, rfl⟩ := List.mem_map.1 inside
      obtain ⟨i, at_position⟩ := List.mem_iff_getElem?.1 parameter
      obtain ⟨bound, position⟩ := (isKeyed numbered member).parameters m listed i p at_position
      have found : c.parameter? p.key = some p := by
        rw [parameter?, bound, method, position]
        exact at_position
      exact congrArg (Option.map Declaration.parameter) found
  · exact congrArg (Option.map Declaration.field) (field?_eq_some_iff.2 ⟨⟨e, member, listed⟩, rfl⟩)

theorem find?_eq_some_iff (numbered : c.IsNumbered) {key : DeclKey} {d : Declaration} :
    c.find? key = some d ↔ d ∈ c.declarations ∧ d.key = key := by
  refine ⟨mem_declarations_of_find?, ?_⟩
  rintro ⟨declared, rfl⟩
  exact find?_key numbered declared

theorem contains_iff (numbered : c.IsNumbered) {key : DeclKey} :
    c.contains key = true ↔ ∃ d ∈ c.declarations, d.key = key := by
  simp only [contains, Option.isSome_iff_exists, find?_eq_some_iff numbered]

theorem nodup_annotatedWith (numbered : c.IsNumbered) (type : TypeName) : (c.annotatedWith type).Nodup := by
  rw [annotatedWith_eq]
  exact (List.filter_sublist.map _).nodup (nodup_keys numbered)

theorem mem_annotatedWith_iff (numbered : c.IsNumbered) {type : TypeName} {key : DeclKey} :
    key ∈ c.annotatedWith type ↔ ∃ a ∈ c.declaredAnnotations key, a.type = type := by
  have declares : ∀ d : Declaration, d.declares type = true ↔ ∃ a ∈ d.annotations, a.type = type := by
    simp [Declaration.declares]
  simp only [annotatedWith_eq, List.mem_map, List.mem_filter, declares]
  constructor
  · rintro ⟨d, ⟨declared, annotated⟩, rfl⟩
    simpa [declaredAnnotations, find?_key numbered declared] using annotated
  · intro annotated
    cases found : c.find? key with
    | none => simp [declaredAnnotations, found] at annotated
    | some d =>
      obtain ⟨declared, same⟩ := mem_declarations_of_find? found
      exact ⟨d, ⟨declared, by simpa [declaredAnnotations, found] using annotated⟩, same⟩

theorem isDirectoryOf (numbered : c.IsNumbered) : c.IsDirectoryOf c.outlines where
  lists := c.declared ▸ c.sorted_perm
  keyed := fun _ member => isKeyed numbered (c.sorted_perm.mem_iff.1 member)
  distinct := (c.listed_perm.map _).nodup_iff.2 (nodup_keys numbered)
  found := fun _ listed => find?_key numbered (c.listed_perm.mem_iff.1 listed)
  only := by
    intro key
    simp only [contains_iff numbered, c.listed_perm.mem_iff]
  annotated := fun type => ⟨nodup_annotatedWith numbered type, fun _ => mem_annotatedWith_iff numbered⟩

end Corpus

/-- A corpus is a faithful directory without duplicates. Classes whose parameters sixteen bits can number
    form a corpus exactly if their names are valid and no class, no method of a class and no field of a
    class is given twice; it then lists them with all that they declare, each declaration under a key of
    its own and found under this key alone, and a search for an annotation type lists once each what
    carries it. -/
theorem corpora_are_faithful_directories (outlines : List ClassOutline) (numbered : ∀ o ∈ outlines, o.IsNumbered) :
    ((∃ c, Corpus.ofOutlines outlines = .ok c) ↔ Admissible outlines) ∧
      ∀ c, Corpus.ofOutlines outlines = .ok c → c.IsDirectoryOf outlines := by
  refine ⟨Corpus.exists_ofOutlines_iff, ?_⟩
  intro c built
  obtain rfl := Corpus.ofOutlines_eq_ok_iff.1 built
  exact Corpus.isDirectoryOf numbered

/-- A method that books amounts. -/
def book (amounts : List ParamOutline) : MethodOutline := ⟨"book", amounts, .void, [], none, false⟩

/-- Two classes with members of one name: a ledger books an amount, or an amount in place of another. Every amount is
    said to be positive twice. -/
def ledgers : List ClassOutline :=
  have amount : ParamOutline := ⟨.primitive .long, none, [.marker ⟨"t.Positive"⟩, .marker ⟨"t.Positive"⟩]⟩
  have total : FieldOutline := ⟨"total", .primitive .long, [], false⟩
  [⟨⟨"t.Archive"⟩, .regular, none, [], [], [book [amount]], [total]⟩,
    ⟨⟨"t.Ledger"⟩, .regular, some ⟨"t.Archive"⟩, [], [], [book [amount], book [amount, amount]], [total]⟩]

theorem corpora_are_faithful_directories_ledgers :
    (∀ o ∈ ledgers, o.IsNumbered) ∧ ∃ c, Corpus.ofOutlines ledgers = .ok c ∧ c.IsDirectoryOf ledgers := by
  have numbered : ∀ o ∈ ledgers, o.IsNumbered := by simp [ledgers, book, ClassOutline.IsNumbered]
  have admissible : Admissible ledgers := by constructor <;> decide +kernel
  obtain ⟨formed, directory⟩ := corpora_are_faithful_directories ledgers numbered
  obtain ⟨c, built⟩ := formed.2 admissible
  exact ⟨numbered, c, built, directory c built⟩

end AnnotationWeaver
