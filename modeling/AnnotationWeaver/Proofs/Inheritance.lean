import AnnotationWeaver.Proofs.Ancestry
import AnnotationWeaver.Proofs.Seeding

/-!
Where the annotations of a class come from before any edit. An annotation type is resolved on the class itself, and if
it is not declared there but applies to subclasses, on the nearest class of the chain that declares it; the first
annotation of the type on that class is decisive. A set lists the first annotation of each type of the list that
it is made of, so the own annotations of a class come before the inherited ones, and of these the nearer ones before
the farther ones. Declarations of other kinds have their own annotations only.
-/
namespace AnnotationWeaver

/-- The first annotation of each type, in the order of the list. -/
def firstOfEach : List Annotation → List Annotation
  | [] => []
  | a :: rest => a :: (firstOfEach rest).filter fun b => b.type != a.type

theorem find?_firstOfEach (type : TypeName) (annotations : List Annotation) :
    (firstOfEach annotations).find? (·.type == type) = annotations.find? (·.type == type) := by
  induction annotations with
  | nil => rfl
  | cons a rest ih =>
    by_cases same : a.type = type
    · simp [firstOfEach, same]
    · -- What is dropped behind the first annotation is of its type, and so not of the one sought.
      have kept : (fun b : Annotation => decide ((b.type != a.type) = true ∧ (b.type == type) = true)) =
          (·.type == type) := by
        funext b
        by_cases sought : b.type = type
        · simp [sought, Ne.symm same]
        · simp [sought]
      rw [firstOfEach, List.find?_cons_of_neg (by simpa using same), List.find?_filter, kept, ih,
        List.find?_cons_of_neg (by simpa using same)]

theorem firstOfEach_sublist (annotations : List Annotation) : (firstOfEach annotations).Sublist annotations := by
  induction annotations with
  | nil => exact .slnil
  | cons a rest ih => exact (List.filter_sublist.trans ih).cons_cons a

/-- Annotations may be dropped by their types before or after. -/
theorem firstOfEach_filter (keep : TypeName → Bool) (annotations : List Annotation) :
    firstOfEach (annotations.filter fun a => keep a.type) = (firstOfEach annotations).filter fun a => keep a.type := by
  induction annotations with
  | nil => rfl
  | cons a rest ih =>
    rw [List.filter_cons, firstOfEach, List.filter_cons]
    by_cases kept : keep a.type = true
    · rw [if_pos kept, if_pos kept, firstOfEach, ih, List.filter_comm]
    · rw [if_neg kept, if_neg kept, ih, List.filter_filter]
      -- Without the first annotation, those behind it that are of its type are dropped all the same.
      refine List.filter_congr fun b _ => ?_
      by_cases same : b.type = a.type
      · simp [same, kept]
      · simp [same]

theorem firstOfEach_append (annotations more : List Annotation) :
    firstOfEach (annotations ++ more) =
      firstOfEach annotations ++ (firstOfEach more).filter fun a => !annotations.any (·.type == a.type) := by
  induction annotations with
  | nil => simp [firstOfEach]
  | cons a rest ih =>
    rw [List.cons_append, firstOfEach, ih, List.filter_append, List.filter_filter, firstOfEach, List.cons_append]
    refine congrArg (fun later => a :: (_ ++ later)) (List.filter_congr fun b _ => ?_)
    rw [List.any_cons, Bool.not_or, bne, Bool.beq_comm]

namespace AnnotationSet

theorem entries_insertNew (s : AnnotationSet) (a : Annotation) :
    (s.insertNew a).entries = s.entries ++ if s.contains a.type then [] else [a] := by
  cases held : s.contains a.type with
  | true => simp [insertNew, held]
  | false => simp [insertNew, insert, held]

theorem entries_foldl_insertNew (s : AnnotationSet) (annotations : List Annotation) :
    (annotations.foldl insertNew s).entries =
      s.entries ++ (firstOfEach annotations).filter fun a => !s.contains a.type := by
  induction annotations generalizing s with
  | nil => simp [firstOfEach]
  | cons a rest ih =>
    have later : ((firstOfEach rest).filter fun b => !(s.insertNew a).contains b.type) =
        ((firstOfEach rest).filter fun b => b.type != a.type).filter fun b => !s.contains b.type := by
      rw [List.filter_filter]
      refine List.filter_congr fun b _ => ?_
      rw [contains_insertNew, Bool.not_or, bne, Bool.beq_comm]
    rw [List.foldl_cons, ih, later, entries_insertNew, firstOfEach]
    cases held : s.contains a.type with
    | true => simp [held]
    | false => simp [held]

/-- A set lists the first annotation of each type. -/
theorem entries_ofList (annotations : List Annotation) : (ofList annotations).entries = firstOfEach annotations := by
  rw [ofList, entries_foldl_insertNew]
  simp only [contains_empty]
  simp [empty]

/-- A set finds the first annotation of a type. -/
theorem get?_ofList (annotations : List Annotation) (type : TypeName) :
    (ofList annotations).get? type = annotations.find? (·.type == type) := by
  rw [get?, entries_ofList, find?_firstOfEach]

end AnnotationSet

/-- Of annotations that are collected class by class, each class gives those of the types that no class before it
    declares. -/
theorem firstOfEach_flatMap {chain : List ClassDecl} (distinct : (chain.map (·.name)).Nodup) :
    firstOfEach (chain.flatMap (·.annotations)) = chain.flatMap fun d =>
      (firstOfEach d.annotations).filter fun a => (chain.find? (·.declares a.type)).any (·.name == d.name) := by
  induction chain with
  | nil => rfl
  | cons first rest ih =>
    rw [List.map_cons, List.nodup_cons] at distinct
    obtain ⟨fresh, distinct⟩ := distinct
    rw [List.flatMap_cons, firstOfEach_append, ih distinct, List.flatMap_cons, List.filter_flatMap]
    have nearest {type : TypeName} (declares : first.declares type = true) :
        (first :: rest).find? (·.declares type) = some first := List.find?_cons_of_pos declares
    congr 1
    · -- The first class declares whatever is taken from it.
      refine (List.filter_eq_self.2 fun a member => ?_).symm
      rw [nearest (List.any_eq_true.2 ⟨a, (firstOfEach_sublist _).subset member, beq_self_eq_true _⟩)]
      exact beq_self_eq_true _
    · refine List.flatMap_congr fun d later => ?_
      rw [List.filter_filter]
      refine List.filter_congr fun a _ => ?_
      by_cases declares : first.declares a.type = true
      · have hides : first.annotations.any (·.type == a.type) = true := declares
        have other : first.name ≠ d.name := fun same => fresh (same ▸ List.mem_map_of_mem later)
        rw [nearest declares, hides]
        simpa using other
      · have passes : first.annotations.any (·.type == a.type) = false := Bool.eq_false_iff.2 declares
        have farther : (first :: rest).find? (·.declares a.type) = rest.find? (·.declares a.type) :=
          List.find?_cons_of_neg declares
        rw [farther, passes, Bool.not_false, Bool.true_and]

theorem ClassDecl.isSome_find? (d : ClassDecl) (type : TypeName) :
    (d.annotations.find? (·.type == type)).isSome = d.declares type := by
  rw [Bool.eq_iff_iff]
  simp [declares]

/-- Of annotations that are collected class by class, the first of a type is the first on the first class that declares
    the type. -/
theorem find?_flatMap_annotations (type : TypeName) (chain : List ClassDecl) :
    (chain.flatMap (·.annotations)).find? (·.type == type) =
      (chain.find? (·.declares type)).bind fun d => d.annotations.find? (·.type == type) := by
  induction chain with
  | nil => rfl
  | cons first rest ih =>
    rw [List.flatMap_cons, List.find?_append, ih]
    have found := first.isSome_find? type
    by_cases declares : first.declares type = true
    · have nearest : (first :: rest).find? (·.declares type) = some first := List.find?_cons_of_pos declares
      rw [nearest, Option.or_of_isSome (found.trans declares), Option.bind_some]
    · have farther : (first :: rest).find? (·.declares type) = rest.find? (·.declares type) :=
        List.find?_cons_of_neg declares
      have absent : first.annotations.find? (·.type == type) = none := Option.not_isSome_iff_eq_none.1 (by rwa [found])
      rw [farther, absent, Option.none_or]

namespace Corpus

/-- The corpus declares the annotation type, with the mark that it applies to subclasses. -/
def AppliesToSubclasses (c : Corpus) (type : TypeName) : Prop :=
  ∃ d ∈ c.classes, d.name = type ∧ ∃ mark ∈ d.annotations, mark.type = inheritedType

/-- What a class has of an annotation type before any edit. -/
inductive Resolves (c : Corpus) (name type : TypeName) : Option Annotation → Prop
  | own {a : Annotation} (first : (c.declaredAnnotations (.type name)).find? (·.type == type) = some a) :
    Resolves c name type (some a)
  | inherited {a : Annotation} {nearer farther : List ClassDecl} {d : ClassDecl}
    (undeclared : ∀ b ∈ c.declaredAnnotations (.type name), b.type ≠ type) (applies : c.AppliesToSubclasses type)
    (chained : c.superclassChain name = nearer ++ d :: farther) (silent : ∀ e ∈ nearer, e.declares type = false)
    (first : d.annotations.find? (·.type == type) = some a) : Resolves c name type (some a)
  | absent (undeclared : ∀ b ∈ c.declaredAnnotations (.type name), b.type ≠ type)
    (unavailable : ¬c.AppliesToSubclasses type ∨ ∀ d ∈ c.superclassChain name, d.declares type = false) :
    Resolves c name type none

/-- The class takes annotations of the type from this superclass: the type applies to subclasses, and neither the class
    nor a nearer superclass declares it. -/
def takesFrom (c : Corpus) (name : TypeName) (ancestor : ClassDecl) (type : TypeName) : Bool :=
  c.isInherited type && !(c.declaredAnnotations (.type name)).any (·.type == type) &&
    ((c.superclassChain name).find? (·.declares type)).any (·.name == ancestor.name)

variable {c : Corpus} {name type : TypeName}

theorem isInherited_iff : c.isInherited type = true ↔ c.AppliesToSubclasses type := by
  unfold isInherited AppliesToSubclasses
  cases search : c.class? type with
  | none =>
    refine ⟨nofun, ?_⟩
    rintro ⟨d, member, same, -⟩
    rw [class?_eq_some_iff.2 ⟨member, same⟩] at search
    cases search
  | some d =>
    obtain ⟨member, same⟩ := class?_eq_some_iff.1 search
    have marked : d.declares inheritedType = true ↔ ∃ mark ∈ d.annotations, mark.type = inheritedType := by
      simp [ClassDecl.declares]
    refine ⟨fun declares => ⟨d, member, same, marked.1 declares⟩, ?_⟩
    rintro ⟨e, listed, same', carries⟩
    obtain rfl := eq_of_name member listed (same.trans same'.symm)
    exact marked.2 carries

/-- What is inheritable are the annotations of the chain whose types apply to subclasses. -/
theorem inheritable_eq_filter (c : Corpus) (name : TypeName) :
    c.inheritable name = ((c.superclassChain name).flatMap (·.annotations)).filter fun a => c.isInherited a.type :=
  List.filter_flatMap.symm

/-- Of the annotations of superclasses, those of one type are all inheritable or none is. -/
theorem find?_inheritable (c : Corpus) (name type : TypeName) :
    (c.inheritable name).find? (·.type == type) =
      if c.isInherited type then
        ((c.superclassChain name).find? (·.declares type)).bind fun d => d.annotations.find? (·.type == type)
      else none := by
  rw [inheritable_eq_filter, List.find?_filter]
  by_cases applies : c.isInherited type = true
  · have sought : (fun a : Annotation => decide (c.isInherited a.type = true ∧ (a.type == type) = true)) =
        (·.type == type) := by
      funext a
      by_cases same : a.type = type
      · simp [same, applies]
      · simp [same]
    rw [if_pos applies, sought, find?_flatMap_annotations]
  · rw [if_neg applies, List.find?_eq_none]
    rintro a - kept
    obtain ⟨inherited, same⟩ := of_decide_eq_true kept
    exact applies (beq_iff_eq.1 same ▸ inherited)

theorem get?_seed_type (c : Corpus) (name type : TypeName) :
    (c.seed (.type name)).get? type =
      ((c.declaredAnnotations (.type name)).find? (·.type == type)).or
        (if c.isInherited type then
          ((c.superclassChain name).find? (·.declares type)).bind fun d => d.annotations.find? (·.type == type)
        else none) := by
  rw [seed, AnnotationSet.get?_ofList, List.find?_append, inheritedBy, find?_inheritable]

theorem resolves_iff {found : Option Annotation} :
    c.Resolves name type found ↔ (c.seed (.type name)).get? type = found := by
  have own_none : (c.declaredAnnotations (.type name)).find? (·.type == type) = none ↔
      ∀ b ∈ c.declaredAnnotations (.type name), b.type ≠ type := by
    simp
  constructor
  · intro resolves
    rw [get?_seed_type]
    cases resolves with
    | own first => rw [first, Option.some_or]
    | @inherited a nearer farther d undeclared applies chained silent first =>
      have declares : d.declares type = true := by rw [← d.isSome_find?, first, Option.isSome_some]
      have nearest : (c.superclassChain name).find? (·.declares type) = some d :=
        List.find?_eq_some_iff_append.2 ⟨declares, nearer, farther, chained, by simpa using silent⟩
      rw [own_none.2 undeclared, if_pos (isInherited_iff.2 applies), nearest, Option.none_or]
      exact first
    | absent undeclared unavailable =>
      rw [own_none.2 undeclared, Option.none_or]
      rcases unavailable with applies | silent
      · rw [if_neg (mt isInherited_iff.1 applies)]
      · have nearest : (c.superclassChain name).find? (·.declares type) = none :=
          List.find?_eq_none.2 (by simpa using silent)
        simp [nearest]
  · rintro rfl
    rw [get?_seed_type]
    cases own : (c.declaredAnnotations (.type name)).find? (·.type == type) with
    | some a => exact .own own
    | none =>
      have undeclared := own_none.1 own
      rw [Option.none_or]
      by_cases applies : c.isInherited type = true
      · rw [if_pos applies]
        cases nearest : (c.superclassChain name).find? (·.declares type) with
        | none => exact .absent undeclared (.inr (by simpa using List.find?_eq_none.1 nearest))
        | some d =>
          obtain ⟨declares, nearer, farther, chained, silent⟩ := List.find?_eq_some_iff_append.1 nearest
          obtain ⟨a, first⟩ := Option.isSome_iff_exists.1 ((d.isSome_find? type).trans declares)
          rw [Option.bind_some, first]
          exact .inherited undeclared (isInherited_iff.1 applies) chained (by simpa using silent) first
      · rw [if_neg applies]
        exact .absent undeclared (.inl (mt isInherited_iff.2 applies))

theorem entries_seed_type (c : Corpus) (name : TypeName) :
    (c.seed (.type name)).entries = firstOfEach (c.declaredAnnotations (.type name)) ++
      (c.superclassChain name).flatMap fun d => (firstOfEach d.annotations).filter fun a => c.takesFrom name d a.type := by
  rw [seed, AnnotationSet.entries_ofList, firstOfEach_append, inheritedBy, inheritable_eq_filter,
    firstOfEach_filter c.isInherited, firstOfEach_flatMap (c.nodup_superclassChain name), List.filter_filter,
    List.filter_flatMap]
  refine congrArg _ (List.flatMap_congr fun d _ => ?_)
  rw [List.filter_filter]
  refine List.filter_congr fun a _ => ?_
  simp only [takesFrom, Bool.and_comm]

/-- Only classes inherit. -/
theorem entries_seed_of_inherits_nothing {key : DeclKey} (alone : c.inheritedBy key = []) :
    (c.seed key).entries = firstOfEach (c.declaredAnnotations key) := by
  rw [seed, alone, List.append_nil, AnnotationSet.entries_ofList]

end Corpus

/-- Whatever the hierarchy is like, the chain of a class goes up from superclass to superclass, and the class has of each
    annotation type what the type resolves to along it. Its annotations are the first of each type that it declares, and
    then, from one superclass of its chain to the next, the first of each type that it takes from there. The annotations of
    a method, a field or a parameter are the first of each type that it declares. -/
theorem seeds_resolve_inheritance (c : Corpus) :
    (∀ name, c.Climbs [name] ((c.class? name).bind (·.superclass)) (c.superclassChain name)) ∧
    (∀ name type found, (c.seed (.type name)).get? type = found ↔ c.Resolves name type found) ∧
    (∀ name, (c.seed (.type name)).entries = firstOfEach (c.declaredAnnotations (.type name)) ++
      (c.superclassChain name).flatMap fun d => (firstOfEach d.annotations).filter fun a => c.takesFrom name d a.type) ∧
    (∀ key, (c.seed (.method key)).entries = firstOfEach (c.declaredAnnotations (.method key))) ∧
    (∀ key, (c.seed (.field key)).entries = firstOfEach (c.declaredAnnotations (.field key))) ∧
    ∀ key, (c.seed (.parameter key)).entries = firstOfEach (c.declaredAnnotations (.parameter key)) :=
  ⟨c.climbs_superclassChain, fun _ _ _ => Corpus.resolves_iff.symm, c.entries_seed_type,
    fun _ => Corpus.entries_seed_of_inherits_nothing rfl, fun _ => Corpus.entries_seed_of_inherits_nothing rfl,
    fun _ => Corpus.entries_seed_of_inherits_nothing rfl⟩

end AnnotationWeaver
