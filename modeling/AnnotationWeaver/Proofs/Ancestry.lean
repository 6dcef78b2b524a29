import AnnotationWeaver.Corpus.Hierarchy
import AnnotationWeaver.Proofs.Directory
import Mathlib.Logic.Relation

/-!
Ancestors and descendants. What a search finds is closed under its relation, within the names that are
available to it, and every name that it finds is reached along that relation, and found once; so the subtypes that are
found are the classes from which superclasses and interfaces lead up to the type, and the supertypes that are found are
the names that these lead up to, also where the hierarchy is cyclic or leaves the corpus. The chain of a class goes up
from superclass to superclass, until there is none or it would leave the corpus or come back. A class whose chain of
superclasses passes an ancestor is among the subclasses of that ancestor.
-/
namespace AnnotationWeaver

open Relation (ReflTransGen TransGen)

theorem mem_freshNames {next available : List TypeName} {n : TypeName} :
    n ∈ freshNames next available ↔ n ∈ next ∧ n ∈ available := by
  simp [freshNames]

theorem mem_unfound {found available : List TypeName} {n : TypeName} :
    n ∈ unfound found available ↔ n ∈ available ∧ n ∉ found := by
  simp [unfound]

/-- From what waits and from what is found, every edge to an available name leads to something found. -/
theorem explore_closed (next : TypeName → List TypeName) {available pending : List TypeName} {x y : TypeName}
    (source : x ∈ pending ∨ x ∈ explore next available pending) (edge : y ∈ next x) (free : y ∈ available) :
    y ∈ explore next available pending := by
  induction available, pending using explore.induct next with
  | case1 available =>
    rw [explore] at source
    simp at source
  | case2 available current rest nothing ih =>
    rw [explore, dif_pos nothing] at source ⊢
    rcases source with waiting | found
    · rcases List.mem_cons.1 waiting with rfl | later
      · have fresh := mem_freshNames.2 ⟨edge, free⟩
        rw [nothing] at fresh
        simp at fresh
      · exact ih (.inl later) free
    · exact ih (.inr found) free
  | case3 available current rest something ih =>
    rw [explore, dif_neg something] at source ⊢
    rw [List.mem_append] at source ⊢
    by_cases fresh : y ∈ freshNames (next current) available
    · exact .inl fresh
    · right
      apply ih _ (mem_unfound.2 ⟨free, fresh⟩)
      rcases source with waiting | found | later
      · rcases List.mem_cons.1 waiting with rfl | waiting
        · exact absurd (mem_freshNames.2 ⟨edge, free⟩) fresh
        · exact .inl (List.mem_append_left _ waiting)
      · exact .inl (List.mem_append_right _ found)
      · exact .inr later

/-- What is found was available, and the relation leads to it from something that waited. -/
theorem reached_of_mem_explore {next : TypeName → List TypeName} {available pending : List TypeName} {y : TypeName}
    (found : y ∈ explore next available pending) :
    y ∈ available ∧ ∃ x ∈ pending, TransGen (fun a b => b ∈ next a) x y := by
  induction available, pending using explore.induct next with
  | case1 available =>
    rw [explore] at found
    simp at found
  | case2 available current rest nothing ih =>
    rw [explore, dif_pos nothing] at found
    obtain ⟨free, x, waiting, path⟩ := ih found
    exact ⟨free, x, List.mem_cons_of_mem _ waiting, path⟩
  | case3 available current rest something ih =>
    rw [explore, dif_neg something, List.mem_append] at found
    rcases found with fresh | later
    · obtain ⟨edge, free⟩ := mem_freshNames.1 fresh
      exact ⟨free, current, List.mem_cons_self, .single edge⟩
    · obtain ⟨unfound, x, waiting, path⟩ := ih later
      refine ⟨(mem_unfound.1 unfound).1, ?_⟩
      rcases List.mem_append.1 waiting with waiting | fresh
      · exact ⟨x, List.mem_cons_of_mem _ waiting, path⟩
      · exact ⟨current, List.mem_cons_self, .head (mem_freshNames.1 fresh).1 path⟩

/-- No name is found twice. -/
theorem nodup_explore (next : TypeName → List TypeName) (available pending : List TypeName) :
    (explore next available pending).Nodup := by
  induction available, pending using explore.induct next with
  | case1 available =>
    rw [explore]
    exact List.nodup_nil
  | case2 available current rest nothing ih =>
    rw [explore, dif_pos nothing]
    exact ih
  | case3 available current rest something ih =>
    rw [explore, dif_neg something, List.nodup_append]
    refine ⟨(nodup_eraseDups _).filter _, ih, ?_⟩
    rintro x fresh _ later rfl
    exact (mem_unfound.1 (reached_of_mem_explore later).1).2 fresh

namespace Corpus

variable {c : Corpus}

/-- A search from a name finds exactly the other names to which a relation leads, if it leads only to names that the
    corpus mentions. -/
theorem mem_reached {next : TypeName → List TypeName} (mentioned : ∀ x, ∀ y ∈ next x, y ∈ c.mentioned)
    {start y : TypeName} : y ∈ c.reached next start ↔ y ≠ start ∧ TransGen (fun a b => b ∈ next a) start y := by
  constructor
  · intro found
    obtain ⟨free, x, waiting, path⟩ := reached_of_mem_explore found
    obtain rfl := List.mem_singleton.1 waiting
    exact ⟨by simpa using (List.mem_filter.1 free).2, path⟩
  · rintro ⟨other, path⟩
    have passed {x z : TypeName} (before : x = start ∨ x ∈ c.reached next start) (edge : z ∈ next x) :
        z = start ∨ z ∈ c.reached next start := by
      by_cases back : z = start
      · exact .inl back
      · have free : z ∈ c.mentioned.filter (· != start) := List.mem_filter.2 ⟨mentioned x z edge, by simpa using back⟩
        exact .inr (explore_closed next (before.imp (fun same => by simp [same]) id) edge free)
    have arrives {z : TypeName} (path : TransGen (fun a b => b ∈ next a) start z) :
        z = start ∨ z ∈ c.reached next start := by
      induction path with
      | single edge => exact passed (.inl rfl) edge
      | tail _ edge ih => exact passed ih edge
    exact (arrives path).resolve_left other

/-- A class of the corpus has the other name as its superclass or among its interfaces. -/
def Extends (c : Corpus) (sub super : TypeName) : Prop := ∃ d ∈ c.classes, d.name = sub ∧ super ∈ d.supertypes

/-- Superclasses and interfaces of classes of the corpus lead from one name up to another, which is not the same. -/
def IsProperSubtype (c : Corpus) (sub super : TypeName) : Prop := sub ≠ super ∧ TransGen c.Extends sub super

theorem directSubclasses_eq (c : Corpus) (name : TypeName) :
    c.directSubclasses name = (c.classes.filter fun d => d.superclass == some name).map (·.name) :=
  c.reflects.subclasses name

theorem directImplementors_eq (c : Corpus) (name : TypeName) :
    c.directImplementors name = c.classes.flatMap fun d => (d.interfaces.filter (· == name)).map fun _ => d.name :=
  c.reflects.implementors name

theorem mem_directSubtypes {name sub : TypeName} : sub ∈ c.directSubtypes name ↔ c.Extends sub name := by
  simp only [directSubtypes, directSubclasses_eq, directImplementors_eq, Extends, ClassDecl.supertypes, List.mem_append,
    List.mem_map, List.mem_filter, List.mem_flatMap, Option.mem_toList, beq_iff_eq]
  constructor
  · rintro (⟨d, ⟨member, extension⟩, rfl⟩ | ⟨d, member, _, ⟨implemented, rfl⟩, rfl⟩)
    · exact ⟨d, member, rfl, .inl extension⟩
    · exact ⟨d, member, rfl, .inr implemented⟩
  · rintro ⟨d, member, rfl, extension | implemented⟩
    · exact .inl ⟨d, ⟨member, extension⟩, rfl⟩
    · exact .inr ⟨d, member, name, ⟨implemented, rfl⟩, rfl⟩

/-- The subtypes that are found are the proper ones. -/
theorem mem_allSubtypes {name sub : TypeName} : sub ∈ c.allSubtypes name ↔ c.IsProperSubtype sub name := by
  have mentioned (x y : TypeName) (edge : y ∈ c.directSubtypes x) : y ∈ c.mentioned := by
    obtain ⟨d, member, rfl, -⟩ := mem_directSubtypes.1 edge
    exact List.mem_eraseDups.2 (List.mem_append_left _ (List.mem_map_of_mem member))
  have swapped : (fun a b => b ∈ c.directSubtypes a) = Function.swap c.Extends := by
    funext a b
    exact propext mem_directSubtypes
  rw [allSubtypes, mem_reached mentioned, swapped, Relation.transGen_swap, IsProperSubtype]

theorem mem_directSupertypes {name super : TypeName} : super ∈ c.directSupertypes name ↔ c.Extends name super := by
  unfold directSupertypes
  cases search : c.class? name with
  | none =>
    refine ⟨fun member => absurd member List.not_mem_nil, ?_⟩
    rintro ⟨d, member, same, -⟩
    rw [class?_eq_some_iff.2 ⟨member, same⟩] at search
    cases search
  | some d =>
    obtain ⟨member, same⟩ := class?_eq_some_iff.1 search
    refine ⟨fun above => ⟨d, member, same, above⟩, ?_⟩
    rintro ⟨e, listed, same', above⟩
    rwa [eq_of_name member listed (same.trans same'.symm)]

/-- The supertypes that are found are the names of which the type is a proper subtype. -/
theorem mem_allSupertypes {name super : TypeName} : super ∈ c.allSupertypes name ↔ c.IsProperSubtype name super := by
  have mentioned (x y : TypeName) (edge : y ∈ c.directSupertypes x) : y ∈ c.mentioned := by
    obtain ⟨d, member, -, above⟩ := mem_directSupertypes.1 edge
    exact List.mem_eraseDups.2 (List.mem_append_right _ (List.mem_flatMap.2 ⟨d, member, above⟩))
  have upwards : (fun a b => b ∈ c.directSupertypes a) = c.Extends := by
    funext a b
    exact propext mem_directSupertypes
  rw [allSupertypes, mem_reached mentioned, upwards, IsProperSubtype, ne_comm]

/-- A type is assignable to what superclasses and interfaces lead up to, and to itself. -/
theorem isAssignable_iff {source target : TypeName} :
    c.isAssignable source target = true ↔ ReflTransGen c.Extends source target := by
  rw [Relation.reflTransGen_iff_eq_or_transGen, isAssignable, Bool.or_eq_true, beq_iff_eq, List.contains_iff_mem,
    mem_allSupertypes, IsProperSubtype]
  by_cases same : source = target
  · simp [same]
  · simp [same, Ne.symm same]

/-- What is climbed to is a class of the corpus whose name was available. -/
theorem mem_climb {available : List TypeName} {from? : Option TypeName} {d : ClassDecl}
    (climbed : d ∈ c.climb available from?) : d ∈ c.classes ∧ d.name ∈ available := by
  induction available, from? using climb.induct c with
  | case1 available =>
    rw [climb] at climbed
    simp at climbed
  | case2 available name free e search ih =>
    rw [climb, dif_pos free, search] at climbed
    obtain ⟨member, same⟩ := class?_eq_some_iff.1 search
    rcases List.mem_cons.1 climbed with rfl | above
    · exact ⟨member, same ▸ free⟩
    · exact ⟨(ih above).1, List.mem_of_mem_erase (ih above).2⟩
  | case3 available name free search =>
    rw [climb, dif_pos free, search] at climbed
    simp at climbed
  | case4 available name taken =>
    rw [climb, dif_neg taken] at climbed
    simp at climbed

/-- No class is climbed to twice. -/
theorem nodup_climb {available : List TypeName} (distinct : available.Nodup) (from? : Option TypeName) :
    ((c.climb available from?).map (·.name)).Nodup := by
  induction available, from? using climb.induct c with
  | case1 available => simp [climb]
  | case2 available name free d search ih =>
    rw [climb, dif_pos free, search]
    refine List.nodup_cons.2 ⟨?_, ih (distinct.erase name)⟩
    rintro again
    obtain ⟨e, above, same⟩ := List.mem_map.1 again
    -- The name of the class is gone once it is passed.
    have passed : e.name = name := same.trans (class?_eq_some_iff.1 search).2
    exact ((List.Nodup.mem_erase_iff distinct).1 (mem_climb above).2).1 passed
  | case3 available name free search => simp [climb, free, search]
  | case4 available name gone => simp [climb, gone]

theorem nodup_superclassChain (c : Corpus) (name : TypeName) : ((c.superclassChain name).map (·.name)).Nodup :=
  nodup_climb (c.nodup_names.filter _) _

/-- The chain upwards from a name, after some names were passed: each class is the superclass of the one before, none has
    a name that was passed, and the chain ends only where there is no superclass, where it leaves the corpus, or where
    it would come back to a name that was passed. -/
inductive Climbs (c : Corpus) : (passed : List TypeName) → (from? : Option TypeName) → List ClassDecl → Prop
  | top {passed : List TypeName} : Climbs c passed none []
  | absent {passed : List TypeName} {name : TypeName} (absent : c.class? name = none) : Climbs c passed (some name) []
  | back {passed : List TypeName} {name : TypeName} (back : name ∈ passed) : Climbs c passed (some name) []
  | up {passed : List TypeName} {name : TypeName} {d : ClassDecl} {above : List ClassDecl} (fresh : name ∉ passed)
    (declared : c.class? name = some d) (climbs : Climbs c (name :: passed) d.superclass above) :
    Climbs c passed (some name) (d :: above)

theorem climbs_climb {available passed : List TypeName} {from? : Option TypeName} (distinct : available.Nodup)
    (free : ∀ n, n ∈ available ↔ n ∈ c.classes.map (·.name) ∧ n ∉ passed) :
    c.Climbs passed from? (c.climb available from?) := by
  induction available, from? using climb.induct c generalizing passed with
  | case1 available =>
    rw [climb]
    exact .top
  | case2 available name listed d search ih =>
    rw [climb, dif_pos listed, search]
    refine .up ((free name).1 listed).2 search (ih (distinct.erase name) fun n => ?_)
    rw [List.Nodup.mem_erase_iff distinct, free, List.mem_cons, not_or]
    exact and_left_comm
  | case3 available name listed search =>
    rw [climb, dif_pos listed, search]
    exact .absent search
  | case4 available name gone =>
    rw [climb, dif_neg gone]
    by_cases back : name ∈ passed
    · exact .back back
    · refine .absent (Option.eq_none_iff_forall_ne_some.2 fun d declared => gone ((free name).2 ⟨?_, back⟩))
      obtain ⟨member, same⟩ := class?_eq_some_iff.1 declared
      exact List.mem_map.2 ⟨d, member, same⟩

/-- The chain of a class goes up from its superclass, and does not come back to the class. -/
theorem climbs_superclassChain (c : Corpus) (name : TypeName) :
    c.Climbs [name] ((c.class? name).bind (·.superclass)) (c.superclassChain name) := by
  refine climbs_climb (c.nodup_names.filter _) fun n => ?_
  rw [List.mem_filter, List.mem_singleton, bne_iff_ne]

/-- A class that extends one is found below everything from which that one is found, and below that one. -/
theorem mem_allSubclasses_of_extends {ancestor : TypeName} {d : ClassDecl} (member : d ∈ c.classes)
    {above : TypeName} (extension : d.superclass = some above) (other : d.name ≠ ancestor)
    (below : above = ancestor ∨ above ∈ c.allSubclasses ancestor) : d.name ∈ c.allSubclasses ancestor := by
  have mentioned : d.name ∈ c.mentioned.filter (· != ancestor) := by
    have named : d.name ∈ c.classes.map (·.name) := List.mem_map.2 ⟨d, member, rfl⟩
    simp only [List.mem_filter, bne_iff_ne, ne_eq, other, not_false_eq_true, and_true]
    exact List.mem_eraseDups.2 (List.mem_append_left _ named)
  have edge : d.name ∈ c.directSubclasses above := by
    rw [directSubclasses_eq]
    exact List.mem_map.2 ⟨d, List.mem_filter.2 ⟨member, by simp [extension]⟩, rfl⟩
  exact explore_closed c.directSubclasses (below.imp (fun same => by simp [same]) id) edge mentioned

/-- Everything climbed to from a class has it among its subclasses. The name of the class itself is no
    longer available, so the climb never returns to it. -/
theorem mem_allSubclasses_of_climb {available : List TypeName} {from? : Option TypeName} {ancestor : ClassDecl}
    (distinct : available.Nodup) (climbed : ancestor ∈ c.climb available from?) {d : ClassDecl}
    (member : d ∈ c.classes) (extension : d.superclass = from?) (taken : d.name ∉ available) :
    d.name ∈ c.allSubclasses ancestor.name := by
  induction available, from? using climb.induct c generalizing d with
  | case1 available =>
    rw [climb] at climbed
    simp at climbed
  | case2 available name free e search ih =>
    have other : d.name ≠ ancestor.name := fun same => taken (same ▸ (mem_climb climbed).2)
    rw [climb, dif_pos free, search] at climbed
    obtain ⟨above, same⟩ := class?_eq_some_iff.1 search
    rcases List.mem_cons.1 climbed with rfl | higher
    · exact mem_allSubclasses_of_extends member extension other (.inl same.symm)
    · have passed : e.name ∉ available.erase name := by
        rw [same]
        exact fun later => (List.Nodup.mem_erase_iff distinct).1 later |>.1 rfl
      have found := ih (distinct.erase name) higher above rfl passed
      exact mem_allSubclasses_of_extends member extension other (.inr (same ▸ found))
  | case3 available name free search =>
    rw [climb, dif_pos free, search] at climbed
    simp at climbed
  | case4 available name gone =>
    rw [climb, dif_neg gone] at climbed
    simp at climbed

/-- A class is among the subclasses of every class on its chain of superclasses. -/
theorem mem_allSubclasses_of_mem_superclassChain {name : TypeName} {ancestor : ClassDecl}
    (chained : ancestor ∈ c.superclassChain name) : name ∈ c.allSubclasses ancestor.name := by
  unfold superclassChain at chained
  cases search : c.class? name with
  | none =>
    rw [search] at chained
    simp [climb] at chained
  | some d =>
    rw [search] at chained
    obtain ⟨member, rfl⟩ := class?_eq_some_iff.1 search
    exact mem_allSubclasses_of_climb (c.nodup_names.filter _) chained member rfl (by simp)

end Corpus

/-- Whatever the hierarchy is like, the searches find each subtype and each supertype of a name once, and not the name
    itself; they find the names from which, and to which, superclasses and interfaces of the corpus lead, so each undoes
    the other, and a type is assignable to another exactly if it is that type or one below it. -/
theorem hierarchy_searches_find_what_is_reached (c : Corpus) :
    (∀ name, ((c.allSubtypes name).Nodup ∧ name ∉ c.allSubtypes name) ∧
      (c.allSupertypes name).Nodup ∧ name ∉ c.allSupertypes name) ∧
    (∀ a b, (b ∈ c.allSubtypes a ↔ a ∈ c.allSupertypes b) ∧
      (a ∈ c.allSupertypes b ↔ a ≠ b ∧ TransGen c.Extends b a)) ∧
    (∀ source target, c.isAssignable source target = true ↔ ReflTransGen c.Extends source target) ∧
    (∀ name, c.isAssignable name name = true) ∧
    ∀ x y z, c.isAssignable x y = true → c.isAssignable y z = true → c.isAssignable x z = true := by
  refine ⟨fun name => ⟨⟨nodup_explore _ _ _, ?_⟩, nodup_explore _ _ _, ?_⟩, fun a b => ⟨?_, ?_⟩,
    fun _ _ => Corpus.isAssignable_iff, fun name => ?_, fun x y z => ?_⟩
  · exact fun found => (Corpus.mem_allSubtypes.1 found).1 rfl
  · exact fun found => (Corpus.mem_allSupertypes.1 found).1 rfl
  · rw [Corpus.mem_allSubtypes, Corpus.mem_allSupertypes]
  · rw [Corpus.mem_allSupertypes, Corpus.IsProperSubtype, ne_comm]
  · exact Corpus.isAssignable_iff.2 .refl
  · simp only [Corpus.isAssignable_iff]
    exact ReflTransGen.trans

end AnnotationWeaver
