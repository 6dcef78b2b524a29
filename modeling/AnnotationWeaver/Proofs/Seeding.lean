import AnnotationWeaver.Overlay.Seed

/-!
What a declaration has before any edit. Asking for one type and building the whole set are two ways to
the same answer: an inherited annotation is in the set when its type applies to subclasses and a
superclass declares it.
-/
namespace AnnotationWeaver.Corpus

variable (c : Corpus)

/-- A type is inherited by a class when it applies to subclasses and a superclass declares it. -/
theorem any_inheritable (name type : TypeName) :
    (c.inheritable name).any (·.type == type) =
      (c.isInherited type && (c.superclassChain name).any (·.declares type)) := by
  rw [Bool.eq_iff_iff, Bool.and_eq_true, List.any_eq_true, List.any_eq_true]
  constructor
  · rintro ⟨a, inherited, same⟩
    obtain ⟨ancestor, chained, kept⟩ := List.mem_flatMap.1 inherited
    obtain ⟨declared, applies⟩ := List.mem_filter.1 kept
    have equal : a.type = type := by simpa using same
    subst equal
    exact ⟨applies, ancestor, chained, List.any_eq_true.2 ⟨a, declared, same⟩⟩
  · rintro ⟨applies, ancestor, chained, declares⟩
    obtain ⟨a, declared, same⟩ := List.any_eq_true.1 declares
    have equal : a.type = type := by simpa using same
    subst equal
    exact ⟨a, List.mem_flatMap.2 ⟨ancestor, chained, List.mem_filter.2 ⟨declared, applies⟩⟩, same⟩

@[simp] theorem contains_seed (key : DeclKey) (type : TypeName) :
    (c.seed key).contains type = c.seedContains key type := by
  rw [seed, AnnotationSet.contains_ofList, List.any_append]
  cases key with
  | type name => rw [inheritedBy, any_inheritable, seedContains]
  | method key => rfl
  | field key => rfl
  | parameter key => rfl

end AnnotationWeaver.Corpus
