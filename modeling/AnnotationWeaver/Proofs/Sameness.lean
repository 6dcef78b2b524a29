import AnnotationWeaver.AnnotationSet
import Mathlib.Data.List.Perm.Subperm

/-!
Sameness of values and annotations. Every value and every annotation is the same as itself, whatever
its floating-point values are and however deep it nests, and so is every set of annotations. A set that
is compared with its own copy is therefore never told apart from it.
-/
namespace AnnotationWeaver

mutual

theorem Value.same_refl (v : Value) : v.same v = true := by
  cases v with
  | nested a => simpa [Value.same] using Annotation.same_refl a
  | array component elements => simpa [Value.same] using Value.sameAll_refl elements
  | _ => simp [Value.same]
termination_by structural v

theorem Value.sameAll_refl (vs : List Value) : Value.sameAll vs vs = true := by
  cases vs with
  | nil => rfl
  | cons v rest => simp [Value.sameAll, Value.same_refl v, Value.sameAll_refl rest]
termination_by structural vs

theorem Annotation.same_refl (a : Annotation) : a.same a = true := by
  cases a with
  | mk type members =>
    unfold Annotation.same
    simpa using Member.sameAll_refl members
termination_by structural a

theorem Member.sameAll_refl (ms : List Member) : Member.sameAll ms ms = true := by
  cases ms with
  | nil => rfl
  | cons m rest =>
    -- The first member that is the same as `m` is `m` itself, so the rest is left on both sides.
    have own := Member.same_refl m
    simp [Member.sameAll, own, Member.sameAll_refl rest]
termination_by structural ms

theorem Member.same_refl (m : Member) : m.same m = true := by
  cases m with
  | mk name value => simpa [Member.same] using Value.same_refl value
termination_by structural m

end

@[simp] theorem Annotation.beq_refl (a : Annotation) : (a == a) = true := a.same_refl

namespace AnnotationSet

/-- The types of a set are distinct, so each of its annotations is found by its type. -/
theorem get?_of_mem {s : AnnotationSet} {a : Annotation} (member : a ∈ s.entries) : s.get? a.type = some a := by
  obtain ⟨entries, distinct⟩ := s
  induction entries with
  | nil => simp at member
  | cons b rest ih =>
    obtain ⟨fresh, distinct⟩ := List.nodup_cons.1 distinct
    rcases List.mem_cons.1 member with rfl | later
    · simp [get?]
    · have other : b.type ≠ a.type := fun same => fresh (List.mem_map.2 ⟨a, later, same.symm⟩)
      simpa [get?, other] using ih distinct later

@[simp] theorem beq_refl (s : AnnotationSet) : (s == s) = true := by
  show s.same s = true
  simp only [same, beq_self_eq_true, Bool.true_and, List.all_eq_true]
  intro a member
  rw [get?_of_mem member]
  exact a.beq_refl

/-- Sets that are the same hold annotations of the same types. -/
theorem types_perm_of_beq {s t : AnnotationSet} (same : (s == t) = true) : s.types.Perm t.types := by
  obtain ⟨sizes, found⟩ := Bool.and_eq_true_iff.1 same
  have listed : s.types ⊆ t.types := by
    intro type member
    obtain ⟨a, held, rfl⟩ := List.mem_map.1 member
    have other := List.all_eq_true.1 found a held
    cases search : t.get? a.type with
    | none => simp [search] at other
    | some b =>
      have type : b.type = a.type := by simpa using List.find?_some search
      exact List.mem_map.2 ⟨b, List.mem_of_find?_eq_some search, type⟩
  have lengths : t.types.length ≤ s.types.length := by
    have equal : s.size = t.size := by simpa using sizes
    simpa [types, size] using Nat.le_of_eq equal.symm
  exact (List.subperm_of_subset s.distinct listed).perm_of_length_le lengths

theorem contains_of_beq {s t : AnnotationSet} (same : (s == t) = true) (type : TypeName) :
    s.contains type = t.contains type := by
  have among (u : AnnotationSet) : u.contains type = true ↔ type ∈ u.types := by simp [contains, types]
  exact Bool.eq_iff_iff.2 ((among s).trans ((types_perm_of_beq same).mem_iff.trans (among t).symm))

end AnnotationSet

end AnnotationWeaver
