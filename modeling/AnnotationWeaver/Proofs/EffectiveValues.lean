import AnnotationWeaver.Proofs.Held
import AnnotationWeaver.Proofs.SameValues

/-!
Effective values under sameness. Where each annotation in a value sets each of its members once, as all do that are made
by setting members, the same annotations have the same effective values: a member is explicit in both or in neither,
and its explicit values are the same.
-/
namespace AnnotationWeaver

/-- Every annotation in the value, at every depth, sets each of its members once. -/
def Value.SetsOnce (v : Value) : Prop := ∀ a ∈ v.held, a.SetsOnce

instance (v : Value) : Decidable v.SetsOnce := inferInstanceAs (Decidable (∀ a ∈ v.held, a.SetsOnce))

theorem Member.mem_allHeld {ms : List Member} {a : Annotation} :
    a ∈ Member.allHeld ms ↔ ∃ m ∈ ms, a ∈ m.value.held := by
  induction ms with
  | nil => simp [Member.allHeld]
  | cons m rest ih =>
    cases m with
    | mk name value => simp [Member.allHeld, Member.held, ih]

theorem Value.mem_allHeld {vs : List Value} {a : Annotation} : a ∈ Value.allHeld vs ↔ ∃ v ∈ vs, a ∈ v.held := by
  induction vs with
  | nil => simp [Value.allHeld]
  | cons v rest ih => simp [Value.allHeld, ih]

namespace Value

theorem setsOnce_nested_iff {a : Annotation} :
    (nested a).SetsOnce ↔ a.SetsOnce ∧ ∀ m ∈ a.members, m.value.SetsOnce := by
  have held : a.held = Member.allHeld a.members := by
    cases a
    rfl
  rw [SetsOnce, Value.held, List.forall_mem_cons, held]
  refine and_congr_right fun _ => ?_
  constructor
  · intro once m member x inside
    exact once x (Member.mem_allHeld.2 ⟨m, member, inside⟩)
  · intro once x inside
    obtain ⟨m, member, inside⟩ := Member.mem_allHeld.1 inside
    exact once m member x inside

theorem setsOnce_array_iff {kind : ValueKind} {elements : List Value} :
    (array kind elements).SetsOnce ↔ ∀ v ∈ elements, v.SetsOnce := by
  rw [SetsOnce, Value.held]
  constructor
  · intro once v member x inside
    exact once x (Value.mem_allHeld.2 ⟨v, member, inside⟩)
  · intro once x inside
    obtain ⟨v, member, inside⟩ := Value.mem_allHeld.1 inside
    exact once v member x inside

theorem passesOutward_setsOnce_of_same :
    PassesOutward fun v => ∀ w, v.same w = true → v.SetsOnce → w.SetsOnce where
  plain := by
    intro v alone whole w same once
    obtain rfl := (same_plain_iff alone whole w).1.1 same
    exact once
  nested := by
    intro a inside w same once
    cases w with
    | nested b =>
      rw [same_nested_iff] at same
      rw [setsOnce_nested_iff] at once ⊢
      refine ⟨(Member.names_perm_of_sameAll same.2).nodup_iff.1 once.1, ?_⟩
      intro n member
      obtain ⟨paired, perm, pairs⟩ := Member.exists_pairing same.2
      obtain ⟨m, listed, pair⟩ := exists_of_forall₂_right pairs (perm.mem_iff.2 member)
      exact inside m listed n.value pair.2 (once.2 m listed)
    | _ => simp [Value.same] at same
  array := by
    intro kind elements inside w same once
    cases w with
    | array kind' elements' =>
      rw [Value.same, Bool.and_eq_true, sameAll_iff_forall₂] at same
      rw [setsOnce_array_iff] at once ⊢
      intro w member
      obtain ⟨v, listed, same⟩ := exists_of_forall₂_right same.2 member
      exact inside v listed w same (once v listed)
    | _ => simp [Value.same] at same

/-- What is the same as a value sets members once if that does. -/
theorem SetsOnce.of_same {v w : Value} (once : v.SetsOnce) (same : v.same w = true) : w.SetsOnce :=
  passesOutward_setsOnce_of_same.value v w same once

end Value

namespace Annotation

variable {a b : Annotation}

/-- Annotations that are the same set the same members, to values that are the same. -/
theorem value?_of_same (same : (Value.nested a).same (.nested b) = true) (once : a.SetsOnce) (name : String) :
    Option.Rel (fun v w : Value => v.same w = true) (a.value? name) (b.value? name) := by
  rw [Value.same_nested_iff] at same
  cases found : a.value? name with
  | some v =>
    obtain ⟨w, found', equal⟩ := Member.exists_lookup?_of_sameAll same.2 once found
    rw [show b.value? name = some w from found']
    exact .some equal
  | none =>
    have names := Member.names_perm_of_sameAll same.2
    have absent : b.value? name = none := by
      rw [← Option.not_isSome_iff_eq_none] at found ⊢
      rw [value?, Member.lookup?_isSome_iff] at found ⊢
      exact fun member => found (names.mem_iff.2 member)
    rw [absent]
    exact .none

theorem effectiveValue?_of_same (same : (Value.nested a).same (.nested b) = true) (once : a.SetsOnce) (m : MethodDecl) :
    Option.Rel (fun v w : Value => v.same w = true) (a.effectiveValue? m) (b.effectiveValue? m) := by
  have explicit := value?_of_same same once m.name
  unfold effectiveValue?
  revert explicit
  generalize a.value? m.name = found
  generalize b.value? m.name = found'
  intro explicit
  cases explicit with
  | some equal => exact .some equal
  | none =>
    cases m.default? with
    | some v => exact .some v.same_refl
    | none => exact .none

/-- An explicit value is set in the annotation. -/
theorem exists_member_of_value? {name : String} {v : Value} (found : a.value? name = some v) :
    ∃ m ∈ a.members, m.name = name ∧ m.value = v := by
  obtain ⟨m, search, rfl⟩ := Option.map_eq_some_iff.1 found
  exact ⟨m, List.mem_of_find?_eq_some search, by simpa using List.find?_some search, rfl⟩

end Annotation

end AnnotationWeaver
