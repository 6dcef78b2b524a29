import AnnotationWeaver.Proofs.CanonicalText
import AnnotationWeaver.Proofs.EffectiveValues

/-!
Annotations with their members in order. Arranging a value sorts the members of every annotation in it by name and
changes nothing else: neither bits of floating-point values nor component kinds of arrays. Values that are arranged
alike are the same; and where each annotation sets its members once, values that are the same are arranged alike,
since sorting then leaves no choice.
-/
namespace AnnotationWeaver

mutual

/-- The value with the members of every annotation in it sorted by name. -/
def Value.arranged (v : Value) : Value :=
  match v with
  | .nested a => .nested a.arranged
  | .array component elements => .array component (Value.allArranged elements)
  | v => v
termination_by structural v

def Value.allArranged (vs : List Value) : List Value :=
  match vs with
  | [] => []
  | v :: rest => v.arranged :: Value.allArranged rest
termination_by structural vs

/-- The annotation with its members sorted by name, at every depth. -/
def Annotation.arranged (a : Annotation) : Annotation :=
  match a with
  | ⟨type, members⟩ => ⟨type, Literal.sortedMembers ⟨type, Member.allArranged members⟩⟩
termination_by structural a

def Member.allArranged (ms : List Member) : List Member :=
  match ms with
  | [] => []
  | m :: rest => m.arranged :: Member.allArranged rest
termination_by structural ms

def Member.arranged (m : Member) : Member :=
  match m with
  | ⟨name, value⟩ => ⟨name, value.arranged⟩
termination_by structural m

end

theorem Value.allArranged_eq_map (vs : List Value) : Value.allArranged vs = vs.map Value.arranged := by
  induction vs with
  | nil => rfl
  | cons v rest ih => rw [Value.allArranged, ih, List.map_cons]

theorem Member.allArranged_eq_map (ms : List Member) : Member.allArranged ms = ms.map Member.arranged := by
  induction ms with
  | nil => rfl
  | cons m rest ih => rw [Member.allArranged, ih, List.map_cons]

@[simp] theorem Member.arranged_name (m : Member) : m.arranged.name = m.name := by
  cases m
  rfl

@[simp] theorem Member.arranged_value (m : Member) : m.arranged.value = m.value.arranged := by
  cases m
  rfl

theorem Annotation.arranged_eq (a : Annotation) :
    a.arranged = ⟨a.type, Literal.sortedMembers ⟨a.type, a.members.map Member.arranged⟩⟩ := by
  cases a
  rw [arranged, Member.allArranged_eq_map]

theorem Annotation.setsOnce_arranged_iff {type : TypeName} {ms : List Member} :
    (⟨type, ms.map Member.arranged⟩ : Annotation).SetsOnce ↔ (ms.map (·.name)).Nodup := by
  simp [SetsOnce, Function.comp_def]

/-- Sorting leaves no choice where no member is set twice. -/
theorem Literal.sortedMembers_eq_iff {a b : Annotation} (once : a.SetsOnce) :
    sortedMembers a = sortedMembers b ↔ a.members.Perm b.members := by
  constructor
  · intro equal
    exact (sortedMembers_perm a).symm.trans (equal ▸ sortedMembers_perm b)
  · intro perm
    have sorted : (sortedMembers a).Perm (sortedMembers b) :=
      (sortedMembers_perm a).trans (perm.trans (sortedMembers_perm b).symm)
    refine sorted.eq_of_pairwise ?_ (List.pairwise_map.1 (sortedNames_pairwise a))
      (List.pairwise_map.1 (sortedNames_pairwise b))
    intro m n first second before after
    have listed : m ∈ a.members := (sortedMembers_perm a).mem_iff.1 first
    have listed' : n ∈ a.members := perm.mem_iff.2 ((sortedMembers_perm b).mem_iff.1 second)
    exact List.inj_on_of_nodup_map once listed listed' (String.le_antisymm before after)

/-! ### Arranged alike -/

/-- The value is the same as those that are arranged alike. -/
def Value.IsToldByArrangement (v : Value) : Prop := ∀ w : Value, v.same w = true ↔ v.arranged = w.arranged

namespace Member

theorem pairs_iff_arranged_eq {m n : Member} (told : m.value.IsToldByArrangement) : m.Pairs n ↔ m.arranged = n.arranged := by
  rw [Pairs, told n.value]
  cases m
  cases n
  simp [arranged]

theorem sameAll_iff_perm_arranged {ms ns : List Member} (told : ∀ m ∈ ms, m.value.IsToldByArrangement) :
    sameAll ms ns = true ↔ (ms.map arranged).Perm (ns.map arranged) := by
  rw [sameAll_iff_of_equates fun m _ => Value.passesOutward_equates.value m.value, map_perm_map_iff]
  refine exists_congr fun paired => and_congr_right fun _ => ⟨fun pairs => ?_, fun pairs => ?_⟩
  · exact forall₂_imp_of_mem pairs fun m member n _ => (pairs_iff_arranged_eq (told m member)).1
  · exact forall₂_imp_of_mem pairs fun m member n _ => (pairs_iff_arranged_eq (told m member)).2

end Member

namespace Value

/-- A value without parts is arranged as it is. -/
theorem arranged_of_plain {v : Value} (alone : v.nested? = none) (whole : v.elements? = none) : v.arranged = v := by
  cases v with
  | nested a => cases alone
  | array kind elements => cases whole
  | _ => rfl

theorem sameAll_iff_arranged_eq {vs ws : List Value} (told : ∀ v ∈ vs, v.IsToldByArrangement) :
    sameAll vs ws = true ↔ allArranged vs = allArranged ws := by
  rw [sameAll_iff_forall₂, allArranged_eq_map, allArranged_eq_map, map_eq_map_iff_forall₂]
  constructor
  · intro related
    exact forall₂_imp_of_mem related fun v member w _ => (told v member w).1
  · intro alike
    exact forall₂_imp_of_mem alike fun v member w _ => (told v member w).2

theorem passesOutward_isToldByArrangement : PassesOutward fun v => v.SetsOnce → v.IsToldByArrangement where
  plain := by
    intro v alone whole _ w
    rw [(same_plain_iff alone whole w).1, arranged_of_plain alone whole]
    constructor
    · rintro rfl
      exact (arranged_of_plain alone whole).symm
    · -- Only a value without parts is arranged as one.
      rintro rfl
      cases w with
      | nested b => cases alone
      | array kind elements => cases whole
      | _ => rfl
  nested := by
    intro a inside once w
    obtain ⟨once, once'⟩ := setsOnce_nested_iff.1 once
    cases w with
    | nested b =>
      have told (m) (member : m ∈ a.members) := inside m member (once' m member)
      have onceEach : (⟨a.type, a.members.map Member.arranged⟩ : Annotation).SetsOnce :=
        Annotation.setsOnce_arranged_iff.2 once
      rw [same_nested_iff, Member.sameAll_iff_perm_arranged told, arranged, arranged, nested.injEq,
        Annotation.arranged_eq, Annotation.arranged_eq, Annotation.mk.injEq,
        Literal.sortedMembers_eq_iff onceEach]
    | _ => simp [Value.same, arranged]
  array := by
    intro kind elements inside once w
    cases w with
    | array kind' elements' =>
      have told (v) (member : v ∈ elements) := inside v member (setsOnce_array_iff.1 once v member)
      rw [same, Bool.and_eq_true, beq_iff_eq, sameAll_iff_arranged_eq told, arranged, arranged, array.injEq]
    | _ => simp [Value.same, arranged]

/-- Where annotations set their members once, values are the same exactly if they are arranged alike. -/
theorem same_iff_arranged_eq {v : Value} (once : v.SetsOnce) (w : Value) : v.same w = true ↔ v.arranged = w.arranged :=
  passesOutward_isToldByArrangement.value v once w

end Value

theorem Annotation.same_iff_arranged_eq {a : Annotation} (once : (Value.nested a).SetsOnce) (b : Annotation) :
    (a == b) = true ↔ a.arranged = b.arranged := by
  have nested := Value.same_iff_arranged_eq once (.nested b)
  rwa [Value.arranged, Value.arranged, Value.nested.injEq, Value.same] at nested

end AnnotationWeaver
