import AnnotationWeaver.Proofs.Lists
import AnnotationWeaver.Proofs.MemberOrder
import AnnotationWeaver.Proofs.Sameness
import Mathlib.Data.List.Perm.Basic

/-!
Sameness is an equivalence of values. Members are compared greedily: each takes the first of the others that is the same,
whichever that is. As members that are the same as one are the same as each other, it does not matter which is
taken, and members are the same as others whenever these can be paired off with them in some order. Hence
sameness goes both ways and from value to value, however deep they nest and whether or not members are set twice.
-/
namespace AnnotationWeaver

/-! ### Induction over values -/

/-- What holds of the parts of a value holds of the value, and it holds of every value without parts. -/
structure Value.PassesOutward (P : Value → Prop) : Prop where
  plain : ∀ v : Value, v.nested? = none → v.elements? = none → P v
  nested : ∀ a : Annotation, (∀ m ∈ a.members, P m.value) → P (.nested a)
  array : ∀ (kind : ValueKind) (elements : List Value), (∀ v ∈ elements, P v) → P (.array kind elements)

mutual

theorem Value.PassesOutward.value {P : Value → Prop} (passes : Value.PassesOutward P) (v : Value) : P v := by
  cases v with
  | nested a => exact passes.nested a (passes.annotation a)
  | array kind elements => exact passes.array kind elements (passes.values elements)
  | _ => exact passes.plain _ rfl rfl
termination_by structural v

theorem Value.PassesOutward.values {P : Value → Prop} (passes : Value.PassesOutward P) (vs : List Value) :
    ∀ v ∈ vs, P v := by
  cases vs with
  | nil => simp
  | cons v rest =>
    rw [List.forall_mem_cons]
    exact ⟨passes.value v, passes.values rest⟩
termination_by structural vs

theorem Value.PassesOutward.annotation {P : Value → Prop} (passes : Value.PassesOutward P) (a : Annotation) :
    ∀ m ∈ a.members, P m.value := by
  cases a with
  | mk type members => exact passes.members members
termination_by structural a

theorem Value.PassesOutward.members {P : Value → Prop} (passes : Value.PassesOutward P) (ms : List Member) :
    ∀ m ∈ ms, P m.value := by
  cases ms with
  | nil => simp
  | cons m rest =>
    rw [List.forall_mem_cons]
    exact ⟨passes.member m, passes.members rest⟩
termination_by structural ms

theorem Value.PassesOutward.member {P : Value → Prop} (passes : Value.PassesOutward P) (m : Member) : P m.value := by
  cases m with
  | mk name value => exact passes.value value
termination_by structural m

end

/-! ### Pairing off -/

/-- An element of the second list can be replaced by one that its partner is related to as well. -/
theorem forall₂_replace {α β : Type} {R : α → β → Prop} {xs : List α} {before after : List β} {y z : β}
    (related : List.Forall₂ R xs (before ++ y :: after)) (swap : ∀ x ∈ xs, R x y → R x z) :
    List.Forall₂ R xs (before ++ z :: after) := by
  induction before generalizing xs with
  | nil =>
    cases related with
    | cons head tail => exact .cons (swap _ List.mem_cons_self head) tail
  | cons first rest ih =>
    cases related with
    | cons head tail => exact .cons head (ih tail fun x later => swap x (List.mem_cons_of_mem _ later))

namespace Member

/-- Members that pair off with the others in some order are the same as these, if pairs can be exchanged: the one that is
    taken first may belong to a later member, which then takes the partner that is left over. -/
theorem sameAll_of_pairing {ms ns paired : List Member} (perm : paired.Perm ns) (pairs : List.Forall₂ Pairs ms paired)
    (exchange : ∀ m ∈ ms, ∀ m' ∈ ms, ∀ n ∈ ns, ∀ n' ∈ ns, m.Pairs n → m.Pairs n' → m'.Pairs n → m'.Pairs n') :
    sameAll ms ns = true := by
  induction ms generalizing ns paired with
  | nil =>
    cases pairs
    rw [List.nil_perm.1 perm]
    rfl
  | cons m rest ih =>
    cases pairs with
    | @cons _ partner _ others pair pairs =>
      have listed : partner ∈ ns := perm.mem_iff.1 List.mem_cons_self
      obtain ⟨n, before, after, -, taken, rfl, erased⟩ := List.exists_of_eraseP listed (same_iff_pairs.2 pair)
      have fewer : before ++ after ⊆ before ++ n :: after :=
        ((List.sublist_cons_self n after).append_left before).subset
      have later : ∀ m ∈ rest, ∀ m' ∈ rest, ∀ n ∈ before ++ after, ∀ n' ∈ before ++ after,
          m.Pairs n → m.Pairs n' → m'.Pairs n → m'.Pairs n' := by
        intro m₁ member₁ m₂ member₂ n₁ left₁ n₂ left₂
        exact exchange m₁ (List.mem_cons_of_mem _ member₁) m₂ (List.mem_cons_of_mem _ member₂) n₁ (fewer left₁) n₂
          (fewer left₂)
      rw [sameAll, Bool.and_eq_true, List.any_eq_true]
      refine ⟨⟨partner, listed, same_iff_pairs.2 pair⟩, ?_⟩
      rw [erased]
      have moved : (partner :: others).Perm (n :: (before ++ after)) := perm.trans List.perm_middle
      rcases List.mem_cons.1 (moved.mem_iff.2 List.mem_cons_self) with rfl | inside
      · exact ih (List.Perm.cons_inv moved) pairs later
      · obtain ⟨first, last, rfl⟩ := List.append_of_mem inside
        have swapped : List.Forall₂ Pairs rest (first ++ partner :: last) := by
          refine forall₂_replace pairs fun m' member pair' => ?_
          exact exchange m List.mem_cons_self m' (List.mem_cons_of_mem _ member) n
            (List.mem_append_right _ List.mem_cons_self) partner listed (same_iff_pairs.1 taken) pair pair'
        refine ih ?_ swapped later
        have rotated : (n :: (first ++ partner :: last)).Perm (partner :: (first ++ n :: last)) := by
          refine (List.Perm.cons n List.perm_middle).trans ?_
          exact (List.Perm.swap partner n _).trans (List.Perm.cons partner List.perm_middle.symm)
        exact List.Perm.cons_inv (rotated.trans moved)

end Member

/-- Lists that are related to a list between them are related, if this is so for each element of the first. -/
theorem forall₂_trans_of_mem {α : Type} {R : α → α → Prop} {xs ys zs : List α} (first : List.Forall₂ R xs ys)
    (second : List.Forall₂ R ys zs) (on : ∀ x ∈ xs, ∀ y z, R x y → R y z → R x z) : List.Forall₂ R xs zs := by
  induction first generalizing zs with
  | nil => exact second
  | cons head tail ih =>
    cases second with
    | cons head' tail' =>
      exact .cons (on _ List.mem_cons_self _ _ head head') (ih tail' fun x later => on x (List.mem_cons_of_mem _ later))

/-! ### An equivalence -/

/-- Sameness with the value goes both ways, and on to whatever is the same as the other. -/
structure Value.Equates (v : Value) : Prop where
  symm : ∀ w, v.same w = true ↔ w.same v = true
  trans : ∀ w u, v.same w = true → w.same u = true → v.same u = true

namespace Member

variable {m n l : Member} {ms ns ls : List Member}

theorem pairs_comm_of_equates (equates : m.value.Equates) : m.Pairs n ↔ n.Pairs m := by
  rw [Pairs, Pairs, equates.symm, eq_comm]

theorem pairs_trans_of_equates (equates : m.value.Equates) (first : m.Pairs n) (second : n.Pairs l) : m.Pairs l :=
  ⟨first.1.trans second.1, equates.trans _ _ first.2 second.2⟩

theorem exchange_of_equates {m' n' : Member} (equates : m.value.Equates) (equates' : m'.value.Equates)
    (pair : m.Pairs n) (other : m.Pairs n') (pair' : m'.Pairs n) : m'.Pairs n' := by
  have back : n.Pairs m := (pairs_comm_of_equates equates).1 pair
  have across : m'.Pairs m := pairs_trans_of_equates equates' pair' back
  exact pairs_trans_of_equates equates' across other

theorem sameAll_iff_of_equates (equates : ∀ m ∈ ms, m.value.Equates) :
    sameAll ms ns = true ↔ ∃ paired, paired.Perm ns ∧ List.Forall₂ Pairs ms paired := by
  constructor
  · exact exists_pairing
  · rintro ⟨paired, perm, pairs⟩
    refine sameAll_of_pairing perm pairs ?_
    intro m member m' member' n _ n' _
    exact exchange_of_equates (equates m member) (equates m' member')

theorem sameAll_comm_of_equates (equates : ∀ m ∈ ms, m.value.Equates) :
    sameAll ms ns = true ↔ sameAll ns ms = true := by
  constructor
  · intro same
    obtain ⟨paired, perm, pairs⟩ := exists_pairing same
    have back : List.Forall₂ Pairs paired ms :=
      (forall₂_imp_of_mem pairs fun m member n _ pair => (pairs_comm_of_equates (equates m member)).1 pair).flip
    obtain ⟨paired', pairs', perm'⟩ := List.perm_comp_forall₂ perm.symm back
    refine sameAll_of_pairing perm' pairs' ?_
    intro n _ n' _ m member m' member' pair other pair'
    -- The members of the first list are the second ones here.
    have across : m'.Pairs m :=
      pairs_trans_of_equates (equates m' member') ((pairs_comm_of_equates (equates m' member')).2 other) pair
    have reached := pairs_trans_of_equates (equates m' member') across ((pairs_comm_of_equates (equates m member)).2 pair')
    exact (pairs_comm_of_equates (equates m' member')).1 reached
  · intro same
    obtain ⟨paired, perm, pairs⟩ := exists_pairing same
    have back : List.Forall₂ Pairs paired ns :=
      (forall₂_imp_of_mem pairs fun _ _ m member pair =>
        (pairs_comm_of_equates (equates m (perm.mem_iff.1 member))).2 pair).flip
    obtain ⟨paired', pairs', perm'⟩ := List.perm_comp_forall₂ perm.symm back
    exact (sameAll_iff_of_equates equates).2 ⟨paired', perm', pairs'⟩

theorem sameAll_trans_of_equates (equates : ∀ m ∈ ms, m.value.Equates) (first : sameAll ms ns = true)
    (second : sameAll ns ls = true) : sameAll ms ls = true := by
  obtain ⟨paired, perm, pairs⟩ := exists_pairing first
  obtain ⟨paired', perm', pairs'⟩ := exists_pairing second
  obtain ⟨between, further, perm''⟩ := List.perm_comp_forall₂ perm pairs'
  have joined : List.Forall₂ Pairs ms between :=
    forall₂_trans_of_mem pairs further fun m member _ _ => pairs_trans_of_equates (equates m member)
  exact (sameAll_iff_of_equates equates).2 ⟨between, perm''.trans perm', joined⟩

end Member

namespace Value

theorem sameAll_iff_forall₂ {vs ws : List Value} :
    sameAll vs ws = true ↔ List.Forall₂ (fun v w : Value => v.same w = true) vs ws := by
  induction vs generalizing ws with
  | nil => cases ws <;> simp [sameAll]
  | cons v rest ih => cases ws <;> simp [sameAll, ih]

theorem same_nested_iff {a b : Annotation} : (nested a).same (nested b) = true ↔
    a.type = b.type ∧ Member.sameAll a.members b.members = true := by
  rw [same]
  exact Annotation.same_iff

/-- A value without parts is the same as itself alone. -/
theorem same_plain_iff {v : Value} (alone : v.nested? = none) (whole : v.elements? = none) (w : Value) :
    (v.same w = true ↔ v = w) ∧ (w.same v = true ↔ w = v) := by
  cases v with
  | nested a => cases alone
  | array kind elements => cases whole
  | _ => constructor <;> cases w <;> simp [same]

theorem equates_of_plain {v : Value} (alone : v.nested? = none) (whole : v.elements? = none) : v.Equates where
  symm := by
    intro w
    rw [(same_plain_iff alone whole w).1, (same_plain_iff alone whole w).2, eq_comm]
  trans := by
    intro w u first second
    obtain rfl := (same_plain_iff alone whole w).1.1 first
    exact second

theorem passesOutward_equates : PassesOutward Equates where
  plain := fun v => equates_of_plain
  nested := by
    intro a equates
    constructor
    · intro w
      cases w with
      | nested b =>
        rw [same_nested_iff, same_nested_iff, Member.sameAll_comm_of_equates equates, eq_comm]
      | _ => simp [same]
    · intro w u first second
      cases w with
      | nested b =>
        cases u with
        | nested c =>
          rw [same_nested_iff] at first second ⊢
          exact ⟨first.1.trans second.1, Member.sameAll_trans_of_equates equates first.2 second.2⟩
        | _ => simp [same] at second
      | _ => simp [same] at first
  array := by
    intro kind elements equates
    constructor
    · intro w
      cases w with
      | array kind' elements' =>
        rw [same, same, Bool.and_eq_true, Bool.and_eq_true, sameAll_iff_forall₂, sameAll_iff_forall₂, beq_iff_eq,
          beq_iff_eq, eq_comm]
        refine and_congr_right fun _ => ⟨fun related => ?_, fun related => ?_⟩
        · exact (forall₂_imp_of_mem related fun v member w _ => ((equates v member).symm w).1).flip
        · exact (forall₂_imp_of_mem related fun w _ v member => ((equates v member).symm w).2).flip
      | _ => simp [same]
    · intro w u first second
      cases w with
      | array kind' elements' =>
        cases u with
        | array kind'' elements'' =>
          rw [same, Bool.and_eq_true, sameAll_iff_forall₂, beq_iff_eq] at first second ⊢
          exact ⟨first.1.trans second.1, forall₂_trans_of_mem first.2 second.2 fun v member => (equates v member).trans⟩
        | _ => simp [same] at second
      | _ => simp [same] at first

theorem same_comm (v w : Value) : v.same w = true ↔ w.same v = true := (passesOutward_equates.value v).symm w

theorem same_trans {v w u : Value} (first : v.same w = true) (second : w.same u = true) : v.same u = true :=
  (passesOutward_equates.value v).trans w u first second

end Value

end AnnotationWeaver
