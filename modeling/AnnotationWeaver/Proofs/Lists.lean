import Mathlib.Data.List.Forall2
import Mathlib.Data.List.Induction
import Mathlib.Data.List.Nodup
import Mathlib.Data.List.Perm.Basic

/-!
Facts about lists and results that several developments use: what is left when repetitions are erased, and in which order,
searches that never fail written without their failures, the first element that fails, lists and options that are
related, results that were got through others, sorted lists in which equals keep their order, texts that are cut at
a first or at a last separator, and filters that keep one element or drop none.
-/
namespace AnnotationWeaver

theorem nodup_eraseDups {α : Type} [BEq α] [LawfulBEq α] (xs : List α) : xs.eraseDups.Nodup := by
  match xs with
  | [] => exact List.nodup_nil
  | x :: rest =>
    rw [List.eraseDups_cons, List.nodup_cons]
    refine ⟨?_, nodup_eraseDups _⟩
    intro member
    have other := List.mem_filter.1 (List.mem_eraseDups.1 member)
    simp at other
termination_by xs.length
decreasing_by exact Nat.lt_succ_of_le (List.length_filter_le _ _)

theorem eraseDups_of_nodup {α : Type} [BEq α] [LawfulBEq α] {xs : List α} (distinct : xs.Nodup) : xs.eraseDups = xs := by
  induction xs with
  | nil => rfl
  | cons x rest ih =>
    obtain ⟨fresh, distinct⟩ := List.nodup_cons.1 distinct
    have kept : rest.filter (fun y => !y == x) = rest :=
      List.filter_eq_self.2 fun y member => by simpa using fun same : y = x => fresh (same ▸ member)
    rw [List.eraseDups_cons, kept, ih distinct]

/-- A last element that occurred before is erased, and any other is kept. -/
theorem eraseDups_concat {α : Type} [BEq α] [LawfulBEq α] (xs : List α) (x : α) :
    (xs ++ [x]).eraseDups = if xs.contains x then xs.eraseDups else xs.eraseDups ++ [x] := by
  rw [List.eraseDups_append]
  by_cases known : x ∈ xs
  · simp [List.removeAll, known]
  · simp [List.removeAll, List.eraseDups_cons, known]

/-- Repetitions may be erased in the first part of a list before. -/
theorem eraseDups_eraseDups_append {α : Type} [BEq α] [LawfulBEq α] (xs ys : List α) :
    (xs.eraseDups ++ ys).eraseDups = (xs ++ ys).eraseDups := by
  have new : ys.removeAll xs.eraseDups = ys.removeAll xs := by
    refine List.filter_congr fun y _ => ?_
    simp
  rw [List.eraseDups_append, List.eraseDups_append, eraseDups_of_nodup (nodup_eraseDups xs), new]

/-- What is left when repetitions are erased stands in the order in which it first occurs. -/
theorem pairwise_idxOf_eraseDups {α : Type} [BEq α] [LawfulBEq α] (xs : List α) :
    xs.eraseDups.Pairwise fun x y => xs.idxOf x < xs.idxOf y := by
  induction xs using List.reverseRecOn with
  | nil => exact .nil
  | append_singleton before last ih =>
    have kept : before.eraseDups.Pairwise fun x y => (before ++ [last]).idxOf x < (before ++ [last]).idxOf y := by
      refine ih.imp_of_mem fun first second less => ?_
      rwa [List.idxOf_append_of_mem (List.mem_eraseDups.1 first), List.idxOf_append_of_mem (List.mem_eraseDups.1 second)]
    rw [eraseDups_concat]
    split
    · exact kept
    · next new =>
      rw [List.pairwise_append]
      refine ⟨kept, List.pairwise_singleton _ _, fun x earlier y later => ?_⟩
      obtain rfl := List.mem_singleton.1 later
      have member := List.mem_eraseDups.1 earlier
      rw [List.idxOf_append_of_mem member, List.idxOf_append_of_notMem (by simpa using new), List.idxOf_cons_self]
      exact List.idxOf_lt_length_of_mem member

/-- When what repeats the key of something before is erased, something is left for every key. -/
theorem exists_mem_eraseDupsBy {α κ : Type} [BEq κ] [LawfulBEq κ] (key : α → κ) (xs : List α) {x : α} (member : x ∈ xs) :
    ∃ y ∈ xs.eraseDupsBy fun a b => key a == key b, key y = key x := by
  match xs with
  | first :: rest =>
    rw [List.eraseDupsBy_cons]
    by_cases same : key x = key first
    · exact ⟨first, List.mem_cons_self, same.symm⟩
    · rcases List.mem_cons.1 member with rfl | later
      · exact absurd rfl same
      · have kept : x ∈ rest.filter fun other => decide ((key other == key first) = false) :=
          List.mem_filter.2 ⟨later, by simpa using same⟩
        obtain ⟨y, left, own⟩ := exists_mem_eraseDupsBy key _ kept
        exact ⟨y, List.mem_cons_of_mem _ left, own⟩
termination_by xs.length
decreasing_by exact Nat.lt_succ_of_le (List.length_filter_le _ _)

theorem mem_of_mem_eraseDupsBy {α κ : Type} [BEq κ] (key : α → κ) (xs : List α) {x : α}
    (left : x ∈ xs.eraseDupsBy fun a b => key a == key b) : x ∈ xs := by
  match xs with
  | [] => exact left
  | first :: rest =>
    rw [List.eraseDupsBy_cons] at left
    rcases List.mem_cons.1 left with rfl | later
    · exact List.mem_cons_self
    · exact List.mem_cons_of_mem _ (List.mem_filter.1 (mem_of_mem_eraseDupsBy key _ later)).1
termination_by xs.length
decreasing_by exact Nat.lt_succ_of_le (List.length_filter_le _ _)

theorem nodup_map_eraseDupsBy {α κ : Type} [BEq κ] [LawfulBEq κ] (key : α → κ) (xs : List α) :
    ((xs.eraseDupsBy fun a b => key a == key b).map key).Nodup := by
  match xs with
  | [] => exact List.nodup_nil
  | first :: rest =>
    rw [List.eraseDupsBy_cons, List.map_cons, List.nodup_cons]
    refine ⟨?_, nodup_map_eraseDupsBy key _⟩
    intro repeated
    obtain ⟨y, left, same⟩ := List.mem_map.1 repeated
    have other := (List.mem_filter.1 (mem_of_mem_eraseDupsBy key _ left)).2
    simp [same] at other
termination_by xs.length
decreasing_by exact Nat.lt_succ_of_le (List.length_filter_le _ _)

/-- Among elements that their keys tell apart, erasing repeated keys leaves each listed one, once. -/
theorem eraseDupsBy_spec {α κ : Type} [BEq κ] [LawfulBEq κ] {key : α → κ} {xs all : List α}
    (distinct : (all.map key).Nodup) (known : xs ⊆ all) :
    (xs.eraseDupsBy fun a b => key a == key b).Nodup ∧ ∀ x, x ∈ (xs.eraseDupsBy fun a b => key a == key b) ↔ x ∈ xs := by
  refine ⟨(nodup_map_eraseDupsBy key xs).of_map _, fun x => ⟨mem_of_mem_eraseDupsBy key xs, fun member => ?_⟩⟩
  obtain ⟨y, left, same⟩ := exists_mem_eraseDupsBy key xs member
  have listed := mem_of_mem_eraseDupsBy key xs left
  exact List.inj_on_of_nodup_map distinct (known listed) (known member) same ▸ left

private theorem filterAuxM_ok {α ε : Type} (keep : α → Bool) (xs kept : List α) :
    xs.filterAuxM (fun x => (.ok (keep x) : Except ε Bool)) kept = .ok ((xs.filter keep).reverse ++ kept) := by
  induction xs generalizing kept with
  | nil => rfl
  | cons x rest ih =>
    show rest.filterAuxM _ (cond (keep x) (x :: kept) kept) = _
    rw [ih]
    cases held : keep x <;> simp [held]

/-- A test that never fails filters as a plain one. -/
theorem filterM_ok {α ε : Type} {test : α → Except ε Bool} {keep : α → Bool} {xs : List α}
    (answers : ∀ x, test x = .ok (keep x)) : xs.filterM test = .ok (xs.filter keep) := by
  obtain rfl : test = fun x => .ok (keep x) := funext answers
  rw [List.filterM, filterAuxM_ok]
  show Except.ok ((xs.filter keep).reverse ++ []).reverse = _
  simp

/-- A function that never fails maps as a plain one. -/
theorem mapM_ok {α β ε : Type} {f : α → Except ε β} {g : α → β} {xs : List α}
    (answers : ∀ x, f x = .ok (g x)) : xs.mapM f = .ok (xs.map g) := by
  obtain rfl : f = fun x => pure (g x) := funext answers
  exact List.mapM_pure

/-- A function that does not fail on a list maps it as a plain one. -/
theorem mapM_ok_of_mem {α β ε : Type} {f : α → Except ε β} {g : α → β} {xs : List α}
    (answers : ∀ x ∈ xs, f x = .ok (g x)) : xs.mapM f = .ok (xs.map g) := by
  induction xs with
  | nil => rfl
  | cons x rest ih =>
    rw [List.mapM_cons, answers x List.mem_cons_self, ih fun x' later => answers x' (List.mem_cons_of_mem _ later)]
    rfl

/-- A function that never fails lists its results. -/
theorem exists_mapM_ok {α β ε : Type} {f : α → Except ε β} (total : ∀ x, ∃ y, f x = .ok y) (xs : List α) :
    ∃ ys, xs.mapM f = .ok ys ∧ ∀ y, y ∈ ys ↔ ∃ x ∈ xs, f x = .ok y := by
  obtain ⟨g, answers⟩ := Classical.axiomOfChoice total
  exact ⟨xs.map g, mapM_ok answers, by simp [answers]⟩

/-- Behind a list of results stands what each element gave. -/
theorem forall₂_of_mapM_ok {α β ε : Type} {f : α → Except ε β} {xs : List α} {ys : List β}
    (mapped : xs.mapM f = .ok ys) : List.Forall₂ (fun x y => f x = .ok y) xs ys := by
  induction xs generalizing ys with
  | nil =>
    obtain rfl := Except.ok.inj mapped
    exact .nil
  | cons x rest ih =>
    rw [List.mapM_cons] at mapped
    cases first : f x with
    | error e =>
      rw [first] at mapped
      cases mapped
    | ok y =>
      cases others : rest.mapM f with
      | error e =>
        rw [first, others] at mapped
        cases mapped
      | ok later =>
        rw [first, others] at mapped
        obtain rfl := Except.ok.inj mapped
        exact .cons first (ih others)

theorem forall₂_of_mapM_some {α β : Type} {f : α → Option β} {xs : List α} {ys : List β} (mapped : xs.mapM f = some ys) :
    List.Forall₂ (fun x y => f x = some y) xs ys := by
  induction xs generalizing ys with
  | nil =>
    obtain rfl := Option.some.inj mapped
    exact .nil
  | cons x rest ih =>
    rw [List.mapM_cons] at mapped
    obtain ⟨y, first, mapped⟩ := Option.bind_eq_some_iff.1 mapped
    obtain ⟨later, others, ended⟩ := Option.bind_eq_some_iff.1 mapped
    obtain rfl := Option.some.inj ended
    exact .cons first (ih others)

/-- Of two lists that are related element by element, what is in the second has a counterpart in the first. -/
theorem exists_of_forall₂_right {α β : Type} {R : α → β → Prop} {xs : List α} {ys : List β}
    (related : List.Forall₂ R xs ys) {y : β} (member : y ∈ ys) : ∃ x ∈ xs, R x y := by
  induction related with
  | nil => exact absurd member List.not_mem_nil
  | cons head tail ih =>
    rcases List.mem_cons.1 member with rfl | later
    · exact ⟨_, List.mem_cons_self, head⟩
    · obtain ⟨x, listed, holds⟩ := ih later
      exact ⟨x, List.mem_cons_of_mem _ listed, holds⟩

/-- Lists that are related by one relation are related by another that it implies for their elements. -/
theorem forall₂_imp_of_mem {α β : Type} {R S : α → β → Prop} {xs : List α} {ys : List β}
    (related : List.Forall₂ R xs ys) (implied : ∀ x ∈ xs, ∀ y ∈ ys, R x y → S x y) : List.Forall₂ S xs ys := by
  induction related with
  | nil => exact .nil
  | cons head tail ih =>
    refine .cons (implied _ List.mem_cons_self _ List.mem_cons_self head) (ih ?_)
    intro x listed y listed'
    exact implied x (List.mem_cons_of_mem _ listed) y (List.mem_cons_of_mem _ listed')

theorem map_eq_map_iff_forall₂ {α β γ : Type} {f : α → γ} {g : β → γ} {xs : List α} {ys : List β} :
    xs.map f = ys.map g ↔ List.Forall₂ (fun x y => f x = g y) xs ys := by
  rw [← List.forall₂_map_right_iff, ← List.forall₂_map_left_iff (R := fun z w => z = w), List.forall₂_eq_eq_eq]

/-- What becomes of one list is what becomes of another in some order, if that can be put into an order in which
    the same becomes of its elements one by one. -/
theorem map_perm_map_iff {α β γ : Type} {f : α → γ} {g : β → γ} {xs : List α} {ys : List β} :
    (xs.map f).Perm (ys.map g) ↔ ∃ zs, zs.Perm ys ∧ List.Forall₂ (fun x z => f x = g z) xs zs := by
  constructor
  · intro perm
    have own : List.Forall₂ (fun z y => z = g y) (ys.map g) ys :=
      List.forall₂_map_left_iff.2 (List.forall₂_same.2 fun _ _ => rfl)
    obtain ⟨zs, alike, perm'⟩ := List.perm_comp_forall₂ perm own
    exact ⟨zs, perm', List.forall₂_map_left_iff.1 alike⟩
  · rintro ⟨zs, perm, alike⟩
    rw [map_eq_map_iff_forall₂.2 alike]
    exact perm.map g

/-- Options that are related by one relation are related by another that it implies for what they hold. -/
theorem optionRel_imp {α β : Type} {R S : α → β → Prop} {x : Option α} {y : Option β} (related : Option.Rel R x y)
    (implied : ∀ v w, x = some v → y = some w → R v w → S v w) : Option.Rel S x y := by
  cases related with
  | some holds => exact .some (implied _ _ rfl rfl holds)
  | none => exact .none

theorem exists_ok_of_isOk {α ε : Type} {x : Except ε α} (succeeds : x.isOk = true) : ∃ y, x = .ok y := by
  cases x with
  | error e => cases succeeds
  | ok y => exact ⟨y, rfl⟩

/-- A result that is got through another has it behind it. -/
theorem exists_ok_of_map {α β ε : Type} {x : Except ε α} {g : α → β} {y : β} (got : x.map g = .ok y) :
    ∃ v, x = .ok v ∧ y = g v := by
  cases x with
  | error e => cases got
  | ok v => exact ⟨v, rfl, (Except.ok.inj got).symm⟩

theorem exists_ok_of_map_mapError {α β ε δ : Type} {x : Except ε α} {f : ε → δ} {g : α → β} {y : β}
    (got : (x.mapError f).map g = .ok y) : ∃ v, x = .ok v ∧ y = g v := by
  cases x with
  | error e => cases got
  | ok v => exact ⟨v, rfl, (Except.ok.inj got).symm⟩

theorem error_of_map {α β ε : Type} {x : Except ε α} {g : α → β} {e : ε} (failed : x.map g = .error e) :
    x = .error e := by
  cases x with
  | error e' => exact congrArg Except.error (Except.error.inj failed)
  | ok v => cases failed

theorem exists_error_of_map_mapError {α β ε δ : Type} {x : Except ε α} {f : ε → δ} {g : α → β} {e : δ}
    (failed : (x.mapError f).map g = .error e) : ∃ e', e = f e' := by
  cases x with
  | error e' => exact ⟨e', (Except.error.inj failed).symm⟩
  | ok v => cases failed

/-- What is taken out of a wrapping is there exactly when it is listed wrapped. -/
theorem mem_filterMap_unwrap {α β : Type} {unwrap : α → Option β} {wrap : β → α}
    (inverse : ∀ x y, unwrap x = some y ↔ x = wrap y) {xs : List α} {y : β} :
    y ∈ xs.filterMap unwrap ↔ wrap y ∈ xs := by
  simp [List.mem_filterMap, inverse]

/-- What is found by keys has these keys, in their order. -/
theorem map_filterMap_sublist {α κ : Type} {find : κ → Option α} {key : α → κ}
    (own : ∀ k x, find k = some x → key x = k) (keys : List κ) :
    ((keys.filterMap find).map key).Sublist keys := by
  induction keys with
  | nil => exact List.Sublist.slnil
  | cons k rest ih =>
    cases search : find k with
    | none => simpa [search] using ih.cons k
    | some x => simpa [search, own k x search] using ih.cons_cons k

/-- Of what is made for the elements of a list, a test that tells the keys apart leaves what is made for one. -/
theorem filter_filterMap_of_nodup {α β κ : Type} {make : α → Option β} {key : α → κ} {test : β → Bool} {xs : List α}
    (distinct : (xs.map key).Nodup) {x : α} (member : x ∈ xs)
    (tells : ∀ other y, make other = some y → (test y = true ↔ key other = key x)) :
    (xs.filterMap make).filter test = (make x).toList := by
  induction xs with
  | nil => exact absurd member List.not_mem_nil
  | cons first rest ih =>
    rw [List.map_cons, List.nodup_cons] at distinct
    rcases List.mem_cons.1 member with rfl | later
    · have others : (rest.filterMap make).filter test = [] := by
        rw [List.filter_eq_nil_iff]
        intro y made passes
        obtain ⟨other, listed, made⟩ := List.mem_filterMap.1 made
        exact distinct.1 (List.mem_map.2 ⟨other, listed, (tells other y made).1 passes⟩)
      cases made : make x with
      | none => simp [made, others]
      | some y => simp [made, others, (tells x y made).2 rfl]
    · have different : key first ≠ key x := fun same => distinct.1 (same ▸ List.mem_map_of_mem later)
      cases made : make first with
      | none => simpa [made] using ih distinct.2 later
      | some y =>
        have fails : test y = false := Bool.eq_false_iff.2 fun passes => different ((tells first y made).1 passes)
        simpa [made, fails] using ih distinct.2 later

/-- A text is cut in one way at the first character that ends words, whatever follows. -/
theorem word_append_inj {α : Type} (ends : α → Bool) {s t x y : List α} (word : ∀ c ∈ s, ends c = false)
    (word' : ∀ c ∈ t, ends c = false) (stops : ∀ c ∈ x.head?, ends c = true) (stops' : ∀ c ∈ y.head?, ends c = true)
    (same : s ++ x = t ++ y) : s = t ∧ x = y := by
  induction s generalizing t with
  | nil =>
    cases t with
    | nil => exact ⟨rfl, same⟩
    | cons d others =>
      obtain rfl : x = d :: (others ++ y) := same
      exact absurd (stops d rfl) (by simp [word' d List.mem_cons_self])
  | cons c rest ih =>
    cases t with
    | nil =>
      obtain rfl : c :: (rest ++ x) = y := same
      exact absurd (stops' c rfl) (by simp [word c List.mem_cons_self])
    | cons d others =>
      obtain ⟨rfl, later⟩ := List.cons.inj same
      obtain ⟨rfl, rfl⟩ := ih (fun e inside => word e (List.mem_cons_of_mem _ inside))
        (fun e inside => word' e (List.mem_cons_of_mem _ inside)) later
      exact ⟨rfl, rfl⟩

/-- The first separator cuts a text in one way. -/
theorem first_separator_inj {α : Type} [DecidableEq α] {separator : α} {s t x y : List α} (first : separator ∉ s)
    (first' : separator ∉ t) (same : s ++ separator :: x = t ++ separator :: y) : s = t ∧ x = y := by
  have word {u : List α} (absent : separator ∉ u) (c) (member : c ∈ u) : (c == separator) = false := by
    simpa using fun equal : c = separator => absent (equal ▸ member)
  obtain ⟨before, rest⟩ := word_append_inj (· == separator) (word first) (word first') (by simp) (by simp) same
  exact ⟨before, (List.cons.inj rest).2⟩

/-- The last separator cuts a text in one way. -/
theorem last_separator_inj {α : Type} {x : α} {before before' after after' : List α} (last : x ∉ after)
    (last' : x ∉ after') (same : before ++ x :: after = before' ++ x :: after') : before = before' ∧ after = after' := by
  rcases List.append_eq_append_iff.1 same with ⟨between, rfl, rest⟩ | ⟨between, rfl, rest⟩
  · cases between with
    | nil => exact ⟨by simp, (List.cons.inj rest).2⟩
    | cons y between =>
      have inside : x ∈ after := by simp [(List.cons.inj rest).2]
      exact absurd inside last
  · cases between with
    | nil => exact ⟨by simp, (List.cons.inj rest).2.symm⟩
    | cons y between =>
      have inside : x ∈ after' := by simp [(List.cons.inj rest).2]
      exact absurd inside last'

/-- Among elements with distinct keys, one alone has its key. -/
theorem filter_key_eq_singleton {α κ : Type} [BEq κ] [LawfulBEq κ] {key : α → κ} {xs : List α}
    (distinct : (xs.map key).Nodup) {x : α} (listed : x ∈ xs) : xs.filter (fun y => key y == key x) = [x] := by
  induction xs with
  | nil => cases listed
  | cons first rest ih =>
    obtain ⟨fresh, distinct⟩ := List.nodup_cons.1 distinct
    rcases List.mem_cons.1 listed with rfl | later
    · have others : ∀ y ∈ rest, ¬ (key y == key x) = true := fun y later same =>
        fresh (List.mem_map.2 ⟨y, later, beq_iff_eq.1 same⟩)
      rw [List.filter_cons_of_pos (by simp), List.filter_eq_nil_iff.2 others]
    · have other : key first ≠ key x := fun same => fresh (List.mem_map.2 ⟨x, later, same.symm⟩)
      rw [List.filter_cons_of_neg (by simpa using other)]
      exact ih distinct later

/-- Nothing is dropped from a list whose first element does not have the property. -/
theorem dropWhile_eq_self {α : Type} {p : α → Bool} {s : List α} (head : s.head?.any p = false) : s.dropWhile p = s := by
  cases s with
  | nil => rfl
  | cons c rest => exact List.dropWhile_cons_of_neg (by simpa using head)

end AnnotationWeaver
