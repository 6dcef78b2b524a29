import AnnotationWeaver.Annotation.Basic
import AnnotationWeaver.Assoc
import Mathlib.Data.List.Forall2

/-!
The order of members. The members of an annotation are a finite map from names to values. Where each is set
once, as in every annotation that is made by setting members, a member is found by its name in whatever order
they stand. Members that are the same as others pair off with them: the others can be put into an order in which
each has the name of its partner and a value that is the same.
-/
namespace AnnotationWeaver

namespace Member

/-- Two members that pair off: they have the same name, and values that are the same. -/
def Pairs (m n : Member) : Prop := m.name = n.name ∧ m.value.same n.value = true

theorem same_iff_pairs {m n : Member} : m.same n = true ↔ m.Pairs n := by
  cases m with
  | mk name value => simp [same, Pairs]

/-- Members that are the same as others are the others in some order, each with its partner. -/
theorem exists_pairing {ms ns : List Member} (same : sameAll ms ns = true) :
    ∃ paired, paired.Perm ns ∧ List.Forall₂ Pairs ms paired := by
  induction ms generalizing ns with
  | nil =>
    obtain rfl : ns = [] := by simpa [sameAll] using same
    exact ⟨[], .refl _, .nil⟩
  | cons m rest ih =>
    rw [sameAll, Bool.and_eq_true, List.any_eq_true] at same
    obtain ⟨⟨candidate, listed, matching⟩, others⟩ := same
    -- The partner is the first member that is the same as `m`; the rest pairs off with what is left without it.
    obtain ⟨n, before, after, -, partner, rfl, erased⟩ := List.exists_of_eraseP listed matching
    rw [erased] at others
    obtain ⟨paired, perm, pairs⟩ := ih others
    exact ⟨n :: paired, (perm.cons n).trans List.perm_middle.symm, .cons (same_iff_pairs.1 partner) pairs⟩

theorem names_of_pairs {ms ns : List Member} (pairs : List.Forall₂ Pairs ms ns) :
    ms.map (·.name) = ns.map (·.name) := by
  induction pairs with
  | nil => rfl
  | cons pair _ ih => rw [List.map_cons, List.map_cons, pair.1, ih]

/-- Members that are the same have the same names, in some order. -/
theorem names_perm_of_sameAll {ms ns : List Member} (same : sameAll ms ns = true) :
    (ms.map (·.name)).Perm (ns.map (·.name)) := by
  obtain ⟨paired, perm, pairs⟩ := exists_pairing same
  rw [names_of_pairs pairs]
  exact perm.map _

/-! ### Members as a finite map -/

/-- The member as an entry of a finite map. -/
def entry (m : Member) : String × Value := (m.name, m.value)

theorem keys_entries (ms : List Member) : (ms.map entry).map (·.1) = ms.map (·.name) := by
  simp [entry, Function.comp_def]

theorem lookup?_eq_find? (ms : List Member) (name : String) :
    lookup? ms name = Assoc.find? name (ms.map entry) := by
  simp [lookup?, Assoc.find?, entry, List.find?_map, Function.comp_def]

theorem entries_set (name : String) (value : Value) (ms : List Member) :
    (set name value ms).map entry = Assoc.set name value (ms.map entry) := by
  induction ms with
  | nil => rfl
  | cons m rest ih =>
    by_cases found : m.name = name
    · simp [set, Assoc.set, entry, found]
    · simpa [set, Assoc.set, entry, found] using ih

theorem nodup_names_set {name : String} {value : Value} {ms : List Member} (distinct : (ms.map (·.name)).Nodup) :
    ((set name value ms).map (·.name)).Nodup := by
  rw [← keys_entries] at distinct ⊢
  rw [entries_set]
  exact Assoc.nodup_keys_set distinct

theorem lookup?_cons (name : String) (m : Member) (rest : List Member) :
    lookup? (m :: rest) name = if m.name = name then some m.value else lookup? rest name := by
  rw [lookup?_eq_find?, lookup?_eq_find?]
  exact Assoc.find?_cons name m.entry (rest.map entry)

theorem lookup?_isSome_iff {ms : List Member} {name : String} :
    (lookup? ms name).isSome ↔ name ∈ ms.map (·.name) := by
  rw [lookup?_eq_find?, Assoc.find?_isSome_iff, keys_entries]

/-- Where each member is set once, it is found by its name. -/
theorem lookup?_of_mem {ms : List Member} (distinct : (ms.map (·.name)).Nodup) {m : Member} (member : m ∈ ms) :
    lookup? ms m.name = some m.value := by
  rw [← keys_entries] at distinct
  rw [lookup?_eq_find?]
  exact Assoc.find?_of_mem distinct (List.mem_map.2 ⟨m, member, rfl⟩)

/-! ### Finding members in another order -/

/-- The order of members does not matter for finding them. -/
theorem lookup?_perm {ms ns : List Member} (perm : ms.Perm ns) (distinct : (ms.map (·.name)).Nodup) (name : String) :
    lookup? ms name = lookup? ns name := by
  by_cases named : name ∈ ms.map (·.name)
  · obtain ⟨m, member, rfl⟩ := List.mem_map.1 named
    have distinct' : (ns.map (·.name)).Nodup := (perm.map _).nodup_iff.1 distinct
    rw [lookup?_of_mem distinct member, lookup?_of_mem distinct' (perm.mem_iff.1 member)]
  · have unnamed : name ∉ ns.map (·.name) := fun other => named ((perm.map _).mem_iff.2 other)
    rw [← lookup?_isSome_iff] at named unnamed
    rw [Option.not_isSome_iff_eq_none.1 named, Option.not_isSome_iff_eq_none.1 unnamed]

theorem lookup?_of_pairs {ms ns : List Member} (pairs : List.Forall₂ Pairs ms ns) {name : String} {v : Value}
    (found : lookup? ms name = some v) : ∃ w, lookup? ns name = some w ∧ v.same w = true := by
  induction pairs with
  | nil => simp [lookup?] at found
  | cons pair _ ih =>
    rw [lookup?_cons] at found ⊢
    rw [← pair.1]
    split at found
    · next named =>
      obtain rfl := Option.some.inj found
      exact ⟨_, if_pos named, pair.2⟩
    · next other =>
      rw [if_neg other]
      exact ih found

/-- Members that are the same as others set the same values under the same names. -/
theorem exists_lookup?_of_sameAll {ms ns : List Member} (same : sameAll ms ns = true)
    (distinct : (ms.map (·.name)).Nodup) {name : String} {v : Value} (found : lookup? ms name = some v) :
    ∃ w, lookup? ns name = some w ∧ v.same w = true := by
  obtain ⟨paired, perm, pairs⟩ := exists_pairing same
  have distinct' : (paired.map (·.name)).Nodup := names_of_pairs pairs ▸ distinct
  obtain ⟨w, found', equal⟩ := lookup?_of_pairs pairs found
  exact ⟨w, (lookup?_perm perm distinct' name).symm.trans found', equal⟩

end Member

namespace Annotation

/-- No member is set twice. -/
def SetsOnce (a : Annotation) : Prop := (a.members.map (·.name)).Nodup

instance (a : Annotation) : Decidable a.SetsOnce := inferInstanceAs (Decidable (List.Nodup _))

theorem setsOnce_marker (type : TypeName) : (marker type).SetsOnce := List.nodup_nil

theorem SetsOnce.set {a : Annotation} (once : a.SetsOnce) (name : String) (value : Value) :
    (a.set name value).SetsOnce := Member.nodup_names_set once

/-- An annotation that is made by setting members sets each of them once. -/
theorem setsOnce_ofList (type : TypeName) (members : List (String × Value)) : (ofList type members).SetsOnce := by
  have once := setsOnce_marker type
  rw [ofList]
  revert once
  generalize marker type = a
  intro once
  induction members generalizing a with
  | nil => exact once
  | cons first rest ih => exact ih _ (once.set first.1 first.2)

theorem same_iff {a b : Annotation} :
    (a == b) = true ↔ a.type = b.type ∧ Member.sameAll a.members b.members = true := by
  cases a with
  | mk type members =>
    show Annotation.same ⟨type, members⟩ b = true ↔ _
    simp [same]

end Annotation

end AnnotationWeaver
