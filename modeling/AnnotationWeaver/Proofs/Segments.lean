import AnnotationWeaver.TypeName
import Mathlib.Data.List.Basic

/-!
Segments of names. A dot ends a segment, so what stands before a dot and what stands behind it are cut apart from each
other, and a text without dots is one segment. Hence a name that is put together with a dot is valid exactly if its two
parts are, and what is added at the end of a name changes neither whether it is valid nor which packages it is in, as
long as no dot is added.
-/
namespace AnnotationWeaver

theorem splitDots_ne_nil (s : List Char) : splitDots s ≠ [] := by
  cases s with
  | nil => exact List.cons_ne_nil _ _
  | cons c rest =>
    rw [splitDots]
    split
    · exact List.cons_ne_nil _ _
    · split <;> exact List.cons_ne_nil _ _

/-- A dot cuts what stands before it from what stands behind it. -/
theorem splitDots_append_dot (s t : List Char) : splitDots (s ++ '.' :: t) = splitDots s ++ splitDots t := by
  induction s with
  | nil => simp [splitDots]
  | cons c rest ih =>
    rw [List.cons_append, splitDots, splitDots, ih]
    by_cases dot : c = '.'
    · rw [if_pos dot, if_pos dot, List.cons_append]
    · rw [if_neg dot, if_neg dot]
      cases pieces : splitDots rest with
      | nil => exact absurd pieces (splitDots_ne_nil rest)
      | cons first others => rfl

theorem splitDots_of_notMem {s : List Char} (dotless : '.' ∉ s) : splitDots s = [s] := by
  induction s with
  | nil => rfl
  | cons c rest ih =>
    rw [List.mem_cons, not_or] at dotless
    rw [splitDots, if_neg (Ne.symm dotless.1), ih dotless.2]

theorem dot_notMem_of_mem_splitDots {s piece : List Char} (member : piece ∈ splitDots s) : '.' ∉ piece := by
  induction s generalizing piece with
  | nil =>
    rw [splitDots, List.mem_singleton] at member
    simp [member]
  | cons c rest ih =>
    by_cases dot : c = '.'
    · rw [splitDots, if_pos dot] at member
      rcases List.mem_cons.1 member with rfl | later
      · exact List.not_mem_nil
      · exact ih later
    · rw [splitDots, if_neg dot] at member
      cases pieces : splitDots rest with
      | nil =>
        simp only [pieces, List.mem_singleton] at member
        simp [member, Ne.symm dot]
      | cons first others =>
        have head := ih (pieces ▸ List.mem_cons_self : first ∈ splitDots rest)
        simp only [pieces] at member
        rcases List.mem_cons.1 member with rfl | later
        · simp [head, Ne.symm dot]
        · exact ih (pieces ▸ List.mem_cons_of_mem _ later)

/-- A text has no dot, or it has a last one. -/
theorem dotless_or_exists_last_dot (s : List Char) : '.' ∉ s ∨ ∃ before after, s = before ++ '.' :: after ∧ '.' ∉ after := by
  by_cases dot : '.' ∈ s
  · obtain ⟨after, before, reversed, fresh⟩ := List.eq_append_cons_of_mem (List.mem_reverse.2 dot)
    refine .inr ⟨before.reverse, after.reverse, ?_, fun inside => fresh (List.mem_reverse.1 inside)⟩
    rw [← List.reverse_reverse s, reversed]
    simp
  · exact .inl dot

theorem startsWithPackage_iff {package text : String} :
    startsWithPackage package text = true ↔ ∃ rest, text.toList = package.toList ++ '.' :: rest := by
  rw [startsWithPackage, List.isPrefixOf_iff_prefix]
  constructor
  · rintro ⟨rest, whole⟩
    exact ⟨rest, by simp [← whole]⟩
  · rintro ⟨rest, whole⟩
    exact ⟨rest, by simp [whole]⟩

/-- Without a dot in it, what is added at the end does not matter. -/
theorem startsWithPackage_append {package s t : String} (dotless : '.' ∉ t.toList) :
    startsWithPackage package (s ++ t) = startsWithPackage package s := by
  rw [Bool.eq_iff_iff, startsWithPackage_iff, startsWithPackage_iff, String.toList_append]
  constructor
  · rintro ⟨rest, whole⟩
    rcases List.append_eq_append_iff.1 whole with ⟨between, -, behind⟩ | ⟨between, before, behind⟩
    · exact absurd (by simp [behind]) dotless
    · cases between with
      | nil => exact absurd (by simp [← show '.' :: rest = t.toList from behind]) dotless
      | cons c between =>
        obtain ⟨rfl, -⟩ := List.cons.inj behind
        exact ⟨between, before⟩
  · rintro ⟨rest, whole⟩
    exact ⟨rest ++ t.toList, by simp [whole]⟩

/-- What stands right in a package is in the packages that this one is, or is inside. -/
theorem startsWithPackage_dotted {package home simple : String} (dotless : '.' ∉ simple.toList) :
    startsWithPackage package (home ++ "." ++ simple) = (home == package || startsWithPackage package home) := by
  rw [startsWithPackage_append dotless, Bool.eq_iff_iff, Bool.or_eq_true, beq_iff_eq, startsWithPackage_iff,
    startsWithPackage_iff, String.toList_append]
  constructor
  · rintro ⟨rest, whole⟩
    rcases List.eq_nil_or_concat' rest with rfl | ⟨inside, last, rfl⟩
    · exact .inl (String.toList_inj.1 (List.append_cancel_right whole))
    · rw [← List.cons_append, ← List.append_assoc] at whole
      exact .inr ⟨inside, (List.append_inj' whole rfl).1⟩
  · rintro (rfl | ⟨rest, whole⟩)
    · exact ⟨[], rfl⟩
    · exact ⟨rest ++ ['.'], by simp [whole]⟩

namespace TypeName

/-- The simple name is one of the segments. -/
theorem simple_mem (n : TypeName) : n.simple.toList ∈ splitDots n.chars := by
  rw [simple, String.toList_ofList]
  cases pieces : splitDots n.chars with
  | nil => exact absurd pieces (splitDots_ne_nil _)
  | cons first others =>
    rw [List.getLastD_cons]
    exact List.getLastD_mem_cons

theorem dot_notMem_simple (n : TypeName) : '.' ∉ n.simple.toList := dot_notMem_of_mem_splitDots n.simple_mem

theorem isValid_dotted (package simple : String) :
    (⟨package ++ "." ++ simple⟩ : TypeName).isValid =
      ((⟨package⟩ : TypeName).isValid && (⟨simple⟩ : TypeName).isValid) := by
  have whole : (⟨package ++ "." ++ simple⟩ : TypeName).chars = package.toList ++ '.' :: simple.toList := by simp [chars]
  rw [isValid, whole, splitDots_append_dot, List.all_append]
  rfl

/-- A name of one segment is valid unless it is empty. -/
theorem isValid_of_notMem {text : String} (dotless : '.' ∉ text.toList) : (⟨text⟩ : TypeName).isValid = true ↔ text ≠ "" := by
  rw [isValid, show (⟨text⟩ : TypeName).chars = text.toList from rfl, splitDots_of_notMem dotless]
  simp

/-- A valid name stays valid when something without dots is added at its end. -/
theorem isValid_append {text more : String} (valid : (⟨text⟩ : TypeName).isValid = true) (dotless : '.' ∉ more.toList) :
    (⟨text ++ more⟩ : TypeName).isValid = true := by
  rcases dotless_or_exists_last_dot text.toList with alone | ⟨before, after, whole, last⟩
  · have filled := (isValid_of_notMem alone).1 valid
    exact (isValid_of_notMem (by simp [alone, dotless])).2 (by simp [filled])
  · have split : text = String.ofList before ++ "." ++ String.ofList after := by
      rw [← String.toList_inj, whole]
      simp
    rw [split, isValid_dotted, Bool.and_eq_true] at valid
    rw [split, String.append_assoc, isValid_dotted, Bool.and_eq_true]
    have single : '.' ∉ (String.ofList after).toList := by simpa using last
    have filled := (isValid_of_notMem single).1 valid.2
    exact ⟨valid.1, (isValid_of_notMem (by simp [last, dotless])).2 (by simp [filled])⟩

end TypeName

end AnnotationWeaver
