import AnnotationWeaver.AnnotationSet

/-!
Predicates on annotations. A predicate may change its mind from one question to the next, so it is
given by its answer to each question it is asked; one that never does is a plain test. `remove` asks
about every annotation of a set once, in order, and drops those that the predicate holds of.
-/
namespace AnnotationWeaver

/-- The answer to each question, counted from zero. -/
structure Predicate where
  answer : Nat → Annotation → Bool

namespace Predicate

/-- A predicate whose answer is always that of a test. -/
def ofTest (test : Annotation → Bool) : Predicate := ⟨fun _ a => test a⟩

/-- Holds of every annotation. -/
def all : Predicate := ofTest fun _ => true

/-- Holds of whatever is asked about in the first `n` questions. -/
def firstCalls (n : Nat) : Predicate := ⟨fun k _ => decide (k < n)⟩

/-- The opposite answer to every question. -/
def not (p : Predicate) : Predicate := ⟨fun k a => !p.answer k a⟩

/-- The annotations that the predicate does not hold of, the first being asked about in the given
    question. -/
def spared (p : Predicate) : (question : Nat) → List Annotation → List Annotation
  | _, [] => []
  | k, a :: rest => if p.answer k a then p.spared (k + 1) rest else a :: p.spared (k + 1) rest

theorem spared_sublist (p : Predicate) (k : Nat) (s : List Annotation) : (p.spared k s).Sublist s := by
  induction s generalizing k with
  | nil => exact List.Sublist.refl _
  | cons a rest ih =>
    unfold spared
    split
    · exact (ih _).cons _
    · exact (ih _).cons_cons _

/-- A plain test spares what it fails on, whatever the question. -/
theorem spared_ofTest (test : Annotation → Bool) (k : Nat) (s : List Annotation) :
    (ofTest test).spared k s = s.filter fun a => !test a := by
  induction s generalizing k with
  | nil => rfl
  | cons a rest ih =>
    rw [spared, ih, List.filter_cons]
    cases h : test a <;> simp [ofTest, h]

end Predicate

/-- The set without the annotations that the predicate holds of; every one is asked about once. -/
def AnnotationSet.remove (s : AnnotationSet) (p : Predicate) (question : Nat) : AnnotationSet :=
  ⟨p.spared question s.entries, s.distinct.sublist ((p.spared_sublist question s.entries).map _)⟩

end AnnotationWeaver
