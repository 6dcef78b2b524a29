import AnnotationWeaver.Literal.Compiler
import Mathlib.Data.List.Forall2

/-!
Compilations side by side. Two compilations run in parallel when from states that match they end in the same
way: both fail with the same error, or both succeed with results that are related, given what the second has
written by then. The first keeps an invariant, and the second never takes back what it has written, so
a relation that more written classes cannot break carries over from one part of a compilation to the next.
-/
namespace AnnotationWeaver.Compilation

theorem run_bind {α β : Type} (first : Compilation α) (next : α → Compilation β) (s : LiteralState) :
    (first >>= next).run s =
      match first.run s with
      | (.ok x, s') => (next x).run s'
      | (.error e, s') => (.error e, s') := by
  show ExceptT.bindCont next (first.run s).1 (first.run s).2 = _
  rcases first.run s with ⟨_ | x, s'⟩
  · rfl
  · rfl

/-- How two compilations end. -/
inductive Outcome {α β : Type} (I : LiteralState → Prop) (R : List LiteralClass → α → β → Prop)
    (base : List LiteralClass) :
    Except LiteralError α × LiteralState → Except LiteralError β × LiteralState → Prop
  | failure {e : LiteralError} {s t : LiteralState} (invariant : I s) (kept : base ⊆ t.written) :
    Outcome I R base (.error e, s) (.error e, t)
  | success {x : α} {y : β} {s t : LiteralState} (invariant : I s) (kept : base ⊆ t.written)
    (related : R t.written x y) : Outcome I R base (.ok x, s) (.ok y, t)

theorem Outcome.grow {α β : Type} {I : LiteralState → Prop} {R : List LiteralClass → α → β → Prop}
    {base more : List LiteralClass} {left : Except LiteralError α × LiteralState}
    {right : Except LiteralError β × LiteralState} (ends : Outcome I R more left right) (wider : base ⊆ more) :
    Outcome I R base left right := by
  cases ends with
  | failure invariant kept => exact .failure invariant (List.Subset.trans wider kept)
  | success invariant kept related => exact .success invariant (List.Subset.trans wider kept) related

/-- From states that match, the second having written at least the classes of `base`, both end in the same way. -/
def Parallel {α β : Type} (I : LiteralState → Prop) (base : List LiteralClass)
    (R : List LiteralClass → α → β → Prop) (first : Compilation α) (second : Compilation β) : Prop :=
  ∀ s t, I s → base ⊆ t.written → Outcome I R t.written (first.run s) (second.run t)

/-- What is related stays related when more is written. -/
def Lasting {α β : Type} (R : List LiteralClass → α → β → Prop) : Prop :=
  ∀ (written more : List LiteralClass) (x : α) (y : β), written ⊆ more → R written x y → R more x y

namespace Parallel

variable {α β γ δ : Type} {I : LiteralState → Prop} {base : List LiteralClass}
  {R S : List LiteralClass → α → β → Prop}

theorem widen {more : List LiteralClass} (wider : base ⊆ more) {first : Compilation α} {second : Compilation β}
    (parallel : Parallel I base R first second) : Parallel I more R first second :=
  fun s t invariant kept => parallel s t invariant (List.Subset.trans wider kept)

theorem weaken {first : Compilation α} {second : Compilation β} (parallel : Parallel I base R first second)
    (implied : ∀ written x y, R written x y → S written x y) : Parallel I base S first second := by
  intro s t invariant kept
  have ends := parallel s t invariant kept
  revert ends
  generalize first.run s = left
  generalize second.run t = right
  rintro (⟨invariant', kept'⟩ | ⟨invariant', kept', related⟩)
  · exact .failure invariant' kept'
  · exact .success invariant' kept' (implied _ _ _ related)

theorem pure {x : α} {y : β} (related : ∀ written, base ⊆ written → R written x y) :
    Parallel I base R (pure x) (pure y) :=
  fun _ _ invariant kept => .success invariant (fun _ member => member) (related _ kept)

theorem throw (e : LiteralError) : Parallel I base R (throw e) (throw e) :=
  fun _ _ invariant _ => .failure invariant fun _ member => member

/-- Both change their states, the second without taking back what it has written. -/
theorem modify_both {f g : LiteralState → LiteralState} (keeps : ∀ s, I s → I (f s))
    (grows : ∀ t, t.written ⊆ (g t).written) :
    Parallel I base (fun _ _ _ => True) (modify f) (modify g) :=
  fun s t invariant _ => .success (keeps s invariant) (grows t) trivial

/-- The first is done while the second still writes. -/
theorem pure_modify {g : LiteralState → LiteralState} {x : α} {y : β} (grows : ∀ t, t.written ⊆ (g t).written)
    (related : ∀ t, base ⊆ t.written → R (g t).written x y) :
    Parallel I base R (Pure.pure x) (do modify g; Pure.pure y) :=
  fun _ t invariant kept => .success invariant (grows t) (related t kept)

/-- One after the other: the second parts run from wherever the first ones end. -/
theorem bind {S : List LiteralClass → γ → δ → Prop} {first : Compilation α} {second : Compilation β}
    {next : α → Compilation γ} {next' : β → Compilation δ} (parallel : Parallel I base R first second)
    (later : ∀ written x y, base ⊆ written → R written x y → Parallel I written S (next x) (next' y)) :
    Parallel I base S (first >>= next) (second >>= next') := by
  intro s t invariant kept
  have ends := parallel s t invariant kept
  rw [run_bind, run_bind]
  revert ends
  generalize first.run s = left
  generalize second.run t = right
  rintro (⟨invariant', kept'⟩ | ⟨invariant', kept', related⟩)
  · exact .failure invariant' kept'
  · exact (later _ _ _ (List.Subset.trans kept kept') related _ _ invariant' fun _ member => member).grow kept'

/-- Over the same list, the results correspond one by one, and there is one for each element. -/
theorem mapM (lasting : Lasting R) {ι : Type} {f : ι → Compilation α} {g : ι → Compilation β} (xs : List ι)
    (each : ∀ x ∈ xs, Parallel I base R (f x) (g x)) :
    Parallel I base (fun written ys zs => List.Forall₂ (R written) ys zs ∧ zs.length = xs.length)
      (xs.mapM f) (xs.mapM g) := by
  induction xs generalizing base with
  | nil =>
    rw [List.mapM_nil, List.mapM_nil]
    exact pure fun _ _ => ⟨.nil, rfl⟩
  | cons x rest ih =>
    rw [List.mapM_cons, List.mapM_cons]
    refine (each x List.mem_cons_self).bind fun written y z wider head => ?_
    have others : ∀ x' ∈ rest, Parallel I written R (f x') (g x') :=
      fun x' member => (each x' (List.mem_cons_of_mem _ member)).widen wider
    refine (ih others).bind fun more ys zs wider' tail => ?_
    refine pure fun most widest => ⟨.cons (lasting _ _ _ _ (List.Subset.trans wider' widest) head) ?_, ?_⟩
    · exact tail.1.imp fun _ _ related => lasting _ _ _ _ widest related
    · rw [List.length_cons, List.length_cons, tail.2]

end Parallel

end AnnotationWeaver.Compilation
