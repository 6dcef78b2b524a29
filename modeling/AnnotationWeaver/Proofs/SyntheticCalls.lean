import AnnotationWeaver.Extension.Synthetic
import Mathlib.Data.List.Nodup

/-!
Calls that register and refine synthetic components. Beans are numbered records, and so are observers: a call adds a record
at the end or refines the one at a place, which is what a handle stands for. However calls on several handles follow each
other, a record is what it was at first, refined by the later calls on its own place in their order, and calls on observers
do not matter to beans, nor the other way round.
-/
namespace AnnotationWeaver

/-! ### Numbered records -/

/-- A call on numbered records: one more is added, or the one at a place is refined. -/
inductive RecordCall (ι ρ : Type) where
  | add (x : ι)
  | refine (place : Nat) (r : ρ)

namespace RecordCall

variable {ι ρ : Type}

def added? : RecordCall ι ρ → Option ι
  | .add x => some x
  | .refine _ _ => none

/-- What the record at a place is refined with. -/
def refinement? (place : Nat) : RecordCall ι ρ → Option ρ
  | .add _ => none
  | .refine other r => if other = place then some r else none

/-- What records are added for, in order. -/
def added (calls : List (RecordCall ι ρ)) : List ι := calls.filterMap (·.added?)

def refinements (place : Nat) (calls : List (RecordCall ι ρ)) : List ρ := calls.filterMap (·.refinement? place)

end RecordCall

/-- How records begin at their places, and what a refinement makes of one. -/
structure Recording (α ι ρ : Type) where
  initial : Nat → ι → α
  refine : α → ρ → α

namespace Recording

variable {α ι ρ : Type} {k : Recording α ι ρ} {calls : List (RecordCall ι ρ)} {xs : List α}

def take (k : Recording α ι ρ) (xs : List α) : RecordCall ι ρ → List α
  | .add x => xs ++ [k.initial xs.length x]
  | .refine place r => xs.modify place (k.refine · r)

/-- There is a record for each call that adds one, in order: what it is at its place at first, refined by the later
    calls on that place. -/
structure Tells (k : Recording α ι ρ) (calls : List (RecordCall ι ρ)) (xs : List α) : Prop where
  length : xs.length = (RecordCall.added calls).length
  each : ∀ before x later place, calls = before ++ .add x :: later → place = (RecordCall.added before).length →
    xs[place]? = some ((RecordCall.refinements place later).foldl k.refine (k.initial place x))

/-- One more call. Only a record that is added now has no later calls, and a refinement is one of its own record alone. -/
theorem Tells.take (tells : k.Tells calls xs) (c : RecordCall ι ρ) : k.Tells (calls ++ [c]) (k.take xs c) := by
  have earlier {before later : List (RecordCall ι ρ)} {x : ι} (split : calls ++ [c] = before ++ .add x :: later)
      (some : later ≠ []) : ∃ rest, calls = before ++ .add x :: rest ∧ later = rest ++ [c] := by
    obtain ⟨rest, last, rfl⟩ := List.eq_nil_or_concat' later |>.resolve_left some
    have regrouped : before ++ .add x :: (rest ++ [last]) = (before ++ .add x :: rest) ++ [last] := by simp
    rw [regrouped] at split
    obtain ⟨same, ends⟩ := List.append_inj' split rfl
    exact ⟨rest, same, by rw [ends]⟩
  have kept {before rest : List (RecordCall ι ρ)} {x : ι} (split : calls = before ++ .add x :: rest) :
      (RecordCall.added before).length < xs.length := by
    rw [tells.length, split, RecordCall.added, RecordCall.added, List.filterMap_append, List.length_append]
    simp [RecordCall.added?]
  cases c with
  | add y =>
    refine ⟨by simp [Recording.take, tells.length, RecordCall.added, RecordCall.added?], ?_⟩
    rintro before x later place split rfl
    by_cases last : later = []
    · subst last
      obtain ⟨rfl, ends⟩ := List.append_inj' split rfl
      cases ends
      rw [Recording.take, ← tells.length, List.getElem?_concat_length]
      rfl
    · obtain ⟨rest, cut, rfl⟩ := earlier split last
      rw [Recording.take, List.getElem?_append_left (kept cut), tells.each before x rest _ cut rfl,
        RecordCall.refinements, RecordCall.refinements, List.filterMap_append]
      simp [RecordCall.refinement?]
  | refine other r =>
    refine ⟨by simp [Recording.take, tells.length, RecordCall.added, RecordCall.added?], ?_⟩
    rintro before x later place split rfl
    have some : later ≠ [] := by
      rintro rfl
      cases (List.append_inj' split rfl).2
    obtain ⟨rest, cut, rfl⟩ := earlier split some
    rw [Recording.take, List.getElem?_modify, tells.each before x rest _ cut rfl, RecordCall.refinements,
      RecordCall.refinements, List.filterMap_append, List.foldl_append]
    by_cases own : other = (RecordCall.added before).length
    · simp [own, RecordCall.refinement?]
    · simp [own, RecordCall.refinement?]

theorem Tells.foldl (tells : k.Tells calls xs) (more : List (RecordCall ι ρ)) :
    k.Tells (calls ++ more) (more.foldl k.take xs) := by
  induction more generalizing calls xs with
  | nil => rwa [List.append_nil]
  | cons c rest ih =>
    rw [List.append_cons]
    exact ih (tells.take c)

/-- A key that refinements leave alone is kept by a record that is refined. -/
theorem map_modify_of_same {β : Type} {key : α → β} (same : ∀ a r, key (k.refine a r) = key a) (xs : List α) (place : Nat)
    (r : ρ) : (xs.modify place (k.refine · r)).map key = xs.map key := by
  refine List.ext_getElem? fun i => ?_
  rw [List.getElem?_map, List.getElem?_map, List.getElem?_modify]
  by_cases own : place = i
  · cases xs[i]? <;> simp [own, same]
  · simp [own]

/-- A key that a record has by what it is added for is in the order of these calls. -/
theorem map_foldl_take {β : Type} {key : α → β} {label : ι → β} (first : ∀ place x, key (k.initial place x) = label x)
    (same : ∀ a r, key (k.refine a r) = key a) (calls : List (RecordCall ι ρ)) (xs : List α) :
    (calls.foldl k.take xs).map key = xs.map key ++ (RecordCall.added calls).map label := by
  induction calls generalizing xs with
  | nil => exact (List.append_nil _).symm
  | cons c rest ih =>
    rw [List.foldl_cons, ih]
    cases c with
    | add x => simp [Recording.take, first, RecordCall.added, RecordCall.added?]
    | refine place r => simp [Recording.take, map_modify_of_same same, RecordCall.added, RecordCall.added?]

/-- The key of each record is the one that belongs to its place. -/
def Numbers {β : Type} (key : α → β) (label : Nat → β) (xs : List α) : Prop :=
  xs.map key = (List.range xs.length).map label

/-- A key that a record has by its place at first, and that no refinement changes. -/
theorem Numbers.take {β : Type} {key : α → β} {label : Nat → β} (numbers : Numbers key label xs)
    (first : ∀ place x, key (k.initial place x) = label place) (same : ∀ a r, key (k.refine a r) = key a)
    (c : RecordCall ι ρ) : Numbers key label (k.take xs c) := by
  rw [Numbers] at numbers ⊢
  cases c with
  | add x => simp [Recording.take, numbers, first, List.range_succ]
  | refine place r => rw [Recording.take, map_modify_of_same same, numbers, List.length_modify]

theorem Numbers.foldl {β : Type} {key : α → β} {label : Nat → β} (numbers : Numbers key label xs)
    (first : ∀ place x, key (k.initial place x) = label place) (same : ∀ a r, key (k.refine a r) = key a)
    (calls : List (RecordCall ι ρ)) : Numbers key label (calls.foldl k.take xs) :=
  List.foldlRecOn calls k.take numbers fun _ held c _ => held.take first same c

theorem Numbers.nodup {β : Type} {key : α → β} {label : Nat → β} (numbers : Numbers key label xs)
    (apart : Function.Injective label) : (xs.map key).Nodup := by
  rw [numbers]
  exact List.nodup_range.map apart

end Recording

namespace SyntheticBean

/-- Beans are registered by an extension for an implementation. -/
def recording : Recording SyntheticBean (TypeName × TypeName) BeanRefinement :=
  ⟨fun place x => initial place x.1 x.2, refine⟩

end SyntheticBean

namespace SyntheticObserver

/-- Observers are registered by an extension for what they observe. -/
def recording : Recording SyntheticObserver (TypeName × Ty) ObserverRefinement :=
  ⟨fun place x => initial place x.1 x.2, refine⟩

end SyntheticObserver

/-- A call on synthetic components of either sort. -/
inductive SyntheticCall where
  | bean (c : RecordCall (TypeName × TypeName) BeanRefinement)
  | observer (c : RecordCall (TypeName × Ty) ObserverRefinement)

namespace SyntheticCall

def bean? : SyntheticCall → Option (RecordCall (TypeName × TypeName) BeanRefinement)
  | .bean c => some c
  | .observer _ => none

def observer? : SyntheticCall → Option (RecordCall (TypeName × Ty) ObserverRefinement)
  | .bean _ => none
  | .observer c => some c

/-- The call registers a component. -/
def registers : SyntheticCall → Bool
  | .bean (.add _) => true
  | .observer (.add _) => true
  | _ => false

end SyntheticCall

namespace Synthetic

def take (s : Synthetic) : SyntheticCall → Synthetic
  | .bean (.add x) => s.addBean x.1 x.2
  | .bean (.refine place r) => s.refineBean place r
  | .observer (.add x) => s.addObserver x.1 x.2
  | .observer (.refine place r) => s.refineObserver place r

/-- The components after calls. -/
def after (s : Synthetic) (calls : List SyntheticCall) : Synthetic := calls.foldl take s

theorem after_append (s : Synthetic) (calls more : List SyntheticCall) :
    s.after (calls ++ more) = (s.after calls).after more := List.foldl_append

/-- The beans are what the calls on beans make of them, whatever is called on observers in between. -/
theorem beans_after (s : Synthetic) (calls : List SyntheticCall) :
    (s.after calls).beans = (calls.filterMap (·.bean?)).foldl SyntheticBean.recording.take s.beans := by
  induction calls generalizing s with
  | nil => rfl
  | cons c rest ih =>
    rw [after, List.foldl_cons, ← after, ih]
    rcases c with (x | ⟨place, r⟩) | (x | ⟨place, r⟩) <;> rfl

theorem observers_after (s : Synthetic) (calls : List SyntheticCall) :
    (s.after calls).observers = (calls.filterMap (·.observer?)).foldl SyntheticObserver.recording.take s.observers := by
  induction calls generalizing s with
  | nil => rfl
  | cons c rest ih =>
    rw [after, List.foldl_cons, ← after, ih]
    rcases c with (x | ⟨place, r⟩) | (x | ⟨place, r⟩) <;> rfl

/-- Beans keep the extensions and implementations that they were registered with. -/
theorem registrations_of_beans_after (calls : List SyntheticCall) :
    (empty.after calls).beans.map (fun x => (x.extension, x.implementation)) =
      RecordCall.added (calls.filterMap (·.bean?)) := by
  have kept : ((calls.filterMap (·.bean?)).foldl SyntheticBean.recording.take []).map
      (fun x => (x.extension, x.implementation)) = (RecordCall.added (calls.filterMap (·.bean?))).map id :=
    Recording.map_foldl_take (fun _ _ => rfl) (fun _ r => by cases r <;> rfl) _ []
  rw [List.map_id] at kept
  rw [beans_after]
  exact kept

/-- Observers keep what they observe. -/
theorem observed_of_observers_after (calls : List SyntheticCall) :
    (empty.after calls).observers.map (·.observed) = (RecordCall.added (calls.filterMap (·.observer?))).map (·.2) := by
  rw [observers_after]
  exact Recording.map_foldl_take (fun _ _ => rfl) (fun _ r => by cases r <;> rfl) _ []

/-- There are no components exactly if none was registered. -/
theorem isEmpty_after_iff (calls : List SyntheticCall) :
    (empty.after calls).isEmpty = true ↔ ∀ c ∈ calls, c.registers = false := by
  have beans := congrArg List.length (registrations_of_beans_after calls)
  have observers := congrArg List.length (observed_of_observers_after calls)
  rw [List.length_map] at beans
  rw [List.length_map, List.length_map] at observers
  rw [isEmpty, Bool.and_eq_true, List.isEmpty_iff_length_eq_zero, List.isEmpty_iff_length_eq_zero, beans, observers,
    List.length_eq_zero_iff, List.length_eq_zero_iff, RecordCall.added, RecordCall.added, List.filterMap_filterMap,
    List.filterMap_filterMap, List.filterMap_eq_nil_iff, List.filterMap_eq_nil_iff, ← forall₂_and]
  refine forall₂_congr fun c _ => ?_
  rcases c with (_ | _) | (_ | _) <;>
    simp [SyntheticCall.bean?, SyntheticCall.observer?, RecordCall.added?, SyntheticCall.registers]

end Synthetic

end AnnotationWeaver
