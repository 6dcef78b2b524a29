import AnnotationWeaver.Proofs.CompilerRuns
import Mathlib.Data.List.Perm.Subperm
import Mathlib.Logic.Relation

/-!
The annotations that values hold, at every depth, and the pool of those that compiling an annotation may come to: the
ones that it holds itself, and the ones that the defaults of the corpus hold. Whatever an annotation asks for is in
the pool, so no more steps can be taken inward than there are annotations in the pool, unless one of them is
come to again.
-/
namespace AnnotationWeaver

mutual

/-- The annotations in a value, outer ones first. -/
def Value.held (v : Value) : List Annotation :=
  match v with
  | .nested a => a :: a.held
  | .array _ elements => Value.allHeld elements
  | _ => []
termination_by structural v

def Value.allHeld (vs : List Value) : List Annotation :=
  match vs with
  | [] => []
  | v :: rest => v.held ++ Value.allHeld rest
termination_by structural vs

/-- The annotations in the members of an annotation. -/
def Annotation.held (a : Annotation) : List Annotation :=
  match a with
  | ⟨_, members⟩ => Member.allHeld members
termination_by structural a

def Member.allHeld (ms : List Member) : List Annotation :=
  match ms with
  | [] => []
  | m :: rest => m.held ++ Member.allHeld rest
termination_by structural ms

def Member.held (m : Member) : List Annotation :=
  match m with
  | ⟨_, value⟩ => value.held
termination_by structural m

end

mutual

theorem Value.length_held (v : Value) : v.held.length = v.nestedCount := by
  cases v with
  | nested a => rw [Value.held, Value.nestedCount, List.length_cons, Annotation.length_held a]
  | array kind elements => rw [Value.held, Value.nestedCount, Value.length_allHeld elements]
  | _ => rfl
termination_by structural v

theorem Value.length_allHeld (vs : List Value) : (Value.allHeld vs).length = Value.nestedCounts vs := by
  cases vs with
  | nil => rfl
  | cons v rest =>
    rw [Value.allHeld, Value.nestedCounts, List.length_append, Value.length_held v, Value.length_allHeld rest]
termination_by structural vs

theorem Annotation.length_held (a : Annotation) : a.held.length = a.nestedCount := by
  cases a with
  | mk type members =>
    unfold Annotation.held Annotation.nestedCount
    exact Member.length_allHeld members
termination_by structural a

theorem Member.length_allHeld (ms : List Member) : (Member.allHeld ms).length = Member.nestedCounts ms := by
  cases ms with
  | nil => rfl
  | cons m rest =>
    rw [Member.allHeld, Member.nestedCounts, List.length_append, Member.length_held m, Member.length_allHeld rest]
termination_by structural ms

theorem Member.length_held (m : Member) : m.held.length = m.nestedCount := by
  cases m with
  | mk name value => rw [Member.held, Member.nestedCount, Value.length_held value]
termination_by structural m

end

mutual

/-- What is held inside is held with all that it holds itself. -/
theorem Value.held_sublist {v : Value} {a : Annotation} (member : a ∈ v.held) : (a :: a.held).Sublist v.held := by
  cases v with
  | nested b =>
    rw [Value.held] at member ⊢
    rcases List.mem_cons.1 member with rfl | inside
    · exact List.Sublist.refl _
    · exact List.Sublist.cons b <| Annotation.held_sublist inside
  | array kind elements =>
    rw [Value.held] at member ⊢
    exact Value.allHeld_sublist member
  | _ => exact absurd member List.not_mem_nil
termination_by structural v

theorem Value.allHeld_sublist {vs : List Value} {a : Annotation} (member : a ∈ Value.allHeld vs) :
    (a :: a.held).Sublist (Value.allHeld vs) := by
  cases vs with
  | nil => exact absurd member List.not_mem_nil
  | cons v rest =>
    rw [Value.allHeld] at member ⊢
    rcases List.mem_append.1 member with first | later
    · exact List.sublist_append_of_sublist_left (Value.held_sublist first)
    · exact List.sublist_append_of_sublist_right (Value.allHeld_sublist later)
termination_by structural vs

theorem Annotation.held_sublist {b : Annotation} {a : Annotation} (member : a ∈ b.held) :
    (a :: a.held).Sublist b.held := by
  cases b with
  | mk type members =>
    unfold Annotation.held at member
    exact Member.allHeld_sublist member
termination_by structural b

theorem Member.allHeld_sublist {ms : List Member} {a : Annotation} (member : a ∈ Member.allHeld ms) :
    (a :: a.held).Sublist (Member.allHeld ms) := by
  cases ms with
  | nil => exact absurd member List.not_mem_nil
  | cons m rest =>
    rw [Member.allHeld] at member ⊢
    rcases List.mem_append.1 member with first | later
    · exact List.sublist_append_of_sublist_left (Member.held_sublist first)
    · exact List.sublist_append_of_sublist_right (Member.allHeld_sublist later)
termination_by structural ms

theorem Member.held_sublist {m : Member} {a : Annotation} (member : a ∈ m.held) : (a :: a.held).Sublist m.held := by
  cases m with
  | mk name value =>
    rw [Member.held] at member ⊢
    exact Value.held_sublist member
termination_by structural m

end

theorem Value.held_subset_allHeld {v : Value} {vs : List Value} (member : v ∈ vs) : v.held ⊆ Value.allHeld vs := by
  induction vs with
  | nil => exact absurd member List.not_mem_nil
  | cons w rest ih =>
    rw [Value.allHeld]
    rcases List.mem_cons.1 member with rfl | later
    · exact List.subset_append_left _ _
    · exact List.subset_append_of_subset_right _ (ih later)

theorem Member.held_subset_allHeld {m : Member} {ms : List Member} (member : m ∈ ms) :
    m.held ⊆ Member.allHeld ms := by
  induction ms with
  | nil => exact absurd member List.not_mem_nil
  | cons n rest ih =>
    rw [Member.allHeld]
    rcases List.mem_cons.1 member with rfl | later
    · exact List.subset_append_left _ _
    · exact List.subset_append_of_subset_right _ (ih later)

/-- The value of a member holds nothing that the annotation does not hold. -/
theorem Annotation.held_of_value? {a : Annotation} {member : String} {v : Value} (found : a.value? member = some v) :
    v.held ⊆ a.held := by
  obtain ⟨m, listed, rfl⟩ := Option.map_eq_some_iff.1 found
  cases a with
  | mk type members =>
    cases m with
    | mk name value => exact Member.held_subset_allHeld (List.mem_of_find?_eq_some listed)

/-- The annotation of whose construction a value is built is held by it. -/
theorem MethodDecl.Builds.mem_held {m : MethodDecl} {v : Value} {a : Annotation} (builds : m.Builds v a) :
    a ∈ v.held := by
  have own : a ∈ (Value.nested a).held := List.mem_cons_self
  cases builds with
  | alone => exact own
  | element _ member _ => exact Value.held_subset_allHeld member own

/-! ### What an annotation comes to -/

namespace Corpus

variable (c : Corpus)

/-- Compiling the first annotation asks for the second. -/
def Asks (a inner : Annotation) : Prop := ∃ d, c.class? a.type = some d ∧ d.Asks a inner

/-- The annotations that the defaults of the corpus hold. -/
def heldByDefaults : List Annotation := Value.allHeld (c.classes.flatMap LiteralSettings.defaults)

/-- All that compiling an annotation may come to. -/
def pool (a : Annotation) : List Annotation := a.held ++ c.heldByDefaults

/-- The depth that is allowed to an annotation is greater than its pool. -/
theorem length_pool_lt_depthBound (c : LiteralSettings) (s : LiteralState) (d : ClassDecl) (a : Annotation) :
    (c.corpus.pool a).length < c.depthBound s d a := by
  rw [pool, heldByDefaults, List.length_append, a.length_held, Value.length_allHeld, LiteralSettings.depthBound]
  omega

variable {c} {a b inner : Annotation}

/-- An annotation asks for one that it holds, or for one that a default of its type holds. -/
theorem Asks.mem_held (asks : c.Asks a inner) :
    inner ∈ a.held ∨ ∃ d ∈ c.classes, d.name = a.type ∧ ∃ m ∈ d.regularMethods, ∃ v, m.default? = some v ∧
      inner ∈ v.held := by
  obtain ⟨d, declared, m, member, v, value, -, builds⟩ := asks
  obtain ⟨listed, named⟩ := Corpus.class?_eq_some_iff.1 declared
  unfold Annotation.effectiveValue? at value
  cases explicit : a.value? m.name with
  | some w =>
    rw [explicit] at value
    obtain rfl := Option.some.inj value
    exact .inl <| Annotation.held_of_value? explicit builds.mem_held
  | none =>
    rw [explicit] at value
    exact .inr ⟨d, listed, named, m, member, v, value, builds.mem_held⟩

theorem mem_heldByDefaults {d : ClassDecl} (listed : d ∈ c.classes) {m : MethodDecl} (member : m ∈ d.regularMethods)
    {v : Value} (default : m.default? = some v) (held : inner ∈ v.held) : inner ∈ c.heldByDefaults := by
  refine Value.held_subset_allHeld ?_ held
  have declared : m ∈ d.methods := (List.mem_filter.1 member).1
  exact List.mem_flatMap.2 ⟨d, listed, List.mem_filterMap.2 ⟨m, declared, default⟩⟩

theorem mem_pool_of_asks (asks : c.Asks a inner) : inner ∈ c.pool a := by
  rcases asks.mem_held with held | ⟨d, listed, -, m, member, v, default, held⟩
  · exact List.mem_append_left _ held
  · exact List.mem_append_right _ (mem_heldByDefaults listed member default held)

/-- The pool of what is in a pool is no larger. -/
theorem pool_subset (member : b ∈ c.pool a) : c.pool b ⊆ c.pool a := by
  have held : b.held ⊆ c.pool a := by
    rcases List.mem_append.1 member with own | other
    · have inside := Annotation.held_sublist own
      exact fun x listed => List.mem_append_left _ (inside.subset (List.mem_cons_of_mem _ listed))
    · have inside := (Value.allHeld_sublist other).subset
      exact fun x listed => List.mem_append_right _ (inside (List.mem_cons_of_mem _ listed))
  exact List.append_subset.2 ⟨held, List.subset_append_right _ _⟩

theorem mem_pool (asks : Relation.TransGen c.Asks a inner) : inner ∈ c.pool a := by
  induction asks with
  | single asks => exact mem_pool_of_asks asks
  | tail _ asks ih => exact pool_subset ih (mem_pool_of_asks asks)

/-! ### Paths inward -/

/-- A property that holds for annotations with numbers is handed on from one to another that it asks for, with the next
    smaller number. -/
structure Hands (c : Corpus) (Q : Nat → Annotation → Prop) (p q : Nat × Annotation) : Prop where
  asks : c.Asks p.2 q.2
  next : p.1 = q.1 + 1
  holds : Q q.1 q.2

variable {Q : Nat → Annotation → Prop} {p q : Nat × Annotation}

theorem asks_of_hands (path : Relation.TransGen (c.Hands Q) p q) : Relation.TransGen c.Asks p.2 q.2 :=
  path.lift Prod.snd fun _ _ hands => hands.asks

theorem lt_and_holds_of_hands (path : Relation.TransGen (c.Hands Q) p q) : q.1 < p.1 ∧ Q q.1 q.2 := by
  induction path with
  | single hands => exact ⟨by have := hands.next; omega, hands.holds⟩
  | tail _ hands ih => exact ⟨by have := hands.next; omega, hands.holds⟩

/-- A property that is always handed on is handed on as often as its number says. -/
theorem exists_path (hands : ∀ n b, Q (n + 1) b → ∃ inner, c.Asks b inner ∧ Q n inner) {n : Nat} {a : Annotation}
    (start : Q n a) : ∃ path : List (Nat × Annotation), path.length = n ∧
      (∀ p ∈ path, Relation.TransGen (c.Hands Q) (n, a) p) ∧ path.Pairwise (Relation.TransGen (c.Hands Q)) := by
  induction n generalizing a with
  | zero => exact ⟨[], rfl, by simp, .nil⟩
  | succ n ih =>
    obtain ⟨inner, asks, holds⟩ := hands n a start
    obtain ⟨path, length, reached, pairwise⟩ := ih holds
    have step : c.Hands Q (n + 1, a) (n, inner) := ⟨asks, rfl, holds⟩
    refine ⟨(n, inner) :: path, by rw [List.length_cons, length], fun p member => ?_, .cons reached pairwise⟩
    rcases List.mem_cons.1 member with rfl | later
    · exact .single step
    · exact .head step (reached p later)

/-- If what it is handed to differs at every step, it cannot be handed on more often than the pool is long. -/
theorem le_length_pool (hands : ∀ n b, Q (n + 1) b → ∃ inner, c.Asks b inner ∧ Q n inner) {n : Nat} {a : Annotation}
    (start : Q n a)
    (differ : ∀ p q, Relation.TransGen (c.Hands Q) (n, a) p → Relation.TransGen (c.Hands Q) p q → p.2 ≠ q.2) :
    n ≤ (c.pool a).length := by
  obtain ⟨path, rfl, reached, pairwise⟩ := exists_path hands start
  have distinct : (path.map Prod.snd).Nodup := by
    rw [List.nodup_iff_pairwise_ne, List.pairwise_map]
    exact pairwise.imp_of_mem fun listed _ further => differ _ _ (reached _ listed) further
  have inside : path.map Prod.snd ⊆ c.pool a := by
    intro b member
    obtain ⟨p, listed, rfl⟩ := List.mem_map.1 member
    exact mem_pool (asks_of_hands (reached p listed))
  have length := (List.subperm_of_subset distinct inside).length_le
  rwa [List.length_map] at length

end Corpus

end AnnotationWeaver
