import AnnotationWeaver.Proofs.Ancestry
import Mathlib.Data.List.Perm.Subperm

/-!
Chains of superclasses. Whatever the hierarchy is like, the chain of a class lists classes of the corpus, each the superclass
that the one before declares, without coming back to any of them or to the class itself; and it is as long as it can
be. Above a class that is entered from outside a cycle the chain goes once around the cycle. So a class stands on the
chain of every name from which superclasses lead up to it, which are the names that the search downwards finds.
-/
namespace AnnotationWeaver

open Relation (TransGen)

namespace Corpus

variable {c : Corpus}

/-- The superclass that a class of the corpus declares; an absent class declares none. -/
def superclass? (c : Corpus) (name : TypeName) : Option TypeName := (c.class? name).bind (·.superclass)

/-- The classes are a chain upwards from a name that is as long as it can be without repeating a name. -/
structure IsChainOf (c : Corpus) (name : TypeName) (chain : List ClassDecl) : Prop where
  declared : ∀ d ∈ chain, d ∈ c.classes
  /-- No class is listed twice, and the one that the chain starts from is not listed. -/
  distinct : (name :: chain.map (·.name)).Nodup
  /-- Each name is the superclass of the one before, the first one of the name that the chain starts from. -/
  linked : List.IsChain (fun lower upper => c.superclass? lower = some upper) (name :: chain.map (·.name))
  /-- If the last class has a superclass, this one is absent or was passed. -/
  ended : ∀ above, c.superclass? ((name :: chain.map (·.name)).getLast (List.cons_ne_nil _ _)) = some above →
    c.class? above = none ∨ above ∈ name :: chain.map (·.name)

/-! ### Climbing -/

namespace Climbs

variable {passed : List TypeName} {from? : Option TypeName} {chain : List ClassDecl}

theorem declared (climbs : c.Climbs passed from? chain) : ∀ d ∈ chain, d ∈ c.classes := by
  induction climbs with
  | up fresh found climbs ih => exact List.forall_mem_cons.2 ⟨(class?_eq_some_iff.1 found).1, ih⟩
  | _ => exact fun _ member => absurd member List.not_mem_nil

/-- The names that are climbed to are distinct, and none was passed before. -/
theorem distinct (climbs : c.Climbs passed from? chain) :
    (chain.map (·.name)).Nodup ∧ ∀ d ∈ chain, d.name ∉ passed := by
  induction climbs with
  | @up passed name d above fresh found climbs ih =>
    obtain rfl := (class?_eq_some_iff.1 found).2
    obtain ⟨distinct, unpassed⟩ := ih
    rw [List.map_cons, List.nodup_cons, List.forall_mem_cons]
    refine ⟨⟨?_, distinct⟩, fresh, fun e member => fun before => unpassed e member (List.mem_cons_of_mem _ before)⟩
    intro again
    obtain ⟨e, member, same⟩ := List.mem_map.1 again
    exact unpassed e member (same ▸ List.mem_cons_self)
  | _ => exact ⟨List.nodup_nil, fun _ member => absurd member List.not_mem_nil⟩

theorem linked (climbs : c.Climbs passed from? chain) {name : TypeName} (start : c.superclass? name = from?) :
    List.IsChain (fun lower upper => c.superclass? lower = some upper) (name :: chain.map (·.name)) := by
  induction climbs generalizing name with
  | @up passed upper d above fresh found climbs ih =>
    obtain rfl := (class?_eq_some_iff.1 found).2
    have next : c.superclass? d.name = d.superclass := by rw [superclass?, found, Option.bind_some]
    exact .cons_cons start (ih next)
  | _ => exact .singleton name

/-- Where the climb ends there is no superclass, or it is absent or was passed. -/
theorem ended (climbs : c.Climbs passed from? chain) {name : TypeName} (start : c.superclass? name = from?)
    {above : TypeName} (further : c.superclass? ((name :: chain.map (·.name)).getLast (List.cons_ne_nil _ _)) = some above) :
    c.class? above = none ∨ above ∈ passed ∨ above ∈ chain.map (·.name) := by
  induction climbs generalizing name with
  | top =>
    rw [List.map_nil, List.getLast_singleton, start] at further
    cases further
  | absent absent =>
    rw [List.map_nil, List.getLast_singleton, start] at further
    cases further
    exact .inl absent
  | back back =>
    rw [List.map_nil, List.getLast_singleton, start] at further
    cases further
    exact .inr (.inl back)
  | @up passed upper d higher fresh found climbs ih =>
    obtain rfl := (class?_eq_some_iff.1 found).2
    have next : c.superclass? d.name = d.superclass := by rw [superclass?, found, Option.bind_some]
    rw [List.map_cons, List.getLast_cons (List.cons_ne_nil _ _)] at further
    rcases ih next further with absent | before | later
    · exact .inl absent
    · rcases List.mem_cons.1 before with rfl | before
      · exact .inr (.inr List.mem_cons_self)
      · exact .inr (.inl before)
    · exact .inr (.inr (List.mem_cons_of_mem _ later))

/-- A class of the corpus that stands right above what is climbed from or to was passed or is climbed to. -/
theorem closed (climbs : c.Climbs passed from? chain) {upper : ClassDecl} (found : c.class? upper.name = some upper)
    (below : from? = some upper.name ∨ ∃ d ∈ chain, d.superclass = some upper.name) :
    upper.name ∈ passed ∨ upper ∈ chain := by
  induction climbs with
  | top => rcases below with ⟨⟨⟩⟩ | ⟨d, member, -⟩; cases member
  | absent absent =>
    rcases below with start | ⟨d, member, -⟩
    · cases start
      rw [absent] at found
      cases found
    · cases member
  | back back =>
    rcases below with start | ⟨d, member, -⟩
    · cases start
      exact .inl back
    · cases member
  | @up passed name d higher fresh declared climbs ih =>
    have inside (next : d.superclass = some upper.name ∨ ∃ e ∈ higher, e.superclass = some upper.name) :
        upper.name ∈ passed ∨ upper ∈ d :: higher := by
      rcases ih next with before | later
      · rcases List.mem_cons.1 before with same | before
        · rw [same, declared] at found
          exact .inr (by simp [Option.some.inj found])
        · exact .inl before
      · exact .inr (List.mem_cons_of_mem _ later)
    rcases below with start | ⟨e, member, extension⟩
    · cases start
      rw [declared] at found
      exact .inr (by simp [Option.some.inj found])
    · rcases List.mem_cons.1 member with rfl | later
      · exact inside (.inl extension)
      · exact inside (.inr ⟨e, later, extension⟩)

end Climbs

theorem isChainOf_superclassChain (c : Corpus) (name : TypeName) : c.IsChainOf name (c.superclassChain name) := by
  have climbs := c.climbs_superclassChain name
  obtain ⟨distinct, unpassed⟩ := climbs.distinct
  refine ⟨climbs.declared, List.nodup_cons.2 ⟨?_, distinct⟩, climbs.linked rfl, fun above further => ?_⟩
  · intro again
    obtain ⟨d, member, same⟩ := List.mem_map.1 again
    exact unpassed d member (List.mem_singleton.2 same)
  · rw [List.mem_cons, ← List.mem_singleton (b := name)]
    exact climbs.ended rfl further

/-- A chain is no longer than the corpus. -/
theorem IsChainOf.length_le {name : TypeName} {chain : List ClassDecl} (isChain : c.IsChainOf name chain) :
    chain.length ≤ c.classes.length := by
  have distinct : chain.Nodup := (List.nodup_cons.1 isChain.distinct).2.of_map
  exact (List.subperm_of_subset distinct isChain.declared).length_le

/-! ### Up and down -/

/-- A class of the corpus declares the other name as its superclass. -/
def IsDirectSubclass (c : Corpus) (sub super : TypeName) : Prop := ∃ d ∈ c.classes, d.name = sub ∧ d.superclass = some super

theorem mem_directSubclasses {name sub : TypeName} : sub ∈ c.directSubclasses name ↔ c.IsDirectSubclass sub name := by
  simp only [directSubclasses_eq, IsDirectSubclass, List.mem_map, List.mem_filter, beq_iff_eq]
  exact exists_congr fun d => by rw [and_assoc, and_comm (a := d.superclass = some name)]

/-- The subclasses that are found are the names from which superclasses lead up. -/
theorem mem_allSubclasses {name sub : TypeName} :
    sub ∈ c.allSubclasses name ↔ sub ≠ name ∧ TransGen c.IsDirectSubclass sub name := by
  have mentioned (x y : TypeName) (edge : y ∈ c.directSubclasses x) : y ∈ c.mentioned := by
    obtain ⟨d, member, rfl, -⟩ := mem_directSubclasses.1 edge
    exact List.mem_eraseDups.2 (List.mem_append_left _ (List.mem_map_of_mem member))
  have swapped : (fun a b => b ∈ c.directSubclasses a) = Function.swap c.IsDirectSubclass := by
    funext a b
    exact propext mem_directSubclasses
  rw [allSubclasses, mem_reached mentioned, swapped, Relation.transGen_swap]

/-- Superclasses lead from a name only to names of its chain, as far as the corpus goes, and back to the name. -/
theorem mem_superclassChain_of_transGen {name : TypeName} {upper : ClassDecl} (found : c.class? upper.name = some upper)
    (path : TransGen c.IsDirectSubclass name upper.name) : upper.name = name ∨ upper ∈ c.superclassChain name := by
  have climbs := c.climbs_superclassChain name
  have onward {d e : ClassDecl} (member : d ∈ c.classes) (before : d.name = name ∨ d ∈ c.superclassChain name)
      (found : c.class? e.name = some e) (extension : d.superclass = some e.name) :
      e.name = name ∨ e ∈ c.superclassChain name := by
    rw [← List.mem_singleton]
    refine climbs.closed found (before.imp (fun start => ?_) fun chained => ⟨d, chained, extension⟩)
    rw [class?_eq_some_iff.2 ⟨member, start⟩, Option.bind_some, extension]
  -- Every name that is left on the path is that of a class, so the chain cannot end before the path does.
  have arrives {super : TypeName} (path : TransGen c.IsDirectSubclass name super) :
      ∀ e, c.class? e.name = some e → e.name = super → e.name = name ∨ e ∈ c.superclassChain name := by
    induction path with
    | single edge =>
      rintro e found rfl
      obtain ⟨d, member, start, extension⟩ := edge
      exact onward member (.inl start) found extension
    | tail _ edge ih =>
      rintro e found rfl
      obtain ⟨d, member, rfl, extension⟩ := edge
      exact onward member (ih d (class?_eq_some_iff.2 ⟨member, rfl⟩) rfl) found extension
  exact arrives path upper found rfl

/-- A class is on the chain of the names below it. -/
theorem mem_superclassChain_iff {name : TypeName} {upper : ClassDecl} :
    upper ∈ c.superclassChain name ↔ upper ∈ c.classes ∧ name ∈ c.allSubclasses upper.name := by
  constructor
  · intro chained
    exact ⟨(c.isChainOf_superclassChain name).declared upper chained, mem_allSubclasses_of_mem_superclassChain chained⟩
  · rintro ⟨member, below⟩
    obtain ⟨other, path⟩ := mem_allSubclasses.1 below
    exact (mem_superclassChain_of_transGen (class?_eq_some_iff.2 ⟨member, rfl⟩) path).resolve_left (Ne.symm other)

end Corpus

/-- Chains of superclasses are finite, exact and inverse to subclasses, also where classes extend themselves, go around in
    circles or have superclasses that are absent: the chain of a name climbs as far as it can without repeating a name,
    over no more classes than there are, and a class is on it exactly if the search downwards from that class finds
    the name. -/
theorem superclass_chains_are_exact_and_inverse (c : Corpus) :
    (∀ name, c.IsChainOf name (c.superclassChain name) ∧ (c.superclassChain name).length ≤ c.classes.length) ∧
      ∀ (upper : ClassDecl) (name : TypeName),
        upper ∈ c.superclassChain name ↔ upper ∈ c.classes ∧ name ∈ c.allSubclasses upper.name :=
  ⟨fun name => ⟨c.isChainOf_superclassChain name, (c.isChainOf_superclassChain name).length_le⟩,
    fun _ _ => Corpus.mem_superclassChain_iff⟩

end AnnotationWeaver
