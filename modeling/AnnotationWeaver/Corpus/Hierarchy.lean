import AnnotationWeaver.Corpus.Basic

/-!
The class hierarchy. `explore` lists what a relation reaches from a start, nearest first and each
name once, never the start itself; it ends because a name leaves the `available` ones when it is
found. Supertypes and subtypes are explored along the same edges in opposite directions. The chain of
superclasses stops before a name repeats and before a class that is not in the corpus.
-/
namespace AnnotationWeaver

/-- The available names among those that come next, each once. -/
def freshNames (next available : List TypeName) : List TypeName :=
  next.eraseDups.filter fun n => decide (n ∈ available)

/-- The available names that are not among the found ones. -/
def unfound (found available : List TypeName) : List TypeName :=
  available.filter fun n => decide (n ∉ found)

theorem length_unfound_lt {next available : List TypeName} (h : freshNames next available ≠ []) :
    (unfound (freshNames next available) available).length < available.length := by
  obtain ⟨n, hn⟩ := List.exists_mem_of_ne_nil _ h
  have member : n ∈ available := by
    have := (List.mem_filter.1 hn).2
    simpa using this
  exact List.length_filter_lt_length_iff_exists.2 ⟨n, member, by simpa using hn⟩

/-- Breadth-first search: what is found now waits behind what was found before. -/
def explore (next : TypeName → List TypeName) (available pending : List TypeName) : List TypeName :=
  match pending with
  | [] => []
  | current :: rest =>
    if _h : freshNames (next current) available = [] then explore next available rest
    else
      freshNames (next current) available
        ++ explore next (unfound (freshNames (next current) available) available)
          (rest ++ freshNames (next current) available)
termination_by (available.length, pending.length)
decreasing_by
  · exact Prod.Lex.right _ (Nat.lt_succ_self _)
  · exact Prod.Lex.left _ _ (length_unfound_lt _h)

/-- The superclass and the interfaces of a class. -/
def ClassDecl.supertypes (c : ClassDecl) : List TypeName := c.superclass.toList ++ c.interfaces

namespace Corpus

/-- The classes that name this one as their superclass, in the order given. -/
def directSubclasses (c : Corpus) (name : TypeName) : List TypeName := Assoc.listed name c.tables.subclasses

/-- The classes that name this one among their interfaces, once for each time. -/
def directImplementors (c : Corpus) (name : TypeName) : List TypeName := Assoc.listed name c.tables.implementors

def directSubtypes (c : Corpus) (name : TypeName) : List TypeName :=
  c.directSubclasses name ++ c.directImplementors name

/-- The superclass and interfaces of a class of the corpus; an absent class has none. -/
def directSupertypes (c : Corpus) (name : TypeName) : List TypeName :=
  match c.class? name with
  | some d => d.supertypes
  | none => []

/-- Every name that is a class or stands above one. -/
def mentioned (c : Corpus) : List TypeName :=
  (c.classes.map (·.name) ++ c.classes.flatMap (·.supertypes)).eraseDups

/-- What a relation reaches from a name, without the name itself. -/
def reached (c : Corpus) (next : TypeName → List TypeName) (start : TypeName) : List TypeName :=
  explore next (c.mentioned.filter (· != start)) [start]

def allSubtypes (c : Corpus) (name : TypeName) : List TypeName := c.reached c.directSubtypes name

def allSubclasses (c : Corpus) (name : TypeName) : List TypeName := c.reached c.directSubclasses name

def allSupertypes (c : Corpus) (name : TypeName) : List TypeName := c.reached c.directSupertypes name

/-- The same type, or one of its supertypes. -/
def isAssignable (c : Corpus) (source target : TypeName) : Bool :=
  source == target || (c.allSupertypes source).contains target

/-- The classes upwards from a name, as long as each is available; a class is not available twice. -/
def climb (c : Corpus) (available : List TypeName) (from? : Option TypeName) : List ClassDecl :=
  match from? with
  | none => []
  | some name =>
    if _h : name ∈ available then
      match c.class? name with
      | some d => d :: c.climb (available.erase name) d.superclass
      | none => []
    else []
termination_by available.length
decreasing_by
  have := List.length_erase_of_mem _h
  have := List.length_pos_of_mem _h
  omega

/-- The superclass of a class, the superclass of that, and so on. -/
def superclassChain (c : Corpus) (name : TypeName) : List ClassDecl :=
  c.climb ((c.classes.map (·.name)).filter (· != name)) ((c.class? name).bind (·.superclass))

end Corpus

end AnnotationWeaver
