import AnnotationWeaver.Annotation.Basic

/-!
Sets of annotations with at most one of each type. The order is that of first insertion; adding an
annotation of a type that is there replaces it in its place. Two sets are the same (`==`) when they
hold the same annotations in whatever order.
-/
namespace AnnotationWeaver

/-- Annotations of pairwise distinct types. -/
structure AnnotationSet where
  entries : List Annotation
  distinct : (entries.map (·.type)).Nodup

namespace AnnotationSet

def empty : AnnotationSet := ⟨[], List.nodup_nil⟩

instance : Inhabited AnnotationSet := ⟨empty⟩

def types (s : AnnotationSet) : List TypeName := s.entries.map (·.type)

def get? (s : AnnotationSet) (type : TypeName) : Option Annotation :=
  s.entries.find? (·.type == type)

def contains (s : AnnotationSet) (type : TypeName) : Bool := s.entries.any (·.type == type)

def size (s : AnnotationSet) : Nat := s.entries.length

def isEmpty (s : AnnotationSet) : Bool := s.entries.isEmpty

/-- The list with an annotation in the place of the one of its type. -/
def replace (a : Annotation) (entries : List Annotation) : List Annotation :=
  entries.map fun b => if b.type = a.type then a else b

theorem map_type_replace (a : Annotation) (entries : List Annotation) :
    (replace a entries).map (·.type) = entries.map (·.type) := by
  induction entries with
  | nil => rfl
  | cons b rest ih =>
    simp only [replace, List.map_cons, List.cons.injEq] at ih ⊢
    refine ⟨?_, ih⟩
    split
    · next h => exact h.symm
    · rfl

theorem nodup_append_of_not_contains {a : Annotation} {s : AnnotationSet} (h : s.contains a.type = false) :
    ((s.entries ++ [a]).map (·.type)).Nodup := by
  rw [List.map_append, List.nodup_append]
  refine ⟨s.distinct, by simp, ?_⟩
  intro x hx y hy
  obtain ⟨b, hb, rfl⟩ := List.mem_map.1 hx
  have hy : y = a.type := by simpa using hy
  subst hy
  have := List.any_eq_false.1 h b hb
  simpa using this

/-- The set with an annotation added, or put in the place of the one of its type. -/
def insert (s : AnnotationSet) (a : Annotation) : AnnotationSet :=
  if h : s.contains a.type = false then ⟨s.entries ++ [a], nodup_append_of_not_contains h⟩
  else ⟨replace a s.entries, by rw [map_type_replace]; exact s.distinct⟩

/-- The set with an annotation added unless there is one of its type. -/
def insertNew (s : AnnotationSet) (a : Annotation) : AnnotationSet :=
  if s.contains a.type then s else s.insert a

theorem contains_eq_any (s : AnnotationSet) (type : TypeName) :
    s.contains type = s.entries.any (·.type == type) := rfl

@[simp] theorem contains_empty (type : TypeName) : empty.contains type = false := rfl

/-- Replacing an annotation by one of its type changes no type. -/
theorem any_type_replace (a : Annotation) (entries : List Annotation) (type : TypeName) :
    (replace a entries).any (·.type == type) = entries.any (·.type == type) := by
  have same := congrArg (·.any (· == type)) (map_type_replace a entries)
  simpa [List.any_map, Function.comp_def] using same

@[simp] theorem contains_insert (s : AnnotationSet) (a : Annotation) (type : TypeName) :
    (s.insert a).contains type = (s.contains type || a.type == type) := by
  unfold insert
  split
  · simp [contains_eq_any]
  · next held =>
    by_cases same : a.type = type
    · subst same
      simpa [contains_eq_any, any_type_replace] using held
    · simp [contains_eq_any, any_type_replace, same]

@[simp] theorem contains_insertNew (s : AnnotationSet) (a : Annotation) (type : TypeName) :
    (s.insertNew a).contains type = (s.contains type || a.type == type) := by
  unfold insertNew
  split
  · next held =>
    by_cases same : a.type = type
    · simp [← same, held]
    · simp [same]
  · exact contains_insert s a type

/-- The set of a list; of several annotations of a type the first is taken. -/
def ofList (annotations : List Annotation) : AnnotationSet := annotations.foldl insertNew empty

private theorem contains_foldl_insertNew (s : AnnotationSet) (annotations : List Annotation) (type : TypeName) :
    (annotations.foldl insertNew s).contains type = (s.contains type || annotations.any (·.type == type)) := by
  induction annotations generalizing s with
  | nil => simp
  | cons a rest ih => simp [ih, Bool.or_assoc]

@[simp] theorem contains_ofList (annotations : List Annotation) (type : TypeName) :
    (ofList annotations).contains type = annotations.any (·.type == type) := by
  simp [ofList, contains_foldl_insertNew]

/-- The part of the set that a test keeps. -/
def filter (s : AnnotationSet) (keep : Annotation → Bool) : AnnotationSet :=
  ⟨s.entries.filter keep, s.distinct.sublist (List.filter_sublist.map _)⟩

/-- The annotations of a type and, inside a container of another type, those that its `value` lists. -/
def repeatable (s : AnnotationSet) (container element : TypeName) : List Annotation :=
  let listed := ((s.get? container).bind (·.value? valueMember)).bind (·.elements?)
  (s.get? element).toList
    ++ ((listed.getD []).filterMap (·.nested?)).filter (·.type == element)

/-- The same annotations, in whatever order. -/
def same (s t : AnnotationSet) : Bool :=
  s.size == t.size && s.entries.all fun a =>
    match t.get? a.type with
    | some b => a == b
    | none => false

instance : BEq AnnotationSet := ⟨same⟩

end AnnotationSet

end AnnotationWeaver
