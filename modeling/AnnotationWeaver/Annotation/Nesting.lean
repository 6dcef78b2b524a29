import AnnotationWeaver.Annotation.Basic

/-!
How many annotations a value or an annotation holds inside, at every depth. Following annotations
inward for more steps than that many comes back to one that was passed before.
-/
namespace AnnotationWeaver

mutual

/-- The number of annotations in a value. -/
def Value.nestedCount (v : Value) : Nat :=
  match v with
  | .nested a => a.nestedCount + 1
  | .array _ elements => Value.nestedCounts elements
  | _ => 0
termination_by structural v

def Value.nestedCounts (vs : List Value) : Nat :=
  match vs with
  | [] => 0
  | v :: rest => v.nestedCount + Value.nestedCounts rest
termination_by structural vs

/-- The number of annotations in the members of an annotation. -/
def Annotation.nestedCount (a : Annotation) : Nat :=
  match a with
  | ⟨_, members⟩ => Member.nestedCounts members
termination_by structural a

def Member.nestedCounts (ms : List Member) : Nat :=
  match ms with
  | [] => 0
  | m :: rest => m.nestedCount + Member.nestedCounts rest
termination_by structural ms

def Member.nestedCount (m : Member) : Nat :=
  match m with
  | ⟨_, value⟩ => value.nestedCount
termination_by structural m

end

end AnnotationWeaver
