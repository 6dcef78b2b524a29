import AnnotationWeaver.EditLog.Freeze
import AnnotationWeaver.Proofs.Lists

/-!
The records of a log and the edits that were made. A log keeps the changes of each edit in the record of the
declaration that holds them, at the target that the edit has there; so edits that were made one after the other lie in
several records, which begin in the order of their first edits (`Groups`). Every edit that is made keeps the records so,
and it does not matter how often predicates were asked. The edits of one declaration are got back from one record: who
holds a change and its target tell together which declaration it is one of.
-/
namespace AnnotationWeaver

/-- A change of the annotations of a declaration. -/
structure Edit where
  key : DeclKey
  change : Change

namespace DeclKey

@[simp] theorem resolve_target (key : DeclKey) : key.target.resolve key.owner = key := by
  cases key <;> rfl

theorem eq_of_target {key key' : DeclKey} (owner : key.owner = key'.owner) (target : key.target = key'.target) :
    key = key' := by
  rw [← key.resolve_target, owner, target, resolve_target]

end DeclKey

/-! ### Predicates that were not asked -/

/-- The change with its predicate not asked yet. -/
def Change.unasked : Change → Change
  | .add a => .add a
  | .remove p _ => .remove p 0

@[simp] theorem Change.unasked_advance (c : Change) (s : AnnotationSet) : (c.advance s).unasked = c.unasked := by
  cases c <;> rfl

namespace Edit

def unasked (e : Edit) : Edit := ⟨e.key, e.change.unasked⟩

/-- The edit in the record that holds it, with its predicate not asked yet. -/
def recorded (e : Edit) : RecordedChange := ⟨e.key.target, e.change.unasked⟩

end Edit

def RecordedChange.unasked (r : RecordedChange) : RecordedChange := ⟨r.target, r.change.unasked⟩

/-- Records whose predicates were not asked yet. -/
def unaskedRecords (records : List (DeclKey × List RecordedChange)) : List (DeclKey × List RecordedChange) :=
  records.map fun r => (r.1, r.2.map RecordedChange.unasked)

theorem owners_unaskedRecords (records : List (DeclKey × List RecordedChange)) :
    (unaskedRecords records).map (·.1) = records.map (·.1) := by
  rw [unaskedRecords, List.map_map]
  rfl

theorem listed_unaskedRecords (owner : DeclKey) (records : List (DeclKey × List RecordedChange)) :
    Assoc.listed owner (unaskedRecords records) = (Assoc.listed owner records).map RecordedChange.unasked := by
  induction records with
  | nil => rfl
  | cons r rest ih =>
    rw [Assoc.listed, Assoc.listed, unaskedRecords, List.map_cons, Assoc.find?_cons, Assoc.find?_cons]
    by_cases same : r.1 = owner
    · rw [if_pos same, if_pos same, Option.getD_some, Option.getD_some]
    · rw [if_neg same, if_neg same]
      exact ih

/-- The changes that a record has at a target. -/
def changesAt (target : EditTarget) (record : List RecordedChange) : List Change :=
  (record.filter (·.target == target)).map (·.change)

theorem exists_of_changesAt_ne_nil {target : EditTarget} {record : List RecordedChange}
    (changed : changesAt target record ≠ []) : ∃ r ∈ record, r.target = target := by
  obtain ⟨change, listed⟩ := List.exists_mem_of_ne_nil _ changed
  obtain ⟨r, member, -⟩ := List.mem_map.1 listed
  obtain ⟨known, same⟩ := List.mem_filter.1 member
  exact ⟨r, known, by simpa using same⟩

/-- The changes of a declaration, which are in one of the records. -/
def changesOf (records : List (DeclKey × List RecordedChange)) (key : DeclKey) : List Change :=
  changesAt key.target (Assoc.listed key.owner records)

theorem changesAt_unasked (target : EditTarget) (record : List RecordedChange) :
    changesAt target (record.map RecordedChange.unasked) = (changesAt target record).map Change.unasked := by
  rw [changesAt, changesAt, List.filter_map, List.map_map, List.map_map]
  rfl

theorem changesOf_unaskedRecords (records : List (DeclKey × List RecordedChange)) (key : DeclKey) :
    changesOf (unaskedRecords records) key = (changesOf records key).map Change.unasked := by
  rw [changesOf, listed_unaskedRecords, changesAt_unasked, changesOf]

theorem changesOf_eq_nil_of_unasked {records asked : List (DeclKey × List RecordedChange)}
    (same : unaskedRecords asked = unaskedRecords records) {key : DeclKey} :
    changesOf asked key = [] ↔ changesOf records key = [] := by
  have equal := congrArg (changesOf · key) same
  simp only [changesOf_unaskedRecords] at equal
  rw [← List.map_eq_nil_iff (f := Change.unasked), equal, List.map_eq_nil_iff]

/-- A change that is recorded is one of its declaration alone. -/
theorem changesOf_push (records : List (DeclKey × List RecordedChange)) (key other : DeclKey) (change : Change) :
    changesOf (Assoc.push key.owner ⟨key.target, change⟩ records) other =
      changesOf records other ++ if key = other then [change] else [] := by
  rw [changesOf, Assoc.listed_push, changesAt, List.filter_append, List.map_append, changesOf, changesAt]
  congr 1
  by_cases same : key = other
  · simp [same]
  · by_cases own : key.owner = other.owner
    · have apart : key.target ≠ other.target := fun target => same (DeclKey.eq_of_target own target)
      simp [own, same, apart]
    · simp [own, same]

/-! ### Edits in records -/

/-- The records hold the edits: there is one for each declaration that holds changes of an edit, in the order of the
    first edits, and each has these changes in the order of the edits. -/
structure Groups (records : List (DeclKey × List RecordedChange)) (made : List Edit) : Prop where
  owners : records.map (·.1) = (made.map (·.key.owner)).eraseDups
  held : ∀ owner, (Assoc.listed owner records).map RecordedChange.unasked =
    (made.filter (·.key.owner == owner)).map Edit.recorded

namespace Groups

variable {records : List (DeclKey × List RecordedChange)} {made : List Edit}

theorem nil : Groups [] [] := ⟨rfl, fun _ => rfl⟩

/-- An edit that is made comes last in the record that holds it, which begins with it if there was none. -/
theorem push (groups : Groups records made) (key : DeclKey) (change : Change) (s : AnnotationSet) :
    Groups (Assoc.push key.owner ⟨key.target, change.advance s⟩ records) (made ++ [⟨key, change⟩]) where
  owners := by
    rw [List.map_append, List.map_singleton, eraseDups_concat, Assoc.push]
    by_cases known : key.owner ∈ records.map (·.1)
    · have earlier : (made.map (·.key.owner)).contains key.owner = true := by
        rw [List.contains_iff_mem, ← List.mem_eraseDups, ← groups.owners]
        exact known
      rw [Assoc.keys_set_of_mem known, if_pos earlier, groups.owners]
    · have first : ¬(made.map (·.key.owner)).contains key.owner = true := by
        rw [List.contains_iff_mem, ← List.mem_eraseDups, ← groups.owners]
        exact known
      rw [Assoc.set_of_notMem known, if_neg first, List.map_append, groups.owners]
      rfl
  held := by
    intro owner
    rw [Assoc.listed_push, List.map_append, groups.held, List.filter_append, List.map_append]
    by_cases own : key.owner = owner
    · simp [own, RecordedChange.unasked, Edit.recorded]
    · simp [own]

/-- It does not matter how often predicates were asked. -/
theorem of_unasked {asked : List (DeclKey × List RecordedChange)} (groups : Groups records made)
    (same : unaskedRecords asked = unaskedRecords records) : Groups asked made where
  owners := by rw [← owners_unaskedRecords, same, owners_unaskedRecords, groups.owners]
  held := by
    intro owner
    rw [← listed_unaskedRecords, same, listed_unaskedRecords, groups.held]

theorem nodup_owners (groups : Groups records made) : (records.map (·.1)).Nodup :=
  groups.owners ▸ nodup_eraseDups _

/-- The changes of a declaration are those of its edits, in their order. -/
theorem changesOf_eq (groups : Groups records made) (key : DeclKey) :
    (changesOf records key).map Change.unasked = (made.filter (·.key == key)).map (·.change.unasked) := by
  have own (e : Edit) : (e.recorded.target == key.target && e.key.owner == key.owner) = (e.key == key) := by
    rw [Bool.eq_iff_iff, Bool.and_eq_true, beq_iff_eq, beq_iff_eq, beq_iff_eq]
    exact ⟨fun both => DeclKey.eq_of_target both.2 both.1, fun same => same ▸ ⟨rfl, rfl⟩⟩
  rw [← changesOf_unaskedRecords, changesOf, listed_unaskedRecords, groups.held, changesAt, List.filter_map,
    List.filter_filter, List.map_map]
  simp only [Function.comp_def, own]
  rfl

/-- A declaration that has changes was edited. -/
theorem exists_edit (groups : Groups records made) {key : DeclKey} (changed : changesOf records key ≠ []) :
    ∃ e ∈ made, e.key = key := by
  have some : (made.filter (·.key == key)).map (·.change.unasked) ≠ [] := by
    rw [← groups.changesOf_eq]
    exact mt List.map_eq_nil_iff.1 changed
  obtain ⟨_, listed⟩ := List.exists_mem_of_ne_nil _ some
  obtain ⟨e, member, -⟩ := List.mem_map.1 listed
  obtain ⟨earlier, same⟩ := List.mem_filter.1 member
  exact ⟨e, earlier, by simpa using same⟩

/-- Every change in a record is at the target of a declaration whose changes the record holds. -/
theorem exists_key (groups : Groups records made) {r : DeclKey × List RecordedChange} (member : r ∈ records)
    {change : RecordedChange} (listed : change ∈ r.2) : ∃ key : DeclKey, key.owner = r.1 ∧ key.target = change.target := by
  have whole : Assoc.listed r.1 records = r.2 := by
    rw [Assoc.listed, Assoc.find?_of_mem groups.nodup_owners member, Option.getD_some]
  have held : change.unasked ∈ (made.filter (·.key.owner == r.1)).map Edit.recorded :=
    groups.held r.1 ▸ List.mem_map_of_mem (whole ▸ listed)
  obtain ⟨e, earlier, same⟩ := List.mem_map.1 held
  exact ⟨e.key, by simpa using (List.mem_filter.1 earlier).2, congrArg RecordedChange.target same⟩

end Groups

end AnnotationWeaver
