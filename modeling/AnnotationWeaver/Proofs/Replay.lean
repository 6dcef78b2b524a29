import AnnotationWeaver.Proofs.Records

/-!
Replaying edits. `afterEdits` is what the edits of one declaration make of a set, whatever other edits are made between
them; it comes to what the changes of the declaration make of the set, one after the other (`afterChanges`). The ways to
replay a declaration and the replay of a whole record come to this for the changes that the record has at its target. A
replay asks the recorded predicates again. What it leaves differs only in how often they were asked, so that it makes of
every set the same as before, provided that the predicates are steady.
-/
namespace AnnotationWeaver

/-- The predicate is a plain test: it never changes its mind about an annotation. -/
def Predicate.IsSteady (p : Predicate) : Prop := ∃ test, p = ofTest test

@[simp] theorem Predicate.isSteady_ofTest (test : Annotation → Bool) : (ofTest test).IsSteady := ⟨test, rfl⟩

namespace Change

/-- The predicate of the change, if it has one, is steady. -/
def IsSteady : Change → Prop
  | .add _ => True
  | .remove p _ => p.IsSteady

@[simp] theorem isSteady_unasked (c : Change) : c.unasked.IsSteady ↔ c.IsSteady := by
  cases c <;> rfl

/-- A steady change makes the same of a set, however often its predicate was asked. -/
theorem apply_unasked {c : Change} (steady : c.IsSteady) (s : AnnotationSet) : c.unasked.apply s = c.apply s := by
  cases c with
  | add a => rfl
  | remove p asked =>
    obtain ⟨test, rfl⟩ := steady
    simp [unasked, apply, AnnotationSet.remove, Predicate.spared_ofTest]

end Change

/-! ### Changes one after the other -/

/-- What changes make of a set, oldest first. -/
def afterChanges (s : AnnotationSet) (changes : List Change) : AnnotationSet :=
  changes.foldl (fun s c => c.apply s) s

theorem afterChanges_unasked (s : AnnotationSet) {changes : List Change} (steady : ∀ c ∈ changes, c.IsSteady) :
    afterChanges s (changes.map Change.unasked) = afterChanges s changes := by
  induction changes generalizing s with
  | nil => rfl
  | cons c rest ih =>
    rw [List.map_cons, afterChanges, List.foldl_cons, Change.apply_unasked (steady c List.mem_cons_self)]
    exact ih _ fun c later => steady c (List.mem_cons_of_mem _ later)

/-- Steady changes that differ only in how often they were asked make the same of a set. -/
theorem afterChanges_eq_of_unasked (s : AnnotationSet) {changes made : List Change}
    (same : changes.map Change.unasked = made.map Change.unasked) (steady : ∀ c ∈ made, c.IsSteady) :
    afterChanges s changes = afterChanges s made := by
  have steady' : ∀ c ∈ changes, c.IsSteady := by
    intro c member
    have listed : c.unasked ∈ made.map Change.unasked := same ▸ List.mem_map_of_mem member
    obtain ⟨c', earlier, equal⟩ := List.mem_map.1 listed
    rw [← Change.isSteady_unasked, ← equal, Change.isSteady_unasked]
    exact steady c' earlier
  rw [← afterChanges_unasked s steady', same, afterChanges_unasked s steady]

/-- The set of a declaration after an edit, which may be one of another declaration. -/
def Edit.applyTo (key : DeclKey) (s : AnnotationSet) (e : Edit) : AnnotationSet :=
  if e.key = key then e.change.apply s else s

/-- What the edits of a declaration make of a set, oldest first. -/
def afterEdits (key : DeclKey) (s : AnnotationSet) (edits : List Edit) : AnnotationSet :=
  edits.foldl (Edit.applyTo key) s

theorem afterEdits_append (key : DeclKey) (s : AnnotationSet) (edits later : List Edit) :
    afterEdits key s (edits ++ later) = afterEdits key (afterEdits key s edits) later := List.foldl_append

theorem afterEdits_eq_afterChanges (key : DeclKey) (s : AnnotationSet) (edits : List Edit) :
    afterEdits key s edits = afterChanges s ((edits.filter (·.key == key)).map (·.change)) := by
  rw [afterEdits, afterChanges, List.foldl_map, List.foldl_filter]
  congr 1
  funext s e
  by_cases own : e.key = key
  · simp [Edit.applyTo, own]
  · simp [Edit.applyTo, own]

/-- The changes that a declaration has in its record come to its edits, provided that these are steady. -/
theorem Groups.afterChanges_eq {records : List (DeclKey × List RecordedChange)} {made : List Edit}
    (groups : Groups records made) (steady : ∀ e ∈ made, e.change.IsSteady) (key : DeclKey) (s : AnnotationSet) :
    afterChanges s (changesOf records key) = afterEdits key s made := by
  rw [afterEdits_eq_afterChanges]
  refine afterChanges_eq_of_unasked s ?_ ?_
  · rw [groups.changesOf_eq, List.map_map]
    rfl
  · intro c member
    obtain ⟨e, listed, rfl⟩ := List.mem_map.1 member
    exact steady e (List.mem_filter.1 listed).1

/-! ### Replaying one declaration -/

theorem replayTarget_fst (target : EditTarget) (s : AnnotationSet) (record : List RecordedChange) :
    (replayTarget target s record).1 = afterChanges s (changesAt target record) := by
  induction record generalizing s with
  | nil => rfl
  | cons r rest ih =>
    by_cases own : r.target = target
    · simp [replayTarget, changesAt, own, afterChanges, ih]
    · simp [replayTarget, changesAt, own, ih]

theorem replayTarget_snd (target : EditTarget) (s : AnnotationSet) (record : List RecordedChange) :
    (replayTarget target s record).2.map RecordedChange.unasked = record.map RecordedChange.unasked := by
  induction record generalizing s with
  | nil => rfl
  | cons r rest ih =>
    by_cases own : r.target = target
    · simp [replayTarget, RecordedChange.unasked, own, ih]
    · simp [replayTarget, own, ih]

theorem EditLog.replayInto_fst (l : EditLog) (key : DeclKey) (set : AnnotationSet) :
    (l.replayInto key set).1 = afterChanges set (changesOf l.records key) := replayTarget_fst _ _ _

/-- A replay changes how often predicates were asked, and nothing else in the records. -/
theorem EditLog.replayInto_snd (l : EditLog) (key : DeclKey) (set : AnnotationSet) :
    unaskedRecords (l.replayInto key set).2.records = unaskedRecords l.records := by
  rw [replayInto, unaskedRecords, unaskedRecords, List.map_map]
  refine List.map_congr_left fun r _ => ?_
  by_cases own : r.1 = key.owner
  · simp [own, replayTarget_snd]
  · simp [own]

/-- What a plain set makes of a change that a replay delivers: it heeds those of the declaration itself. -/
def AnnotationSet.receive (s : AnnotationSet) : EditTarget × Change → AnnotationSet
  | (.declaration, c) => c.apply s
  | (.parameter _, _) => s

/-- The record of a declaration that is no parameter also holds changes of its parameters, but a plain set does not heed
    these. -/
theorem foldl_receive (s : AnnotationSet) (record : List RecordedChange) :
    (record.map fun r => (r.target, r.change)).foldl AnnotationSet.receive s =
      afterChanges s (changesAt .declaration record) := by
  rw [List.foldl_map, changesAt, afterChanges, List.foldl_map, List.foldl_filter]
  congr 1
  funext s r
  obtain ⟨target, change⟩ := r
  cases target <;> rfl

/-- A plain set that a declaration is replayed to ends as the changes of the declaration leave it. -/
theorem EditLog.foldl_receive_replay (l : EditLog) (key : DeclKey) (s : AnnotationSet) :
    (l.replay key).foldl AnnotationSet.receive s = afterChanges s (changesOf l.records key) := by
  cases key with
  | parameter p =>
    rw [replay, List.foldl_map, changesOf, changesAt, afterChanges, List.foldl_map]
    rfl
  | _ => exact foldl_receive s _

/-! ### Replaying a record -/

section

variable (c : Corpus) (owner : DeclKey) (sets : List (EditTarget × AnnotationSet)) (record : List RecordedChange)

theorem replayRecord_snd :
    (replayRecord c owner sets record).2.map RecordedChange.unasked = record.map RecordedChange.unasked := by
  induction record generalizing sets with
  | nil => rfl
  | cons r rest ih => simp [replayRecord, RecordedChange.unasked, ih]

theorem nodup_replayRecord (distinct : (sets.map (·.1)).Nodup) :
    ((replayRecord c owner sets record).1.map (·.1)).Nodup := by
  induction record generalizing sets with
  | nil => exact distinct
  | cons r rest ih => exact ih _ (Assoc.nodup_keys_set distinct)

/-- The set of a target that the record touches begins as it is, or as the corpus has it; the record makes of it what its
    changes at the target make. -/
theorem find?_replayRecord (target : EditTarget) :
    Assoc.find? target (replayRecord c owner sets record).1 =
      if changesAt target record = [] then Assoc.find? target sets
      else some (afterChanges ((Assoc.find? target sets).getD (c.seed (target.resolve owner))) (changesAt target record)) := by
  induction record generalizing sets with
  | nil => rfl
  | cons r rest ih =>
    rw [replayRecord, ih, Assoc.find?_set]
    by_cases own : r.target = target
    · subst own
      have first : changesAt r.target (r :: rest) = r.change :: changesAt r.target rest := by simp [changesAt]
      rw [if_pos rfl, first, if_neg (List.cons_ne_nil _ _), Option.getD_some, afterChanges, afterChanges, List.foldl_cons]
      split
      · next untouched => rw [untouched, List.foldl_nil]
      · rfl
    · have passed : changesAt target (r :: rest) = changesAt target rest := by simp [changesAt, own]
      rw [if_neg own, passed]

end

end AnnotationWeaver
