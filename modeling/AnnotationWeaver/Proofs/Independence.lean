import AnnotationWeaver.Proofs.EditRuns

/-!
Edits of different declarations do not meet. What a run makes of a declaration depends on the edits of that
declaration alone, in their order: not on edits of others between them, not on what was read before, and not on
where its record lies. So a method and its parameters, which share a record, the overloads of a method, and a class
and the classes that inherit from it are edited without regard to each other.
-/
namespace AnnotationWeaver

/-- The edits of a declaration among accesses, in their order. -/
def editsOf (key : DeclKey) (accesses : List Access) : List Edit :=
  (accesses.filterMap Access.edit?).filter fun e => e.key = key

/-- The edits of others may be left out. -/
theorem afterEdits_filter (key : DeclKey) (s : AnnotationSet) (edits : List Edit) :
    afterEdits key s (edits.filter fun e => e.key = key) = afterEdits key s edits := by
  have once (e : Edit) : (e.key == key && decide (e.key = key)) = (e.key == key) := by
    rw [beq_eq_decide, Bool.and_self]
  simp only [afterEdits_eq_afterChanges, List.filter_filter, once]

/-- An access that is no edit of a declaration adds nothing to its edits. -/
theorem editsOf_append_singleton {key : DeclKey} {access : Access} (foreign : ∀ e ∈ access.edit?, e.key ≠ key)
    (accesses : List Access) : editsOf key (accesses ++ [access]) = editsOf key accesses := by
  rw [editsOf, List.filterMap_append, List.filter_append, editsOf]
  cases edited : access.edit? with
  | none => simp [edited]
  | some e => simp [edited, foreign e edited]

namespace EditLog

/-- The log has the set for the declaration, and so has the final view that comes of freezing it. -/
structure Holds (l : EditLog) (key : DeclKey) (set : AnnotationSet) : Prop where
  live : ∃ entered, l.overlay.read key = .ok (set, entered)
  final : ∃ view frozen, l.freeze = (.ok view, frozen) ∧ view.annotations key = set

theorem Holds.unique {l : EditLog} {key : DeclKey} {set set' : AnnotationSet} (holds : l.Holds key set)
    (holds' : l.Holds key set') : set = set' := by
  obtain ⟨_, read⟩ := holds.live
  obtain ⟨_, read'⟩ := holds'.live
  exact (Prod.mk.inj (Except.ok.inj (read.symm.trans read'))).1

/-- A faithful log has for every declaration what its own edits make of its annotations in the corpus. -/
theorem IsFaithful.holds {c : Corpus} {accesses : List Access} {l : EditLog}
    (faithful : l.IsFaithful c (accesses.filterMap Access.edit?)) (key : DeclKey) :
    l.Holds key (afterEdits key (c.seed key) (editsOf key accesses)) := by
  have current : l.overlay.current key = afterEdits key (c.seed key) (editsOf key accesses) := by
    rw [faithful.current, editsOf, afterEdits_filter]
  obtain ⟨view, frozen, froze, final⟩ := faithful.freeze
  rw [← current]
  exact ⟨⟨_, Overlay.read_eq faithful.valid key⟩, view, frozen, froze, final key⟩

theorem exists_run_isFaithful (c : Corpus) {accesses : List Access} (steady : ∀ access ∈ accesses, access.IsSteady) :
    ∃ l, run c accesses = .ok l ∧ l.IsFaithful c (accesses.filterMap Access.edit?) :=
  (IsFaithful.ofCorpus c).foldlM_perform steady

end EditLog

/-- Two runs of accesses with steady predicates leave the same annotations, in the same order, of every declaration
    that they edit alike, live and when they are final; so all of them if they edit every declaration alike. In
    particular no access that follows a run, be it an edit or a look, changes the annotations of a declaration that it
    is no edit of. -/
theorem declarations_are_edited_independently (c : Corpus) (first second : List Access)
    (steady : ∀ access ∈ first ++ second, access.IsSteady) :
    ∃ l l', EditLog.run c first = .ok l ∧ EditLog.run c second = .ok l' ∧
      (∀ key, editsOf key first = editsOf key second → ∃ set, l.Holds key set ∧ l'.Holds key set) ∧
      ∀ access : Access, access.IsSteady → ∃ next, l.perform access = .ok next ∧
        ∀ key, (∀ e ∈ access.edit?, e.key ≠ key) → ∃ set, l.Holds key set ∧ next.Holds key set := by
  have steady_first : ∀ access ∈ first, access.IsSteady := fun access member => steady access (List.mem_append_left _ member)
  have steady_second : ∀ access ∈ second, access.IsSteady :=
    fun access member => steady access (List.mem_append_right _ member)
  obtain ⟨l, ran, faithful⟩ := EditLog.exists_run_isFaithful c steady_first
  obtain ⟨l', ran', faithful'⟩ := EditLog.exists_run_isFaithful c steady_second
  refine ⟨l, l', ran, ran', ?_, ?_⟩
  · intro key alike
    refine ⟨_, faithful.holds key, ?_⟩
    rw [alike]
    exact faithful'.holds key
  · intro access steady_access
    obtain ⟨next, performed, faithful_next⟩ := faithful.perform steady_access
    have edits : (first ++ [access]).filterMap Access.edit? =
        first.filterMap Access.edit? ++ access.edit?.toList := by
      cases edited : access.edit? <;> simp [edited]
    rw [← edits] at faithful_next
    refine ⟨next, performed, ?_⟩
    intro key foreign
    refine ⟨_, faithful.holds key, ?_⟩
    rw [← editsOf_append_singleton foreign]
    exact faithful_next.holds key

/-- Edits of the parameter of the depot alone, with reads at other points than in `depotAccesses`. -/
def depotLoadAccesses : List Access :=
  [.add depotLoad (.marker ⟨"app.Weighed"⟩), .read (.method depotSend),
    .remove depotLoad (.ofTest (·.type == ⟨"app.Checked"⟩)), .read depotLoad]

/-- A parameter keeps its annotations whatever its method loses, before or after. -/
theorem declarations_are_edited_independently_in_depot :
    (∀ access ∈ depotLoadAccesses ++ depotAccesses, access.IsSteady) ∧
      editsOf depotLoad depotLoadAccesses = editsOf depotLoad depotAccesses ∧
      ∃ alone among next set, EditLog.run depot depotLoadAccesses = .ok alone ∧
        EditLog.run depot depotAccesses = .ok among ∧
        alone.perform (.remove (.method depotSend) .all) = .ok next ∧ set.types = [⟨"app.Weighed"⟩] ∧
        alone.Holds depotLoad set ∧ among.Holds depotLoad set ∧ next.Holds depotLoad set := by
  have steady : ∀ access ∈ depotLoadAccesses ++ depotAccesses, access.IsSteady := by
    simp [depotAccesses, depotLoadAccesses, Access.IsSteady, Predicate.all]
  have alike : editsOf depotLoad depotLoadAccesses = editsOf depotLoad depotAccesses := rfl
  obtain ⟨alone, among, ran, ran', same, later⟩ :=
    declarations_are_edited_independently depot depotLoadAccesses depotAccesses steady
  obtain ⟨set, held, held'⟩ := same depotLoad alike
  obtain ⟨next, performed, kept⟩ := later (.remove (.method depotSend) .all) ⟨_, rfl⟩
  obtain ⟨set', held'', held_next⟩ := kept depotLoad (by simp [Access.edit?, depotLoad])
  obtain rfl := held.unique held''
  have types : (EditLog.run depot depotLoadAccesses).toOption.bind
      (fun l => (l.overlay.read depotLoad).toOption.map (·.1.types)) = some [⟨"app.Weighed"⟩] := by decide +kernel
  obtain ⟨_, read⟩ := held.live
  rw [ran] at types
  simp only [Except.toOption, Option.bind_some, read] at types
  exact ⟨steady, alike, alone, among, next, set, ran, ran', performed, Option.some.inj types, held, held', held_next⟩

end AnnotationWeaver
