import AnnotationWeaver.Proofs.Divergence
import AnnotationWeaver.Proofs.ReadPaths

/-!
Runs of edits and reads. An overlay mirrors a list of edits when every declaration has in it what the edits
make of its annotations in the corpus. Edits, reads and replays in any order keep it so, as long as the
predicates are steady. The replay of a declaration, the overlay and the final view then give the same sets.
-/
namespace AnnotationWeaver

/-- The current annotations are those of the corpus after the edits, and what is edited has an entry. -/
structure Mirrors (o : Overlay) (edits : List Edit) : Prop where
  steady : ∀ e ∈ edits, e.change.IsSteady
  entered : ∀ e ∈ edits, o.isOverlaid e.key
  current : ∀ key, o.current key = afterEdits key (o.corpus.seed key) edits

namespace Mirrors

variable {o : Overlay} {edits : List Edit}

theorem ofCorpus (c : Corpus) : Mirrors (.ofCorpus c) [] where
  steady := by simp
  entered := by simp
  current := fun _ => rfl

/-- Reading a declaration only makes an entry of what it has. -/
theorem read (mirrored : Mirrors o edits) (key : DeclKey) : Mirrors (o.put key (o.current key)) edits where
  steady := mirrored.steady
  entered := fun e member => (o.isOverlaid_put _ _ _).2 (.inr (mirrored.entered e member))
  current := fun other => (o.current_put_current key other).trans (mirrored.current other)

/-- An edit that is made. -/
theorem edit (mirrored : Mirrors o edits) {change : Change} (steady : change.IsSteady) (key : DeclKey) :
    Mirrors (o.put key (change.apply (o.current key))) (edits ++ [⟨key, change⟩]) where
  steady := by
    intro e member
    rcases List.mem_append.1 member with earlier | last
    · exact mirrored.steady e earlier
    · obtain rfl := List.mem_singleton.1 last
      exact steady
  entered := by
    intro e member
    rw [Overlay.isOverlaid_put]
    rcases List.mem_append.1 member with earlier | last
    · exact .inr (mirrored.entered e earlier)
    · obtain rfl := List.mem_singleton.1 last
      exact .inl rfl
  current := by
    intro other
    have before : afterEdits other ((o.put key (change.apply (o.current key))).corpus.seed other) edits =
        o.current other := (mirrored.current other).symm
    rw [Overlay.current_put, afterEdits_append, before]
    by_cases same : key = other
    · simp [afterEdits, Edit.applyTo, same]
    · simp [afterEdits, Edit.applyTo, same]

end Mirrors

/-! ### Runs -/

/-- What is done with a log: an edit, a replay, or one of the ways to look at the current annotations. -/
inductive Access where
  | add (key : DeclKey) (a : Annotation)
  | remove (key : DeclKey) (predicate : Predicate)
  | replay (key : DeclKey) (set : AnnotationSet)
  | read (key : DeclKey)
  | has (key : DeclKey) (type : TypeName)
  | overlaidWith (type : TypeName)
  | declarationsWith (type : TypeName)

namespace Access

/-- The predicate of the access, if it has one, is steady. -/
def IsSteady : Access → Prop
  | .remove _ p => p.IsSteady
  | _ => True

/-- The edit that the access is, unless it only looks. -/
def edit? : Access → Option Edit
  | .add key a => some ⟨key, .add a⟩
  | .remove key p => some ⟨key, .remove p 0⟩
  | _ => none

end Access

namespace EditLog

/-- The log after an access. -/
def perform (l : EditLog) : Access → Except EditError EditLog
  | .add key a => l.add key a
  | .remove key p => (l.remove key p).map (·.2)
  | .replay key set => .ok (l.replayInto key set).2
  | .read key => ((l.overlay.read key).mapError .overlay).map fun (_, overlay) => l.withOverlay overlay
  | .has key type => ((l.overlay.has key type).mapError .overlay).map fun _ => l
  | .overlaidWith type => ((l.overlay.overlaidWith type).mapError .overlay).map fun _ => l
  | .declarationsWith type => (((View.live l.overlay).declarationsWith type).mapError .overlay).map fun _ => l

/-- The log of a corpus after accesses, one after the other. -/
def run (c : Corpus) (accesses : List Access) : Except EditError EditLog := accesses.foldlM perform (ofCorpus c)

/-- What becomes of an open log by an access, which may be an edit. -/
inductive Step (l : EditLog) : Option Edit → EditLog → Prop
  | edit (key : DeclKey) (change : Change) : Step l (some ⟨key, change⟩) (l.commit key change)
  | read (key : DeclKey) : Step l none (l.withOverlay (l.overlay.put key (l.overlay.current key)))
  | replay (key : DeclKey) (set : AnnotationSet) : Step l none (l.replayInto key set).2
  | look : Step l none l

theorem step_of_edit {l l' : EditLog} {key : DeclKey} {change : Change} {altered : Bool}
    (accepted : l.edit key change = .ok (altered, l')) : l.Step (some ⟨key, change⟩) l' := by
  unfold edit at accepted
  split at accepted
  · cases accepted
  · split at accepted
    · obtain ⟨-, rfl⟩ := Prod.mk.inj (Except.ok.inj accepted)
      exact .edit key change
    · cases accepted

/-- An access that does not fail is such a step, of any log. -/
theorem step_of_perform {l l' : EditLog} {access : Access} (performed : l.perform access = .ok l') :
    l.Step access.edit? l' := by
  cases access with
  | add key a =>
    obtain ⟨⟨altered, next⟩, accepted, rfl⟩ := exists_ok_of_map performed
    exact step_of_edit accepted
  | remove key p =>
    obtain ⟨⟨altered, next⟩, accepted, rfl⟩ := exists_ok_of_map performed
    exact step_of_edit accepted
  | replay key set =>
    obtain rfl := Except.ok.inj performed
    exact .replay key set
  | read key =>
    obtain ⟨answer, readable, rfl⟩ := exists_ok_of_map_mapError performed
    unfold Overlay.read Overlay.guard at readable
    split at readable
    · obtain rfl := Except.ok.inj readable
      exact .read key
    · cases readable
  | has key type =>
    obtain ⟨_, -, rfl⟩ := exists_ok_of_map_mapError performed
    exact .look
  | overlaidWith type =>
    obtain ⟨_, -, rfl⟩ := exists_ok_of_map_mapError performed
    exact .look
  | declarationsWith type =>
    obtain ⟨_, -, rfl⟩ := exists_ok_of_map_mapError performed
    exact .look

/-- A step neither freezes the log nor puts the overlay out of use. -/
theorem Step.flags {l l' : EditLog} {edit? : Option Edit} (step : l.Step edit? l') :
    l'.isFrozen = l.isFrozen ∧ l'.overlay.valid = l.overlay.valid := by
  cases step <;> exact ⟨rfl, rfl⟩

/-- A step brings its edit into the records, if it is one, and nothing else. -/
theorem Step.groups {l l' : EditLog} {edit? : Option Edit} (step : l.Step edit? l') {made : List Edit}
    (groups : Groups l.records made) : Groups l'.records (made ++ edit?.toList) := by
  have unedited : Groups l.records (made ++ []) := by rwa [List.append_nil]
  cases step with
  | edit key change => exact groups.push key change _
  | read key => exact unedited
  | replay key set => exact unedited.of_unasked (l.replayInto_snd key set)
  | look => exact unedited

/-- No access fails on a log that is open with its overlay in use. -/
theorem exists_step {l : EditLog} (unfrozen : l.isFrozen = false) (valid : l.overlay.valid = true) (access : Access) :
    ∃ l', l.perform access = .ok l' ∧ l.Step access.edit? l' := by
  have readable : (View.live l.overlay).IsReadable := valid
  have accepted (key : DeclKey) (change : Change) : l.edit key change = .ok _ :=
    (if_neg (Bool.eq_false_iff.1 unfrozen)).trans (if_pos valid)
  cases access with
  | add key a =>
    refine ⟨_, ?_, .edit key (.add a)⟩
    rw [perform, add, accepted]
    rfl
  | remove key p =>
    refine ⟨_, ?_, .edit key (.remove p 0)⟩
    rw [perform, remove, accepted]
    rfl
  | replay key set => exact ⟨_, rfl, .replay key set⟩
  | read key =>
    refine ⟨_, ?_, .read key⟩
    rw [perform, Overlay.read_eq valid]
    rfl
  | has key type =>
    have answered : l.overlay.has key type = .ok _ := View.has_eq readable key type
    refine ⟨l, ?_, .look⟩
    rw [perform, answered]
    rfl
  | overlaidWith type =>
    have answered : l.overlay.overlaidWith type = .ok _ := View.overlaidWith_eq readable type
    refine ⟨l, ?_, .look⟩
    rw [perform, answered]
    rfl
  | declarationsWith type =>
    refine ⟨l, ?_, .look⟩
    rw [perform, View.declarationsWith_eq readable type]
    rfl

/-- The log is open, its overlay mirrors the edits that were made of the corpus, and its records hold them. -/
structure IsFaithful (c : Corpus) (made : List Edit) (l : EditLog) : Prop where
  corpus : l.overlay.corpus = c
  unfrozen : l.isFrozen = false
  valid : l.overlay.valid = true
  mirrored : Mirrors l.overlay made
  grouped : Groups l.records made

namespace IsFaithful

variable {c : Corpus} {made : List Edit} {l : EditLog}

theorem ofCorpus (c : Corpus) : (ofCorpus c).IsFaithful c [] := ⟨rfl, rfl, rfl, .ofCorpus c, .nil⟩

/-- The current annotations are what the edits that were made leave of those in the corpus. -/
theorem current (faithful : l.IsFaithful c made) (key : DeclKey) :
    l.overlay.current key = afterEdits key (c.seed key) made := by
  rw [faithful.mirrored.current, faithful.corpus]

/-- The recorded changes of a declaration make the current annotations of those in the corpus. -/
theorem replayed_eq (faithful : l.IsFaithful c made) (key : DeclKey) :
    replayed c l.records key = l.overlay.current key := by
  rw [faithful.current, replayed, faithful.grouped.afterChanges_eq faithful.mirrored.steady]

/-- A step that is not made with an unsteady predicate leaves the log faithful. -/
theorem step (faithful : l.IsFaithful c made) {edit? : Option Edit} {l' : EditLog} (step : l.Step edit? l')
    (steady : ∀ e ∈ edit?, e.change.IsSteady) : l'.IsFaithful c (made ++ edit?.toList) := by
  have grouped := step.groups faithful.grouped
  have unedited : Mirrors l.overlay (made ++ []) := by
    rw [List.append_nil]
    exact faithful.mirrored
  cases step with
  | edit key change =>
    exact ⟨faithful.corpus, faithful.unfrozen, faithful.valid, faithful.mirrored.edit (steady _ rfl) key, grouped⟩
  | read key => exact ⟨faithful.corpus, faithful.unfrozen, faithful.valid, unedited.read key, grouped⟩
  | replay key set => exact ⟨faithful.corpus, faithful.unfrozen, faithful.valid, unedited, grouped⟩
  | look => exact ⟨faithful.corpus, faithful.unfrozen, faithful.valid, unedited, grouped⟩

/-- No access fails on a faithful log, and the log stays faithful. -/
theorem perform (faithful : l.IsFaithful c made) {access : Access} (steady : access.IsSteady) :
    ∃ l', l.perform access = .ok l' ∧ l'.IsFaithful c (made ++ access.edit?.toList) := by
  obtain ⟨l', performed, step⟩ := exists_step faithful.unfrozen faithful.valid access
  refine ⟨l', performed, faithful.step step ?_⟩
  cases access with
  | add key a => simp [Access.edit?, Change.IsSteady]
  | remove key p => simpa [Access.edit?, Access.IsSteady, Change.IsSteady] using steady
  | _ => simp [Access.edit?]

/-- Nor does a run of accesses. -/
theorem foldlM_perform (faithful : l.IsFaithful c made) {accesses : List Access}
    (steady : ∀ access ∈ accesses, access.IsSteady) :
    ∃ l', accesses.foldlM EditLog.perform l = .ok l' ∧ l'.IsFaithful c (made ++ accesses.filterMap Access.edit?) := by
  induction accesses generalizing l made with
  | nil => exact ⟨l, rfl, by rwa [List.filterMap_nil, List.append_nil]⟩
  | cons access rest ih =>
    obtain ⟨l', performed, faithful'⟩ := faithful.perform (steady access List.mem_cons_self)
    obtain ⟨final, ran, done⟩ := ih faithful' fun later member => steady later (List.mem_cons_of_mem _ member)
    refine ⟨final, ?_, ?_⟩
    · rw [List.foldlM_cons, performed]
      exact ran
    · have split : (access :: rest).filterMap Access.edit? =
          access.edit?.toList ++ rest.filterMap Access.edit? := by
        cases edited : access.edit? <;> simp [edited]
      rwa [split, ← List.append_assoc]

end IsFaithful

end EditLog

/-! ### Freezing -/

namespace EditLog.IsFaithful

variable {c : Corpus} {made : List Edit} {l : EditLog}

theorem isSeated (faithful : l.IsFaithful c made) : l.IsSeated c where
  corpus := faithful.corpus
  unfrozen := faithful.unfrozen
  valid := faithful.valid
  grouped := ⟨made, faithful.grouped⟩
  entered := by
    intro key changed
    obtain ⟨e, member, rfl⟩ := faithful.grouped.exists_edit changed
    exact faithful.mirrored.entered e member
  unchanged := by
    intro key unchanged
    rw [← faithful.replayed_eq, replayed_of_unchanged c unchanged]

/-- A faithful log can be frozen, and the final view has what the overlay has. -/
theorem freeze (faithful : l.IsFaithful c made) :
    ∃ view frozen, l.freeze = (.ok view, frozen) ∧ ∀ key, view.annotations key = l.overlay.current key := by
  rcases faithful.isSeated.freeze with ⟨view, froze, agree⟩ | ⟨key, -, differs⟩
  · refine ⟨view, l.freeze.2, Prod.ext froze rfl, ?_⟩
    intro key
    rw [← faithful.replayed_eq]
    exact (agree key).1
  · rw [faithful.replayed_eq, AnnotationSet.beq_refl] at differs
    cases differs

end EditLog.IsFaithful

/-- A run of accesses with steady predicates, whatever they are and in whatever order, never fails. After
    it every declaration that is read has the set that its edits make of the one of the corpus. Replaying it on
    the latter comes to this set, with the annotations in the same order; and the log can be frozen, with a final
    view that answers the same. -/
theorem replay_overlay_and_final_view_agree (c : Corpus) (accesses : List Access)
    (steady : ∀ access ∈ accesses, access.IsSteady) :
    ∃ l, EditLog.run c accesses = .ok l ∧ ∃ view frozen, l.freeze = (.ok view, frozen) ∧
      ∀ key, ∃ set entered, l.overlay.read key = .ok (set, entered) ∧
        set = afterEdits key (c.seed key) (accesses.filterMap Access.edit?) ∧
        (l.replayInto key (c.seed key)).1 = set ∧
        (l.replay key).foldl AnnotationSet.receive (c.seed key) = set ∧
        view.annotations key = set := by
  obtain ⟨l, ran, faithful⟩ := (EditLog.IsFaithful.ofCorpus c).foldlM_perform steady
  obtain ⟨view, frozen, froze, final⟩ := faithful.freeze
  refine ⟨l, ran, view, frozen, froze, ?_⟩
  intro key
  have recorded : afterChanges (c.seed key) (changesOf l.records key) = l.overlay.current key := faithful.replayed_eq key
  refine ⟨_, _, Overlay.read_eq faithful.valid key, faithful.current key, ?_, ?_, final key⟩
  · rw [← recorded, l.replayInto_fst]
  · rw [← recorded, l.foldl_receive_replay]

/-- A class with one method, which is annotated, as is its parameter. -/
def depot : Corpus where
  outlines := [⟨⟨"app.Depot"⟩, .regular, none, [], [],
    [⟨"send", [⟨.primitive .int, none, [.marker ⟨"app.Checked"⟩]⟩], .void, [.marker ⟨"app.Traced"⟩], none, false⟩],
    []⟩]
  classes := _
  declared := rfl
  accepted := by decide +kernel

/-- The method of the depot and its parameter. -/
def depotSend : MethodKey := ⟨⟨"app.Depot"⟩, "send", [.primitive .int]⟩

def depotLoad : DeclKey := .parameter ⟨depotSend, 0⟩

/-- Edits of the method and of its parameter, which one record holds, and of a class that is not in the
    corpus, with reads between them. -/
def depotAccesses : List Access :=
  [.read depotLoad, .add depotLoad (.marker ⟨"app.Weighed"⟩), .remove (.method depotSend) .all,
    .has depotLoad ⟨"app.Checked"⟩, .remove depotLoad (.ofTest (·.type == ⟨"app.Checked"⟩)),
    .add (.type ⟨"app.Annex"⟩) (.marker ⟨"app.Traced"⟩), .declarationsWith ⟨"app.Traced"⟩]

theorem replay_overlay_and_final_view_agree_in_depot :
    (∀ access ∈ depotAccesses, access.IsSteady) ∧
      ∃ l, EditLog.run depot depotAccesses = .ok l ∧ ∃ view frozen, l.freeze = (.ok view, frozen) ∧
        (view.annotations depotLoad).types = [⟨"app.Weighed"⟩] := by
  have steady : ∀ access ∈ depotAccesses, access.IsSteady := by
    simp [depotAccesses, Access.IsSteady, Predicate.all]
  obtain ⟨l, ran, view, frozen, froze, agree⟩ := replay_overlay_and_final_view_agree depot depotAccesses steady
  refine ⟨steady, l, ran, view, frozen, froze, ?_⟩
  obtain ⟨set, entered, -, -, replayed, -, final⟩ := agree depotLoad
  have types : (EditLog.run depot depotAccesses).toOption.map
      (fun l => (l.replayInto depotLoad (depot.seed depotLoad)).1.types) = some [⟨"app.Weighed"⟩] := by decide +kernel
  rw [ran] at types
  rw [final, ← replayed]
  exact Option.some.inj types

end AnnotationWeaver
