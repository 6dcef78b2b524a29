import AnnotationWeaver.Proofs.Freezing

/-!
The history of a log: the edits that were made of it, in their order, whatever was read, replayed, frozen or put out of
use in between. The records of a log group its history at every point, as each operation brings the edit that it makes
into them and does no more to them than ask their predicates. So the replay of a declaration delivers the edits of that
declaration, for a method also those of its parameters in between, and no others. An edit that is refused leaves no
trace; from the first freeze on, or once the overlay is put out of use, every edit is refused.
-/
namespace AnnotationWeaver

namespace Edit

/-- What the replay of a declaration delivers of an edit. The edits of a parameter are also those of its method, which
    sees them at the position of the parameter. -/
def deliveryFor? (e : Edit) : DeclKey → Option (EditTarget × Change)
  | .method m =>
    match e.key with
    | .method k => if k = m then some (.declaration, e.change) else none
    | .parameter p => if p.method = m then some (.parameter p.position, e.change) else none
    | _ => none
  | key => if e.key = key then some (.declaration, e.change) else none

/-- What a replay of the declaration that holds the edit delivers of it. -/
theorem deliveryFor?_of_owner {key : DeclKey} (own : key.owner = key) (e : Edit) :
    e.deliveryFor? key = if e.key.owner = key then some (e.key.target, e.change) else none := by
  obtain ⟨edited, change⟩ := e
  cases key with
  | parameter p => cases own
  | method m => cases edited <;> simp [deliveryFor?, DeclKey.owner, DeclKey.target]
  | type name => cases edited <;> simp [deliveryFor?, DeclKey.owner, DeclKey.target]
  | field f => cases edited <;> simp [deliveryFor?, DeclKey.owner, DeclKey.target]

end Edit

namespace EditLog

/-- What is done with a log and its overlay. -/
inductive Operation where
  | access (a : Access)
  | freeze
  | invalidate

/-- The edit that the operation is, if it is one. -/
def Operation.edit? : Operation → Option Edit
  | .access a => a.edit?
  | _ => none

def Operation.isAccess : Operation → Bool
  | .access _ => true
  | _ => false

/-- The log after an operation; one that is refused leaves it as it was. -/
def after (l : EditLog) : Operation → EditLog
  | .access a => (l.perform a).toOption.getD l
  | .freeze => l.freeze.2
  | .invalidate => l.withOverlay l.overlay.invalidate

/-- The edit that an operation makes of the log: it is one, and it is not refused. -/
def made? (l : EditLog) : Operation → Option Edit
  | .access a => if (l.perform a).isOk then a.edit? else none
  | _ => none

/-- The edits that operations make of the log, in their order. -/
def history (l : EditLog) : List Operation → List Edit
  | [] => []
  | op :: rest => (l.made? op).toList ++ (l.after op).history rest

/-- The log recounts the edits: for each declaration a replay delivers what belongs to it, in the order of the edits,
    and the declarations with a record are those with an edit, once each, in the order of their first edits. -/
structure Recounts (l : EditLog) (edits : List Edit) : Prop where
  replay : ∀ key, (l.replay key).map (Prod.map id Change.unasked) = edits.filterMap (·.deliveryFor? key)
  once : l.owners.Nodup
  listed : ∀ key, key ∈ l.owners ↔ ∃ e ∈ edits, e.key.owner = key
  ordered : l.owners.Pairwise fun key key' =>
    (edits.map (·.key.owner)).idxOf key < (edits.map (·.key.owner)).idxOf key'

/-! ### One operation -/

theorem after_of_ok {l l' : EditLog} {a : Access} (performed : l.perform a = .ok l') : l.after (.access a) = l' := by
  rw [after, performed]
  rfl

theorem after_of_error {l : EditLog} {a : Access} {e : EditError} (failed : l.perform a = .error e) :
    l.after (.access a) = l := by
  rw [after, failed]
  rfl

theorem made?_of_ok {l l' : EditLog} {a : Access} (performed : l.perform a = .ok l') :
    l.made? (.access a) = a.edit? := by
  rw [made?, performed]
  rfl

theorem made?_of_error {l : EditLog} {a : Access} {e : EditError} (failed : l.perform a = .error e) :
    l.made? (.access a) = none := by
  rw [made?, failed]
  rfl

/-- An operation brings the edit that it makes into the records, and nothing else. -/
theorem groups_after {l : EditLog} {made : List Edit} (groups : Groups l.records made) (op : Operation) :
    Groups (l.after op).records (made ++ (l.made? op).toList) := by
  have unedited : Groups l.records (made ++ []) := by rwa [List.append_nil]
  cases op with
  | access a =>
    cases performed : l.perform a with
    | error e =>
      rw [after_of_error performed, made?_of_error performed]
      exact unedited
    | ok next =>
      rw [after_of_ok performed, made?_of_ok performed]
      exact (step_of_perform performed).groups groups
  | freeze => exact unedited.of_unasked l.freeze_snd.2.2
  | invalidate => exact unedited

/-- The edit that an operation makes asks its predicate for the first time. -/
theorem unasked_of_made? {l : EditLog} {op : Operation} {e : Edit} (made : l.made? op = some e) : e.unasked = e := by
  cases op with
  | access a =>
    rw [made?] at made
    split at made
    · cases a <;> cases made <;> rfl
    · cases made
  | _ => cases made

theorem map_unasked_history (l : EditLog) (operations : List Operation) :
    (l.history operations).map Edit.unasked = l.history operations := by
  induction operations generalizing l with
  | nil => rfl
  | cons op rest ih =>
    rw [history, List.map_append, ih]
    cases made : l.made? op with
    | none => rfl
    | some e => rw [Option.toList_some, List.map_singleton, unasked_of_made? made]

theorem history_append (l : EditLog) (operations later : List Operation) :
    l.history (operations ++ later) = l.history operations ++ (operations.foldl after l).history later := by
  induction operations generalizing l with
  | nil => rfl
  | cons op rest ih => simp [history, ih]

/-- The records hold what they held before, and the history from then on. -/
theorem groups_foldl_after {l : EditLog} {made : List Edit} (groups : Groups l.records made) (operations : List Operation) :
    Groups (operations.foldl after l).records (made ++ l.history operations) := by
  induction operations generalizing l made with
  | nil => simpa [history] using groups
  | cons op rest ih =>
    rw [List.foldl_cons, history, ← List.append_assoc]
    exact ih (groups_after groups op)

/-! ### What a replay delivers -/

/-- The changes in the record of a declaration that is no parameter are what a replay of it delivers. -/
theorem map_record_eq {l : EditLog} {made : List Edit} (groups : Groups l.records made) {key : DeclKey}
    (own : key.owner = key) :
    (l.record key).map (fun r => (r.target, r.change.unasked)) =
      (made.map Edit.unasked).filterMap (·.deliveryFor? key) := by
  calc (l.record key).map (fun r => (r.target, r.change.unasked))
      = ((l.record key).map RecordedChange.unasked).map fun r => (r.target, r.change) := by
        rw [List.map_map]
        rfl
    _ = (made.filter (·.key.owner == key)).map fun e => (e.key.target, e.change.unasked) := by
        rw [record, groups.held, List.map_map]
        rfl
    _ = (made.map Edit.unasked).filterMap (·.deliveryFor? key) := by
        rw [← List.filterMap_eq_map, List.filterMap_filter, List.filterMap_map]
        refine List.filterMap_congr fun e _ => ?_
        by_cases held : e.key.owner = key <;> simp [Edit.deliveryFor?_of_owner own, Edit.unasked, held]

/-- A replay delivers of the edits that the records hold what belongs to the declaration. -/
theorem replay_eq_filterMap {l : EditLog} {made : List Edit} (groups : Groups l.records made) (key : DeclKey) :
    (l.replay key).map (Prod.map id Change.unasked) = (made.map Edit.unasked).filterMap (·.deliveryFor? key) := by
  cases key with
  | parameter p =>
    calc (l.replay (.parameter p)).map (Prod.map id Change.unasked)
        = ((changesOf l.records (.parameter p)).map Change.unasked).map fun c => (EditTarget.declaration, c) := by
          rw [replay, changesOf, changesAt, List.map_map, List.map_map, List.map_map]
          rfl
      _ = (made.filter (·.key == .parameter p)).map fun e => (EditTarget.declaration, e.change.unasked) := by
          rw [groups.changesOf_eq, List.map_map]
          rfl
      _ = (made.map Edit.unasked).filterMap (·.deliveryFor? (.parameter p)) := by
          rw [← List.filterMap_eq_map, List.filterMap_filter, List.filterMap_map]
          refine List.filterMap_congr fun e _ => ?_
          by_cases same : e.key = .parameter p <;> simp [Edit.deliveryFor?, Edit.unasked, same]
  | _ => exact List.map_map.trans (map_record_eq groups rfl)

/-- Records that group edits with predicates not asked before recount them. -/
theorem recounts_of_groups {l : EditLog} {made : List Edit} (groups : Groups l.records made)
    (unasked : made.map Edit.unasked = made) : l.Recounts made := by
  refine ⟨fun key => ?_, groups.nodup_owners, fun key => ?_, ?_⟩
  · rw [replay_eq_filterMap groups, unasked]
  · rw [owners, groups.owners, List.mem_eraseDups, List.mem_map]
  · rw [owners, groups.owners]
    exact pairwise_idxOf_eraseDups _

/-! ### Logs that refuse edits -/

/-- The log is frozen or its overlay out of use, so every edit is refused. -/
def RefusesEdits (l : EditLog) : Prop := l.isFrozen = true ∨ l.overlay.valid = false

theorem edit_of_refusesEdits {l : EditLog} (refuses : l.RefusesEdits) (key : DeclKey) (change : Change) :
    ∃ e, l.edit key change = .error e := by
  rcases refuses with frozen | invalid
  · exact ⟨_, edit_of_isFrozen frozen key change⟩
  · cases frozen : l.isFrozen with
    | true => exact ⟨_, edit_of_isFrozen frozen key change⟩
    | false => exact ⟨.overlay .invalidated, by simp [edit, frozen, invalid]⟩

theorem made?_of_refusesEdits {l : EditLog} (refuses : l.RefusesEdits) (op : Operation) : l.made? op = none := by
  cases op with
  | access a =>
    cases a with
    | add key a =>
      obtain ⟨e, refused⟩ := edit_of_refusesEdits refuses key (.add a)
      rw [made?, perform, add, refused]
      rfl
    | remove key p =>
      obtain ⟨e, refused⟩ := edit_of_refusesEdits refuses key (.remove p 0)
      rw [made?, perform, remove, refused]
      rfl
    | _ => simp [made?, Access.edit?]
  | _ => rfl

theorem refusesEdits_after {l : EditLog} (refuses : l.RefusesEdits) (op : Operation) : (l.after op).RefusesEdits := by
  cases op with
  | freeze => exact .inl l.freeze_snd.1
  | invalidate => exact .inr rfl
  | access a =>
    cases performed : l.perform a with
    | error e => exact (after_of_error performed).symm ▸ refuses
    | ok l' =>
      obtain ⟨frozen, valid⟩ := (step_of_perform performed).flags
      rw [after_of_ok performed]
      exact refuses.imp frozen.trans valid.trans

theorem history_of_refusesEdits {l : EditLog} (refuses : l.RefusesEdits) (operations : List Operation) :
    l.history operations = [] := by
  induction operations generalizing l with
  | nil => rfl
  | cons op rest ih =>
    rw [history, made?_of_refusesEdits refuses, ih (refusesEdits_after refuses op)]
    rfl

/-- The history of an open log consists of all edits before the first freeze, or before its overlay is put out of use. -/
theorem history_of_isSeated {c : Corpus} {l : EditLog} (seated : l.IsSeated c) (operations : List Operation) :
    l.history operations = (operations.takeWhile Operation.isAccess).filterMap Operation.edit? := by
  induction operations generalizing l with
  | nil => rfl
  | cons op rest ih =>
    cases op with
    | access a =>
      obtain ⟨l', performed, step⟩ := exists_step seated.unfrozen seated.valid a
      rw [history, made?_of_ok performed, after_of_ok performed, ih (seated.step step), List.takeWhile_cons_of_pos rfl]
      cases edited : a.edit? <;> simp [Operation.edit?, edited]
    | freeze => exact history_of_refusesEdits (.inl l.freeze_snd.1) rest
    | invalidate => exact history_of_refusesEdits (.inr rfl) rest

/-! ### Refusals -/

theorem error_of_edit {l : EditLog} {key : DeclKey} {change : Change} {e : EditError}
    (refused : l.edit key change = .error e) : e = .frozen ∨ e = .overlay .invalidated := by
  unfold edit at refused
  split at refused
  · exact .inl (Except.error.inj refused).symm
  · split at refused
    · cases refused
    · exact .inr (Except.error.inj refused).symm

theorem error_of_perform {l : EditLog} {access : Access} {e : EditError} (failed : l.perform access = .error e) :
    e = .frozen ∨ e = .overlay .invalidated := by
  cases access with
  | add key a => exact error_of_edit (error_of_map failed)
  | remove key p => exact error_of_edit (error_of_map failed)
  | replay key set => cases failed
  | read key =>
    obtain ⟨⟨⟩, rfl⟩ := exists_error_of_map_mapError failed
    exact .inr rfl
  | has key type =>
    obtain ⟨⟨⟩, rfl⟩ := exists_error_of_map_mapError failed
    exact .inr rfl
  | overlaidWith type =>
    obtain ⟨⟨⟩, rfl⟩ := exists_error_of_map_mapError failed
    exact .inr rfl
  | declarationsWith type =>
    obtain ⟨⟨⟩, rfl⟩ := exists_error_of_map_mapError failed
    exact .inr rfl

/-- Whatever is done with the log of a corpus, edits, reads, replays, freezes, and putting the overlay out of use, in any
    order, the log recounts its history. The history consists of the edits before the first freeze and before the
    overlay was put out of use. An access that fails does so because the log is frozen or the overlay out of use; it
    leaves the log as it was, and adds nothing to the history. -/
theorem replays_deliver_the_history (c : Corpus) (operations : List Operation) :
    (operations.foldl after (ofCorpus c)).Recounts ((ofCorpus c).history operations) ∧
      (ofCorpus c).history operations = (operations.takeWhile Operation.isAccess).filterMap Operation.edit? ∧
      ∀ access e, (operations.foldl after (ofCorpus c)).perform access = .error e →
        (e = .frozen ∨ e = .overlay .invalidated) ∧
          (operations ++ [Operation.access access]).foldl after (ofCorpus c) = operations.foldl after (ofCorpus c) ∧
          (ofCorpus c).history (operations ++ [Operation.access access]) = (ofCorpus c).history operations := by
  have groups : Groups (operations.foldl after (ofCorpus c)).records ([] ++ (ofCorpus c).history operations) :=
    groups_foldl_after .nil operations
  refine ⟨recounts_of_groups groups (map_unasked_history _ _), history_of_isSeated (.ofCorpus c) operations, ?_⟩
  intro access e failed
  refine ⟨error_of_perform failed, ?_, ?_⟩
  · rw [List.foldl_append]
    exact after_of_error failed
  · rw [history_append, history, made?_of_error failed]
    simp [history]

/-- The replay of a method tells its own edits from those of its parameter, and delivers none made after a freeze. -/
example : (((depotAccesses.map Operation.access ++
      [Operation.freeze, Operation.access (.add depotLoad (.marker ⟨"app.Late"⟩))]).foldl after (ofCorpus depot)).replay
        (.method depotSend)).map Prod.fst = [.parameter 0, .declaration, .parameter 0] := by
  decide +kernel

end EditLog

end AnnotationWeaver
