import AnnotationWeaver.Proofs.Replay
import AnnotationWeaver.Proofs.Sameness

/-!
The check that a freeze makes, for predicates of any kind. The record of a declaration is replayed on sets of its own, so
the check of one record leaves the replays of all others as they were. It follows that the whole check compares, for each
edited declaration, the overlay with what its changes make of the set of the corpus, as their predicates answer when the
freeze begins.
-/
namespace AnnotationWeaver

/-- The set that the changes of a declaration make of the one of the corpus, if they are replayed now. -/
def replayed (c : Corpus) (records : List (DeclKey × List RecordedChange)) (key : DeclKey) : AnnotationSet :=
  afterChanges (c.seed key) (changesOf records key)

/-- A declaration without changes is replayed to what it has in the corpus. -/
theorem replayed_of_unchanged (c : Corpus) {records : List (DeclKey × List RecordedChange)} {key : DeclKey}
    (unchanged : changesOf records key = []) : replayed c records key = c.seed key := by
  rw [replayed, unchanged]
  rfl

/-! ### One record -/

/-- The sets that a record is replayed to, with the declarations that they are of. -/
def replayedSets (c : Corpus) (owner : DeclKey) (record : List RecordedChange) : List (DeclKey × AnnotationSet) :=
  (replayRecord c owner [] record).1.map fun s => (s.1.resolve owner, s.2)

section

variable {c : Corpus} {owner : DeclKey} {record : List RecordedChange}
  (bound : ∀ r ∈ record, ∃ key : DeclKey, key.owner = owner ∧ key.target = r.target)
include bound

/-- The sets that a record is replayed to are those of its declarations, each after its changes. -/
theorem mem_replayedSets {key : DeclKey} {set : AnnotationSet} :
    (key, set) ∈ replayedSets c owner record ↔
      key.owner = owner ∧ changesAt key.target record ≠ [] ∧
        set = afterChanges (c.seed key) (changesAt key.target record) := by
  have distinct := nodup_replayRecord c owner [] record List.nodup_nil
  have found (target : EditTarget) := find?_replayRecord c owner [] record target
  constructor
  · intro member
    obtain ⟨⟨target, final⟩, listed, same⟩ := List.mem_map.1 member
    have entry := (Assoc.find?_of_mem distinct listed).symm.trans (found target)
    split at entry
    · cases entry
    · next changed =>
      obtain ⟨r, known, at_target⟩ := exists_of_changesAt_ne_nil changed
      obtain ⟨key', own, touched⟩ := bound r known
      obtain rfl : key' = key := by
        rw [← key'.resolve_target, own, touched, at_target]
        exact congrArg Prod.fst same
      obtain rfl : key'.target = target := touched.trans at_target
      obtain rfl : final = set := congrArg Prod.snd same
      rw [← own, DeclKey.resolve_target] at entry
      exact ⟨own, changed, Option.some.inj entry⟩
  · rintro ⟨rfl, changed, rfl⟩
    have entry := (found key.target).trans (if_neg changed)
    rw [DeclKey.resolve_target] at entry
    exact List.mem_map.2 ⟨_, Assoc.mem_of_find? entry, by rw [DeclKey.resolve_target]; rfl⟩

theorem find?_replayedSets (key : DeclKey) :
    Assoc.find? key (replayedSets c owner record) =
      if key.owner = owner ∧ changesAt key.target record ≠ [] then
        some (afterChanges (c.seed key) (changesAt key.target record))
      else none := by
  split
  · next changed =>
    have member := (mem_replayedSets (c := c) bound).2 ⟨changed.1, changed.2, rfl⟩
    have known : (Assoc.find? key (replayedSets c owner record)).isSome := by
      rw [Assoc.find?_isSome_iff]
      exact List.mem_map.2 ⟨_, member, rfl⟩
    obtain ⟨set, found⟩ := Option.isSome_iff_exists.1 known
    rw [found, ((mem_replayedSets bound).1 (Assoc.mem_of_find? found)).2.2]
  · next unchanged =>
    cases found : Assoc.find? key (replayedSets c owner record) with
    | none => rfl
    | some set =>
      obtain ⟨own, changed, -⟩ := (mem_replayedSets bound).1 (Assoc.mem_of_find? found)
      exact absurd ⟨own, changed⟩ unchanged

end

/-- Sets that are all entered either agree with the overlay, or the first that does not is named. -/
theorem divergence?_spec {live : Overlay} {sets : List (DeclKey × AnnotationSet)}
    (entered : ∀ e ∈ sets, live.isOverlaid e.1) :
    (divergence? live sets = none ∧ ∀ e ∈ sets, (live.current e.1 == e.2) = true) ∨
      ∃ e ∈ sets, divergence? live sets = some (.replayDivergence e.1) ∧ (live.current e.1 == e.2) = false := by
  induction sets with
  | nil => exact .inl ⟨rfl, by simp⟩
  | cons e rest ih =>
    obtain ⟨key, set⟩ := e
    have found := Overlay.lookup_of_isOverlaid (entered (key, set) List.mem_cons_self)
    cases held : live.current key == set with
    | false =>
      refine .inr ⟨(key, set), List.mem_cons_self, ?_, held⟩
      simp [divergence?, found, held]
    | true =>
      have skipped : divergence? live ((key, set) :: rest) = divergence? live rest := by
        simp [divergence?, found, held]
      rw [skipped]
      rcases ih fun e later => entered e (List.mem_cons_of_mem _ later) with ⟨clear, agree⟩ | ⟨e, later, named, differs⟩
      · refine .inl ⟨clear, ?_⟩
        intro e member
        rcases List.mem_cons.1 member with rfl | later
        · exact held
        · exact agree e later
      · exact .inr ⟨e, List.mem_cons_of_mem _ later, named, differs⟩

/-! ### All records -/

/-- How the check of records ends: with the replayed set of each declaration that has changes, all of them as the overlay
    has them, or with the name of one that is not. -/
inductive Checked (live : Overlay) (records : List (DeclKey × List RecordedChange)) :
    Except EditError (List (DeclKey × AnnotationSet)) → Prop
  | agreed {revised : List (DeclKey × AnnotationSet)}
    (found : ∀ key, Assoc.find? key revised =
      if changesOf records key = [] then none else some (replayed live.corpus records key))
    (same : ∀ key, changesOf records key ≠ [] → (live.current key == replayed live.corpus records key) = true) :
    Checked live records (.ok revised)
  | diverged {key : DeclKey} (changed : changesOf records key ≠ [])
    (differs : (live.current key == replayed live.corpus records key) = false) :
    Checked live records (.error (.replayDivergence key))

theorem changesOf_cons (owner : DeclKey) (record : List RecordedChange) (rest : List (DeclKey × List RecordedChange))
    (key : DeclKey) :
    changesOf ((owner, record) :: rest) key =
      if owner = key.owner then changesAt key.target record else changesOf rest key := by
  rw [changesOf, Assoc.listed, Assoc.find?_cons]
  split <;> rfl

/-- Another record has no changes of a declaration. -/
theorem changesOf_of_notMem {records : List (DeclKey × List RecordedChange)} {key : DeclKey}
    (absent : key.owner ∉ records.map (·.1)) : changesOf records key = [] := by
  rw [← Assoc.find?_isSome_iff, Option.not_isSome_iff_eq_none] at absent
  rw [changesOf, Assoc.listed, absent]
  rfl

section

variable {live : Overlay} {owner : DeclKey} {record : List RecordedChange} {rest : List (DeclKey × List RecordedChange)}

/-- After one record that agrees, the check of the others is the check of them all. -/
theorem Checked.cons (bound : ∀ r ∈ record, ∃ key : DeclKey, key.owner = owner ∧ key.target = r.target)
    (fresh : owner ∉ rest.map (·.1))
    (agreed : ∀ e ∈ replayedSets live.corpus owner record, (live.current e.1 == e.2) = true)
    {result : Except EditError (List (DeclKey × AnnotationSet))} (checked : Checked live rest result) :
    Checked live ((owner, record) :: rest) (result.map (replayedSets live.corpus owner record ++ ·)) := by
  have own {key : DeclKey} (held : owner = key.owner) : changesOf rest key = [] :=
    changesOf_of_notMem (held ▸ fresh)
  cases checked with
  | agreed found same =>
    refine .agreed ?_ ?_
    · intro key
      rw [Assoc.find?_append, find?_replayedSets bound, found, replayed, replayed, changesOf_cons]
      by_cases held : owner = key.owner
      · by_cases changed : changesAt key.target record = []
        · simp [held, changed, own held]
        · simp [held, changed]
      · simp [held, Ne.symm held]
    · intro key changed
      rw [replayed, changesOf_cons] at *
      by_cases held : owner = key.owner
      · rw [if_pos held] at changed ⊢
        exact agreed _ ((mem_replayedSets bound).2 ⟨held.symm, changed, rfl⟩)
      · rw [if_neg held] at changed ⊢
        exact same key changed
  | @diverged key changed differs =>
    have held : owner ≠ key.owner := fun same => changed (own same)
    have passed : changesOf ((owner, record) :: rest) key = changesOf rest key := by rw [changesOf_cons, if_neg held]
    refine .diverged (passed ▸ changed) ?_
    rw [replayed, passed]
    exact differs

end

/-- Asking predicates takes no change away and adds none. -/
theorem replayRecords_snd (live : Overlay) (records : List (DeclKey × List RecordedChange)) :
    unaskedRecords (replayRecords live records).2 = unaskedRecords records := by
  induction records with
  | nil => rfl
  | cons r rest ih =>
    obtain ⟨owner, record⟩ := r
    have first := replayRecord_snd live.corpus owner [] record
    rw [replayRecords]
    dsimp only
    split
    · simp [unaskedRecords, first]
    · simpa [unaskedRecords, first] using ih

/-- The check of records compares the replays of their declarations with an overlay in which these are entered. -/
theorem checked_replayRecords {live : Overlay} {records : List (DeclKey × List RecordedChange)}
    (distinct : (records.map (·.1)).Nodup)
    (bound : ∀ r ∈ records, ∀ change ∈ r.2, ∃ key : DeclKey, key.owner = r.1 ∧ key.target = change.target)
    (entered : ∀ key, changesOf records key ≠ [] → live.isOverlaid key) :
    Checked live records (replayRecords live records).1 := by
  induction records with
  | nil => exact .agreed (fun _ => rfl) fun _ changed => absurd rfl changed
  | cons r rest ih =>
    obtain ⟨owner, record⟩ := r
    obtain ⟨fresh, distinct⟩ := List.nodup_cons.1 distinct
    obtain ⟨bound, bound'⟩ := List.forall_mem_cons.1 bound
    have entered' (key : DeclKey) (changed : changesOf rest key ≠ []) : live.isOverlaid key := by
      have held : owner ≠ key.owner := fun same => changed (changesOf_of_notMem (same ▸ fresh))
      refine entered key ?_
      rwa [changesOf_cons, if_neg held]
    have replays : ∀ e ∈ replayedSets live.corpus owner record, live.isOverlaid e.1 := by
      intro e member
      obtain ⟨held, changed, -⟩ := (mem_replayedSets bound).1 member
      refine entered e.1 ?_
      rwa [changesOf_cons, if_pos held.symm]
    have checked := ih distinct bound' entered'
    rw [replayRecords]
    dsimp only
    rw [← replayedSets]
    rcases divergence?_spec replays with ⟨clear, agreed⟩ | ⟨e, member, named, differs⟩
    · rw [clear]
      exact checked.cons bound fresh agreed
    · obtain ⟨held, changed, set⟩ := (mem_replayedSets bound).1 member
      have here : changesOf ((owner, record) :: rest) e.1 = changesAt e.1.target record := by
        rw [changesOf_cons, if_pos held.symm]
      rw [named]
      refine .diverged (here ▸ changed) ?_
      rw [replayed, here, ← set]
      exact differs

/-! ### Freezing -/

namespace EditLog

/-- The log is open, its overlay one of the corpus, in use, and its records are those of edits: what has changes has an
    entry in the overlay, and all else has what the corpus gives it. -/
structure IsSeated (c : Corpus) (l : EditLog) : Prop where
  corpus : l.overlay.corpus = c
  unfrozen : l.isFrozen = false
  valid : l.overlay.valid = true
  grouped : ∃ made, Groups l.records made
  entered : ∀ key, changesOf l.records key ≠ [] → l.overlay.isOverlaid key
  unchanged : ∀ key, changesOf l.records key = [] → l.overlay.current key = c.seed key

/-- Whatever comes of it, a freeze leaves a frozen log with the same overlay, and the same records up to how often
    their predicates were asked. -/
theorem freeze_snd (l : EditLog) :
    l.freeze.2.isFrozen = true ∧ l.freeze.2.overlay = l.overlay ∧
      unaskedRecords l.freeze.2.records = unaskedRecords l.records := by
  unfold freeze
  cases frozen : l.isFrozen with
  | true => exact ⟨frozen, rfl, rfl⟩
  | false =>
    cases valid : l.overlay.valid with
    | true => exact ⟨rfl, rfl, replayRecords_snd l.overlay l.records⟩
    | false => exact ⟨rfl, rfl, rfl⟩

/-- A freeze succeeds with the replayed sets if the overlay has the same for every declaration, and else names
    one for which it has another. -/
theorem IsSeated.freeze {c : Corpus} {l : EditLog} (seated : l.IsSeated c) :
    (∃ view, l.freeze.1 = .ok view ∧
        ∀ key, view.annotations key = replayed c l.records key ∧
          (l.overlay.current key == replayed c l.records key) = true) ∨
      ∃ key, l.freeze.1 = .error (.replayDivergence key) ∧
        (l.overlay.current key == replayed c l.records key) = false := by
  obtain ⟨made, groups⟩ := seated.grouped
  have checked : Checked l.overlay l.records (replayRecords l.overlay l.records).1 :=
    checked_replayRecords groups.nodup_owners (fun _ member _ => groups.exists_key member) seated.entered
  have result : l.freeze.1 =
      (replayRecords l.overlay l.records).1.map fun revised => ⟨l.overlay.corpus, revised⟩ := by
    simp [EditLog.freeze, seated.unfrozen, seated.valid]
  rw [result]
  generalize (replayRecords l.overlay l.records).1 = outcome at checked ⊢
  cases checked with
  | @agreed revised found same =>
    rw [seated.corpus] at found same
    refine .inl ⟨_, rfl, ?_⟩
    intro key
    by_cases unchanged : changesOf l.records key = []
    · have entry := (found key).trans (if_pos unchanged)
      rw [replayed_of_unchanged c unchanged, seated.unchanged key unchanged]
      exact ⟨by simp [FinalView.annotations, entry, seated.corpus], AnnotationSet.beq_refl _⟩
    · have entry := (found key).trans (if_neg unchanged)
      exact ⟨by simp [FinalView.annotations, entry], same key unchanged⟩
  | @diverged key changed differs => exact .inr ⟨key, rfl, seated.corpus ▸ differs⟩

end EditLog

end AnnotationWeaver
