import AnnotationWeaver.Extension.Editing
import AnnotationWeaver.Proofs.EditRuns

/-!
Freezing after edits with predicates of any kind, steady or not. Whatever the predicates answer, every edited
declaration has an entry in the overlay and every other has what the corpus gives it, so the check of a freeze
misses none: the final view has what the overlay has, or the freeze names a declaration for which the replay
comes to another set. Either way the log is frozen from then on, and refuses edits without a trace.
-/
namespace AnnotationWeaver.EditLog

variable {c : Corpus} {l l' : EditLog}

namespace IsSeated

theorem ofCorpus (c : Corpus) : (ofCorpus c).IsSeated c where
  corpus := rfl
  unfrozen := rfl
  valid := rfl
  grouped := ⟨[], .nil⟩
  entered := fun _ changed => absurd rfl changed
  unchanged := fun _ _ => rfl

theorem commit (seated : l.IsSeated c) (key : DeclKey) (change : Change) : (l.commit key change).IsSeated c where
  corpus := seated.corpus
  unfrozen := seated.unfrozen
  valid := seated.valid
  grouped := by
    obtain ⟨made, groups⟩ := seated.grouped
    exact ⟨_, groups.push key change _⟩
  entered := by
    intro other changed
    rw [EditLog.commit, changesOf_push] at changed
    rw [EditLog.commit, Overlay.isOverlaid_put]
    by_cases same : key = other
    · exact .inl same
    · rw [if_neg same, List.append_nil] at changed
      exact .inr (seated.entered other changed)
  unchanged := by
    intro other unchanged
    rw [EditLog.commit, changesOf_push] at unchanged
    obtain ⟨untouched, no_more⟩ := List.append_eq_nil_iff.1 unchanged
    have other_key : key ≠ other := fun same => by simp [same] at no_more
    rw [EditLog.commit, Overlay.current_put, if_neg other_key]
    exact seated.unchanged other untouched

theorem read (seated : l.IsSeated c) (key : DeclKey) :
    IsSeated c (l.withOverlay (l.overlay.put key (l.overlay.current key))) where
  corpus := seated.corpus
  unfrozen := seated.unfrozen
  valid := seated.valid
  grouped := seated.grouped
  entered := fun other changed => (l.overlay.isOverlaid_put _ _ _).2 (.inr (seated.entered other changed))
  unchanged := fun other unchanged =>
    (l.overlay.current_put_current key other).trans (seated.unchanged other unchanged)

/-- A replay changes how often predicates were asked, and not of which declarations there are changes. -/
theorem replay (seated : l.IsSeated c) (key : DeclKey) (set : AnnotationSet) :
    IsSeated c (l.replayInto key set).2 where
  corpus := seated.corpus
  unfrozen := seated.unfrozen
  valid := seated.valid
  grouped := by
    obtain ⟨made, groups⟩ := seated.grouped
    exact ⟨made, groups.of_unasked (l.replayInto_snd key set)⟩
  entered := by
    intro other changed
    rw [Ne, changesOf_eq_nil_of_unasked (l.replayInto_snd key set)] at changed
    exact seated.entered other changed
  unchanged := by
    intro other unchanged
    rw [changesOf_eq_nil_of_unasked (l.replayInto_snd key set)] at unchanged
    exact seated.unchanged other unchanged

theorem step (seated : l.IsSeated c) {edit? : Option Edit} (step : l.Step edit? l') : l'.IsSeated c := by
  cases step with
  | edit key change => exact seated.commit key change
  | read key => exact seated.read key
  | replay key set => exact seated.replay key set
  | look => exact seated

/-- A run of accesses, with predicates of any kind, never fails and leaves the log seated. -/
theorem foldlM_perform (seated : l.IsSeated c) (accesses : List Access) :
    ∃ l', accesses.foldlM perform l = .ok l' ∧ l'.IsSeated c := by
  induction accesses generalizing l with
  | nil => exact ⟨l, rfl, seated⟩
  | cons access rest ih =>
    obtain ⟨next, performed, step⟩ := exists_step seated.unfrozen seated.valid access
    obtain ⟨final, ran, seated'⟩ := ih (seated.step step)
    refine ⟨final, ?_, seated'⟩
    rw [List.foldlM_cons, performed]
    exact ran

end IsSeated

/-! ### Frozen logs -/

theorem edit_of_isFrozen (frozen : l.isFrozen = true) (key : DeclKey) (change : Change) :
    l.edit key change = .error .frozen := if_pos frozen

/-- The log refuses to be edited or frozen, and is what it was after each refusal. -/
structure Refuses (l : EditLog) : Prop where
  add : ∀ key a, l.add key a = .error .frozen
  remove : ∀ key p, l.remove key p = .error .frozen
  freeze : l.freeze = (.error .frozen, l)
  answerAdd : ∀ key a notes, Workbench.answer (.add key a) ⟨l, notes⟩ = (.error (.edit .frozen), ⟨l, notes⟩)
  answerRemove : ∀ key p notes, Workbench.answer (.remove key p) ⟨l, notes⟩ = (.error (.edit .frozen), ⟨l, notes⟩)

theorem refuses_of_isFrozen (frozen : l.isFrozen = true) : l.Refuses := by
  have add (key : DeclKey) (a : Annotation) : l.add key a = .error .frozen := by
    rw [EditLog.add, edit_of_isFrozen frozen]
    rfl
  have remove (key : DeclKey) (p : Predicate) : l.remove key p = .error .frozen := edit_of_isFrozen frozen _ _
  refine ⟨add, remove, if_pos frozen, ?_, ?_⟩
  · intro key a notes
    simp [Workbench.answer, add]
  · intro key p notes
    simp [Workbench.answer, remove]

theorem isFrozen_of_perform (frozen : l.isFrozen = true) {access : Access} (performed : l.perform access = .ok l') :
    l'.isFrozen = true := (step_of_perform performed).flags.1.trans frozen

theorem isFrozen_of_foldlM (frozen : l.isFrozen = true) {accesses : List Access}
    (ran : accesses.foldlM perform l = .ok l') : l'.isFrozen = true := by
  induction accesses generalizing l with
  | nil =>
    obtain rfl := Except.ok.inj ran
    exact frozen
  | cons access rest ih =>
    rw [List.foldlM_cons] at ran
    cases performed : l.perform access with
    | error e =>
      rw [performed] at ran
      cases ran
    | ok next =>
      rw [performed] at ran
      exact ih (isFrozen_of_perform frozen performed) ran

/-- A run of accesses with predicates of any kind never fails, and a freeze after it is sound. Either there is a
    final view, which has for every declaration the set that the overlay has, or a declaration is named for which
    the replay of the log comes to another set than the overlay has. The freeze leaves the overlay as it was, and
    all changes in the records; from then on, whatever is looked at or replayed, the log refuses to be edited or frozen,
    and a refusal changes nothing. -/
theorem freeze_sound (c : Corpus) (accesses : List Access) :
    ∃ l, run c accesses = .ok l ∧
      ∃ sets : DeclKey → AnnotationSet, (∀ key, ∃ entered, l.overlay.read key = .ok (sets key, entered)) ∧
      ∃ result frozen, l.freeze = (result, frozen) ∧
        ((∃ view, result = .ok view ∧ ∀ key, (sets key == view.annotations key) = true ∧
            view.annotations key = (l.replayInto key (c.seed key)).1) ∨
          ∃ key, result = .error (.replayDivergence key) ∧
            (sets key == (l.replayInto key (c.seed key)).1) = false) ∧
        frozen.overlay = l.overlay ∧ unaskedRecords frozen.records = unaskedRecords l.records ∧
        frozen.isFrozen = true ∧
        ∀ (later : List Access) (after : EditLog), later.foldlM perform frozen = .ok after → after.Refuses := by
  obtain ⟨l, ran, seated⟩ := (IsSeated.ofCorpus c).foldlM_perform accesses
  have replays (key : DeclKey) : (l.replayInto key (c.seed key)).1 = replayed c l.records key := l.replayInto_fst key _
  obtain ⟨frozen, overlay, records⟩ := l.freeze_snd
  refine ⟨l, ran, l.overlay.current, fun key => ⟨_, Overlay.read_eq seated.valid key⟩, l.freeze.1, l.freeze.2, rfl,
    ?_, overlay, records, frozen, ?_⟩
  · rcases seated.freeze with ⟨view, froze, agree⟩ | ⟨key, named, differs⟩
    · refine .inl ⟨view, froze, ?_⟩
      intro key
      obtain ⟨final, same⟩ := agree key
      exact ⟨final ▸ same, final.trans (replays key).symm⟩
    · exact .inr ⟨key, named, replays key ▸ differs⟩
  · intro later after looked
    exact refuses_of_isFrozen (isFrozen_of_foldlM frozen looked)

/-- A predicate that holds only in its first answer takes an annotation away once, and not again in the replay. -/
example : ((run depot [.remove depotLoad (.firstCalls 1)]).toOption.map fun l => l.freeze.1.isOk) = some false := by
  decide +kernel

end AnnotationWeaver.EditLog
