import AnnotationWeaver.Proofs.PhaseRuns
import Mathlib.Data.List.Induction

/-!
The lifecycle of a build under calls that run its phases in any order, with any plans and resolvers. Calls out of
turn are refused and change nothing, so the phases that are entered are the first ones in their order. The log of
edits is open until the enhancement is entered and closed ever after; what is asked for in the enhancement is never
refused as too late. There is a final view exactly if the enhancement and the freeze that ends it succeeded, and it
answers as the overlay did when it was frozen.
-/
namespace AnnotationWeaver

/-! ### Views that answer alike -/

/-- Two views answer with annotations that are the same, and alike when asked for types and declarations. -/
structure View.AnswersAlike (v w : View) : Prop where
  annotations : ∀ key, ∃ s t, v.annotations key = .ok s ∧ w.annotations key = .ok t ∧ (s == t) = true
  has : ∀ key type, ∃ answer, v.has key type = .ok answer ∧ w.has key type = .ok answer
  declarationsWith : ∀ type, ∃ keys keys', v.declarationsWith type = .ok keys ∧ w.declarationsWith type = .ok keys' ∧
    ∀ key, key ∈ keys ↔ key ∈ keys'

theorem View.answersAlike_of_same {v w : View} (readable : v.IsReadable) (readable' : w.IsReadable)
    (same : ∀ key, (v.setOf key == w.setOf key) = true) : v.AnswersAlike w where
  annotations := fun key => ⟨_, _, annotations_eq readable key, annotations_eq readable' key, same key⟩
  has := by
    intro key type
    refine ⟨_, has_eq readable key type, ?_⟩
    rw [has_eq readable', AnnotationSet.contains_of_beq (same key)]
  declarationsWith := by
    intro type
    refine ⟨_, _, declarationsWith_eq readable type, declarationsWith_eq readable' type, ?_⟩
    intro key
    rw [List.mem_filter, List.mem_filter, AnnotationSet.contains_of_beq (same key)]
    constructor
    · rintro ⟨-, held⟩
      exact ⟨mem_candidates held, held⟩
    · rintro ⟨-, held⟩
      have held' := (AnnotationSet.contains_of_beq (same key) type).trans held
      exact ⟨mem_candidates held', held⟩

/-! ### Calls -/

/-- A call that runs a phase. -/
structure PhaseCall where
  plan : Plan
  resolver : Resolver
  phase : Phase

namespace Build

/-- How a call ends, and the state that it leaves. -/
def call (b : Build) (p : PhaseCall) : Except BuildError Unit × Build := (runPhase p.plan p.resolver p.phase).run b

/-- The state after calls, however they end. -/
def after (b : Build) (calls : List PhaseCall) : Build := calls.foldl (fun b p => (b.call p).2) b

/-- The phases that calls enter, one after the other: a call enters its phase if that is the expected one. -/
def entries (b : Build) : List PhaseCall → List Phase
  | [] => []
  | p :: rest => (if b.expected? = some p.phase then [p.phase] else []) ++ entries (b.call p).2 rest

theorem after_append (b : Build) (calls later : List PhaseCall) : b.after (calls ++ later) = (b.after calls).after later :=
  List.foldl_append

theorem entries_append (b : Build) (calls later : List PhaseCall) :
    b.entries (calls ++ later) = b.entries calls ++ (b.after calls).entries later := by
  induction calls generalizing b with
  | nil => rfl
  | cons p rest ih =>
    rw [List.cons_append, entries, entries, ih, List.append_assoc]
    rfl

theorem mem_entries {b : Build} {calls : List PhaseCall} {phase : Phase} : phase ∈ b.entries calls ↔
    ∃ earlier p later, calls = earlier ++ p :: later ∧ p.phase = phase ∧ (b.after earlier).expected? = some phase := by
  constructor
  · intro member
    induction calls generalizing b with
    | nil => exact absurd member List.not_mem_nil
    | cons p rest ih =>
      rw [entries] at member
      rcases List.mem_append.1 member with now | later
      · by_cases expected : b.expected? = some p.phase
        · rw [if_pos expected] at now
          obtain rfl := List.mem_singleton.1 now
          exact ⟨[], p, rest, rfl, rfl, expected⟩
        · rw [if_neg expected] at now
          exact absurd now List.not_mem_nil
      · obtain ⟨earlier, p', later', rfl, own, expected⟩ := ih later
        exact ⟨p :: earlier, p', later', rfl, own, expected⟩
  · rintro ⟨earlier, p, later, rfl, rfl, expected⟩
    rw [entries_append, entries, if_pos expected]
    simp

/-- After the first phases in their order, what can be entered is the phase that follows them. -/
theorem expected?_of_entered {b : Build} {phases : List Phase} (ordered : phases <+: Phase.all)
    (last : b.entered? = phases.getLast?) : b.expected? = Phase.all[phases.length]? := by
  have cut := List.prefix_iff_eq_take.1 ordered
  have short : phases.length ≤ 4 := ordered.length_le
  have next : b.expected? = b.entered?.elim (some .discovery) Phase.next? := by
    unfold expected?
    cases b.entered? <;> rfl
  have each : ∀ n ≤ 4, (Phase.all.take n).getLast?.elim (some .discovery) Phase.next? = Phase.all[n]? := by decide
  rw [next, last, ← each phases.length short, ← cut]

theorem append_prefix_of_next {phases : List Phase} {phase : Phase} (ordered : phases <+: Phase.all)
    (next : Phase.all[phases.length]? = some phase) : phases ++ [phase] <+: Phase.all := by
  rw [List.prefix_iff_eq_take]
  have cut := List.prefix_iff_eq_take.1 ordered
  rw [List.length_append, List.length_singleton, List.take_add_one, next, ← cut]
  rfl

/-! ### The enhancement of a run -/

/-- In one of the calls the configurators and callbacks of the enhancement all succeed, and leave a state. -/
def EnhancesTo (b : Build) (calls : List PhaseCall) (live : Build) : Prop :=
  ∃ earlier p later, calls = earlier ++ p :: later ∧ p.phase = .enhancement ∧
    (b.after earlier).expected? = some .enhancement ∧
    (runEnhancement (p.plan.of .enhancement)).run ((b.after earlier).entering .enhancement) = (.ok (), live)

/-- A configurator or a callback of the enhancement gets the failure for something that it asks for. -/
inductive RefusesWith (callbacks : List Callback) (b : Build) (e : Failure) : Prop
  | configurator {first rest : List (MetaKind × TypeName × Configurator)} {kind : MetaKind} {type : TypeName}
    {configurator : Configurator} {now : Build} {d : ClassDecl}
    (pending : b.metas.pending = first ++ (kind, type, configurator) :: rest)
    (ran : (first.forM fun p => configure p.1 p.2.1 p.2.2).run { b with metas := b.metas.taken } = (.ok (), now))
    (indexed : now.corpus.class? type = some d)
    (gets : Program.Gets Workbench.answer (configurator d) now.bench e)
  | callback {first rest : List Callback} {callback : Callback} {between now : Build} {done left : List Invocation}
    {i : Invocation}
    (listed : callbacks = first ++ callback :: rest)
    (ran : (runEnhancement first).run b = (.ok (), between))
    (found : callback.invocations between = .ok (done ++ i :: left))
    (invoked : (done.forM (invoke callback.body)).run between = (.ok (), now))
    (gets : Program.Gets (answer i) (callback.body i) (now.noting i) e)

theorem RefusesWith.not_isLate {c : Corpus} {b : Build} {entered? : Option Phase} {callbacks : List Callback}
    {e : Failure} (refuses : RefusesWith callbacks b e) (rests : b.Rests (EditLog.IsSeated c) none entered?) :
    ¬ e.IsLate := by
  have kept := EditLog.isKept_isSeated c
  cases refuses with
  | @configurator first _ _ _ configurator now d pending ran indexed gets =>
    have configured : BuildM.Keeps (Rests (EditLog.IsSeated c) none entered?)
        (first.forM fun p => configure p.1 p.2.1 p.2.2) :=
      BuildM.Keeps.forM first fun p _ => keeps_configure kept p.1 p.2.1 p.2.2
    have seated := configured { b with metas := b.metas.taken } ⟨rests.edits, rests.final, rests.entered⟩
    rw [ran] at seated
    obtain ⟨r, w, held, fails⟩ := gets.exists_answer (fun w : Workbench => w.edits.IsSeated c) kept seated.edits
    obtain ⟨reply, answered⟩ := (held.answer r).1
    rw [answered] at fails
    cases fails
  | @callback first _ callback between now done _ i _ ran _ invoked gets =>
    have enhanced := keeps_runEnhancement kept first b rests
    rw [ran] at enhanced
    have seated := BuildM.Keeps.forM done (fun i _ => keeps_invoke kept callback.body i) between enhanced
    rw [invoked] at seated
    obtain ⟨r, b', rests', fails⟩ := gets.exists_answer (Rests (EditLog.IsSeated c) none entered?)
      (fun r _ rests => rests.answer kept i r) ⟨seated.edits, seated.final, seated.entered⟩
    exact rests'.not_isLate fails

/-! ### Progress -/

/-- How far calls have brought a build: the log is open until the enhancement, and closed ever after with the final
    view that came of it. -/
structure Progress (c : Corpus) (start : Build) (calls : List PhaseCall) : Prop where
  ordered : start.entries calls <+: Phase.all
  last : (start.after calls).entered? = (start.entries calls).getLast?
  before : .enhancement ∉ start.entries calls →
    (start.after calls).Rests (EditLog.IsSeated c) none (start.after calls).entered?
  past : ∀ earlier p later, calls = earlier ++ p :: later → p.phase = .enhancement →
    (start.after earlier).expected? = some .enhancement →
    (start.after calls).Rests EditLog.IsClosed
      (finalAfter ((runEnhancement (p.plan.of .enhancement)).run ((start.after earlier).entering .enhancement)))
      (start.after calls).entered?

namespace Progress

variable {c : Corpus} {start : Build} {calls : List PhaseCall} {p : PhaseCall}

theorem ofStart (c : Corpus) (config : Config) (resolutions : Nat) :
    Progress c (Build.start c config resolutions) [] where
  ordered := List.nil_prefix
  last := rfl
  before := fun _ => ⟨EditLog.IsSeated.ofCorpus c, rfl, rfl⟩
  past := by
    intro earlier p later split
    exact absurd split (by simp)

theorem expected? (progress : Progress c start calls) :
    (start.after calls).expected? = Phase.all[(start.entries calls).length]? :=
  expected?_of_entered progress.ordered progress.last

/-- No phase is entered again. -/
theorem not_mem_of_expected (progress : Progress c start calls) {phase : Phase}
    (expected : (start.after calls).expected? = some phase) : phase ∉ start.entries calls := by
  have next := append_prefix_of_next progress.ordered (progress.expected?.symm.trans expected)
  have distinct : (start.entries calls ++ [phase]).Nodup := next.sublist.nodup (by decide)
  exact fun member => (List.nodup_append.1 distinct).2.2 phase member phase (List.mem_singleton.2 rfl) rfl

/-- The enhancement is where it was entered before, or it is the last call. -/
theorem split_snoc {earlier later : List PhaseCall} {q : PhaseCall} (split : calls ++ [p] = earlier ++ q :: later) :
    (later = [] ∧ earlier = calls ∧ q = p) ∨ ∃ later', later = later' ++ [p] ∧ calls = earlier ++ q :: later' := by
  rcases List.eq_nil_or_concat' later with rfl | ⟨later', r, rfl⟩
  · obtain ⟨rfl, same⟩ := List.append_inj' split rfl
    exact .inl ⟨rfl, rfl, (List.cons.inj same).1.symm⟩
  · have same : calls ++ [p] = (earlier ++ q :: later') ++ [r] := by simpa using split
    obtain ⟨rfl, last⟩ := List.append_inj' same rfl
    obtain rfl := (List.cons.inj last).1
    exact .inr ⟨later', rfl, rfl⟩

/-- A call out of turn brings the build no further. -/
theorem refused (progress : Progress c start calls) (unexpected : (start.after calls).expected? ≠ some p.phase) :
    Progress c start (calls ++ [p]) := by
  have same : start.after (calls ++ [p]) = start.after calls := by
    rw [after_append]
    exact congrArg Prod.snd (runPhase_run_unexpected unexpected p.plan p.resolver)
  have entries : start.entries (calls ++ [p]) = start.entries calls := by
    rw [entries_append, Build.entries, if_neg unexpected]
    exact List.append_nil _
  refine ⟨entries ▸ progress.ordered, ?_, ?_, ?_⟩
  · rw [same, entries]
    exact progress.last
  · rw [same, entries]
    exact progress.before
  · intro earlier q later split phase expected
    rcases split_snoc split with ⟨-, rfl, rfl⟩ | ⟨later', -, split'⟩
    · exact absurd (expected.trans (congrArg some phase.symm)) unexpected
    · rw [same]
      exact progress.past earlier q later' split' phase expected

/-- Before a call the log is open or closed, and either is kept. -/
theorem exists_rests (progress : Progress c start calls) :
    ∃ P final?, EditLog.IsKept P ∧ (start.after calls).Rests P final? (start.after calls).entered? := by
  by_cases past : .enhancement ∈ start.entries calls
  · obtain ⟨earlier, p, later, split, phase, expected⟩ := mem_entries.1 past
    exact ⟨_, _, EditLog.isKept_isClosed, progress.past earlier p later split phase expected⟩
  · exact ⟨_, _, EditLog.isKept_isSeated c, progress.before past⟩

/-- A call that enters another phase than the enhancement. -/
theorem entered (progress : Progress c start calls) (expected : (start.after calls).expected? = some p.phase)
    (other : p.phase ≠ .enhancement) : Progress c start (calls ++ [p]) := by
  have final : start.after (calls ++ [p]) = ((start.after calls).call p).2 := after_append start calls [p]
  have entries : start.entries (calls ++ [p]) = start.entries calls ++ [p.phase] := by
    rw [entries_append, Build.entries, if_pos expected]
    rfl
  have goes {P : EditLog → Prop} {final? : Option FinalView} (kept : EditLog.IsKept P)
      (rests : (start.after calls).Rests P final? (start.after calls).entered?) :
      (start.after (calls ++ [p])).Rests P final? (some p.phase) :=
    final ▸ rests.runPhase kept expected other p.plan p.resolver
  have entered : (start.after (calls ++ [p])).entered? = some p.phase := by
    obtain ⟨P, final?, kept, rests⟩ := progress.exists_rests
    exact (goes kept rests).entered
  rw [← entered] at goes
  refine ⟨?_, ?_, ?_, ?_⟩
  · rw [entries]
    exact append_prefix_of_next progress.ordered (progress.expected?.symm.trans expected)
  · rw [entries, entered, List.getLast?_concat]
  · intro ahead
    rw [entries] at ahead
    exact goes (EditLog.isKept_isSeated c) (progress.before fun member => ahead (List.mem_append_left _ member))
  · intro earlier q later split phase expected'
    rcases split_snoc split with ⟨-, -, rfl⟩ | ⟨later', -, split'⟩
    · exact absurd phase other
    · exact goes EditLog.isKept_isClosed (progress.past earlier q later' split' phase expected')

/-- The call that enters the enhancement. -/
theorem enhanced (progress : Progress c start calls) (expected : (start.after calls).expected? = some p.phase)
    (enhancement : p.phase = .enhancement) : Progress c start (calls ++ [p]) := by
  obtain ⟨plan, resolver, phase⟩ := p
  obtain rfl : phase = .enhancement := enhancement
  have final : start.after (calls ++ [⟨plan, resolver, .enhancement⟩]) =
      ((start.after calls).call ⟨plan, resolver, .enhancement⟩).2 := after_append start calls [_]
  have entries : start.entries (calls ++ [⟨plan, resolver, .enhancement⟩]) = start.entries calls ++ [.enhancement] := by
    rw [entries_append, Build.entries, if_pos expected]
    rfl
  have ahead := progress.not_mem_of_expected expected
  have closed := (progress.before ahead).runPhase_enhancement (EditLog.isKept_isSeated c) expected plan resolver
  have entered : (start.after (calls ++ [⟨plan, resolver, .enhancement⟩])).entered? = some .enhancement :=
    final ▸ closed.entered
  refine ⟨?_, ?_, ?_, ?_⟩
  · rw [entries]
    exact append_prefix_of_next progress.ordered (progress.expected?.symm.trans expected)
  · rw [entries, entered, List.getLast?_concat]
  · intro absent
    rw [entries] at absent
    exact absurd (List.mem_append_right _ (List.mem_singleton.2 rfl)) absent
  · intro earlier q later split phase expected'
    rcases split_snoc split with ⟨-, rfl, rfl⟩ | ⟨later', -, split'⟩
    · rw [entered, final]
      exact closed
    · exact absurd (mem_entries.2 ⟨earlier, q, later', split', phase, expected'⟩) ahead

/-- Whatever is called, and however it ends. -/
theorem all (progress : Progress c start []) (calls : List PhaseCall) : Progress c start calls := by
  induction calls using List.reverseRecOn with
  | nil => exact progress
  | append_singleton calls p ih =>
    by_cases expected : (start.after calls).expected? = some p.phase
    · by_cases enhancement : p.phase = .enhancement
      · exact ih.enhanced expected enhancement
      · exact ih.entered expected enhancement
    · exact ih.refused expected

/-! ### The state that calls leave -/

/-- Where the enhancement can be entered, the log is open, and stays so while the callbacks run. -/
theorem opens (progress : Progress c start calls) (expected : (start.after calls).expected? = some .enhancement) :
    ((start.after calls).entering .enhancement).Rests (EditLog.IsSeated c) none (some .enhancement) := by
  have rests := progress.before (progress.not_mem_of_expected expected)
  exact ⟨rests.edits, rests.final, rfl⟩

theorem closed (progress : Progress c start calls) (past : .enhancement ∈ start.entries calls) :
    (start.after calls).edits.IsClosed := by
  obtain ⟨earlier, p, later, split, phase, expected⟩ := mem_entries.1 past
  exact (progress.past earlier p later split phase expected).edits

theorem frozen_iff (progress : Progress c start calls) :
    (start.after calls).edits.isFrozen = true ↔ .enhancement ∈ start.entries calls := by
  by_cases past : .enhancement ∈ start.entries calls
  · simp [past, (progress.closed past).frozen]
  · simp [past, (progress.before past).edits.unfrozen]

theorem invalid_iff (progress : Progress c start calls) :
    (start.after calls).edits.overlay.valid = false ↔ .enhancement ∈ start.entries calls := by
  by_cases past : .enhancement ∈ start.entries calls
  · simp [past, (progress.closed past).invalid]
  · simp [past, (progress.before past).edits.valid]

theorem final_iff (progress : Progress c start calls) (view : FinalView) : (start.after calls).final? = some view ↔
    ∃ live, start.EnhancesTo calls live ∧ live.edits.freeze.1 = .ok view := by
  constructor
  · intro found
    by_cases past : .enhancement ∈ start.entries calls
    · obtain ⟨earlier, p, later, split, phase, expected⟩ := mem_entries.1 past
      rw [(progress.past earlier p later split phase expected).final] at found
      obtain ⟨live, ran, froze⟩ := finalAfter_eq_some.1 found
      exact ⟨live, ⟨earlier, p, later, split, phase, expected, ran⟩, froze⟩
    · rw [(progress.before past).final] at found
      cases found
  · rintro ⟨live, ⟨earlier, p, later, split, phase, expected, ran⟩, froze⟩
    rw [(progress.past earlier p later split phase expected).final, ran]
    exact finalAfter_eq_some.2 ⟨live, rfl, froze⟩

/-- What the enhancement comes to is an open log, if it succeeds. -/
theorem seated_of_enhancesTo (progress : ∀ calls, Progress c start calls) {live : Build}
    (enhanced : start.EnhancesTo calls live) : live.edits.IsSeated c := by
  obtain ⟨earlier, p, later, split, phase, expected, ran⟩ := enhanced
  have seated := keeps_runEnhancement (EditLog.isKept_isSeated c) (p.plan.of .enhancement) _
    ((progress earlier).opens expected)
  rw [ran] at seated
  exact seated.edits

/-- The final view answers as the overlay did that was frozen: the freeze replays the edits and compares. -/
theorem answers (progress : ∀ calls, Progress c start calls) {live : Build} {view : FinalView}
    (enhanced : start.EnhancesTo calls live) (froze : live.edits.freeze.1 = .ok view) :
    (View.live live.edits.overlay).AnswersAlike (start.after calls).view := by
  have seated := seated_of_enhancesTo progress enhanced
  have shown : (start.after calls).view = .final view := by
    rw [Build.view, ((progress calls).final_iff view).2 ⟨live, enhanced, froze⟩]
  rw [shown]
  refine View.answersAlike_of_same seated.valid trivial ?_
  intro key
  rcases seated.freeze with ⟨view', froze', agree⟩ | ⟨_, diverged, -⟩
  · obtain rfl := Except.ok.inj (froze.symm.trans froze')
    obtain ⟨replayed, same⟩ := agree key
    rw [← replayed] at same
    exact same
  · rw [froze] at diverged
    cases diverged

theorem fails_of_callback (progress : Progress c start calls)
    (expected : (start.after calls).expected? = some .enhancement) (plan : Plan) {e : BuildError} {live : Build}
    (ended : (runEnhancement (plan.of .enhancement)).run ((start.after calls).entering .enhancement) = (.error e, live)) :
    e.IsOfCallback .enhancement := by
  have own : ∀ callback ∈ plan.of .enhancement, callback.phase = .enhancement := by
    intro callback member
    have kept := (List.mem_filter.1 ((List.mergeSort_perm _ _).mem_iff.1 member)).2
    simpa using kept
  exact runEnhancement_fails own _ (progress.opens expected) e live ended

end Progress

/-! ### The lifecycle -/

/-- What calls can and cannot do to a build. -/
structure Lifecycle (start : Build) (calls : List PhaseCall) : Prop where
  /-- The phases that were entered are the first ones in their order, and the next can follow. -/
  ordered : start.entries calls <+: Phase.all
  last : (start.after calls).entered? = (start.entries calls).getLast?
  expected : (start.after calls).expected? = Phase.all[(start.entries calls).length]?
  /-- Another call is refused, and leaves all of the state as it was. -/
  unexpected : ∀ p, (start.after calls).expected? ≠ some p.phase →
    (start.after calls).call p = (.error (.phaseOrder p.phase (start.after calls).expected?), start.after calls)
  frozen_iff : (start.after calls).edits.isFrozen = true ↔ .enhancement ∈ start.entries calls
  invalid_iff : (start.after calls).edits.overlay.valid = false ↔ .enhancement ∈ start.entries calls
  final_iff : ∀ view, (start.after calls).final? = some view ↔
    ∃ live, start.EnhancesTo calls live ∧ live.edits.freeze.1 = .ok view
  /-- With a final view, what is read is what the overlay held when it was frozen. -/
  answers : ∀ live view, start.EnhancesTo calls live → live.edits.freeze.1 = .ok view →
    (View.live live.edits.overlay).AnswersAlike (start.after calls).view
  /-- In an enhancement that is entered now nothing is asked for too late, and nothing fails before the freeze but a
      configurator or a callback. -/
  in_time : ∀ p : PhaseCall, p.phase = .enhancement → (start.after calls).expected? = some .enhancement →
    (∀ e, RefusesWith (p.plan.of .enhancement) ((start.after calls).entering .enhancement) e → ¬ e.IsLate) ∧
    ∀ e live, (runEnhancement (p.plan.of .enhancement)).run ((start.after calls).entering .enhancement) =
      (.error e, live) → e.IsOfCallback .enhancement

/-- Calls that run phases in any order, with any plans, resolvers and callbacks, keep to the lifecycle. -/
theorem lifecycle_of_calls (c : Corpus) (config : Config) (resolutions : Nat) (calls : List PhaseCall) :
    Lifecycle (start c config resolutions) calls := by
  have each := (Progress.ofStart c config resolutions).all
  generalize Build.start c config resolutions = start at each ⊢
  have progress := each calls
  refine ⟨progress.ordered, progress.last, progress.expected?, ?_, progress.frozen_iff, progress.invalid_iff,
    progress.final_iff, ?_, ?_⟩
  · intro p unexpected
    exact runPhase_run_unexpected unexpected p.plan p.resolver
  · intro live view enhanced froze
    exact Progress.answers each enhanced froze
  · intro p phase expected
    constructor
    · intro e refuses
      exact refuses.not_isLate (progress.opens expected)
    · intro e live ended
      exact progress.fails_of_callback expected p.plan ended

end Build

end AnnotationWeaver
