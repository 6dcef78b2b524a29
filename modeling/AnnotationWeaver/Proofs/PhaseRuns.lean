import AnnotationWeaver.Build.Phases
import AnnotationWeaver.Proofs.Arguments
import AnnotationWeaver.Proofs.Freezing
import AnnotationWeaver.Proofs.Queries

/-!
Runs of parts of a build. Whatever a callback or a configurator asks for, the edit log stays what it is: one in
which every edit has its entry while it is open, or one that is closed for good. No callback sets the final view,
and none enters a phase. An open log refuses nothing, so what is asked for while it is open fails only where a
callback did not declare what it uses. The enhancement ends with a closed log in any case.
-/
namespace AnnotationWeaver

/-! ### Programs -/

namespace Program

variable {ε Request σ α : Type} {Reply : Request → Type} {answer : (r : Request) → σ → Except ε (Reply r) × σ}

/-- A request of the program, run from the state, fails with the error, whatever the program makes of that. -/
inductive Gets (answer : (r : Request) → σ → Except ε (Reply r) × σ) :
    Program ε Request Reply α → σ → ε → Prop
  | now {r : Request} {next : Except ε (Reply r) → Program ε Request Reply α} {s : σ} {e : ε}
    (fails : (answer r s).1 = .error e) : Gets answer (.ask r next) s e
  | later {r : Request} {next : Except ε (Reply r) → Program ε Request Reply α} {s : σ} {e : ε}
    (gets : Gets answer (next (answer r s).1) (answer r s).2 e) : Gets answer (.ask r next) s e

/-- What every answer keeps, a run of a program keeps. -/
theorem run_keeps (I : σ → Prop) (keeps : ∀ r s, I s → I (answer r s).2) (p : Program ε Request Reply α) {s : σ}
    (held : I s) : I (p.run answer s).2 := by
  induction p generalizing s with
  | done result => exact held
  | giveUp e => exact held
  | ask r next ih =>
    rw [run]
    exact ih _ (keeps r s held)

/-- A failure that a program gets is the answer to a request in a state in which the invariant still holds. -/
theorem Gets.exists_answer (I : σ → Prop) (keeps : ∀ r s, I s → I (answer r s).2) {p : Program ε Request Reply α}
    {s : σ} {e : ε} (gets : Gets answer p s e) (held : I s) : ∃ r s', I s' ∧ (answer r s').1 = .error e := by
  induction gets with
  | @now r _ s _ fails => exact ⟨r, s, held, fails⟩
  | later _ ih => exact ih (keeps _ _ held)

end Program

/-! ### Editing programs -/

namespace EditLog

/-- The log is frozen and its overlay out of use. -/
structure IsClosed (l : EditLog) : Prop where
  frozen : l.isFrozen = true
  invalid : l.overlay.valid = false

/-- An invariant of logs that no request of an editing program breaks. -/
def IsKept (P : EditLog → Prop) : Prop := ∀ (r : EditRequest) (w : Workbench), P w.edits → P (Workbench.answer r w).2.edits

variable {c : Corpus} {l : EditLog}

theorem IsSeated.edit_eq (seated : l.IsSeated c) (key : DeclKey) (change : Change) :
    l.edit key change = .ok (change.alters (l.overlay.current key), l.commit key change) :=
  (if_neg (Bool.eq_false_iff.1 seated.unfrozen)).trans (if_pos seated.valid)

/-- Every request of an editing program is answered while the log is open, and leaves it so. -/
theorem IsSeated.answer {w : Workbench} (seated : w.edits.IsSeated c) (r : EditRequest) :
    (∃ reply, (Workbench.answer r w).1 = .ok reply) ∧ (Workbench.answer r w).2.edits.IsSeated c := by
  have readable : (View.live w.edits.overlay).IsReadable := seated.valid
  cases r with
  | add key a =>
    have accepted := seated.edit_eq key (.add a)
    simp only [Workbench.answer, add, accepted, Except.map]
    exact ⟨⟨(), rfl⟩, seated.commit key (.add a)⟩
  | remove key p =>
    have accepted : w.edits.remove key p = .ok _ := seated.edit_eq key (.remove p 0)
    simp only [Workbench.answer, accepted]
    exact ⟨⟨_, rfl⟩, seated.commit key (.remove p 0)⟩
  | read key =>
    simp only [Workbench.answer, Overlay.read_eq seated.valid]
    exact ⟨⟨_, rfl⟩, seated.read key⟩
  | has key type =>
    have answered : w.edits.overlay.has key type = .ok _ := View.has_eq readable key type
    simp only [Workbench.answer, answered]
    exact ⟨⟨_, rfl⟩, seated⟩
  | note content => exact ⟨⟨(), rfl⟩, seated⟩

theorem isKept_isSeated (c : Corpus) : IsKept (IsSeated c) := fun r _ seated => (seated.answer r).2

/-- A closed log stays what it is. -/
theorem isKept_isClosed : IsKept IsClosed := by
  intro r w closed
  have refuses := refuses_of_isFrozen closed.frozen
  have unreadable (α : Type) (result : α) : w.edits.overlay.guard result = .error .invalidated :=
    if_neg (Bool.eq_false_iff.1 closed.invalid)
  cases r with
  | add key a =>
    simp only [Workbench.answer, refuses.add]
    exact closed
  | remove key p =>
    simp only [Workbench.answer, refuses.remove]
    exact closed
  | read key =>
    simp only [Workbench.answer, Overlay.read, unreadable]
    exact closed
  | has key type => exact closed
  | note content => exact closed

end EditLog

/-! ### Callbacks -/

/-- A query does not fail on a readable view. -/
theorem Query.exists_find_ok {v : View} (readable : v.IsReadable) (q : Query) : ∃ keys, q.find v = .ok keys := by
  cases q with
  | classes q =>
    obtain ⟨found, answered, -⟩ := ClassQuery.find_spec readable q
    exact ⟨found.map fun d => .type d.name, by rw [find, answered]; rfl⟩
  | members kind q =>
    obtain ⟨keys, answered, -⟩ := MemberQuery.find_spec readable q kind
    exact ⟨keys, answered⟩

/-- The request came too late: the edits are frozen or the overlay is out of use. -/
def Failure.IsLate : Failure → Prop
  | .edit .frozen | .edit (.overlay _) | .overlay _ => True
  | _ => False

namespace Build

/-- The log as it should be, and the final view and the last phase as they were. -/
structure Rests (P : EditLog → Prop) (final? : Option FinalView) (entered? : Option Phase) (b : Build) : Prop where
  edits : P b.edits
  final : b.final? = final?
  entered : b.entered? = entered?

variable {P : EditLog → Prop} {final? : Option FinalView} {entered? : Option Phase} {c : Corpus} {b : Build}

/-- A request of a callback changes the log only as an editing program can. -/
theorem Rests.perform (kept : EditLog.IsKept P) (i : Invocation) (r : Request) (rests : b.Rests P final? entered?) :
    (b.perform i r).2.Rests P final? entered? := by
  cases r with
  | edit r => exact ⟨kept r b.bench rests.edits, rests.final, rests.entered⟩
  | _ => exact ⟨rests.edits, rests.final, rests.entered⟩

theorem Rests.answer (kept : EditLog.IsKept P) (i : Invocation) (r : Request) (rests : b.Rests P final? entered?) :
    (b.answer i r).2.Rests P final? entered? := by
  unfold Build.answer
  cases i.refusal? r with
  | some failure => exact rests
  | none => exact rests.perform kept i r

/-- While the log is open, the view that callbacks search is readable. -/
theorem Rests.isReadable (rests : b.Rests (EditLog.IsSeated c) none entered?) : b.view.IsReadable := by
  rw [view, rests.final]
  exact rests.edits.valid

/-- What is refused beforehand was not declared. -/
theorem exists_role_of_refusal? {i : Invocation} {r : Request} {e : Failure} (refused : i.refusal? r = some e) :
    ∃ role, e = i.undeclared role := by
  unfold Invocation.refusal? at refused
  split at refused
  · split at refused
    · split at refused
      · cases refused
      · exact ⟨_, (Option.some.inj refused).symm⟩
    · cases refused
  · split at refused
    · split at refused
      · cases refused
      · exact ⟨_, (Option.some.inj refused).symm⟩
    · cases refused

/-- While the log is open, no request comes too late. -/
theorem Rests.not_isLate {i : Invocation} {r : Request} {e : Failure}
    (rests : b.Rests (EditLog.IsSeated c) none entered?) (fails : (b.answer i r).1 = .error e) : ¬ e.IsLate := by
  have undeclared (named : ∃ role, e = i.undeclared role) : ¬ e.IsLate := by
    obtain ⟨role, rfl⟩ := named
    exact id
  have live : (View.live b.edits.overlay).IsReadable := rests.edits.valid
  unfold Build.answer at fails
  cases refused : i.refusal? r with
  | some failure =>
    rw [refused] at fails
    obtain rfl := Except.error.inj fails
    exact undeclared (exists_role_of_refusal? refused)
  | none =>
    rw [refused] at fails
    cases r with
    | edit r =>
      obtain ⟨reply, answered⟩ := (EditLog.IsSeated.answer rests.edits r).1
      have same : (Workbench.answer r b.bench).1 = .error e := fails
      rw [answered] at same
      cases same
    | configurable q =>
      obtain ⟨keys, found⟩ := q.exists_find_ok live
      rw [Build.perform, found] at fails
      cases fails
    | search q =>
      obtain ⟨keys, found⟩ := q.exists_find_ok rests.isReadable
      rw [Build.perform, found] at fails
      cases fails
    | classConfig | methodConfig | fieldConfig | classInfo | methodInfo | fieldInfo | bean | observer =>
      simp only [Build.perform, Invocation.class?, Invocation.method?, Invocation.field?, Invocation.bean?,
        Invocation.observer?] at fails
      split at fails
      · cases fails
      · exact undeclared ⟨_, (Except.error.inj fails).symm⟩
    | _ => cases fails

end Build

/-! ### Parts of a build -/

/-- A callback or a configurator of the phase failed. -/
def BuildError.IsOfCallback (phase : Phase) (e : BuildError) : Prop :=
  ∃ extension callback cause, e = .callback phase extension callback cause

/-- The deployment was not resolved after the phase, or synthetic components are not fit to extend it. -/
def BuildError.IsOfDeployment (phase : Phase) (e : BuildError) : Prop :=
  (∃ cause, e = .deployment phase cause) ∨ ∃ problems, e = .synthetic problems

namespace BuildM

variable {α β : Type} {I : Build → Prop} {first : BuildM α} {next : α → BuildM β} {b b' : Build}

theorem run_bind_ok {x : α} (ran : first.run b = (.ok x, b')) : (first >>= next).run b = (next x).run b' := by
  show ExceptT.bindCont next (first.run b).1 (first.run b).2 = _
  rw [ran]
  rfl

theorem run_bind_error {e : BuildError} (ran : first.run b = (.error e, b')) :
    (first >>= next).run b = (.error e, b') := by
  show ExceptT.bindCont next (first.run b).1 (first.run b).2 = _
  rw [ran]
  rfl

theorem run_get_bind (next : Build → BuildM β) (b : Build) : (get >>= next).run b = (next b).run b := rfl

theorem run_attempt (part : BuildM α) (b : Build) : (attempt part).run b = (.ok (part.run b).1, (part.run b).2) := rfl

theorem run_modify_bind (f : Build → Build) (next : Unit → BuildM β) (b : Build) :
    (modify f >>= next).run b = (next ()).run (f b) := rfl

/-- The part leaves a state in which the invariant holds, whether or not it fails. -/
def Keeps (I : Build → Prop) (part : BuildM α) : Prop := ∀ b, I b → I (part.run b).2

namespace Keeps

theorem pure (x : α) : Keeps I (Pure.pure x) := fun _ held => held

theorem modify {f : Build → Build} (keeps : ∀ b, I b → I (f b)) : Keeps I (modify f) := keeps

/-- A part that begins with a look at the state. -/
theorem get_bind {next : Build → BuildM β} (keeps : ∀ b, I b → I ((next b).run b).2) : Keeps I (get >>= next) :=
  keeps

theorem bind (keeps : Keeps I first) (later : ∀ x, Keeps I (next x)) : Keeps I (first >>= next) := by
  intro b held
  have between := keeps b held
  cases ran : first.run b with
  | mk result b' =>
    rw [ran] at between
    cases result with
    | error e =>
      rw [run_bind_error ran]
      exact between
    | ok x =>
      rw [run_bind_ok ran]
      exact later x b' between

theorem forM {ι : Type} {f : ι → BuildM Unit} (xs : List ι) (each : ∀ x ∈ xs, Keeps I (f x)) :
    Keeps I (xs.forM f) := by
  induction xs with
  | nil => exact pure ()
  | cons x rest ih =>
    exact (each x List.mem_cons_self).bind fun _ => ih fun x' later => each x' (List.mem_cons_of_mem _ later)

end Keeps

/-- Where the invariant holds, the part fails only with errors of a sort. -/
def FailsWith (I : Build → Prop) (E : BuildError → Prop) (part : BuildM α) : Prop :=
  ∀ b, I b → ∀ e b', part.run b = (.error e, b') → E e

namespace FailsWith

variable {E : BuildError → Prop}

theorem pure (x : α) : FailsWith I E (Pure.pure x) := by
  intro b _ e b' ended
  cases ended

theorem modify (f : Build → Build) : FailsWith I E (modify f) := by
  intro b _ e b' ended
  cases ended

theorem bind (keeps : Keeps I first) (fails : FailsWith I E first) (later : ∀ x, FailsWith I E (next x)) :
    FailsWith I E (first >>= next) := by
  intro b held e b' ended
  have between := keeps b held
  cases ran : first.run b with
  | mk result b₁ =>
    rw [ran] at between
    cases result with
    | error e₁ =>
      rw [run_bind_error ran] at ended
      cases ended
      exact fails b held e b' ran
    | ok x =>
      rw [run_bind_ok ran] at ended
      exact later x b₁ between e b' ended

theorem forM {ι : Type} {f : ι → BuildM Unit} (keeps : ∀ x, Keeps I (f x)) (xs : List ι)
    (each : ∀ x ∈ xs, FailsWith I E (f x)) : FailsWith I E (xs.forM f) := by
  induction xs with
  | nil =>
    intro b _ e b' ended
    cases ended
  | cons x rest ih =>
    have others : FailsWith I E (rest.forM f) := ih fun x' later => each x' (List.mem_cons_of_mem _ later)
    exact (each x List.mem_cons_self).bind (keeps x) fun _ => others

end FailsWith

end BuildM

namespace Build

variable {P : EditLog → Prop} {final? : Option FinalView} {entered? : Option Phase}

open BuildM (Keeps FailsWith)

/-- A callback leaves what its program leaves, and fails if that does. -/
theorem invoke_run (body : Invocation → CallbackProgram Unit) (i : Invocation) (b : Build) :
    (invoke body i).run b =
      (((body i).run (answer i) (b.noting i)).1.mapError (.callback i.phase i.extension i.callback),
        ((body i).run (answer i) (b.noting i)).2) := by
  simp only [invoke, BuildM.run_modify_bind, BuildM.run_get_bind]
  rcases (body i).run (answer i) (b.noting i) with ⟨e | _, b'⟩
  · rfl
  · rfl

/-- The invariant outlasts what is done for the runs of callbacks. -/
structure OutlastsRuns (I : Build → Prop) : Prop where
  noting : ∀ b i, I b → I (b.noting i)
  answer : ∀ i r b, I b → I (b.answer i r).2

theorem OutlastsRuns.invoke {I : Build → Prop} (outlasts : OutlastsRuns I) (body : Invocation → CallbackProgram Unit)
    (i : Invocation) : Keeps I (invoke body i) := by
  intro b held
  rw [invoke_run]
  exact Program.run_keeps I (fun r b held => outlasts.answer i r b held) (body i) (outlasts.noting b i held)

theorem OutlastsRuns.runCallback {I : Build → Prop} (outlasts : OutlastsRuns I) (callback : Callback) :
    Keeps I (runCallback callback) := by
  refine Keeps.get_bind fun b held => ?_
  cases callback.invocations b with
  | error e => exact held
  | ok invocations => exact Keeps.forM invocations (fun i _ => outlasts.invoke callback.body i) b held

theorem Rests.outlastsRuns (kept : EditLog.IsKept P) : OutlastsRuns (Rests P final? entered?) where
  noting _ _ rests := ⟨rests.edits, rests.final, rests.entered⟩
  answer i r _ rests := rests.answer kept i r

theorem keeps_invoke (kept : EditLog.IsKept P) (body : Invocation → CallbackProgram Unit) (i : Invocation) :
    Keeps (Rests P final? entered?) (invoke body i) := (Rests.outlastsRuns kept).invoke body i

theorem keeps_runCallback (kept : EditLog.IsKept P) (callback : Callback) :
    Keeps (Rests P final? entered?) (runCallback callback) := (Rests.outlastsRuns kept).runCallback callback

theorem keeps_configure (kept : EditLog.IsKept P) (kind : MetaKind) (type : TypeName) (configurator : Configurator) :
    Keeps (Rests P final? entered?) (configure kind type configurator) := by
  refine Keeps.get_bind fun b rests => ?_
  cases b.corpus.class? type with
  | none => exact ⟨rests.edits, rests.final, rests.entered⟩
  | some d =>
    have edited : P ((configurator d).run b.bench).2.edits :=
      Program.run_keeps (fun w : Workbench => P w.edits) kept (configurator d) rests.edits
    dsimp only
    revert edited
    rcases (configurator d).run b.bench with ⟨e | _, bench⟩
    · exact fun edited => ⟨edited, rests.final, rests.entered⟩
    · exact fun edited => ⟨edited, rests.final, rests.entered⟩

theorem keeps_configureAll (kept : EditLog.IsKept P) : Keeps (Rests P final? entered?) configureAll := by
  refine Keeps.get_bind fun b rests => ?_
  exact Keeps.forM b.metas.pending (fun pending _ => keeps_configure kept pending.1 pending.2.1 pending.2.2) _
    ⟨rests.edits, rests.final, rests.entered⟩

theorem keeps_runEnhancement (kept : EditLog.IsKept P) (callbacks : List Callback) :
    Keeps (Rests P final? entered?) (runEnhancement callbacks) :=
  (keeps_configureAll kept).bind fun _ => Keeps.forM callbacks fun callback _ => keeps_runCallback kept callback

/-- The check of the messages changes nothing. -/
theorem keeps_checkMessages {I : Build → Prop} (phase : Phase) (earlier : Nat) : Keeps I (checkMessages phase earlier) := by
  refine Keeps.get_bind fun b held => ?_
  dsimp only
  split
  · exact held
  · exact held

/-- The invariant does not depend on what was resolved. -/
def IgnoresDeployment (I : Build → Prop) : Prop :=
  ∀ (b : Build) (n : Nat) (d : Deployment), I b → I { b with resolutions := n, deployment := d }

theorem Rests.ignoresDeployment : IgnoresDeployment (Rests P final? entered?) :=
  fun _ _ _ rests => ⟨rests.edits, rests.final, rests.entered⟩

theorem keeps_resolve {I : Build → Prop} (ignores : IgnoresDeployment I) (resolver : Resolver) (phase : Phase) :
    Keeps I (resolve resolver phase) := by
  refine Keeps.get_bind fun b held => ?_
  have counted : I { b with resolutions := b.resolutions + 1 } := ignores b (b.resolutions + 1) b.deployment held
  cases resolver.resolve b.resolutions b.view with
  | error cause => exact counted
  | ok d => exact counted

theorem keeps_finish {I : Build → Prop} (ignores : IgnoresDeployment I) (resolver : Resolver) (phase : Phase) :
    Keeps I (finish resolver phase) := by
  have deployed (f : Build → Deployment) (b : Build) (held : I b) : I { b with deployment := f b } :=
    ignores b b.resolutions (f b) held
  cases phase with
  | discovery => exact Keeps.pure ()
  | enhancement => exact (keeps_resolve ignores resolver .enhancement).bind fun d => Keeps.modify (deployed fun _ => d)
  | synthesis =>
    refine Keeps.get_bind fun b held => ?_
    split
    · exact (keeps_resolve ignores resolver .synthesis).bind
        (fun d => Keeps.modify (deployed fun b => b.synthetic.extend d)) b held
    · exact held
  | validation => exact Keeps.pure ()

/-! ### What fails while the log is open -/

variable {c : Corpus}

theorem phase_of_mem_invocations {callback : Callback} {b : Build} {invocations : List Invocation}
    (found : callback.invocations b = .ok invocations) {i : Invocation} (member : i ∈ invocations) :
    i.phase = callback.phase := by
  obtain ⟨subject?, rfl⟩ := Callback.exists_invocationFor found member
  rfl

theorem invoke_fails {I : Build → Prop} (body : Invocation → CallbackProgram Unit) (i : Invocation) :
    FailsWith I (BuildError.IsOfCallback i.phase) (invoke body i) := by
  intro b _ e b' ended
  rw [invoke_run] at ended
  cases came : ((body i).run (answer i) (b.noting i)).1 with
  | error cause =>
    rw [came] at ended
    cases ended
    exact ⟨i.extension, i.callback, cause, rfl⟩
  | ok _ =>
    rw [came] at ended
    cases ended

theorem runCallback_fails (callback : Callback) :
    FailsWith (Rests (EditLog.IsSeated c) none entered?) (BuildError.IsOfCallback callback.phase)
      (runCallback callback) := by
  intro b rests e b' ended
  obtain ⟨invocations, found⟩ := callback.exists_invocations_ok rests.isReadable
  have kept := EditLog.isKept_isSeated c
  rw [runCallback, BuildM.run_get_bind, found] at ended
  refine FailsWith.forM (fun i => keeps_invoke kept callback.body i) invocations ?_ b rests e b' ended
  intro i member
  rw [← phase_of_mem_invocations found member]
  exact invoke_fails callback.body i

theorem configure_fails {I : Build → Prop} (kind : MetaKind) (type : TypeName) (configurator : Configurator) :
    FailsWith I (BuildError.IsOfCallback .enhancement) (configure kind type configurator) := by
  intro b _ e b' ended
  rw [configure, BuildM.run_get_bind] at ended
  cases indexed : b.corpus.class? type with
  | none =>
    rw [indexed] at ended
    cases ended
  | some d =>
    rw [indexed] at ended
    dsimp only at ended
    revert ended
    rcases (configurator d).run b.bench with ⟨cause | _, bench⟩
    · intro ended
      cases ended
      exact ⟨type.text, "configure", cause, rfl⟩
    · intro ended
      cases ended

/-- Nothing but a configurator or a callback fails in the enhancement before the log is frozen. -/
theorem runEnhancement_fails {callbacks : List Callback} (own : ∀ callback ∈ callbacks, callback.phase = .enhancement) :
    FailsWith (Rests (EditLog.IsSeated c) none entered?) (BuildError.IsOfCallback .enhancement)
      (runEnhancement callbacks) := by
  have kept := EditLog.isKept_isSeated c
  have configured : FailsWith (Rests (EditLog.IsSeated c) none entered?) (BuildError.IsOfCallback .enhancement)
      configureAll := by
    intro b rests e b' ended
    rw [configureAll, BuildM.run_get_bind] at ended
    have each : FailsWith (Rests (EditLog.IsSeated c) none entered?) (BuildError.IsOfCallback .enhancement)
        (b.metas.pending.forM fun pending => configure pending.1 pending.2.1 pending.2.2) := by
      refine FailsWith.forM (fun pending => ?_) b.metas.pending fun pending _ => ?_
      · exact keeps_configure kept pending.1 pending.2.1 pending.2.2
      · exact configure_fails pending.1 pending.2.1 pending.2.2
    exact each { b with metas := b.metas.taken } ⟨rests.edits, rests.final, rests.entered⟩ e b' ended
  refine configured.bind (keeps_configureAll kept) fun _ => ?_
  refine FailsWith.forM (fun callback => keeps_runCallback kept callback) callbacks ?_
  intro callback member
  rw [← own callback member]
  exact runCallback_fails callback

theorem resolve_fails {I : Build → Prop} (resolver : Resolver) (phase : Phase) :
    FailsWith I (BuildError.IsOfDeployment phase) (resolve resolver phase) := by
  intro b _ e b' ended
  rw [resolve, BuildM.run_get_bind] at ended
  cases found : resolver.resolve b.resolutions b.view with
  | error cause =>
    rw [found] at ended
    cases ended
    exact .inl ⟨cause, rfl⟩
  | ok d =>
    rw [found] at ended
    cases ended

theorem finish_fails {I : Build → Prop} (ignores : IgnoresDeployment I) (resolver : Resolver) (phase : Phase) :
    FailsWith I (BuildError.IsOfDeployment phase) (finish resolver phase) := by
  have resolves (later : Deployment → Build → Build) :
      FailsWith I (BuildError.IsOfDeployment phase) (resolve resolver phase >>= fun d => modify (later d)) :=
    (resolve_fails resolver phase).bind (keeps_resolve ignores resolver phase) fun d => FailsWith.modify (later d)
  cases phase with
  | discovery => exact FailsWith.pure ()
  | enhancement => exact resolves _
  | synthesis =>
    intro b held e b' ended
    rw [finish, BuildM.run_get_bind] at ended
    split at ended
    · exact resolves _ b held e b' ended
    · cases ended
      exact .inr ⟨_, rfl⟩
  | validation => exact FailsWith.pure ()

/-! ### Entering a phase -/

/-- The state in which a phase was just entered. -/
def entering (b : Build) (phase : Phase) : Build := { b with entered? := some phase }

theorem enter_run {b : Build} {phase : Phase} (expected : b.expected? = some phase) :
    (enter phase).run b = (.ok (), b.entering phase) := by
  rw [enter, BuildM.run_get_bind, if_pos expected]
  rfl

theorem enter_run_unexpected {b : Build} {phase : Phase} (unexpected : b.expected? ≠ some phase) :
    (enter phase).run b = (.error (.phaseOrder phase b.expected?), b) := by
  rw [enter, BuildM.run_get_bind, if_neg unexpected]
  rfl

theorem runPhase_run_unexpected {b : Build} {phase : Phase} (unexpected : b.expected? ≠ some phase) (plan : Plan)
    (resolver : Resolver) :
    (runPhase plan resolver phase).run b = (.error (.phaseOrder phase b.expected?), b) :=
  BuildM.run_bind_error (enter_run_unexpected unexpected)

/-- Any phase but the enhancement leaves the log and the final view to the callbacks. -/
theorem Rests.runPhase {b : Build} (kept : EditLog.IsKept P) (rests : b.Rests P final? entered?) {phase : Phase}
    (expected : b.expected? = some phase) (other : phase ≠ .enhancement) (plan : Plan) (resolver : Resolver) :
    ((runPhase plan resolver phase).run b).2.Rests P final? (some phase) := by
  have callbacks : Keeps (Rests P final? (some phase)) ((plan.of phase).forM runCallback) :=
    Keeps.forM _ fun callback _ => keeps_runCallback kept callback
  have rest : Keeps (Rests P final? (some phase))
      (do (plan.of phase).forM runCallback; checkMessages phase b.messages.length; finish resolver phase) :=
    callbacks.bind fun _ => (keeps_checkMessages phase _).bind fun _ => keeps_finish Rests.ignoresDeployment resolver phase
  have entered : (b.entering phase).Rests P final? (some phase) := ⟨rests.edits, rests.final, rfl⟩
  rw [Build.runPhase, BuildM.run_bind_ok (enter_run expected)]
  cases phase with
  | enhancement => exact absurd rfl other
  | discovery => exact rest _ entered
  | synthesis => exact rest _ entered
  | validation => exact rest _ entered

/-! ### The enhancement -/

/-- The state with the edits frozen and the overlay put out of use. -/
def concluded (b : Build) : Build :=
  { b with bench := { b.bench with edits := b.edits.freeze.2.withOverlay b.edits.freeze.2.overlay.invalidate } }

theorem conclude_run (b : Build) : conclude.run b = (.ok b.edits.freeze.1, b.concluded) := rfl

/-- The final view that comes of what the configurators and callbacks of the enhancement came to. -/
def finalAfter : Except BuildError Unit × Build → Option FinalView
  | (.ok (), live) => live.edits.freeze.1.toOption
  | (.error _, _) => none

theorem finalAfter_eq_some {ended : Except BuildError Unit × Build} {view : FinalView} :
    finalAfter ended = some view ↔ ∃ live, ended = (.ok (), live) ∧ live.edits.freeze.1 = .ok view := by
  obtain ⟨result, live⟩ := ended
  cases result with
  | error e => simp [finalAfter]
  | ok _ =>
    rw [finalAfter]
    cases froze : live.edits.freeze.1 with
    | error e => simp [Except.toOption, froze]
    | ok view' => simp [Except.toOption, froze]

theorem Rests.concluded {b : Build} (rests : b.Rests P final? entered?) :
    b.concluded.Rests EditLog.IsClosed final? entered? where
  edits := ⟨b.edits.freeze_snd.1, rfl⟩
  final := rests.final
  entered := rests.entered

/-- However the configurators and the callbacks end, the log is closed after them; there is a final view exactly if
    they and the freeze succeeded. -/
theorem Rests.enhance {b : Build} (rests : b.Rests P none entered?) (kept : EditLog.IsKept P) (callbacks : List Callback) :
    ((enhance callbacks).run b).2.Rests EditLog.IsClosed (finalAfter ((runEnhancement callbacks).run b)) entered? := by
  have live := keeps_runEnhancement kept callbacks b rests
  rw [Build.enhance, BuildM.run_bind_ok (BuildM.run_attempt _ b)]
  revert live
  rcases (runEnhancement callbacks).run b with ⟨e | _, live⟩
  · exact fun live => live.concluded
  · intro rests
    rw [BuildM.run_bind_ok (conclude_run live), finalAfter]
    cases live.edits.freeze.1 with
    | error e => exact rests.concluded
    | ok view => exact ⟨rests.concluded.edits, rfl, rests.concluded.entered⟩

/-- The enhancement is over, whatever failed in it, when its phase was run. -/
theorem Rests.runPhase_enhancement {b : Build} (rests : b.Rests P none entered?) (kept : EditLog.IsKept P)
    (expected : b.expected? = some .enhancement) (plan : Plan) (resolver : Resolver) :
    ((Build.runPhase plan resolver .enhancement).run b).2.Rests EditLog.IsClosed
      (finalAfter ((runEnhancement (plan.of .enhancement)).run (b.entering .enhancement))) (some .enhancement) := by
  have entered : (b.entering .enhancement).Rests P none (some .enhancement) := ⟨rests.edits, rests.final, rfl⟩
  have closed := entered.enhance kept (plan.of .enhancement)
  rw [Build.runPhase, BuildM.run_bind_ok (enter_run expected), BuildM.run_get_bind]
  revert closed
  generalize finalAfter ((runEnhancement (plan.of .enhancement)).run (b.entering .enhancement)) = final?
  cases ended : (Build.enhance (plan.of .enhancement)).run (b.entering .enhancement) with
  | mk result after =>
    intro closed
    cases result with
    | error e =>
      rw [BuildM.run_bind_error ended]
      exact closed
    | ok _ =>
      rw [BuildM.run_bind_ok ended]
      exact (keeps_checkMessages .enhancement _).bind
        (fun _ => keeps_finish Rests.ignoresDeployment resolver .enhancement) after closed

end Build

end AnnotationWeaver
