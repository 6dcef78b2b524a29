import AnnotationWeaver.Build.Pipeline
import AnnotationWeaver.Proofs.Agendas

/-!
Parts of a build follow their agendas. A part that follows an agenda ends as its turns end, has run the bodies and
reported the messages of the turns up to the first that fails, and leaves the state that the agenda leaves if none
does. What is followed one after the other is followed together; so each phase follows its agenda, and all phases do.
-/
namespace AnnotationWeaver

/-- How a part of a build ran from a state, told by the turns that were due. -/
structure Tells (b : Build) (due : List Turn × Build) (ran : Except BuildError Unit × Build) : Prop where
  result : ran.1 = Turn.outcome due.1
  calls : ran.2.calls = b.calls ++ Turn.calls (Turn.taken due.1)
  messages : ran.2.messages = b.messages ++ Turn.reported (Turn.taken due.1)
  config : ran.2.config = b.config
  state : Turn.outcome due.1 = .ok () → ran.2 = due.2

/-- From every state the part takes the turns that are due, up to the first that fails. -/
def Agenda.IsFollowed (agenda : Agenda) (part : BuildM Unit) : Prop := ∀ b, Tells b (agenda b) (part.run b)

/-- The records of a build: the bodies that were run, the messages, and the configuration. -/
structure Build.Records (calls : List Call) (messages : List Message) (config : Config) (b : Build) : Prop where
  calls : b.calls = calls
  messages : b.messages = messages
  config : b.config = config

/-- The part runs no body and reports nothing. -/
def BuildM.IsQuiet {α : Type} (part : BuildM α) : Prop :=
  ∀ calls messages config, BuildM.Keeps (Build.Records calls messages config) part

/-! ### One part after the other -/

namespace Tells

variable {b live : Build} {due : List Turn × Build} {ran : Except BuildError Unit × Build} {e : BuildError}

/-- What fails is told by the same turns when more would be due, also if it is cleared up quietly. -/
theorem ended (tells : Tells b due (.error e, live)) (later : Agenda) {cleared : Build}
    (quiet : cleared.Records live.calls live.messages live.config) :
    Tells b (due.1 ++ (later due.2).1, (later due.2).2) (.error e, cleared) := by
  obtain ⟨outcome, taken⟩ := Turn.append_of_error tells.result.symm (later due.2).1
  refine ⟨outcome.symm, ?_, ?_, quiet.config.trans tells.config, ?_⟩
  · rw [taken]
    exact quiet.calls.trans tells.calls
  · rw [taken]
    exact quiet.messages.trans tells.messages
  · intro ok
    rw [outcome] at ok
    cases ok

/-- What does not fail is told together with what comes after it. -/
theorem continued (tells : Tells b due (.ok (), live)) {later : Agenda} (rest : Tells live (later live) ran) :
    Tells b (due.1 ++ (later due.2).1, (later due.2).2) ran := by
  obtain rfl : live = due.2 := tells.state tells.result.symm
  have ended := tells.result.symm
  obtain ⟨outcome, taken⟩ := Turn.append_of_ok ended (later due.2).1
  have calls := tells.calls
  have messages := tells.messages
  rw [Turn.taken_eq_self ended] at calls messages
  refine ⟨rest.result.trans outcome.symm, ?_, ?_, rest.config.trans tells.config, fun ok => ?_⟩
  · rw [taken, rest.calls, calls, Turn.calls, Turn.calls, Turn.calls, List.filterMap_append, List.append_assoc]
  · rw [taken, rest.messages, messages, Turn.reported, Turn.reported, Turn.reported, List.flatMap_append,
      List.append_assoc]
  · rw [outcome] at ok
    exact rest.state ok

end Tells

namespace Agenda

variable {agenda later : Agenda} {part next : BuildM Unit}

theorem IsFollowed.bind (first : agenda.IsFollowed part) (rest : later.IsFollowed next) :
    (agenda.andThen later).IsFollowed (part >>= fun _ => next) := by
  intro b
  have tells := first b
  cases ran : part.run b with
  | mk result live =>
    rw [ran] at tells
    cases result with
    | error e =>
      rw [BuildM.run_bind_error ran]
      exact tells.ended later ⟨rfl, rfl, rfl⟩
    | ok _ =>
      rw [BuildM.run_bind_ok ran]
      exact tells.continued (rest live)

theorem IsFollowed.forM {ι : Type} {f : ι → Agenda} {g : ι → BuildM Unit} (each : ∀ x, (f x).IsFollowed (g x))
    (xs : List ι) : (Agenda.each f xs).IsFollowed (xs.forM g) := by
  induction xs with
  | nil =>
    intro b
    exact ⟨rfl, (List.append_nil _).symm, (List.append_nil _).symm, rfl, fun _ => rfl⟩
  | cons x rest ih => exact (each x).bind ih

end Agenda

/-- A single turn is always taken. -/
theorem Tells.single {b : Build} {t : Turn} {ran : Except BuildError Unit × Build} (result : ran.1 = t.ends)
    (calls : ran.2.calls = b.calls ++ t.call?.toList) (messages : ran.2.messages = b.messages ++ t.reports)
    (config : ran.2.config = b.config) : Tells b ([t], ran.2) ran := by
  have alone : Turn.outcome [t] = t.ends ∧ Turn.taken [t] = [t] := by
    cases ends : t.ends with
    | ok _ => exact ⟨Turn.outcome_cons_ok ends [], Turn.taken_cons_ok ends []⟩
    | error e => exact ⟨Turn.outcome_cons_error ends [], Turn.taken_cons_error ends []⟩
  refine ⟨result.trans alone.1.symm, ?_, ?_, config, fun _ => rfl⟩
  · rw [alone.2, calls]
    cases call : t.call? <;> simp [Turn.calls, call]
  · rw [alone.2, messages]
    simp [Turn.reported]

/-- A quiet part is a turn in which no body is run. -/
theorem Agenda.isFollowed_ofPart {part : BuildM Unit} (quiet : part.IsQuiet) : (ofPart part).IsFollowed part := by
  intro b
  have same := quiet b.calls b.messages b.config b ⟨rfl, rfl, rfl⟩
  exact Tells.single rfl (same.calls.trans (List.append_nil _).symm) (same.messages.trans (List.append_nil _).symm)
    same.config

/-! ### Quiet parts -/

namespace Build

open BuildM (IsQuiet Keeps)

variable {calls : List Call} {messages : List Message} {config : Config}

theorem isQuiet_enter (phase : Phase) : IsQuiet (enter phase) := by
  intro calls messages config
  refine Keeps.get_bind fun b records => ?_
  split
  · exact ⟨records.calls, records.messages, records.config⟩
  · exact records

theorem Records.ignoresDeployment : IgnoresDeployment (Records calls messages config) :=
  fun _ _ _ records => ⟨records.calls, records.messages, records.config⟩

theorem isQuiet_checkMessages (phase : Phase) (earlier : Nat) : IsQuiet (checkMessages phase earlier) :=
  fun _ _ _ => keeps_checkMessages phase earlier

theorem isQuiet_finish (resolver : Resolver) (phase : Phase) : IsQuiet (finish resolver phase) :=
  fun _ _ _ => keeps_finish Records.ignoresDeployment resolver phase

theorem records_concluded (b : Build) : b.concluded.Records b.calls b.messages b.config := ⟨rfl, rfl, rfl⟩

theorem isQuiet_freezing : IsQuiet freezing := by
  intro calls messages config b records
  have concluded : b.concluded.Records calls messages config := ⟨records.calls, records.messages, records.config⟩
  rw [freezing, BuildM.run_bind_ok (conclude_run b)]
  cases b.edits.freeze.1 with
  | ok view => exact ⟨concluded.calls, concluded.messages, concluded.config⟩
  | error e => exact concluded

end Build

/-! ### Bodies -/

namespace Build

/-- What a callback asks for changes neither the bodies that were run nor the configuration. -/
theorem answer_keeps_calls (i : Invocation) (r : Request) (b : Build) :
    (b.answer i r).2.calls = b.calls ∧ (b.answer i r).2.config = b.config := by
  unfold answer
  cases i.refusal? r with
  | some failure => exact ⟨rfl, rfl⟩
  | none => cases r <;> exact ⟨rfl, rfl⟩

theorem configure_run_of_none {b : Build} {type : TypeName} (absent : b.corpus.class? type = none) (kind : MetaKind)
    (configurator : Configurator) :
    (configure kind type configurator).run b = (.ok (), { b with messages := b.messages ++ [skipped kind type] }) := by
  rw [configure, BuildM.run_get_bind, absent]
  rfl

theorem configure_run_of_some {b : Build} {type : TypeName} {d : ClassDecl} (indexed : b.corpus.class? type = some d)
    (kind : MetaKind) (configurator : Configurator) :
    (configure kind type configurator).run b =
      (((configurator d).run b.bench).1.mapError (.callback .enhancement type.text "configure"),
        { b with
          bench := ((configurator d).run b.bench).2
          calls := b.calls ++ [.configurator kind type configurator] }) := by
  rw [configure, BuildM.run_get_bind, indexed]
  dsimp only
  rcases (configurator d).run b.bench with ⟨cause | _, bench⟩
  · rfl
  · rfl

/-- What a phase does between its entry and its checks. -/
def work (plan : Plan) : Phase → BuildM Unit
  | .enhancement => enhance (plan.of .enhancement)
  | phase => (plan.of phase).forM runCallback

/-- A phase that is entered in its turn. What was reported before it is what was reported when it is entered. -/
theorem runPhase_run {b : Build} {phase : Phase} (expected : b.expected? = some phase) (plan : Plan)
    (resolver : Resolver) :
    (runPhase plan resolver phase).run b =
      (work plan phase >>= fun _ => checkMessages phase b.messages.length >>= fun _ => finish resolver phase).run
        (b.entering phase) := by
  rw [runPhase, BuildM.run_bind_ok (enter_run expected)]
  cases phase with
  | enhancement => rfl
  | discovery => rfl
  | synthesis => rfl
  | validation => rfl

end Build

namespace Agenda

theorem isFollowed_ofInvocation (body : Invocation → CallbackProgram Unit) (i : Invocation) :
    (ofInvocation body i).IsFollowed (Build.invoke body i) := by
  intro b
  have ran := Build.invoke_run body i b
  have kept : ((body i).run (Build.answer i) (b.noting i)).2.calls = (b.noting i).calls ∧
      ((body i).run (Build.answer i) (b.noting i)).2.config = b.config := by
    refine Program.run_keeps (fun now : Build => now.calls = (b.noting i).calls ∧ now.config = b.config) ?_ (body i) ⟨rfl, rfl⟩
    intro r now held
    have same := now.answer_keeps_calls i r
    exact ⟨same.1.trans held.1, same.2.trans held.2⟩
  refine Tells.single rfl ?_ ?_ ?_
  · rw [ran]
    exact kept.1
  · rw [ran]
    exact Program.run_appends (Build.answer i) (·.messages) (·.message?) (Build.messages_answer i) (body i) (b.noting i)
  · rw [ran]
    exact kept.2

theorem isFollowed_ofCallback (c : Callback) : (ofCallback c).IsFollowed (Build.runCallback c) := by
  intro b
  rw [ofCallback, Build.runCallback, BuildM.run_get_bind]
  cases c.invocations b with
  | ok invocations => exact IsFollowed.forM (fun i => isFollowed_ofInvocation c.body i) invocations b
  | error e =>
    have alone := @Tells.single b ⟨none, [], [], .error e⟩ (.error e, b) rfl
    exact alone (List.append_nil _).symm (List.append_nil _).symm rfl

theorem isFollowed_ofConfigurator (pending : MetaKind × TypeName × Configurator) :
    (ofConfigurator pending).IsFollowed (Build.configure pending.1 pending.2.1 pending.2.2) := by
  intro b
  unfold ofConfigurator
  cases indexed : b.corpus.class? pending.2.1 with
  | none =>
    have ran := Build.configure_run_of_none indexed pending.1 pending.2.2
    refine Tells.single rfl ?_ ?_ ?_
    · rw [ran]
      exact (List.append_nil _).symm
    · rw [ran]
    · rw [ran]
  | some d =>
    have ran := Build.configure_run_of_some indexed pending.1 pending.2.2
    refine Tells.single rfl ?_ ?_ ?_
    · rw [ran]
      rfl
    · rw [ran]
      exact (List.append_nil _).symm
    · rw [ran]

theorem isFollowed_configurators : configurators.IsFollowed Build.configureAll := by
  intro b
  have each := IsFollowed.forM isFollowed_ofConfigurator b.metas.pending { b with metas := b.metas.taken }
  exact ⟨each.result, each.calls, each.messages, each.config, each.state⟩

theorem isFollowed_callbacks (plan : Plan) (phase : Phase) :
    (callbacks plan phase).IsFollowed ((plan.of phase).forM Build.runCallback) :=
  IsFollowed.forM isFollowed_ofCallback (plan.of phase)

/-- The enhancement follows its agenda, though it is concluded also when a body fails. -/
theorem isFollowed_enhancement (plan : Plan) :
    (work plan .enhancement).IsFollowed (Build.enhance (plan.of .enhancement)) := by
  intro b
  have bodies := isFollowed_configurators.bind (isFollowed_callbacks plan .enhancement) b
  have ran : (Build.configureAll >>= fun _ => (plan.of .enhancement).forM Build.runCallback).run b =
    (Build.runEnhancement (plan.of .enhancement)).run b := rfl
  rw [ran] at bodies
  rw [Build.enhance, BuildM.run_bind_ok (BuildM.run_attempt _ b)]
  revert bodies
  rcases (Build.runEnhancement (plan.of .enhancement)).run b with ⟨e | _, live⟩
  · intro bodies
    rw [BuildM.run_bind_ok (Build.conclude_run live)]
    exact bodies.ended (ofPart Build.freezing) (Build.records_concluded live)
  · intro bodies
    have freezes := isFollowed_ofPart Build.isQuiet_freezing live
    rw [BuildM.run_bind_ok (Build.conclude_run live)]
    cases froze : live.edits.freeze.1 with
    | error e =>
      have ran : Build.freezing.run live = (.error (.edit e), live.concluded) := by
        rw [Build.freezing, BuildM.run_bind_ok (Build.conclude_run live), froze]
        rfl
      rw [ran] at freezes
      exact bodies.continued freezes
    | ok view =>
      have ran : Build.freezing.run live = (.ok (), { live.concluded with final? := some view }) := by
        rw [Build.freezing, BuildM.run_bind_ok (Build.conclude_run live), froze]
        rfl
      rw [ran] at freezes
      exact bodies.continued freezes

theorem isFollowed_work (plan : Plan) (phase : Phase) : (work plan phase).IsFollowed (Build.work plan phase) := by
  cases phase with
  | enhancement => exact isFollowed_enhancement plan
  | discovery => exact isFollowed_callbacks plan .discovery
  | synthesis => exact isFollowed_callbacks plan .synthesis
  | validation => exact isFollowed_callbacks plan .validation

/-- A phase follows its agenda. -/
theorem isFollowed_ofPhase (plan : Plan) (resolver : Resolver) (phase : Phase) :
    (ofPhase plan resolver phase).IsFollowed (Build.runPhase plan resolver phase) := by
  intro b
  have enters := isFollowed_ofPart (Build.isQuiet_enter phase) b
  have checks := isFollowed_ofPart (Build.isQuiet_checkMessages phase b.messages.length)
  have finishes := isFollowed_ofPart (Build.isQuiet_finish resolver phase)
  by_cases expected : b.expected? = some phase
  · rw [Build.enter_run expected] at enters
    rw [Build.runPhase_run expected]
    exact enters.continued ((isFollowed_work plan phase).bind (checks.bind finishes) _)
  · rw [Build.enter_run_unexpected expected] at enters
    rw [Build.runPhase_run_unexpected expected]
    exact enters.ended _ ⟨rfl, rfl, rfl⟩

/-- All phases follow the agenda of a plan. -/
theorem isFollowed_ofPhases (p : Pipeline) (plan : Plan) : (ofPhases plan p.resolver).IsFollowed (p.runPhases plan) :=
  IsFollowed.forM (isFollowed_ofPhase plan p.resolver) Phase.all

end Agenda

end AnnotationWeaver
