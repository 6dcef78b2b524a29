import AnnotationWeaver.Proofs.RunOrder

/-!
Reported messages. A phase whose work succeeds fails exactly if a message that is severe enough was reported in it,
and then it fails with these messages alone, in the order of the reports, after all its bodies were run. What was
reported in an earlier phase is passed over. So a run that succeeds has no message that is severe enough, and its
outcome shows all that was reported.
-/
namespace AnnotationWeaver

namespace Build

/-- The messages that turns report at one of the levels, in order. -/
def reportedAt (levels : List Level) (turns : List Turn) : List Message :=
  (Turn.reported turns).filter fun m => decide (m.level ∈ levels)

/-- How a phase ends after work that succeeded in the turns: its bodies were run and their messages noted, and it fails
    with the messages of a fatal level, if there are any. -/
structure Judges (fatal : List Level) (b : Build) (phase : Phase) (turns : List Turn)
    (ran : Except BuildError Unit × Build) : Prop where
  calls : ran.2.calls = b.calls ++ Turn.calls turns
  messages : ran.2.messages = b.messages ++ Turn.reported turns
  fails : (∃ failed ms, ran.1 = .error (.validation failed ms)) ↔ ∃ m ∈ Turn.reported turns, m.level ∈ fatal
  carries : ∀ failed ms, ran.1 = .error (.validation failed ms) → failed = phase ∧ ms = reportedAt fatal turns

/-- The levels of messages that make a phase of the build fail. -/
def fatal (b : Build) : List Level := if b.config.failOnWarnings then [.warning, .error] else [.error]

theorem reaches_threshold_iff {b : Build} {l : Level} : l.reaches b.threshold = true ↔ l ∈ b.fatal := by
  cases warned : b.config.failOnWarnings
  · cases l <;> simp [threshold, fatal, warned, Level.reaches, Level.severity]
  · cases l <;> simp [threshold, fatal, warned, Level.reaches, Level.severity]

theorem atLeast_threshold (b : Build) (messages : List Message) :
    Message.atLeast b.threshold messages = messages.filter fun m => decide (m.level ∈ b.fatal) := by
  refine List.filter_congr fun m _ => ?_
  rw [Bool.eq_iff_iff, reaches_threshold_iff, decide_eq_true_iff]

theorem reportedAt_eq_nil_iff {levels : List Level} {turns : List Turn} :
    reportedAt levels turns = [] ↔ ¬∃ m ∈ Turn.reported turns, m.level ∈ levels := by
  simp [reportedAt, List.filter_eq_nil_iff]

/-- What is reported at a fatal level is what the phase fails with. -/
theorem Judges.error_of_ne_nil {levels : List Level} {b : Build} {phase : Phase} {turns : List Turn}
    {ran : Except BuildError Unit × Build} (judges : Judges levels b phase turns ran)
    (severe : reportedAt levels turns ≠ []) : ran.1 = .error (.validation phase (reportedAt levels turns)) := by
  obtain ⟨failed, ms, same⟩ := judges.fails.2 (not_not.1 (mt reportedAt_eq_nil_iff.2 severe))
  obtain ⟨rfl, rfl⟩ := judges.carries failed ms same
  exact same

/-- The check passes over the messages of earlier phases. -/
theorem checkMessages_run {b : Build} {phase : Phase} {earlier : List Message} {turns : List Turn}
    (messages : b.messages = earlier ++ Turn.reported turns) :
    (checkMessages phase earlier.length).run b =
      (if reportedAt b.fatal turns = [] then .ok () else .error (.validation phase (reportedAt b.fatal turns)), b) := by
  rw [checkMessages, BuildM.run_get_bind, messages, List.drop_left]
  dsimp only
  rw [atLeast_threshold, ← reportedAt]
  cases reportedAt b.fatal turns with
  | nil => rfl
  | cons m rest => rfl

/-- Only the check of the messages fails with messages. -/
theorem finish_run_ne_validation (resolver : Resolver) (phase : Phase) (b : Build) (failed : Phase) (ms : List Message) :
    ((finish resolver phase).run b).1 ≠ .error (.validation failed ms) := by
  intro same
  obtain ⟨cause, other⟩ | ⟨problems, other⟩ := finish_fails (I := fun _ => True) (fun _ _ _ _ => trivial) resolver phase b
    trivial (.validation failed ms) _ (Prod.ext same rfl)
  · cases other
  · cases other

/-- A phase that is entered in its turn and whose work succeeds is judged by what was reported in it. -/
theorem judges_of_success (plan : Plan) (resolver : Resolver) {phase : Phase} {b : Build}
    (expected : b.expected? = some phase)
    (succeeds : ∀ t ∈ (Agenda.work plan phase (b.entering phase)).1, t.ends = .ok ()) :
    Judges b.fatal b phase (Agenda.work plan phase (b.entering phase)).1 ((runPhase plan resolver phase).run b) := by
  have tells := Agenda.isFollowed_work plan phase (b.entering phase)
  generalize Agenda.work plan phase (b.entering phase) = due at succeeds tells ⊢
  have ended := Turn.outcome_eq_ok.2 succeeds
  rw [runPhase_run expected]
  cases ran : (work plan phase).run (b.entering phase) with
  | mk result live =>
    rw [ran] at tells
    have messages : live.messages = b.messages ++ Turn.reported (Turn.taken due.1) := tells.messages
    have calls : live.calls = b.calls ++ Turn.calls (Turn.taken due.1) := tells.calls
    rw [Turn.taken_eq_self ended] at messages calls
    have fatal : live.fatal = b.fatal := by
      rw [Build.fatal, Build.fatal, show live.config = b.config from tells.config]
    obtain rfl : result = .ok () := tells.result.trans ended
    have checks : (checkMessages phase b.messages.length).run live = _ := checkMessages_run messages
    rw [fatal] at checks
    rw [BuildM.run_bind_ok ran]
    by_cases clean : reportedAt b.fatal due.1 = []
    · rw [if_pos clean] at checks
      rw [BuildM.run_bind_ok checks]
      have quiet := isQuiet_finish resolver phase live.calls live.messages live.config live ⟨rfl, rfl, rfl⟩
      have sound := finish_run_ne_validation resolver phase live
      refine ⟨quiet.calls.trans calls, quiet.messages.trans messages, ?_, fun failed ms same => absurd same (sound failed ms)⟩
      refine ⟨fun fails => ?_, fun severe => absurd severe (reportedAt_eq_nil_iff.1 clean)⟩
      obtain ⟨failed, ms, same⟩ := fails
      exact absurd same (sound failed ms)
    · rw [if_neg clean] at checks
      rw [BuildM.run_bind_error checks]
      have severe := not_not.1 (mt reportedAt_eq_nil_iff.2 clean)
      refine ⟨calls, messages, ⟨fun _ => severe, fun _ => ⟨phase, reportedAt b.fatal due.1, rfl⟩⟩, ?_⟩
      intro failed ms same
      cases same
      exact ⟨rfl, rfl⟩

/-- A phase that ends well was entered in its turn, and its work succeeded. -/
theorem succeeds_of_runPhase_ok {plan : Plan} {resolver : Resolver} {phase : Phase} {b b' : Build}
    (ran : (runPhase plan resolver phase).run b = (.ok (), b')) :
    b.expected? = some phase ∧ ∀ t ∈ (Agenda.work plan phase (b.entering phase)).1, t.ends = .ok () := by
  have expected : b.expected? = some phase := by
    by_contra unexpected
    rw [runPhase_run_unexpected unexpected] at ran
    cases ran
  refine ⟨expected, fun t member => ?_⟩
  have tells := Agenda.isFollowed_ofPhase plan resolver phase b
  rw [ran] at tells
  have entered : (Agenda.ofPart (enter phase) b).2 = b.entering phase := congrArg Prod.snd (enter_run expected)
  refine Turn.outcome_eq_ok.1 tells.result.symm t ?_
  simp only [Agenda.ofPhase, Agenda.andThen, entered, List.mem_append]
  exact .inr (.inl member)

/-- A phase that ends well leaves no message of a fatal level, if there was none before. -/
theorem clean_of_runPhase_ok {plan : Plan} {resolver : Resolver} {phase : Phase} {b b' : Build}
    (ran : (runPhase plan resolver phase).run b = (.ok (), b')) (clean : ∀ m ∈ b.messages, m.level ∉ b.fatal) :
    b'.fatal = b.fatal ∧ ∀ m ∈ b'.messages, m.level ∉ b.fatal := by
  obtain ⟨expected, succeeds⟩ := succeeds_of_runPhase_ok ran
  have judges := judges_of_success plan resolver expected succeeds
  have tells := Agenda.isFollowed_ofPhase plan resolver phase b
  rw [ran] at judges tells
  constructor
  · rw [Build.fatal, Build.fatal, show b'.config = b.config from tells.config]
  · intro m member severe
    rw [show b'.messages = _ from judges.messages] at member
    rcases List.mem_append.1 member with earlier | reported
    · exact clean m earlier severe
    · obtain ⟨failed, ms, same⟩ := judges.fails.2 ⟨m, reported, severe⟩
      cases same

theorem clean_of_runPhases_ok {plan : Plan} {resolver : Resolver} {phases : List Phase} {b b' : Build}
    (ran : (phases.forM (runPhase plan resolver)).run b = (.ok (), b'))
    (clean : ∀ m ∈ b.messages, m.level ∉ b.fatal) : ∀ m ∈ b'.messages, m.level ∉ b.fatal := by
  induction phases generalizing b with
  | nil =>
    cases ran
    exact clean
  | cons phase rest ih =>
    have split : (phase :: rest).forM (runPhase plan resolver) =
      (runPhase plan resolver phase >>= fun _ => rest.forM (runPhase plan resolver)) := rfl
    rw [split] at ran
    cases first : (runPhase plan resolver phase).run b with
    | mk result between =>
      cases result with
      | error e =>
        rw [BuildM.run_bind_error first] at ran
        cases ran
      | ok _ =>
        rw [BuildM.run_bind_ok first] at ran
        obtain ⟨same, clean'⟩ := clean_of_runPhase_ok first clean
        rw [← same] at clean' ⊢
        exact ih ran clean'

end Build

namespace Pipeline

variable {p : Pipeline} {id : BuildId} {sink : Sink}

/-- The outcome of a run shows the messages of the build. -/
theorem messages_of_conclude_ok {b : Build} {o : Outcome} (ends : (p.conclude id sink b).1 = .ok o) :
    o.messages = b.messages := by
  cases compiled : (p.literalSettings.compileBuild id b).run .initial with
  | error e =>
    rw [conclude_of_error compiled] at ends
    cases ends
  | ok result =>
    obtain ⟨⟨components, literals⟩, s⟩ := result
    generalize writing : (sink.writeAll p.generator (p.literalClasses s.literals) components).run .none = outcome
    obtain ⟨answer, written⟩ := outcome
    rw [conclude_of_ok compiled sink writing] at ends
    cases answer with
    | error e => cases ends
    | ok _ =>
      cases ends
      rfl

/-- A run that succeeds shows all that was reported, and none of it is of a fatal level. -/
theorem messages_of_run_ok {resolutions : Nat} {o : Outcome} (succeeds : (p.run id sink resolutions).result = .ok o) :
    ∃ plan, p.registry.discover = .ok plan ∧ o.messages = Turn.reported (p.due plan resolutions) ∧
      ∀ m ∈ o.messages, m.level ∉ (p.start resolutions).fatal := by
  cases discovered : p.registry.discover with
  | error e =>
    rw [run, discovered] at succeeds
    cases succeeds
  | ok plan =>
    refine ⟨plan, rfl, ?_⟩
    have tells := Agenda.isFollowed_ofPhases p plan (p.start resolutions)
    cases ran : (p.runPhases plan).run (p.start resolutions) with
    | mk result b =>
      rw [ran] at tells
      cases result with
      | error e =>
        rw [run_of_failure discovered ran] at succeeds
        cases succeeds
      | ok _ =>
        rw [run_of_success discovered ran] at succeeds
        have shown := messages_of_conclude_ok succeeds
        have ended : Turn.outcome (p.due plan resolutions) = .ok () := tells.result.symm
        have messages : b.messages = [] ++ Turn.reported (Turn.taken (p.due plan resolutions)) := tells.messages
        rw [Turn.taken_eq_self ended] at messages
        rw [shown]
        exact ⟨messages, Build.clean_of_runPhases_ok ran fun _ none => absurd none List.not_mem_nil⟩

end Pipeline

/-- The messages that are reported in a phase, and no others, make it fail: those that are errors, and warnings where the
    build is to fail on warnings. So a run that succeeds has none of these. -/
theorem messages_fail_their_own_phase :
    (∀ (plan : Plan) (resolver : Resolver) (phase : Phase) (b : Build), b.expected? = some phase →
      (∀ t ∈ (Agenda.work plan phase (b.entering phase)).1, t.ends = .ok ()) →
      Build.Judges (if b.config.failOnWarnings then [.warning, .error] else [.error]) b phase
        (Agenda.work plan phase (b.entering phase)).1 ((Build.runPhase plan resolver phase).run b)) ∧
    ∀ (p : Pipeline) (id : BuildId) (sink : Sink) (resolutions : Nat) (o : Outcome),
      (p.run id sink resolutions).result = .ok o →
        ∃ plan, p.registry.discover = .ok plan ∧ o.messages = Turn.reported (p.due plan resolutions) ∧
          ∀ m ∈ o.messages, m.level ∉ if p.config.failOnWarnings then [Level.warning, .error] else [.error] := by
  refine ⟨fun plan resolver _ _ expected succeeds => Build.judges_of_success plan resolver expected succeeds, ?_⟩
  intro p id sink resolutions o succeeds
  exact Pipeline.messages_of_run_ok succeeds

/-- A callback that reports a warning and then a message of a level. -/
def reporter (level : Level) : Callback where
  extension := "t::Courier"
  name := "report"
  phase := .discovery
  priority := none
  roles := [.messages]
  constraints := []
  body := fun _ => do
    CallbackProgram.report ⟨.warning, "detour", none⟩
    CallbackProgram.report ⟨level, "no route", none⟩
  legal := by decide

/-- A build of an extension that declares it, with warnings fatal or not. -/
def reporting (failOnWarnings : Bool) (level : Level) : Pipeline where
  corpus := couriers
  registry := Registry.empty.register ⟨"t::Courier", "t::Courier", [⟨"report", [.discovery], none, [.messages], [], true,
    false, some (reporter level).body⟩]⟩
  config := { Config.default with failOnWarnings }
  resolver := .fixed .empty
  generator := .compact

/-- The turns of its discovery phase. -/
def reports (failOnWarnings : Bool) (level : Level) : List Turn :=
  (Agenda.work ⟨[reporter level]⟩ .discovery (((reporting failOnWarnings level).start 0).entering .discovery)).1

theorem messages_fail_their_own_phase_when_reporting :
    ((Build.runPhase ⟨[reporter .error]⟩ (.fixed .empty) .discovery).run ((reporting false .error).start 0)).1 =
        .error (.validation .discovery [⟨.error, "no route", none⟩]) ∧
      ((Build.runPhase ⟨[reporter .warning]⟩ (.fixed .empty) .discovery).run ((reporting true .warning).start 0)).1 =
        .error (.validation .discovery [⟨.warning, "detour", none⟩, ⟨.warning, "no route", none⟩]) ∧
      ∃ o, ((reporting false .warning).run (.ofNumber 1) .accepting 0).result = .ok o ∧
        o.messages.map (·.text) = ["detour", "no route"] := by
  obtain ⟨judged, shown⟩ := messages_fail_their_own_phase
  have judges : ∀ failOnWarnings level, (Turn.outcome (reports failOnWarnings level)).isOk = true →
      Build.Judges (if failOnWarnings then [.warning, .error] else [.error]) ((reporting failOnWarnings level).start 0)
        .discovery (reports failOnWarnings level)
        ((Build.runPhase ⟨[reporter level]⟩ (.fixed .empty) .discovery).run ((reporting failOnWarnings level).start 0)) := by
    intro failOnWarnings level succeeds
    obtain ⟨_, ended⟩ := exists_ok_of_isOk succeeds
    exact judged ⟨[reporter level]⟩ (.fixed .empty) .discovery _ rfl (Turn.outcome_eq_ok.1 ended)
  refine ⟨?errors, ?warnings, ?passes⟩
  case errors =>
    have failing : Build.reportedAt [.error] (reports false .error) = [⟨.error, "no route", none⟩] := by decide +kernel
    have judges := judges false .error (by decide +kernel)
    rw [judges.error_of_ne_nil (by simp [failing])]
    exact congrArg (fun ms => Except.error (BuildError.validation .discovery ms)) failing
  case warnings =>
    have failing : Build.reportedAt [.warning, .error] (reports true .warning) =
      [⟨.warning, "detour", none⟩, ⟨.warning, "no route", none⟩] := by decide +kernel
    have judges := judges true .warning (by decide +kernel)
    rw [judges.error_of_ne_nil (by simp [failing])]
    exact congrArg (fun ms => Except.error (BuildError.validation .discovery ms)) failing
  case passes =>
    have succeeds : ((reporting false .warning).run (.ofNumber 1) .accepting 0).result.isOk = true := by decide +kernel
    obtain ⟨o, ended⟩ := exists_ok_of_isOk succeeds
    obtain ⟨plan, discovered, messages, -⟩ := shown _ _ _ _ o ended
    obtain rfl : ⟨[reporter .warning]⟩ = plan := Except.ok.inj discovered
    refine ⟨o, ended, ?_⟩
    rw [messages]
    decide +kernel

end AnnotationWeaver
