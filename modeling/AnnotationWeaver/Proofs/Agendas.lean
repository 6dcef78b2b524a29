import AnnotationWeaver.Proofs.PhaseRuns

/-!
What a build has to do, turn by turn. An agenda lists from a state the turns that are due if no failure ends the
build early: the bodies of configurators and callbacks, and between them the turns in which the build checks, freezes
and resolves, which run no body. A part of a build follows its agenda if it takes these turns one after the other up to
the first that fails. What is due later depends on what the turns before have done, so an agenda hands on the state.
-/
namespace AnnotationWeaver

/-! ### Requests that are served -/

namespace Program

variable {ε Request σ α β : Type} {Reply : Request → Type} (answer : (r : Request) → σ → Except ε (Reply r) × σ)

/-- The requests of a program that do not fail, in order. -/
def served : Program ε Request Reply α → σ → List Request
  | .done _, _ => []
  | .giveUp _, _ => []
  | .ask r next, s =>
    (if (answer r s).1.isOk then [r] else []) ++ served (next (answer r s).1) (answer r s).2

/-- If a request that is served appends its entry to a log, and nothing else does, a run appends the entries of the
    requests that were served. -/
theorem run_appends (log : σ → List β) (logged? : Request → Option β)
    (step : ∀ r s, log (answer r s).2 = log s ++ (if (answer r s).1.isOk then logged? r else none).toList)
    (p : Program ε Request Reply α) (s : σ) :
    log (p.run answer s).2 = log s ++ (p.served answer s).filterMap logged? := by
  induction p generalizing s with
  | done result => simp [run, served]
  | giveUp e => simp [run, served]
  | ask r next ih =>
    have entered : (if (answer r s).1.isOk then logged? r else none).toList =
        (if (answer r s).1.isOk then [r] else []).filterMap logged? := by
      split
      · cases logs : logged? r <;> simp [logs]
      · rfl
    rw [run, served, List.filterMap_append]
    dsimp only
    rw [ih, step, entered, List.append_assoc]

end Program

namespace Request

def message? : Request → Option Message
  | .report m => some m
  | _ => none

def registration? : Request → Option (MetaKind × TypeName × Configurator)
  | .registerMeta kind type configure => some (kind, type, configure)
  | _ => none

end Request

namespace Build

/-- What is reported is what a callback with the parameter for it asks to report. -/
theorem messages_answer (i : Invocation) (r : Request) (b : Build) :
    (b.answer i r).2.messages = b.messages ++ (if (b.answer i r).1.isOk then r.message? else none).toList := by
  unfold answer
  cases i.refusal? r with
  | some failure => exact (List.append_nil _).symm
  | none =>
    cases r with
    | report m => rfl
    | _ =>
      simp only [Request.message?, ite_self, Option.toList_none, List.append_nil]
      rfl

theorem pending_answer (i : Invocation) (r : Request) (b : Build) :
    (b.answer i r).2.metas.pending =
      b.metas.pending ++ (if (b.answer i r).1.isOk then r.registration? else none).toList := by
  unfold answer
  cases i.refusal? r with
  | some failure => exact (List.append_nil _).symm
  | none =>
    cases r with
    | registerMeta kind type configure => exact List.filterMap_append
    | _ =>
      simp only [Request.registration?, ite_self, Option.toList_none, List.append_nil]
      rfl

end Build

/-! ### Turns -/

/-- One turn of a build: the body that is run, if one is, what is reported and registered in it, and how it ends. -/
structure Turn where
  call? : Option Call
  reports : List Message
  registers : List (MetaKind × TypeName × Configurator)
  ends : Except BuildError Unit

namespace Turn

/-- The bodies that are run in turns. -/
def calls (turns : List Turn) : List Call := turns.filterMap (·.call?)

def reported (turns : List Turn) : List Message := turns.flatMap (·.reports)

def registered (turns : List Turn) : List (MetaKind × TypeName × Configurator) := turns.flatMap (·.registers)

/-- How turns that are taken one after the other end: with the first failure, if there is one. -/
def outcome : List Turn → Except BuildError Unit
  | [] => .ok ()
  | t :: rest =>
    match t.ends with
    | .ok () => outcome rest
    | .error e => .error e

/-- The turns that are taken: those up to the first that fails. -/
def taken : List Turn → List Turn
  | [] => []
  | t :: rest =>
    match t.ends with
    | .ok () => t :: taken rest
    | .error _ => [t]

variable {turns before : List Turn} {t : Turn} {e : BuildError}

theorem outcome_cons_ok (ends : t.ends = .ok ()) (rest : List Turn) : outcome (t :: rest) = outcome rest := by
  rw [outcome, ends]

theorem outcome_cons_error (ends : t.ends = .error e) (rest : List Turn) : outcome (t :: rest) = .error e := by
  rw [outcome, ends]

theorem taken_cons_ok (ends : t.ends = .ok ()) (rest : List Turn) : taken (t :: rest) = t :: taken rest := by
  rw [taken, ends]

theorem taken_cons_error (ends : t.ends = .error e) (rest : List Turn) : taken (t :: rest) = [t] := by
  rw [taken, ends]

theorem outcome_eq_ok : outcome turns = .ok () ↔ ∀ t ∈ turns, t.ends = .ok () := by
  induction turns with
  | nil => simp [outcome]
  | cons t rest ih =>
    cases ends : t.ends with
    | ok _ => simp [outcome_cons_ok ends, ih, ends]
    | error e => simp [outcome_cons_error ends, ends]

theorem taken_eq_self (ended : outcome turns = .ok ()) : taken turns = turns := by
  induction turns with
  | nil => rfl
  | cons t rest ih =>
    have each := outcome_eq_ok.1 ended
    have ends := each t List.mem_cons_self
    rw [taken_cons_ok ends, ih (outcome_cons_ok ends rest ▸ ended)]

theorem taken_prefix (turns : List Turn) : taken turns <+: turns := by
  induction turns with
  | nil => exact List.prefix_rfl
  | cons t rest ih =>
    cases ends : t.ends with
    | ok _ =>
      rw [taken_cons_ok ends]
      exact List.cons_prefix_cons.2 ⟨rfl, ih⟩
    | error e =>
      rw [taken_cons_error ends]
      exact List.cons_prefix_cons.2 ⟨rfl, List.nil_prefix⟩

/-- After turns that end well, more are taken. -/
theorem append_of_ok (ended : outcome before = .ok ()) (later : List Turn) :
    outcome (before ++ later) = outcome later ∧ taken (before ++ later) = before ++ taken later := by
  induction before with
  | nil => exact ⟨rfl, rfl⟩
  | cons t rest ih =>
    have ends := outcome_eq_ok.1 ended t List.mem_cons_self
    obtain ⟨same, more⟩ := ih (outcome_cons_ok ends rest ▸ ended)
    rw [List.cons_append, outcome_cons_ok ends, taken_cons_ok ends, same, more, List.cons_append]
    exact ⟨rfl, rfl⟩

/-- After a failure no more turns are taken. -/
theorem append_of_error (ended : outcome before = .error e) (later : List Turn) :
    outcome (before ++ later) = .error e ∧ taken (before ++ later) = taken before := by
  induction before with
  | nil => cases ended
  | cons t rest ih =>
    cases ends : t.ends with
    | ok _ =>
      obtain ⟨same, none⟩ := ih (outcome_cons_ok ends rest ▸ ended)
      rw [List.cons_append, outcome_cons_ok ends, taken_cons_ok ends, taken_cons_ok ends, same, none]
      exact ⟨rfl, rfl⟩
    | error e' =>
      rw [List.cons_append, taken_cons_error ends, taken_cons_error ends, outcome_cons_error ends]
      rw [outcome_cons_error ends] at ended
      exact ⟨ended, rfl⟩

end Turn

/-! ### Agendas -/

/-- The turns that are due from a state if no failure ends them, and the state that they leave. -/
abbrev Agenda : Type := Build → List Turn × Build

namespace Agenda

def andThen (first later : Agenda) : Agenda := fun b =>
  ((first b).1 ++ (later (first b).2).1, (later (first b).2).2)

def each {ι : Type} (f : ι → Agenda) : List ι → Agenda
  | [] => fun b => ([], b)
  | x :: rest => (f x).andThen (each f rest)

/-- A turn in which no body is run. -/
def ofPart (part : BuildM Unit) : Agenda := fun b => ([⟨none, [], [], (part.run b).1⟩], (part.run b).2)

/-- The turn of one run of a callback, which reports and registers what it is served with. -/
def ofInvocation (body : Invocation → CallbackProgram Unit) (i : Invocation) : Agenda := fun b =>
  let requests := (body i).served (Build.answer i) (b.noting i)
  let ran := (Build.invoke body i).run b
  ([⟨some (.callback i), requests.filterMap (·.message?), requests.filterMap (·.registration?), ran.1⟩], ran.2)

/-- The turns of a callback: one for everything that it matches when they begin. -/
def ofCallback (c : Callback) : Agenda := fun b =>
  match c.invocations b with
  | .ok invocations => each (ofInvocation c.body) invocations b
  | .error e => ([⟨none, [], [], .error e⟩], b)

/-- The turn of a configurator; for an annotation type that is not in the corpus no body is run but a warning is
    reported. -/
def ofConfigurator (pending : MetaKind × TypeName × Configurator) : Agenda := fun b =>
  let ran := (Build.configure pending.1 pending.2.1 pending.2.2).run b
  match b.corpus.class? pending.2.1 with
  | some _ => ([⟨some (.configurator pending.1 pending.2.1 pending.2.2), [], [], ran.1⟩], ran.2)
  | none => ([⟨none, [Build.skipped pending.1 pending.2.1], [], ran.1⟩], ran.2)

/-- The turns of the pending configurators, in the order in which they were registered. -/
def configurators : Agenda := fun b => each ofConfigurator b.metas.pending { b with metas := b.metas.taken }

def callbacks (plan : Plan) (phase : Phase) : Agenda := each ofCallback (plan.of phase)

end Agenda

/-- Freezes the edits, and keeps the final view that comes out. -/
def Build.freezing : BuildM Unit := do
  match ← Build.conclude with
  | .ok view => modify fun b => { b with final? := some view }
  | .error e => throw (.edit e)

namespace Agenda

/-- The work of a phase: its callbacks, which in the enhancement come between the configurators and the freeze. -/
def work (plan : Plan) : Phase → Agenda
  | .enhancement => (configurators.andThen (callbacks plan .enhancement)).andThen (ofPart Build.freezing)
  | phase => callbacks plan phase

/-- A phase is entered, does its work, checks what was reported and goes on to the deployment. -/
def ofPhase (plan : Plan) (resolver : Resolver) (phase : Phase) : Agenda := fun b =>
  ((ofPart (Build.enter phase)).andThen <| (work plan phase).andThen <|
    (ofPart (Build.checkMessages phase b.messages.length)).andThen <| ofPart (Build.finish resolver phase)) b

/-- All phases in their order. -/
def ofPhases (plan : Plan) (resolver : Resolver) : Agenda := each (ofPhase plan resolver) Phase.all

end Agenda

end AnnotationWeaver
