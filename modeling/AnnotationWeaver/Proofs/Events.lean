import AnnotationWeaver.Proofs.AgendaRuns
import AnnotationWeaver.Proofs.SyntheticCalls

/-!
What happens in a build. The matches of a callback are looked up and then its runs ask for one thing after the other;
each event is told with the state in which it happens. Of all that is done in a build only the requests that are granted
register components, so the state in which an event happens holds what the events before have registered, and a build
leaves what all of them have registered.
-/
namespace AnnotationWeaver

/-- The requests of a program, each with the state in which it is answered. -/
def Program.asked {ε Request σ α : Type} {Reply : Request → Type} (answer : (r : Request) → σ → Except ε (Reply r) × σ) :
    Program ε Request Reply α → σ → List (Request × σ)
  | .done _, _ => []
  | .giveUp _, _ => []
  | .ask r next, s => (r, s) :: asked answer (next (answer r s).1) (answer r s).2

namespace Request

/-- What a request of an extension calls on synthetic components. -/
def call? (extension : TypeName) : Request → Option SyntheticCall
  | .addBean implementation => some (.bean (.add (extension, implementation)))
  | .refineBean place r => some (.bean (.refine place r))
  | .addObserver observed => some (.observer (.add (extension, observed)))
  | .refineObserver place r => some (.observer (.refine place r))
  | _ => none

def context? : Request → Option ScopeContext
  | .addContext c => some c
  | _ => none

end Request

/-- An event of a build, in the state in which it happens. -/
inductive Event where
  /-- The matches of a callback are looked up. -/
  | matched (c : Callback) (b : Build)
  /-- A run of a callback asks for something. -/
  | asked (i : Invocation) (r : Request) (b : Build)

namespace Event

def build : Event → Build
  | .matched _ b => b
  | .asked _ _ b => b

def phase : Event → Phase
  | .matched c _ => c.phase
  | .asked i _ _ => i.phase

/-- The call on synthetic components, if one is made and granted. -/
def call? : Event → Option SyntheticCall
  | .matched _ _ => none
  | .asked i r b => if (b.answer i r).1.isOk then r.call? (extensionClass i.extension) else none

/-- The context that is registered, if one is. -/
def context? : Event → Option ScopeContext
  | .matched _ _ => none
  | .asked i r b => if (b.answer i r).1.isOk then r.context? else none

/-- A synthetic component is registered. -/
def registers (e : Event) : Bool := e.call?.any (·.registers)

def calls (events : List Event) : List SyntheticCall := events.filterMap (·.call?)

def contexts (events : List Event) : List ScopeContext := events.filterMap (·.context?)

end Event

/-! ### Registrations -/

/-- The components and contexts that are registered in a build. -/
structure Registrations where
  synthetic : Synthetic
  contexts : List ScopeContext

def Build.registrations (b : Build) : Registrations := ⟨b.synthetic, b.metas.contexts⟩

namespace Registrations

/-- With what is registered in events. -/
def after (s : Registrations) (events : List Event) : Registrations :=
  ⟨s.synthetic.after (Event.calls events), s.contexts ++ Event.contexts events⟩

theorem after_nil (s : Registrations) : s.after [] = s := by
  simp [after, Event.calls, Event.contexts, Synthetic.after]

theorem after_append (s : Registrations) (events more : List Event) :
    s.after (events ++ more) = (s.after events).after more := by
  simp [after, Event.calls, Event.contexts, Synthetic.after_append]

end Registrations

namespace Build

theorem registrations_answer (i : Invocation) (r : Request) (b : Build) :
    (b.answer i r).2.registrations = b.registrations.after [.asked i r b] := by
  by_cases granted : (b.answer i r).1.isOk = true
  · have calls : Event.calls [.asked i r b] = (r.call? (extensionClass i.extension)).toList := by
      cases call : r.call? (extensionClass i.extension) <;> simp [Event.calls, Event.call?, granted, call]
    have contexts : Event.contexts [.asked i r b] = r.context?.toList := by
      cases context : r.context? <;> simp [Event.contexts, Event.context?, granted, context]
    rw [Registrations.after, calls, contexts]
    unfold answer at granted ⊢
    cases refused : i.refusal? r with
    | some failure =>
      rw [refused] at granted
      cases granted
    | none =>
      cases r with
      | addContext c => rfl
      | _ => exact congrArg (Registrations.mk _) (List.append_nil _).symm
  · -- What is not granted may have failed after its role was accepted, but the registrations never do.
    have none : Event.calls [.asked i r b] = [] ∧ Event.contexts [.asked i r b] = [] := by
      simp [Event.calls, Event.contexts, Event.call?, Event.context?, granted]
    rw [Registrations.after, none.1, none.2, List.append_nil]
    unfold answer at granted ⊢
    cases refused : i.refusal? r with
    | some failure => rfl
    | none =>
      cases r with
      | addContext c | addBean c | addObserver c | refineBean place c | refineObserver place c =>
        rw [refused] at granted
        exact absurd rfl granted
      | _ => rfl

end Build

/-! ### Accounts -/

/-- What happens in a part of a build that begins in a state. -/
abbrev Account : Type := Build → List Event

namespace Account

/-- Nothing happens. -/
def nothing : Account := fun _ => []

/-- What happens in a part and in what comes after it, unless the part fails. -/
def andThen (part : BuildM Unit) (first later : Account) : Account := fun b =>
  first b ++ match (part.run b).1 with
    | .ok () => later (part.run b).2
    | .error _ => []

def each {ι : Type} (part : ι → BuildM Unit) (f : ι → Account) : List ι → Account
  | [] => nothing
  | x :: rest => andThen (part x) (f x) (each part f rest)

def ofInvocation (body : Invocation → CallbackProgram Unit) (i : Invocation) : Account := fun b =>
  ((body i).asked (Build.answer i) (b.noting i)).map fun x => .asked i x.1 x.2

def ofCallback (c : Callback) : Account := fun b =>
  .matched c b :: match c.invocations b with
    | .ok invocations => each (Build.invoke c.body) (ofInvocation c.body) invocations b
    | .error _ => []

def callbacks (plan : Plan) (phase : Phase) : Account := each Build.runCallback ofCallback (plan.of phase)

/-- The work of a phase; configurators do nothing but edit. -/
def work (plan : Plan) : Phase → Account
  | .enhancement => andThen Build.configureAll nothing (callbacks plan .enhancement)
  | phase => callbacks plan phase

def ofPhase (plan : Plan) (phase : Phase) : Account := fun b =>
  if b.expected? = some phase then work plan phase (b.entering phase) else []

/-- What happens in phases, one after the other. -/
def ofPhases (plan : Plan) (resolver : Resolver) (phases : List Phase) : Account :=
  each (Build.runPhase plan resolver) (ofPhase plan) phases

variable {ι : Type} {part next : BuildM Unit} {first later : Account} {f : ι → Account} {parts : ι → BuildM Unit} {b : Build}

theorem andThen_of_ok {b' : Build} (ran : part.run b = (.ok (), b')) : andThen part first later b = first b ++ later b' := by
  rw [andThen, ran]

theorem andThen_of_error {e : BuildError} {b' : Build} (ran : part.run b = (.error e, b')) :
    andThen part first later b = first b := by
  rw [andThen, ran]
  exact List.append_nil _

end Account

/-! ### Events in their states -/

/-- The events happen one after the other in states that hold what was registered by then. -/
inductive Event.Follow : Registrations → List Event → Registrations → Prop
  | nil (s : Registrations) : Follow s [] s
  | cons {s s' : Registrations} {e : Event} {rest : List Event} (state : e.build.registrations = s)
    (later : Follow (s.after [e]) rest s') : Follow s (e :: rest) s'

namespace Event.Follow

variable {s s' s'' : Registrations} {events more : List Event}

theorem trans (first : Follow s events s') (later : Follow s' more s'') : Follow s (events ++ more) s'' := by
  induction first with
  | nil s => exact later
  | cons state _ ih => exact .cons state (ih later)

/-- What is registered in the end. -/
theorem registered (follow : Follow s events s') : s' = s.after events := by
  induction follow with
  | nil s => exact s.after_nil.symm
  | @cons s _ e rest _ _ ih => rw [ih, ← Registrations.after_append, List.singleton_append]

/-- What is registered when an event happens. -/
theorem state {before later : List Event} {e : Event} (follow : Follow s (before ++ e :: later) s') :
    e.build.registrations = s.after before := by
  induction before generalizing s with
  | nil =>
    cases follow with
    | cons state _ => rw [state, Registrations.after_nil]
  | cons e' rest ih =>
    cases follow with
    | cons _ follow => rw [ih follow, ← Registrations.after_append, List.singleton_append]

end Event.Follow

/-- The account tells what happens in the part, and nothing else registers anything. -/
def Account.IsOf (account : Account) (part : BuildM Unit) : Prop :=
  ∀ b, Event.Follow b.registrations (account b) (part.run b).2.registrations

/-- The part registers nothing. -/
def BuildM.RegistersNothing {α : Type} (part : BuildM α) : Prop :=
  ∀ s, BuildM.Keeps (fun b => b.registrations = s) part

namespace Account

variable {ι : Type} {part next : BuildM Unit} {first later : Account}

theorem isOf_nothing (quiet : part.RegistersNothing) : nothing.IsOf part := by
  intro b
  rw [quiet b.registrations b rfl]
  exact .nil _

theorem IsOf.bind (tells : first.IsOf part) (further : later.IsOf next) :
    (andThen part first later).IsOf (part >>= fun _ => next) := by
  intro b
  have begins := tells b
  cases ran : part.run b with
  | mk result b' =>
    rw [ran] at begins
    cases result with
    | error e =>
      rw [andThen_of_error ran, BuildM.run_bind_error ran]
      exact begins
    | ok _ =>
      rw [andThen_of_ok ran, BuildM.run_bind_ok ran]
      exact begins.trans (further b')

/-- What comes after may fail or not if it registers nothing. -/
theorem IsOf.before (tells : first.IsOf part) (quiet : next.RegistersNothing) : first.IsOf (part >>= fun _ => next) := by
  intro b
  have begins := tells b
  cases ran : part.run b with
  | mk result b' =>
    rw [ran] at begins
    cases result with
    | error e =>
      rw [BuildM.run_bind_error ran]
      exact begins
    | ok _ =>
      rw [BuildM.run_bind_ok ran, quiet b'.registrations b' rfl]
      exact begins

theorem IsOf.forM {f : ι → Account} {parts : ι → BuildM Unit} (every : ∀ x, (f x).IsOf (parts x)) (xs : List ι) :
    (each parts f xs).IsOf (xs.forM parts) := by
  induction xs with
  | nil => exact isOf_nothing fun _ => BuildM.Keeps.pure ()
  | cons x rest ih => exact (every x).bind ih

end Account

/-! ### Parts that register nothing -/

namespace Build

open BuildM (Keeps RegistersNothing)

theorem registersNothing_configure (kind : MetaKind) (type : TypeName) (configurator : Configurator) :
    RegistersNothing (configure kind type configurator) := by
  intro s b held
  cases indexed : b.corpus.class? type with
  | none =>
    rw [configure_run_of_none indexed]
    exact held
  | some d =>
    rw [configure_run_of_some indexed]
    exact held

theorem registersNothing_configureAll : RegistersNothing configureAll := by
  intro s
  refine Keeps.get_bind fun b held => ?_
  exact Keeps.forM b.metas.pending (fun pending _ => registersNothing_configure pending.1 pending.2.1 pending.2.2 s) _ held

theorem registersNothing_checks (resolver : Resolver) (phase : Phase) (earlier : Nat) :
    RegistersNothing (checkMessages phase earlier >>= fun _ => finish resolver phase) :=
  fun _ => (keeps_checkMessages phase earlier).bind fun _ => keeps_finish (fun _ _ _ held => held) resolver phase

/-- The enhancement leaves registered what its configurators and callbacks do. -/
theorem registrations_enhance (callbacks : List Callback) (b : Build) :
    ((enhance callbacks).run b).2.registrations = ((runEnhancement callbacks).run b).2.registrations := by
  rw [enhance, BuildM.run_bind_ok (BuildM.run_attempt _ b)]
  rcases (runEnhancement callbacks).run b with ⟨e | _, live⟩
  · rfl
  · rw [BuildM.run_bind_ok (conclude_run live)]
    cases live.edits.freeze.1 with
    | error e => rfl
    | ok view => rfl

end Build

namespace Account

theorem isOf_ofInvocation (body : Invocation → CallbackProgram Unit) (i : Invocation) :
    (ofInvocation body i).IsOf (Build.invoke body i) := by
  intro b
  -- The induction is on the program: each request goes on in the state that its answer leaves.
  have each (p : CallbackProgram Unit) (b : Build) :
      Event.Follow b.registrations ((p.asked (Build.answer i) b).map fun x => .asked i x.1 x.2)
        (p.run (Build.answer i) b).2.registrations := by
    induction p generalizing b with
    | done result => exact .nil _
    | giveUp e => exact .nil _
    | ask r next ih =>
      refine .cons rfl ?_
      rw [← Build.registrations_answer]
      exact ih _ _
  rw [Build.invoke_run]
  exact each (body i) (b.noting i)

theorem isOf_ofCallback (c : Callback) : (ofCallback c).IsOf (Build.runCallback c) := by
  intro b
  have none : b.registrations.after [.matched c b] = b.registrations := b.registrations.after_nil
  refine .cons rfl ?_
  rw [none, Build.runCallback, BuildM.run_get_bind]
  cases c.invocations b with
  | error e => exact .nil _
  | ok invocations => exact IsOf.forM (isOf_ofInvocation c.body) invocations b

theorem isOf_callbacks (plan : Plan) (phase : Phase) :
    (callbacks plan phase).IsOf ((plan.of phase).forM Build.runCallback) := IsOf.forM isOf_ofCallback (plan.of phase)

theorem isOf_work (plan : Plan) (phase : Phase) : (work plan phase).IsOf (Build.work plan phase) := by
  cases phase with
  | enhancement =>
    intro b
    rw [Build.work, Build.registrations_enhance]
    exact (isOf_nothing Build.registersNothing_configureAll).bind (isOf_callbacks plan .enhancement) b
  | discovery => exact isOf_callbacks plan .discovery
  | synthesis => exact isOf_callbacks plan .synthesis
  | validation => exact isOf_callbacks plan .validation

theorem isOf_ofPhase (plan : Plan) (resolver : Resolver) (phase : Phase) :
    (ofPhase plan phase).IsOf (Build.runPhase plan resolver phase) := by
  intro b
  rw [ofPhase]
  by_cases expected : b.expected? = some phase
  · rw [if_pos expected, Build.runPhase_run expected]
    exact (isOf_work plan phase).before (Build.registersNothing_checks resolver phase b.messages.length) (b.entering phase)
  · rw [if_neg expected, Build.runPhase_run_unexpected expected]
    exact .nil _

/-- What phases register is what is asked for in them. -/
theorem isOf_ofPhases (plan : Plan) (resolver : Resolver) (phases : List Phase) :
    (ofPhases plan resolver phases).IsOf (phases.forM (Build.runPhase plan resolver)) :=
  IsOf.forM (isOf_ofPhase plan resolver) phases

end Account

/-! ### Invariants -/

/-- If the invariant holds when the part begins, it holds in every event. -/
def Account.Sees (I : Build → Prop) (account : Account) : Prop := ∀ b, I b → ∀ e ∈ account b, I e.build

namespace Account

open Build (OutlastsRuns)

variable {I : Build → Prop} {part : BuildM Unit} {first later : Account}

theorem Sees.andThen (sees : Sees I first) (keeps : BuildM.Keeps I part) (further : Sees I later) :
    Sees I (andThen part first later) := by
  intro b held e member
  have between := keeps b held
  cases ran : part.run b with
  | mk result b' =>
    rw [ran] at between
    cases result with
    | error _ =>
      rw [andThen_of_error ran] at member
      exact sees b held e member
    | ok _ =>
      rw [andThen_of_ok ran] at member
      rcases List.mem_append.1 member with own | others
      · exact sees b held e own
      · exact further b' between e others

theorem Sees.each {ι : Type} {f : ι → Account} {parts : ι → BuildM Unit} (keeps : ∀ x, BuildM.Keeps I (parts x))
    (every : ∀ x, Sees I (f x)) (xs : List ι) : Sees I (Account.each parts f xs) := by
  induction xs with
  | nil =>
    intro b _ e member
    cases member
  | cons x rest ih => exact (every x).andThen (keeps x) ih

variable {b : Build} {e : Event}

end Account

end AnnotationWeaver
