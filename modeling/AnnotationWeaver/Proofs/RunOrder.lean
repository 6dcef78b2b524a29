import AnnotationWeaver.Proofs.AgendaRuns
import AnnotationWeaver.Proofs.BuildOutput
import AnnotationWeaver.Proofs.Matches

/-!
The order of a run. Nothing is run for extensions that are not fit; else the bodies are run that are due phase by
phase, up to the first turn that fails, and that failure is what the run ends with. Nothing is handed to a sink unless
all turns ended well and all qualifiers were compiled, and the service entry comes after the class that it names. The
configurators that are due are those that were registered in the discovery, in that order, each once.
-/
namespace AnnotationWeaver

/-! ### What is handed over -/

namespace Sink

variable {sink : Sink} {w : Written}

/-- Whether it is taken or refused, what is handed over comes last. -/
theorem handed_hand (clear : w.refused? = none) (name : TypeName) (write : Write) :
    ((sink.hand name write).run w).2.handed = w.handed ++ [write] := by
  cases answer : sink.take w.taken write with
  | ok _ => simp [hand_run_ok answer, Written.handed, clear]
  | error cause => simp [hand_run_error answer, Written.handed, clear]

/-- The texts of classes, as they are handed over. -/
def types (entries : List (TypeName × String)) : List Write := entries.map fun entry => .type entry.1 entry.2

theorem handed_writeClass (sink : Sink) (clear : w.refused? = none) (name : TypeName) (rendered : Except String String) :
    ∃ entries, ((sink.writeClass name rendered).run w).2.handed = w.handed ++ types entries := by
  cases rendered with
  | error cause => exact ⟨[], (List.append_nil _).symm⟩
  | ok text => exact ⟨[(name, text)], handed_hand clear name (.type name text)⟩

theorem handed_writeClasses (sink : Sink) (clear : w.refused? = none) (g : Generator) (classes : List LiteralClass) :
    ∃ entries, ((classes.forM fun k => sink.writeClass k.name (g.literal k)).run w).2.handed =
      w.handed ++ types entries := by
  induction classes generalizing w with
  | nil => exact ⟨[], (List.append_nil _).symm⟩
  | cons k rest ih =>
    obtain ⟨own, first⟩ := handed_writeClass sink clear k.name (g.literal k)
    have split : ((k :: rest).forM fun k => sink.writeClass k.name (g.literal k)) =
      (sink.writeClass k.name (g.literal k) >>= fun _ => rest.forM fun k => sink.writeClass k.name (g.literal k)) := rfl
    rw [split]
    cases ran : (sink.writeClass k.name (g.literal k)).run w with
    | mk result w' =>
      rw [ran] at first
      cases result with
      | error e =>
        rw [WriteM.run_bind_error ran]
        exact ⟨own, first⟩
      | ok _ =>
        obtain ⟨text, -, written⟩ := writeClass_ok ran
        obtain ⟨others, later⟩ := ih (w := w') (by rw [written, clear])
        rw [WriteM.run_bind_ok ran]
        refine ⟨own ++ others, ?_⟩
        rw [later, first, types, types, types, List.map_append, List.append_assoc]

/-- What was taken stays taken. -/
theorem taken_subset_hand (name : TypeName) (write : Write) : w.taken ⊆ ((sink.hand name write).run w).2.taken := by
  cases answer : sink.take w.taken write with
  | ok _ =>
    rw [hand_run_ok answer]
    exact List.subset_append_left _ _
  | error cause =>
    rw [hand_run_error answer]
    exact List.Subset.refl _

/-- The service entry is handed over last, after the class of the components was taken. -/
theorem handed_writeAll {g : Generator} {classes : List LiteralClass} {components : ComponentsClass}
    (left : ((sink.writeAll g classes components).run .none).2 = w) :
    ∃ entries, w.handed = types entries ∨
      ∃ text, w.handed = types (entries ++ [(components.name, text)]) ++
          [.service componentsProvider components.name] ∧ .type components.name text ∈ w.taken := by
  subst left
  obtain ⟨entries, written⟩ := handed_writeClasses sink (w := .none) rfl g classes
  unfold writeAll
  cases first : (classes.forM fun k => sink.writeClass k.name (g.literal k)).run Written.none with
  | mk result w₁ =>
    rw [first] at written
    cases result with
    | error e =>
      rw [WriteM.run_bind_error first]
      exact ⟨entries, .inl written⟩
    | ok _ =>
      obtain ⟨_, -, taken⟩ := writeClasses_ok first
      have clear : w₁.refused? = none := by rw [taken]; rfl
      rw [WriteM.run_bind_ok first]
      cases empty : components.isEmpty with
      | true => exact ⟨entries, .inl written⟩
      | false =>
        obtain ⟨own, second⟩ := handed_writeClass sink clear components.name (g.components components)
        simp only [Bool.not_false, if_true]
        cases ran : (sink.writeClass components.name (g.components components)).run w₁ with
        | mk result w₂ =>
          rw [ran] at second
          cases result with
          | error e =>
            rw [WriteM.run_bind_error ran]
            refine ⟨entries ++ own, .inl ?_⟩
            rw [second, written, types, types, types, List.map_append]
            rfl
          | ok _ =>
            obtain ⟨text, -, rfl⟩ := writeClass_ok ran
            rw [WriteM.run_bind_ok ran]
            refine ⟨entries, .inr ⟨text, ?_, ?_⟩⟩
            · have now : w₁.taken = types entries := by simpa [Written.handed, clear, Written.none] using written
              rw [handed_hand (w := { w₁ with taken := w₁.taken ++ [.type components.name text] }) clear]
              simp [Written.handed, clear, now, types]
            · exact taken_subset_hand _ _ (List.mem_append_right _ (List.mem_singleton_self _))

end Sink

/-! ### Configurators -/

namespace Agenda

/-- The agenda leaves pending what was pending and what its turns register. -/
def Registers (agenda : Agenda) : Prop :=
  ∀ b, (agenda b).2.metas.pending = b.metas.pending ++ Turn.registered (agenda b).1

variable {agenda later : Agenda}

theorem Registers.andThen (first : agenda.Registers) (rest : later.Registers) : (agenda.andThen later).Registers := by
  intro b
  show (later (agenda b).2).2.metas.pending = _ ++ Turn.registered ((agenda b).1 ++ (later (agenda b).2).1)
  rw [rest, first, Turn.registered, Turn.registered, Turn.registered, List.flatMap_append, List.append_assoc]

theorem Registers.each {ι : Type} {f : ι → Agenda} (every : ∀ x, (f x).Registers) (xs : List ι) :
    (Agenda.each f xs).Registers := by
  induction xs with
  | nil => exact fun b => (List.append_nil _).symm
  | cons x rest ih => exact (every x).andThen ih

theorem registers_ofPart {part : BuildM Unit} (keeps : ∀ b, (part.run b).2.metas = b.metas) :
    (ofPart part).Registers := by
  intro b
  rw [ofPart, keeps b]
  exact (List.append_nil _).symm

theorem registers_ofInvocation (body : Invocation → CallbackProgram Unit) (i : Invocation) :
    (ofInvocation body i).Registers := by
  intro b
  have asked := Program.run_appends (Build.answer i) (·.metas.pending) (·.registration?) (Build.pending_answer i) (body i)
    (b.noting i)
  simp only [ofInvocation, Build.invoke_run, Turn.registered, List.flatMap_singleton]
  exact asked

theorem registers_ofCallback (c : Callback) : (ofCallback c).Registers := by
  intro b
  rw [ofCallback]
  cases c.invocations b with
  | ok invocations => exact Registers.each (fun i => registers_ofInvocation c.body i) invocations b
  | error e => exact (List.append_nil _).symm

/-- After the discovery those configurators are pending that its callbacks have registered, in their order. -/
theorem registers_discovery (plan : Plan) (resolver : Resolver) : (ofPhase plan resolver .discovery).Registers := by
  intro b
  have enters : (ofPart (Build.enter .discovery)).Registers := by
    refine registers_ofPart fun b => ?_
    rw [Build.enter, BuildM.run_get_bind]
    split
    · rfl
    · rfl
  have checks : (ofPart (Build.checkMessages .discovery b.messages.length)).Registers := by
    refine registers_ofPart fun b => ?_
    rw [Build.checkMessages, BuildM.run_get_bind]
    dsimp only
    split
    · rfl
    · rfl
  have finishes : (ofPart (Build.finish resolver .discovery)).Registers := registers_ofPart fun b => rfl
  have works : (work plan .discovery).Registers := Registers.each registers_ofCallback _
  exact (enters.andThen (works.andThen (checks.andThen finishes))) b

end Agenda

/-! ### Runs -/

namespace Turn

/-- The first turn that fails ends it all. -/
theorem of_first_failure {due before later : List Turn} {t : Turn} {e : BuildError} (split : due = before ++ t :: later)
    (well : ∀ s ∈ before, s.ends = .ok ()) (fails : t.ends = .error e) :
    outcome due = .error e ∧ taken due = before ++ [t] := by
  subst split
  obtain ⟨same, cut⟩ := append_of_ok (outcome_eq_ok.2 well) (t :: later)
  rw [same, cut, outcome_cons_error fails, taken_cons_error fails]
  exact ⟨rfl, rfl⟩

end Turn

namespace Pipeline

/-- The state in which a run begins. -/
def start (p : Pipeline) (resolutions : Nat) : Build := Build.start p.corpus p.config resolutions

/-- The turns that are due for a plan. -/
def due (p : Pipeline) (plan : Plan) (resolutions : Nat) : List Turn :=
  (Agenda.ofPhases plan p.resolver (p.start resolutions)).1

/-- A run of a plan keeps to the turns that are due. -/
structure RunsInOrder (p : Pipeline) (id : BuildId) (plan : Plan) (resolutions : Nat) (r : PipelineRun) : Prop where
  /-- The bodies that are run are the first ones that are due, and all of them unless the run fails. -/
  ordered : r.build.calls <+: Turn.calls (p.due plan resolutions)
  complete : r.build.calls ≠ Turn.calls (p.due plan resolutions) → ∃ e, r.result = .error e
  /-- The first turn that fails ends the run. -/
  ended : ∀ before t later e, p.due plan resolutions = before ++ t :: later → (∀ s ∈ before, s.ends = .ok ()) →
    t.ends = .error e →
    r.result = .error e ∧ r.build.calls = Turn.calls (before ++ [t]) ∧ r.written.handed = []
  /-- Before anything is handed over, all turns have ended well and all qualifiers were compiled. -/
  gated : r.written.handed ≠ [] → (p.runPhases plan).run (p.start resolutions) = (.ok (), r.build) ∧
    (∀ t ∈ p.due plan resolutions, t.ends = .ok ()) ∧ r.build.calls = Turn.calls (p.due plan resolutions) ∧
    ∃ compiled, (p.literalSettings.compileBuild id r.build).run .initial = .ok compiled
  /-- Before a service entry the class was taken that it names. -/
  announced : ∀ before name provider later, r.written.handed = before ++ .service name provider :: later →
    ∃ text, .type provider text ∈ before ∧ .type provider text ∈ r.written.taken
  /-- The configurators that are due are those that were registered in the discovery, each once. -/
  registered : (Agenda.ofPhase plan p.resolver .discovery (p.start resolutions)).2.metas.pending =
    Turn.registered (Agenda.ofPhase plan p.resolver .discovery (p.start resolutions)).1

variable {p : Pipeline} {id : BuildId} {sink : Sink}

/-- What is handed over was compiled before, and is what the writing of it hands over. -/
theorem written_conclude {b : Build} (written : (p.conclude id sink b).2.handed ≠ []) :
    (∃ compiled, (p.literalSettings.compileBuild id b).run .initial = .ok compiled) ∧
      ∃ literals components, (p.conclude id sink b).2 = ((sink.writeAll p.generator literals components).run .none).2 := by
  cases compiled : (p.literalSettings.compileBuild id b).run .initial with
  | error e =>
    rw [conclude_of_error compiled] at written
    exact absurd rfl written
  | ok result =>
    obtain ⟨⟨components, literals⟩, s⟩ := result
    exact ⟨⟨_, rfl⟩, _, components, congrArg Prod.snd (conclude_of_ok compiled sink rfl)⟩

/-- A service entry that is handed over is the last, and the class of the components is right before it. -/
theorem announced_conclude {b : Build} {before later : List Write} {name provider : TypeName}
    (split : (p.conclude id sink b).2.handed = before ++ .service name provider :: later) :
    ∃ text, .type provider text ∈ before ∧ .type provider text ∈ (p.conclude id sink b).2.taken := by
  have written : (p.conclude id sink b).2.handed ≠ [] := by simp [split]
  obtain ⟨-, literals, components, same⟩ := written_conclude written
  obtain ⟨entries, alone | ⟨text, handed, taken⟩⟩ := Sink.handed_writeAll same.symm
  · have listed : .service name provider ∈ Sink.types entries := by
      rw [← alone, split]
      exact List.mem_append_right _ List.mem_cons_self
    simp [Sink.types] at listed
  · rw [handed] at split
    rcases List.eq_nil_or_concat' later with rfl | ⟨others, last, rfl⟩
    · obtain ⟨rfl, entry⟩ := List.append_inj' split rfl
      cases entry
      exact ⟨text, by simp [Sink.types], taken⟩
    · have inside : Sink.types (entries ++ [(components.name, text)]) = before ++ .service name provider :: others := by
        have regrouped : before ++ .service name provider :: (others ++ [last]) =
          (before ++ .service name provider :: others) ++ [last] := by simp
        rw [regrouped] at split
        exact (List.append_inj' split rfl).1
      have listed : .service name provider ∈ Sink.types (entries ++ [(components.name, text)]) := by
        rw [inside]
        exact List.mem_append_right _ List.mem_cons_self
      simp [Sink.types] at listed

theorem run_of_failure {plan : Plan} {resolutions : Nat} {e : BuildError} {b : Build}
    (discovered : p.registry.discover = .ok plan) (ran : (p.runPhases plan).run (p.start resolutions) = (.error e, b)) :
    p.run id sink resolutions = ⟨.error e, b, .none⟩ := by
  rw [start] at ran
  rw [run, discovered]
  simp only [ran]

theorem run_of_success {plan : Plan} {resolutions : Nat} {b : Build} (discovered : p.registry.discover = .ok plan)
    (ran : (p.runPhases plan).run (p.start resolutions) = (.ok (), b)) :
    p.run id sink resolutions = ⟨(p.conclude id sink b).1, b, (p.conclude id sink b).2⟩ := by
  rw [start] at ran
  rw [run, discovered]
  simp only [ran]

/-- A run whose phases fail hands nothing over. -/
theorem RunsInOrder.ofFailure {plan : Plan} {resolutions : Nat} {e : BuildError} {b : Build}
    (ran : (p.runPhases plan).run (p.start resolutions) = (.error e, b)) :
    p.RunsInOrder id plan resolutions ⟨.error e, b, .none⟩ := by
  have tells := Agenda.isFollowed_ofPhases p plan (p.start resolutions)
  rw [ran] at tells
  have outcome : Turn.outcome (p.due plan resolutions) = .error e := tells.result.symm
  have calls : b.calls = Turn.calls (Turn.taken (p.due plan resolutions)) := tells.calls
  refine ⟨?_, fun _ => ⟨e, rfl⟩, ?_, fun written => absurd rfl written, ?_, ?_⟩
  · rw [calls]
    exact (Turn.taken_prefix _).filterMap _
  · intro before t later e' split well fails
    obtain ⟨outcome', taken⟩ := Turn.of_first_failure split well fails
    obtain rfl := Except.error.inj (outcome.symm.trans outcome')
    exact ⟨rfl, calls.trans (congrArg Turn.calls taken), rfl⟩
  · intro before name provider later split
    have none : [] = before ++ .service name provider :: later := split
    simp at none
  · exact Agenda.registers_discovery plan p.resolver (p.start resolutions)

/-- A run whose phases all end well has run all that is due. -/
theorem RunsInOrder.ofSuccess {plan : Plan} {resolutions : Nat} {b : Build}
    (ran : (p.runPhases plan).run (p.start resolutions) = (.ok (), b)) :
    p.RunsInOrder id plan resolutions ⟨(p.conclude id sink b).1, b, (p.conclude id sink b).2⟩ := by
  have tells := Agenda.isFollowed_ofPhases p plan (p.start resolutions)
  rw [ran] at tells
  have outcome : Turn.outcome (p.due plan resolutions) = .ok () := tells.result.symm
  have calls : b.calls = Turn.calls (p.due plan resolutions) := by
    have taken : b.calls = Turn.calls (Turn.taken (p.due plan resolutions)) := tells.calls
    rwa [Turn.taken_eq_self outcome] at taken
  refine ⟨calls ▸ List.prefix_rfl, fun cut => absurd calls cut, ?_, ?_, ?_, ?_⟩
  · intro before t later e split well fails
    rw [(Turn.of_first_failure split well fails).1] at outcome
    cases outcome
  · intro written
    exact ⟨ran, Turn.outcome_eq_ok.1 outcome, calls, (written_conclude written).1⟩
  · intro before name provider later split
    exact announced_conclude split
  · exact Agenda.registers_discovery plan p.resolver (p.start resolutions)

/-- Whatever the extensions, the resolver and the sink do: without a plan nothing is run, and a plan is run in the order
    of its phases. -/
theorem run_keeps_order (p : Pipeline) (id : BuildId) (sink : Sink) (resolutions : Nat) :
    (∀ e, p.registry.discover = .error e → (p.run id sink resolutions).result = .error (.configuration e) ∧
      (p.run id sink resolutions).build.calls = [] ∧ (p.run id sink resolutions).written.handed = []) ∧
    ∀ plan, p.registry.discover = .ok plan → p.RunsInOrder id plan resolutions (p.run id sink resolutions) := by
  constructor
  · intro e unfit
    rw [run, unfit]
    exact ⟨rfl, rfl, rfl⟩
  · intro plan discovered
    cases ran : (p.runPhases plan).run (p.start resolutions) with
    | mk result b =>
      cases result with
      | error e =>
        rw [run_of_failure discovered ran]
        exact .ofFailure ran
      | ok _ =>
        rw [run_of_success discovered ran]
        exact .ofSuccess ran

end Pipeline

/-- What a body is known by: its name, or the annotation type that it configures. -/
def Call.name : Call → String
  | .configurator _ type _ => type.text
  | .callback i => i.callback

/-- A callback for a phase that does the same whatever it is run for. -/
def plainly (name : String) (phase : Phase) (roles : List Role) (body : CallbackProgram Unit) : CallbackDecl :=
  ⟨name, [phase], none, roles, [], true, false, some fun _ => body⟩

/-- A build of an extension that registers two annotation types, one of which is not in the corpus, and gives up in the
    enhancement; its first callback is for a later phase. -/
def faltering : Pipeline where
  corpus := couriers
  registry := Registry.empty.register ⟨"t::Courier", "t::Courier", [
    plainly "check" .validation [] (pure ()),
    plainly "register" .discovery [.metaAnnotations] do
      CallbackProgram.registerMeta .qualifier ⟨"t.Absent"⟩ fun _ => pure ()
      CallbackProgram.registerMeta .stereotype ⟨"t.Service"⟩ fun _ => pure (),
    plainly "enhance" .enhancement [] (.giveUp (.text "no route"))]⟩
  config := .default
  resolver := .fixed .empty
  generator := .compact

theorem run_keeps_order_when_faltering : ∃ plan, faltering.registry.discover = .ok plan ∧
    (Turn.calls (faltering.due plan 0)).map Call.name = ["register", "t.Service", "enhance", "check"] ∧
    (faltering.run (.ofNumber 1) .accepting 0).build.calls.map Call.name = ["register", "t.Service", "enhance"] ∧
    ∃ e, (faltering.run (.ofNumber 1) .accepting 0).result = .error e := by
  obtain ⟨-, planned⟩ := Pipeline.run_keeps_order faltering (.ofNumber 1) .accepting 0
  have ran : (faltering.run (.ofNumber 1) .accepting 0).build.calls.map Call.name = ["register", "t.Service", "enhance"] := by
    decide +kernel
  have listed : faltering.registry.discover.toOption.map (fun plan => (Turn.calls (faltering.due plan 0)).map Call.name) =
      some ["register", "t.Service", "enhance", "check"] := by decide +kernel
  cases discovered : faltering.registry.discover with
  | error e =>
    rw [discovered] at listed
    cases listed
  | ok plan =>
    rw [discovered] at listed
    have due : (Turn.calls (faltering.due plan 0)).map Call.name = ["register", "t.Service", "enhance", "check"] :=
      Option.some.inj listed
    refine ⟨plan, rfl, due, ran, (planned plan discovered).complete fun whole => ?_⟩
    rw [whole, due] at ran
    cases ran

end AnnotationWeaver
