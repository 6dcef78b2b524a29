import AnnotationWeaver.Proofs.CompilerRuns
import AnnotationWeaver.Proofs.Traces

/-!
What runs of the compiler leave behind. From a state whose shared literals are as the corpus has them, one for each type,
a compilation leads to such a state again, whether it succeeds or fails: no literal is taken back, the literals
of what was compiled are there if they are shared, and if they are not, a class is written for each annotation
that was compiled, in the order of the trace. A compilation that succeeds gives what its annotation is built as, and
its trace is that of the annotation.
-/
namespace AnnotationWeaver

namespace LiteralSettings

/-- The shared literals are prepared from the corpus, one for each type. -/
structure IsOrderly (c : LiteralSettings) (s : LiteralState) : Prop where
  prepared : c.Prepared s
  distinct : (s.literals.map (·.type)).Nodup

/-- What compiling the annotations of the trace makes of a state. -/
structure Leads (c : LiteralSettings) (trace : List Compiled) (s s' : LiteralState) : Prop where
  orderly : c.IsOrderly s'
  kept : s.literals ⊆ s'.literals
  prepared : c.shared = true → ∀ e ∈ trace, e.literal c ∈ s'.literals
  untouched : c.shared = false → s'.literals = s.literals
  written : s'.written = s.written ++ if c.shared then [] else trace.map (·.oneOffClass c)

/-- From every orderly state the compilation leads by a trace, to which a success is related. -/
def Yields (c : LiteralSettings) {α : Type} (x : Compilation α) (R : α → List Compiled → Prop) : Prop :=
  ∀ s, c.IsOrderly s → ∃ trace, c.Leads trace s (x.run s).2 ∧ ∀ y, (x.run s).1 = .ok y → R y trace

variable {c : LiteralSettings}

theorem isOrderly_initial : c.IsOrderly .initial := ⟨by simp [Prepared, LiteralState.initial], List.nodup_nil⟩

theorem Leads.refl {s : LiteralState} (orderly : c.IsOrderly s) : c.Leads [] s s :=
  ⟨orderly, List.Subset.refl _, by simp, fun _ => rfl, by simp⟩

theorem Leads.trans {first later : List Compiled} {s s' s'' : LiteralState} (leads : c.Leads first s s')
    (further : c.Leads later s' s'') : c.Leads (first ++ later) s s'' where
  orderly := further.orderly
  kept := List.Subset.trans leads.kept further.kept
  prepared sharing e member := by
    rcases List.mem_append.1 member with before | after
    · exact further.kept (leads.prepared sharing e before)
    · exact further.prepared sharing e after
  untouched alone := (further.untouched alone).trans (leads.untouched alone)
  written := by
    rw [further.written, leads.written]
    split <;> simp

/-- A class that is written was so before, or is that of an annotation of the trace. -/
theorem Leads.exists_of_mem_written {trace : List Compiled} {s s' : LiteralState} (leads : c.Leads trace s s')
    {k : LiteralClass} (written : k ∈ s'.written) :
    k ∈ s.written ∨ c.shared = false ∧ ∃ e ∈ trace, k = e.oneOffClass c := by
  rw [leads.written, List.mem_append] at written
  rcases written with before | now
  · exact .inl before
  · cases sharing : c.shared with
    | true =>
      rw [sharing, if_pos rfl] at now
      exact absurd now List.not_mem_nil
    | false =>
      rw [sharing, if_neg Bool.false_ne_true] at now
      obtain ⟨e, listed, rfl⟩ := List.mem_map.1 now
      exact .inr ⟨rfl, e, listed, rfl⟩

/-! ### Rules -/

namespace Yields

variable {α β ι : Type} {R S : α → List Compiled → Prop}

theorem weaken {x : Compilation α} (yields : c.Yields x R) (implied : ∀ y trace, R y trace → S y trace) :
    c.Yields x S := by
  intro s orderly
  obtain ⟨trace, leads, related⟩ := yields s orderly
  exact ⟨trace, leads, fun y result => implied y trace (related y result)⟩

theorem pure {y : α} (related : R y []) : c.Yields (Pure.pure y) R := by
  intro s orderly
  refine ⟨[], .refl orderly, fun z result => ?_⟩
  obtain rfl : y = z := Except.ok.inj result
  exact related

theorem throw (e : LiteralError) : c.Yields (MonadExcept.throw e) R :=
  fun _ orderly => ⟨[], .refl orderly, nofun⟩

/-- A change of the state that the trace accounts for. -/
theorem modify {f : LiteralState → LiteralState} {trace : List Compiled}
    (leads : ∀ s, c.IsOrderly s → c.Leads trace s (f s)) : c.Yields (modify f) fun _ t => t = trace :=
  fun s orderly => ⟨trace, leads s orderly, fun _ _ => rfl⟩

/-- One after the other: so are the traces. -/
theorem bind {S : β → List Compiled → Prop} {x : Compilation α} {next : α → Compilation β} (yields : c.Yields x R)
    (later : ∀ z trace, R z trace → c.Yields (next z) fun y t => S y (trace ++ t)) : c.Yields (x >>= next) S := by
  intro s orderly
  obtain ⟨trace, leads, related⟩ := yields s orderly
  rw [Compilation.run_bind]
  revert leads related
  generalize x.run s = outcome
  obtain ⟨result, s'⟩ := outcome
  intro leads related
  cases result with
  | error e => exact ⟨trace, leads, nofun⟩
  | ok z =>
    obtain ⟨more, further, related'⟩ := later z trace (related z rfl) s' leads.orderly
    exact ⟨trace ++ more, leads.trans further, related'⟩

theorem mapM {R : ι → α → List Compiled → Prop} {f : ι → Compilation α} (xs : List ι)
    (each : ∀ x ∈ xs, c.Yields (f x) (R x)) : c.Yields (xs.mapM f) (Each R xs) := by
  induction xs with
  | nil =>
    rw [List.mapM_nil]
    exact pure .nil
  | cons x rest ih =>
    rw [List.mapM_cons]
    refine (each x List.mem_cons_self).bind fun y trace head => ?_
    refine (ih fun x' later => each x' (List.mem_cons_of_mem _ later)).bind fun ys more tail => ?_
    exact pure (by simpa using Each.cons head tail)

end Yields

/-! ### Values of members -/

section

variable {N : Annotation → Construction → List Compiled → Prop} {nested : Annotation → Compilation Construction}
  (inside : ∀ a, c.Yields (nested a) (N a))
include inside

theorem yields_loadScalar (l : Literal) (m : MethodDecl) (expected : Ty) (v : Value) :
    c.Yields (l.loadScalar nested m expected v) (v.BuildsAs N expected) := by
  unfold Literal.loadScalar
  by_cases fits : v.fits expected
  · rw [if_pos fits]
    cases v with
    | nested a => exact (inside a).weaken fun _ _ built => .nested fits built
    | array kind elements => exact .throw _
    | _ => exact .pure (.plain fits rfl)
  · rw [if_neg fits]
    exact .throw _

theorem yields_loadValue (l : Literal) (m : MethodDecl) (v : Value) :
    c.Yields (l.loadValue nested m v) (m.Loads N l.name v) := by
  unfold Literal.loadValue
  by_cases kept : Literal.readsStatic m v
  · rw [if_pos kept]
    exact .pure (.static kept)
  · rw [if_neg kept]
    have made : Literal.readsStatic m v = false := Bool.eq_false_iff.2 kept
    cases type : m.returns.component? with
    | none =>
      cases v with
      | array kind elements => cases elements <;> exact .throw _
      | _ => exact (yields_loadScalar inside l m m.returns _).weaken fun _ _ built => .single made type built
    | some component =>
      cases v with
      | array kind elements =>
        cases elements with
        | nil => exact .pure (.none made type)
        | cons v rest =>
          have each := Yields.mapM (v :: rest) fun v _ => yields_loadScalar inside l m component v
          refine each.bind fun xs trace built => .pure ?_
          rw [List.append_nil]
          exact .several made type built
      | _ => exact .throw _

theorem yields_loadMember (l : Literal) (a : Annotation) (m : MethodDecl) :
    c.Yields (l.loadMember nested a m) (m.LoadsFrom N l.name a) := by
  unfold Literal.loadMember
  cases value : a.effectiveValue? m with
  | some v => exact (yields_loadValue inside l m v).weaken fun _ _ loads => ⟨v, value, loads⟩
  | none => exact .throw _

end

/-! ### Annotations -/

/-- A shared literal of the corpus is there after it was asked for. -/
theorem exists_sharedLiteral_leads {s : LiteralState} (orderly : c.IsOrderly s) (sharing : c.shared = true)
    {d : ClassDecl} (declared : c.corpus.class? d.name = some d) :
    ∃ s', (c.sharedLiteral d).run s = (.ok (c.prepare d), s') ∧ c.Leads [] s s' ∧ c.prepare d ∈ s'.literals := by
  rw [sharedLiteral_run]
  cases found : s.literal? d.name with
  | some l =>
    have same := orderly.prepared.eq_prepare declared found
    exact ⟨s, by rw [same], .refl orderly, same ▸ List.mem_of_find?_eq_some found⟩
  | none =>
    have fresh : d.name ∉ s.literals.map (·.type) := by
      simpa [LiteralState.literal?] using found
    have distinct : ((s.literals ++ [c.prepare d]).map (·.type)).Nodup := by
      rw [List.map_append, List.nodup_append]
      refine ⟨orderly.distinct, by simp, ?_⟩
      rintro type listed other last rfl
      obtain rfl : type = (c.prepare d).type := by simpa using last
      exact fresh listed
    exact ⟨_, rfl, ⟨⟨orderly.prepared.insert declared, distinct⟩, List.subset_append_left _ _, by simp, by simp [sharing],
      by simp⟩, List.mem_append_right _ List.mem_cons_self⟩

section

variable {N : Annotation → Construction → List Compiled → Prop} {nested : Annotation → Compilation Construction}
  (inside : ∀ a, c.Yields (nested a) (N a)) {d : ClassDecl} {a : Annotation}
  (declared : c.corpus.class? a.type = some d)
include inside declared

theorem yields_construct (sharing : c.shared = true) (package : String) :
    c.Yields (c.construct nested d a) (c.CompilesWith N a package) := by
  intro s orderly
  have same : d.name = a.type := (Corpus.class?_eq_some_iff.1 declared).2
  obtain ⟨s₁, got, leads, listed⟩ :=
    exists_sharedLiteral_leads orderly sharing (same ▸ declared : c.corpus.class? d.name = some d)
  have literal : c.literalFor d a package = c.prepare d := by rw [literalFor, if_pos sharing]
  have members := Yields.mapM (c.prepare d).members fun m _ => yields_loadMember inside (c.prepare d) a m
  obtain ⟨trace, further, related⟩ := members s₁ leads.orderly
  rw [construct, Compilation.run_bind, got]
  dsimp only
  rw [Compilation.run_bind]
  revert further related
  generalize ((c.prepare d).members.mapM ((c.prepare d).loadMember nested a)).run s₁ = outcome
  obtain ⟨result, s₂⟩ := outcome
  intro further related
  cases result with
  | error e => exact ⟨trace, leads.trans further, nofun⟩
  | ok values =>
    let e : Compiled := ⟨a, package, d, values⟩
    have last : c.Leads [e] s₂ s₂ := by
      refine ⟨further.orderly, List.Subset.refl _, fun _ other member => ?_, fun _ => rfl, by simp [sharing]⟩
      obtain rfl := List.mem_singleton.1 member
      rw [Compiled.literal, literal]
      exact further.kept listed
    refine ⟨trace ++ [e], (leads.trans further).trans last, fun x built => ?_⟩
    have instantiated : x = e.construction c := by
      rw [Compiled.construction, if_pos sharing]
      exact (Except.ok.inj built).symm.trans (by rw [Compiled.literal, literal])
    rw [instantiated]
    exact .intro declared (literal ▸ related values rfl)

theorem yields_constructOneOff (alone : c.shared = false) (package : String) :
    c.Yields (c.constructOneOff nested d a package) (c.CompilesWith N a package) := by
  let l : Literal := ⟨Literal.oneOffName a package c.generatedPackage, false, d⟩
  have literal : c.literalFor d a package = l := by simp [literalFor, alone, l]
  have members := Yields.mapM l.members fun m _ => yields_loadMember inside l a m
  refine members.bind fun values trace related => ?_
  let e : Compiled := ⟨a, package, d, values⟩
  have class_eq : e.oneOffClass c = l.oneOffClass values := by rw [Compiled.oneOffClass, Compiled.literal, literal]
  have recorded : c.Yields
      (modify fun s => { s with written := s.written ++ [l.oneOffClass values], oneOffs := s.oneOffs + 1 })
      fun _ t => t = [e] :=
    .modify fun s orderly =>
      ⟨⟨orderly.prepared, orderly.distinct⟩, List.Subset.refl _, by simp [alone], fun _ => rfl,
        by simp [alone, class_eq]⟩
  refine recorded.bind fun _ t written => .pure ?_
  subst written
  rw [List.append_nil]
  have instantiated : Construction.newInstance l.name [] [] = e.construction c := by
    simp [Compiled.construction, alone, Compiled.literal, e, literal]
  rw [instantiated]
  exact .intro declared (literal ▸ related)

/-- One step of the compiler. -/
theorem yields_materializeWith (package : String) :
    c.Yields (c.materializeWith d a package nested) (c.CompilesWith N a package) := by
  rw [materializeWith_eq _ (Corpus.class?_eq_some_iff.1 declared).2]
  have counted : c.Yields (modify fun s => { s with materialized := s.materialized + 1 }) fun _ t => t = [] :=
    .modify fun s orderly =>
      ⟨⟨orderly.prepared, orderly.distinct⟩, List.Subset.refl _, by simp, fun _ => rfl, by simp⟩
  refine counted.bind fun _ t none => ?_
  subst none
  by_cases sharing : c.shared = true
  · rw [if_pos sharing]
    exact yields_construct inside declared sharing package
  · rw [if_neg sharing]
    exact yields_constructOneOff inside declared (Bool.eq_false_iff.2 sharing) package

end

/-- The induction is on the depth: what an annotation leads to is what the annotations inside it lead to, and itself. -/
theorem yields_materializeWithin (depth : Nat) {d : ClassDecl} {a : Annotation}
    (declared : c.corpus.class? a.type = some d) (package : String) :
    c.Yields (c.materializeWithin depth d a package) (c.CompilesWithin depth a package) := by
  induction depth generalizing d a package with
  | zero => exact .throw _
  | succ depth ih =>
    refine yields_materializeWith (fun inner => ?_) declared package
    cases found : c.corpus.class? inner.type with
    | some inside => exact ih found inner.type.package
    | none => exact .throw _

/-- What a compilation of an annotation of the corpus leads to, whether it succeeds or fails. -/
theorem yields_materializeFromCorpus (a : Annotation) (package : String) :
    c.Yields (c.materializeFromCorpus a package) (c.Compiles a package) := by
  intro s orderly
  cases declared : c.corpus.class? a.type with
  | some d =>
    rw [materializeFromCorpus_run declared]
    obtain ⟨trace, leads, related⟩ := yields_materializeWithin (c.depthBound s d a) declared package s orderly
    exact ⟨trace, leads, fun x built => ⟨_, related x built⟩⟩
  | none =>
    simp only [materializeFromCorpus, declared]
    exact Yields.throw _ s orderly

/-- Every state of a compiler is orderly. -/
theorem Reached.isOrderly {s : LiteralState} (reached : c.Reached s) : c.IsOrderly s := by
  induction reached with
  | fresh => exact isOrderly_initial
  | compiled _ a package ih =>
    obtain ⟨trace, leads, -⟩ := yields_materializeFromCorpus a package _ ih
    exact leads.orderly
  | taken _ ih => exact ⟨ih.prepared, ih.distinct⟩

end LiteralSettings

end AnnotationWeaver
