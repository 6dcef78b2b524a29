import AnnotationWeaver.Proofs.SharedNames
import AnnotationWeaver.Proofs.Starts
import AnnotationWeaver.Proofs.Termination

/-!
The classes of a compiler that shares. A compilation that returns, with success or with an error, adds the literals of the
types whose compilations it started, those inside and its own, unless they are there. So after any calls there is one
class for each type that was started, in the order of the first starts, whatever came of them. Such a class is made from the
declaration of its type and from how the compiler is set up, not from annotations.
-/
namespace AnnotationWeaver

open Compilation (IsEndless)

/-- An annotation and the package that it is to be compiled for. -/
structure LiteralCall where
  annotation : Annotation
  package : String

/-- The annotation types that have a literal, in the order in which they were first met. -/
def LiteralState.types (s : LiteralState) : List TypeName := s.literals.map (·.type)

theorem Value.not_fits_array (kind : ValueKind) (elements : List Value) (expected : Ty) :
    (Value.array kind elements).fits expected = false := by
  cases expected with
  | primitive p => cases p <;> rfl
  | _ => rfl

namespace LiteralSettings

/-- From every orderly state the run finds an annotation nested without end, or it starts compilations that are
    related to whether it succeeds, and their types are those for which it adds literals. -/
def Visits (c : LiteralSettings) {α : Type} (x : Compilation α) (R : List TypeName → Bool → Prop) : Prop :=
  ∀ s, c.IsOrderly s → IsEndless (x.run s) ∨ ∃ started, R started (x.run s).1.isOk ∧ c.IsOrderly (x.run s).2 ∧
    (x.run s).2.types = (s.types ++ started).eraseDups

variable {c : LiteralSettings}

/-- The types of an orderly state are distinct, so it stays as it is where nothing is started. -/
theorem IsOrderly.types_eq {s : LiteralState} (orderly : c.IsOrderly s) : s.types = (s.types ++ []).eraseDups := by
  rw [List.append_nil]
  exact (eraseDups_of_nodup orderly.distinct).symm

/-! ### Rules -/

namespace Visits

variable {α β ι : Type} {R S T : List TypeName → Bool → Prop}

theorem weaken {x : Compilation α} (visits : c.Visits x R) (implied : ∀ started ok, R started ok → S started ok) :
    c.Visits x S := by
  intro s orderly
  refine (visits s orderly).imp_right ?_
  rintro ⟨started, related, rest⟩
  exact ⟨started, implied _ _ related, rest⟩

theorem pure {y : α} (related : R [] true) : c.Visits (Pure.pure y) R :=
  fun _ orderly => .inr ⟨[], related, orderly, orderly.types_eq⟩

theorem throw (e : LiteralError) (related : R [] false) : c.Visits (MonadExcept.throw e : Compilation α) R :=
  fun _ orderly => .inr ⟨[], related, orderly, orderly.types_eq⟩

theorem throw_endless (type : TypeName) : c.Visits (MonadExcept.throw (.endlessNesting type) : Compilation α) R :=
  fun s _ => .inl ⟨type, s, rfl⟩

/-- A change of the state that leaves the literals as they are. -/
theorem modify {f : LiteralState → LiteralState} (same : ∀ s, (f s).literals = s.literals) (related : R [] true) :
    c.Visits (modify f) R := by
  intro s orderly
  have types : (f s).types = s.types := congrArg (List.map Literal.type) (same s)
  have orderly' : c.IsOrderly (f s) :=
    ⟨fun l listed => orderly.prepared l (same s ▸ listed), (same s).symm ▸ orderly.distinct⟩
  exact .inr ⟨[], related, orderly', types.trans (orderly.types_eq)⟩

/-- One after the other, unless the first fails. -/
theorem bind {x : Compilation α} {next : α → Compilation β} (visits : c.Visits x R) (later : ∀ y, c.Visits (next y) S)
    (stops : ∀ started, R started false → T started false)
    (goes : ∀ started more ok, R started true → S more ok → T (started ++ more) ok) : c.Visits (x >>= next) T := by
  intro s orderly
  have first := visits s orderly
  rw [Compilation.run_bind]
  revert first
  generalize x.run s = outcome
  obtain ⟨result, s'⟩ := outcome
  rintro (⟨type, t, equal⟩ | ⟨started, related, orderly', types⟩)
  · obtain ⟨rfl, rfl⟩ := Prod.mk.inj equal
    exact .inl ⟨type, s', rfl⟩
  · cases result with
    | error e => exact .inr ⟨started, stops _ related, orderly', types⟩
    | ok y =>
      refine (later y s' orderly').imp_right ?_
      rintro ⟨more, related', orderly'', types'⟩
      refine ⟨started ++ more, goes _ _ _ related related', orderly'', ?_⟩
      rw [types', types, eraseDups_eraseDups_append, List.append_assoc]

/-- A result that is made into another. -/
theorem bind_pure {x : Compilation α} (visits : c.Visits x R) (g : α → β) : c.Visits (x >>= fun y => Pure.pure (g y)) R :=
  visits.bind (fun _ => pure (R := fun started ok => started = [] ∧ ok = true) ⟨rfl, rfl⟩) (fun _ related => related)
    (by rintro started more ok related ⟨rfl, rfl⟩; rwa [List.append_nil])

theorem mapM {R : ι → List TypeName → Bool → Prop} {f : ι → Compilation α} (xs : List ι)
    (each : ∀ x ∈ xs, c.Visits (f x) (R x)) : c.Visits (xs.mapM f) (InTurn R xs) := by
  induction xs with
  | nil =>
    rw [List.mapM_nil]
    exact pure .nil
  | cons x rest ih =>
    rw [List.mapM_cons]
    have others := ih fun x' later => each x' (List.mem_cons_of_mem _ later)
    exact (each x List.mem_cons_self).bind (fun y => others.bind_pure (y :: ·)) (fun _ => .stops) fun _ _ _ => .goes

end Visits

/-! ### Values of members -/

section

variable {N : Annotation → List TypeName → Bool → Prop} {nested : Annotation → Compilation Construction}
  (inside : ∀ a, c.Visits (nested a) (N a))
include inside

theorem visits_loadScalar (l : Literal) (m : MethodDecl) (expected : Ty) (v : Value) :
    c.Visits (l.loadScalar nested m expected v) (v.Starts N expected) := by
  unfold Literal.loadScalar
  by_cases fits : v.fits expected
  · rw [if_pos fits]
    cases v with
    | nested a => exact (inside a).weaken fun _ _ => .nested fits
    | array kind elements => exact absurd fits (by simp [Value.not_fits_array])
    | _ => exact .pure (.plain fits rfl)
  · rw [if_neg fits]
    exact .throw _ (.unfit (Bool.eq_false_iff.2 fits))

theorem visits_loadValue (l : Literal) (m : MethodDecl) (v : Value) :
    c.Visits (l.loadValue nested m v) (m.Starts N v) := by
  unfold Literal.loadValue
  by_cases kept : Literal.readsStatic m v
  · rw [if_pos kept]
    exact .pure (.static kept)
  · rw [if_neg kept]
    have made : Literal.readsStatic m v = false := Bool.eq_false_iff.2 kept
    cases type : m.returns.component? with
    | none =>
      cases v with
      | array kind elements =>
        have unfit := Value.not_fits_array kind elements m.returns
        cases elements <;> exact .throw _ (.single made type (.unfit unfit))
      | _ => exact (visits_loadScalar inside l m m.returns _).weaken fun _ _ => .single made type
    | some component =>
      cases v with
      | array kind elements =>
        cases elements with
        | nil => exact .pure (.several made type .nil)
        | cons v rest =>
          have each := Visits.mapM (v :: rest) fun v _ => visits_loadScalar inside l m component v
          exact (each.bind_pure _).weaken fun _ _ => .several made type
      | _ => exact .throw _ (.unsuited made type nofun)

theorem visits_loadMember (l : Literal) (a : Annotation) (m : MethodDecl) :
    c.Visits (l.loadMember nested a m) (m.StartsFrom N a) := by
  unfold Literal.loadMember
  cases value : a.effectiveValue? m with
  | some v => exact (visits_loadValue inside l m v).weaken fun _ _ => .value value
  | none => exact .throw _ (.missing value)

end

/-! ### Annotations -/

/-- The literal of a type comes last, unless it was there. -/
theorem exists_sharedLiteral_types {s : LiteralState} (orderly : c.IsOrderly s) (sharing : c.shared = true)
    {d : ClassDecl} (declared : c.corpus.class? d.name = some d) :
    ∃ s', (c.sharedLiteral d).run s = (.ok (c.prepare d), s') ∧ c.IsOrderly s' ∧
      s'.types = (s.types ++ [d.name]).eraseDups := by
  obtain ⟨s', got, leads, -⟩ := exists_sharedLiteral_leads orderly sharing declared
  refine ⟨s', got, leads.orderly, ?_⟩
  have distinct : s.types.eraseDups = s.types := eraseDups_of_nodup orderly.distinct
  rw [sharedLiteral_run] at got
  rw [eraseDups_concat, distinct]
  cases found : s.literal? d.name with
  | some l =>
    rw [found] at got
    obtain rfl : s = s' := (Prod.mk.inj got).2
    have type : l.type = d.name := by simpa using List.find?_some found
    have listed : d.name ∈ s.types := type ▸ List.mem_map_of_mem (List.mem_of_find?_eq_some found)
    rw [if_pos (by simpa using listed)]
  | none =>
    rw [found] at got
    obtain rfl := (Prod.mk.inj got).2
    have fresh : d.name ∉ s.types := by simpa [LiteralState.literal?, LiteralState.types] using found
    rw [if_neg (by simpa using fresh)]
    simp [LiteralState.types, prepare, Literal.type]

theorem visits_sharedLiteral_bind (sharing : c.shared = true) {α : Type} {d : ClassDecl}
    (declared : c.corpus.class? d.name = some d) {next : Literal → Compilation α} {R S : List TypeName → Bool → Prop}
    (later : c.Visits (next (c.prepare d)) R) (first : ∀ started ok, R started ok → S (d.name :: started) ok) :
    c.Visits (c.sharedLiteral d >>= next) S := by
  intro s orderly
  obtain ⟨s', got, orderly', types⟩ := exists_sharedLiteral_types orderly sharing declared
  rw [Compilation.run_bind, got]
  refine (later s' orderly').imp_right ?_
  rintro ⟨started, related, orderly'', types'⟩
  refine ⟨d.name :: started, first _ _ related, orderly'', ?_⟩
  rw [types', types, eraseDups_eraseDups_append, List.append_assoc, List.singleton_append]

section

variable {N : Annotation → List TypeName → Bool → Prop} {nested : Annotation → Compilation Construction}
  (inside : ∀ a, c.Visits (nested a) (N a)) {d : ClassDecl} {a : Annotation}
  (declared : c.corpus.class? a.type = some d)
include inside declared

/-- One step of a compiler that shares. -/
theorem visits_materializeWith (sharing : c.shared = true) (package : String) :
    c.Visits (c.materializeWith d a package nested) (c.corpus.StartsWith N a) := by
  have same : d.name = a.type := (Corpus.class?_eq_some_iff.1 declared).2
  have declared' : c.corpus.class? d.name = some d := same ▸ declared
  have members := Visits.mapM (c.prepare d).members fun m _ => visits_loadMember inside (c.prepare d) a m
  have constructed : c.Visits (c.construct nested d a) (c.corpus.StartsWith N a) :=
    visits_sharedLiteral_bind sharing declared' (members.bind_pure _) fun _ _ inTurn => same ▸ .declared declared inTurn
  rw [materializeWith_eq _ same, if_pos sharing]
  have counted : c.Visits (modify fun s => { s with materialized := s.materialized + 1 })
      fun started ok => started = [] ∧ ok = true := .modify (fun _ => rfl) ⟨rfl, rfl⟩
  refine counted.bind (fun _ => constructed) (by rintro _ ⟨-, none⟩; cases none) ?_
  rintro started more ok ⟨rfl, -⟩ related
  exact related

end

/-- The induction is on the depth: an annotation starts its own compilation and what the annotations inside start. -/
theorem visits_materializeWithin (sharing : c.shared = true) (depth : Nat) {d : ClassDecl} {a : Annotation}
    (declared : c.corpus.class? a.type = some d) (package : String) :
    c.Visits (c.materializeWithin depth d a package) (c.corpus.StartsWithin depth a) := by
  induction depth generalizing d a package with
  | zero => exact .throw_endless a.type
  | succ depth ih =>
    refine visits_materializeWith (fun inner => ?_) declared sharing package
    cases found : c.corpus.class? inner.type with
    | some inside => exact ih found inner.type.package
    | none =>
      refine .throw _ ?_
      cases depth <;> exact .undeclared found

/-- What a call of a compiler that shares starts, whether it succeeds or fails. -/
theorem visits_materializeFromCorpus (sharing : c.shared = true) (a : Annotation) (package : String) :
    c.Visits (c.materializeFromCorpus a package) (c.corpus.Starts a) := by
  intro s orderly
  cases declared : c.corpus.class? a.type with
  | some d =>
    rw [materializeFromCorpus_run declared]
    refine (visits_materializeWithin sharing (c.depthBound s d a) declared package s orderly).imp_right ?_
    rintro ⟨started, starts, rest⟩
    exact ⟨started, ⟨_, starts⟩, rest⟩
  | none =>
    simp only [materializeFromCorpus, declared]
    exact Visits.throw _ ⟨0, .undeclared declared⟩ s orderly

/-! ### Calls -/

/-- What a call gives and the state after it. -/
def answer (c : LiteralSettings) (s : LiteralState) (call : LiteralCall) :
    Except LiteralError Construction × LiteralState :=
  (c.materializeFromCorpus call.annotation call.package).run s

def afterCalls (c : LiteralSettings) (s : LiteralState) (calls : List LiteralCall) : LiteralState :=
  calls.foldl (fun s call => (c.answer s call).2) s

/-- Every call ends, with success or with an error: none finds an annotation nested without end. -/
def Returns (c : LiteralSettings) : LiteralState → List LiteralCall → Prop
  | _, [] => True
  | s, call :: rest => ¬IsEndless (c.answer s call) ∧ c.Returns (c.answer s call).2 rest

theorem exists_startsAll (sharing : c.shared = true) {s : LiteralState} (orderly : c.IsOrderly s)
    {calls : List LiteralCall} (returns : c.Returns s calls) :
    ∃ started, c.corpus.StartsAll (calls.map LiteralCall.annotation) started ∧ c.IsOrderly (c.afterCalls s calls) ∧
      (c.afterCalls s calls).types = (s.types ++ started).eraseDups := by
  induction calls generalizing s with
  | nil => exact ⟨[], .nil, orderly, orderly.types_eq⟩
  | cons call rest ih =>
    obtain ⟨ends, returns⟩ := returns
    have visits := visits_materializeFromCorpus sharing call.annotation call.package s orderly
    rcases visits with endless | ⟨started, starts, orderly', types⟩
    · exact absurd endless ends
    · obtain ⟨later, startsAll, orderly'', types'⟩ := ih orderly' returns
      refine ⟨started ++ later, .cons starts startsAll, orderly'', ?_⟩
      rw [← List.append_assoc, ← eraseDups_eraseDups_append, ← types]
      exact types'

end LiteralSettings

/-! ### Classes -/

/-- The shared class of an annotation type, which no annotation has a part in. -/
def ClassDecl.sharedClass (d : ClassDecl) (generatedPackage : String) (isApplication : TypeName → Bool) : LiteralClass :=
  Literal.sharedClass ⟨Literal.sharedName d.name generatedPackage, isApplication d.name, d⟩

theorem LiteralState.generate_nil (s : LiteralState) : s.generate [] = s.literals.map (·.sharedClass) := by
  simp [generate]

/-- What exists is left out, by its name. -/
theorem LiteralState.generate_eq_filter (s : LiteralState) (existing : List TypeName) :
    s.generate existing = (s.generate []).filter fun k => !existing.contains k.name := by
  rw [generate_nil, List.filter_map]
  rfl

/-- There is one class for each type with a literal, in their order, made from its declaration. -/
theorem LiteralSettings.Prepared.forall₂_generate {c : LiteralSettings} {s : LiteralState} (prepared : c.Prepared s) :
    List.Forall₂
      (fun type k => ∃ d, c.corpus.class? type = some d ∧ k = d.sharedClass c.generatedPackage c.isApplication)
      s.types (s.generate []) := by
  rw [s.generate_nil, LiteralState.types, List.forall₂_map_left_iff, List.forall₂_map_right_iff, List.forall₂_same]
  intro l listed
  obtain ⟨equal, declared⟩ := prepared l listed
  exact ⟨l.declaration, declared, congrArg Literal.sharedClass equal⟩

/-- After any calls of a compiler that shares, if each of them returned, with success or with an error, the generated
    classes are those of the types whose compilations were started, at any depth: one for each type, in the order of
    the first starts, and no others. What is started follows from the annotations and the corpus alone. Each class is made
    from the declaration of its type, the generated package and the choice of application classes; and to
    generate the classes apart from those that exist leaves out the classes with these names. -/
theorem shared_classes_of_started_types (c : LiteralSettings) (sharing : c.shared = true)
    (calls : List LiteralCall) (returns : c.Returns .initial calls) :
    ∃ started, (∀ other, c.corpus.StartsAll (calls.map LiteralCall.annotation) other ↔ other = started) ∧
      List.Forall₂
        (fun type k => ∃ d, c.corpus.class? type = some d ∧ k = d.sharedClass c.generatedPackage c.isApplication)
        started.eraseDups ((c.afterCalls .initial calls).generate []) ∧
      ∀ existing, (c.afterCalls .initial calls).generate existing =
        ((c.afterCalls .initial calls).generate []).filter fun k => !existing.contains k.name := by
  obtain ⟨started, starts, orderly, types⟩ :=
    LiteralSettings.exists_startsAll sharing LiteralSettings.isOrderly_initial returns
  refine ⟨started, fun other => ⟨fun again => again.unique starts, fun same => same ▸ starts⟩, ?_,
    LiteralState.generate_eq_filter _⟩
  have classes := orderly.prepared.forall₂_generate
  rwa [types] at classes

/-- A limit whose range is a number, which fails, and then one with the range that is its default. -/
def limitCalls : List LiteralCall :=
  [⟨.set (.marker ⟨"app.Limit"⟩) "range" (.int 5), "app"⟩, ⟨.marker ⟨"app.Limit"⟩, "app"⟩]

theorem shared_classes_of_started_types_in_limits :
    (sharingCompiler limits).shared = true ∧ (sharingCompiler limits).Returns .initial limitCalls ∧
      ∃ started, limits.StartsAll (limitCalls.map LiteralCall.annotation) started ∧
        started.eraseDups = [⟨"app.Limit"⟩, ⟨"app.Range"⟩] ∧
        (((sharingCompiler limits).afterCalls .initial limitCalls).generate
          [⟨"app.Limit_Shared_AnnotationLiteral"⟩]).map (·.annotationType) = [⟨"app.Range"⟩] := by
  have returns : (sharingCompiler limits).Returns .initial limitCalls := by
    refine ⟨?_, ?_, trivial⟩
    · rintro ⟨type, t, endless⟩
      cases congrArg Prod.fst endless
    · rintro ⟨type, t, endless⟩
      cases congrArg Prod.fst endless
  obtain ⟨started, only, classes, apart⟩ := shared_classes_of_started_types _ rfl limitCalls returns
  refine ⟨rfl, returns, started, (only started).2 rfl, ?_, ?_⟩
  · have types : started.eraseDups =
        (((sharingCompiler limits).afterCalls .initial limitCalls).generate []).map (·.annotationType) := by
      rw [← List.forall₂_eq_eq_eq, List.forall₂_map_right_iff]
      refine classes.imp fun type k => ?_
      rintro ⟨d, declared, rfl⟩
      exact (Corpus.class?_eq_some_iff.1 declared).2.symm
    rw [types]
    decide +kernel
  · rw [apart]
    decide +kernel

end AnnotationWeaver
