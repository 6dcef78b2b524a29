import AnnotationWeaver.Proofs.Held

/-!
Compilations that end. A compilation to some depth finds an annotation nested without end only if the annotation asks
for one that is found to be so, one step less deep. Following such annotations inward for more steps than the pool is
long comes back to one that was passed. So the depth that is allowed suffices for every annotation from which nothing
leads back to itself; and where it does not suffice, no depth does.
-/
namespace AnnotationWeaver

open Compilation (Follows)
open Relation (ReflTransGen TransGen)

namespace Compilation

variable {α : Type}

/-- The outcome is that an annotation is nested without end. -/
def IsEndless (outcome : Except LiteralError α × LiteralState) : Prop :=
  ∃ type t, outcome = (.error (.endlessNesting type), t)

theorem not_isEndless_ok {z : α} {s : LiteralState} : ¬IsEndless (Except.ok z, s) := by
  rintro ⟨type, t, equal⟩
  cases equal

theorem isEndless_error {e : LiteralError} {s : LiteralState} :
    IsEndless ((.error e, s) : Except LiteralError α × LiteralState) ↔ e.IsEndless := by
  constructor
  · rintro ⟨type, t, equal⟩
    cases equal
    exact ⟨type, rfl⟩
  · rintro ⟨type, rfl⟩
    exact ⟨type, s, rfl⟩

variable {I : LiteralState → Prop}

theorem Outcome.isEndless_iff {β : Type} {R : List LiteralClass → α → β → Prop} {base : List LiteralClass}
    {first : Except LiteralError α × LiteralState} {second : Except LiteralError β × LiteralState}
    (ends : Outcome I R base first second) : IsEndless first ↔ IsEndless second := by
  cases ends with
  | success => exact iff_of_false not_isEndless_ok not_isEndless_ok
  | failure => exact isEndless_error.trans isEndless_error.symm

namespace Ends

variable {E : LiteralError → Prop} {lasts : Prop} {base : List Literal} {R : List Literal → α → Prop}
  {first second : Except LiteralError α × LiteralState}

theorem eq_of_not_isEndless (ends : Ends I E lasts base R first second) (other : ¬IsEndless first) :
    second = first := by
  cases ends with
  | success => rfl
  | failure => rfl
  | endless _ _ _ endless _ => exact absurd (isEndless_error.2 endless) other

theorem isEndless (ends : Ends I E True base R first second) (endless : IsEndless first) : IsEndless second := by
  cases ends with
  | success => exact absurd endless not_isEndless_ok
  | failure => exact endless
  | endless _ _ _ _ again =>
    obtain ⟨e', t, rfl, endless'⟩ := again trivial
    exact isEndless_error.2 endless'

theorem not_isEndless (ends : Ends I (fun e => ¬e.IsEndless) lasts base R first second) : ¬IsEndless first := by
  cases ends with
  | success => exact not_isEndless_ok
  | failure _ _ expected => exact mt isEndless_error.1 expected
  | endless _ _ expected _ _ => exact mt isEndless_error.1 expected

theorem of_not_isEndless (ends : Ends I E lasts base R first second) (other : ¬IsEndless first) :
    Ends I (fun e => ¬e.IsEndless) lasts base R first second := by
  cases ends with
  | success invariant kept holds => exact .success invariant kept holds
  | failure invariant kept _ => exact .failure invariant kept fun endless => other (isEndless_error.2 endless)
  | endless _ _ _ endless _ => exact absurd (isEndless_error.2 endless) other

theorem of_isEndless (ends : Ends I E lasts base R first second) (again : IsEndless first → IsEndless second) :
    Ends I E True base R first second := by
  cases ends with
  | success invariant kept holds => exact .success invariant kept holds
  | failure invariant kept expected => exact .failure invariant kept expected
  | endless invariant kept expected endless _ =>
    obtain ⟨type, t, rfl⟩ := again (isEndless_error.2 endless)
    exact .endless invariant kept expected endless fun _ => ⟨_, t, rfl, type, rfl⟩

end Ends

end Compilation

open Compilation (IsEndless)

namespace LiteralSettings

variable {c : LiteralSettings} {d : ClassDecl} {a : Annotation}

/-- More depth changes nothing once a compilation ends. -/
theorem materializeWithin_run_eq (declared : c.corpus.class? a.type = some d) (targetPackage : String)
    {s : LiteralState} (sound : c.IsSound s) {depth more : Nat} (deeper : depth ≤ more)
    (ends : ¬IsEndless ((c.materializeWithin depth d a targetPackage).run s)) :
    (c.materializeWithin more d a targetPackage).run s = (c.materializeWithin depth d a targetPackage).run s := by
  obtain ⟨further, rfl⟩ := Nat.exists_eq_add_of_le deeper
  have follows := follows_materializeWithin depth further declared targetPackage []
  exact (follows s sound (List.nil_subset _)).eq_of_not_isEndless ends

/-! ### Annotations that do not come back -/

/-- As far as the depth allows to see, the annotation is nested without end, from some sound state. -/
def SeemsEndless (c : LiteralSettings) (depth : Nat) (a : Annotation) : Prop :=
  ∃ d targetPackage s, c.corpus.class? a.type = some d ∧ c.IsSound s ∧
    IsEndless ((c.materializeWithin depth d a targetPackage).run s)

/-- What seems endless asks for something that does, one step less deep. -/
theorem SeemsEndless.exists_asked {depth : Nat} (endless : c.SeemsEndless (depth + 1) a) :
    ∃ inner, c.corpus.Asks a inner ∧ c.SeemsEndless depth inner := by
  obtain ⟨d, targetPackage, s, declared, sound, endless⟩ := endless
  by_contra none
  rw [not_exists] at none
  have follows : Follows c.IsSound (fun e => ¬e.IsEndless) False [] c.Settled
      (c.materializeWithin (depth + 1) d a targetPackage) (c.materializeWithin (depth + 1) d a targetPackage) := by
    refine follows_materializeWithin_succ (fun _ other => other) declared targetPackage ?_
    intro inner d' asks declared' s' sound' kept
    refine (follows_materializeWithin depth 0 declared' inner.type.package [] s' sound' kept).of_not_isEndless ?_
    intro endless'
    exact none inner ⟨⟨d, declared, asks⟩, d', inner.type.package, s', declared', sound', endless'⟩
  exact (follows s sound (List.nil_subset _)).not_isEndless endless

end LiteralSettings

/-- Nothing that compiling the annotation comes to leads back to itself. -/
def Corpus.Grounded (c : Corpus) (a : Annotation) : Prop := ∀ b, ReflTransGen c.Asks a b → ¬TransGen c.Asks b b

namespace LiteralSettings

variable {c : LiteralSettings} {d : ClassDecl} {a : Annotation}

/-- The depth that is allowed suffices for an annotation that leads nowhere back. -/
theorem not_seemsEndless (grounded : c.corpus.Grounded a) {depth : Nat} (enough : (c.corpus.pool a).length < depth) :
    ¬c.SeemsEndless depth a := by
  intro endless
  have short := Corpus.le_length_pool (fun _ _ => SeemsEndless.exists_asked) endless fun p q reached further same => ?_
  · omega
  · have back := Corpus.asks_of_hands further
    rw [← same] at back
    exact grounded p.2 (Corpus.asks_of_hands reached).to_reflTransGen back

/-! ### Annotations that have no end -/

/-- A compiler that shares literals puts them into packages of their own. -/
theorem materializeWithin_package (sharing : c.shared = true) (depth : Nat) (targetPackage targetPackage' : String) :
    c.materializeWithin depth d a targetPackage = c.materializeWithin depth d a targetPackage' := by
  cases depth with
  | zero => rfl
  | succ depth => simp only [materializeWithin, materializeWith, if_pos sharing]

/-- Whether an annotation seems endless depends on the depth alone, and not on the state or on sharing. -/
theorem isEndless_shared_iff (declared : c.corpus.class? a.type = some d) (targetPackage : String) {s : LiteralState}
    (prepared : c.Prepared s) (t : LiteralState) (depth : Nat) :
    IsEndless (({ c with shared := true }.materializeWithin depth d a targetPackage).run s) ↔
      IsEndless (({ c with shared := false }.materializeWithin depth d a targetPackage).run t) :=
  (parallel_materializeWithin depth declared targetPackage [] s t prepared (List.nil_subset _)).isEndless_iff

theorem isEndless_congr (declared : c.corpus.class? a.type = some d) (targetPackage targetPackage' : String)
    {s t : LiteralState} (sound : c.IsSound s) (sound' : c.IsSound t) {depth : Nat}
    (endless : IsEndless ((c.materializeWithin depth d a targetPackage).run s)) :
    IsEndless ((c.materializeWithin depth d a targetPackage').run t) := by
  obtain ⟨corpus, shared, generatedPackage, isApplication⟩ := c
  cases shared with
  | true =>
    have alone := (isEndless_shared_iff declared targetPackage sound.prepared s depth).1 endless
    rw [materializeWithin_package rfl depth targetPackage' targetPackage]
    exact (isEndless_shared_iff declared targetPackage sound'.prepared s depth).2 alone
  | false =>
    have sharing := (isEndless_shared_iff declared targetPackage sound.prepared s depth).2 endless
    rw [materializeWithin_package rfl depth targetPackage targetPackage'] at sharing
    exact (isEndless_shared_iff declared targetPackage' sound.prepared t depth).1 sharing

/-- The depth is the greatest one to which the annotation seems endless, from some sound state. -/
def EndsAfter (c : LiteralSettings) (depth : Nat) (a : Annotation) : Prop :=
  ∃ d targetPackage s, c.corpus.class? a.type = some d ∧ c.IsSound s ∧
    IsEndless ((c.materializeWithin depth d a targetPackage).run s) ∧
    ¬IsEndless ((c.materializeWithin (depth + 1) d a targetPackage).run s)

/-- What needs more depth asks for something that needs one step less. -/
theorem EndsAfter.exists_asked {depth : Nat} (ends : c.EndsAfter (depth + 1) a) :
    ∃ inner, c.corpus.Asks a inner ∧ c.EndsAfter depth inner := by
  obtain ⟨d, targetPackage, s, declared, sound, endless, ending⟩ := ends
  by_contra none
  rw [not_exists] at none
  have follows : Follows c.IsSound (fun _ => True) True [] c.Settled
      (c.materializeWithin (depth + 1) d a targetPackage) (c.materializeWithin (depth + 1 + 1) d a targetPackage) := by
    refine follows_materializeWithin_succ (fun _ _ => trivial) declared targetPackage ?_
    intro inner d' asks declared' s' sound' kept
    refine (follows_materializeWithin depth 1 declared' inner.type.package [] s' sound' kept).of_isEndless ?_
    intro endless'
    by_contra ending'
    exact none inner ⟨⟨d, declared, asks⟩, d', inner.type.package, s', declared', sound', endless', ending'⟩
  exact ending ((follows s sound (List.nil_subset _)).isEndless endless)

/-- An annotation needs one depth only. -/
theorem EndsAfter.not_lt {depth depth' : Nat} (ends : c.EndsAfter depth a) (ends' : c.EndsAfter depth' a) :
    ¬depth < depth' := by
  intro less
  obtain ⟨d, targetPackage, s, declared, sound, -, ending⟩ := ends
  obtain ⟨d', targetPackage', s', declared', sound', endless, -⟩ := ends'
  obtain rfl : d = d' := Option.some.inj (declared.symm.trans declared')
  rw [← materializeWithin_run_eq declared targetPackage sound less ending] at ending
  exact ending (isEndless_congr declared targetPackage' targetPackage sound' sound endless)

theorem not_endsAfter {depth : Nat} (enough : (c.corpus.pool a).length < depth) : ¬c.EndsAfter depth a := by
  intro ends
  have short := Corpus.le_length_pool (fun _ _ => EndsAfter.exists_asked) ends fun p q reached further same => ?_
  · omega
  · obtain ⟨less, later⟩ := Corpus.lt_and_holds_of_hands further
    have earlier := (Corpus.lt_and_holds_of_hands reached).2
    rw [← same] at later
    exact later.not_lt earlier less

/-- If the depth that is allowed does not suffice, none does. -/
theorem isEndless_of_isEndless_depthBound (declared : c.corpus.class? a.type = some d) (targetPackage : String)
    {s : LiteralState} (sound : c.IsSound s)
    (endless : IsEndless ((c.materializeWithin (c.depthBound s d a) d a targetPackage).run s)) (depth : Nat) :
    IsEndless ((c.materializeWithin depth d a targetPackage).run s) := by
  have enough := Corpus.length_pool_lt_depthBound c s d a
  rcases Nat.le_total depth (c.depthBound s d a) with less | more
  · by_contra ends
    rw [materializeWithin_run_eq declared targetPackage sound less ends] at endless
    exact ends endless
  · induction more with
    | refl => exact endless
    | @step depth more ih =>
      by_contra ends
      exact not_endsAfter (Nat.lt_of_lt_of_le enough more) ⟨d, targetPackage, s, declared, sound, ih, ends⟩

end LiteralSettings

/-- A compilation finds an annotation of the corpus to be nested without end exactly if no depth suffices for it. -/
theorem isEndless_iff_at_every_depth (c : LiteralSettings) {s : LiteralState} (reached : c.Reached s) {d : ClassDecl}
    {a : Annotation} (declared : c.corpus.class? a.type = some d) (targetPackage : String) :
    IsEndless ((c.materializeFromCorpus a targetPackage).run s) ↔
      ∀ depth, IsEndless ((c.materializeWithin depth d a targetPackage).run s) := by
  rw [LiteralSettings.materializeFromCorpus_run declared]
  constructor
  · exact LiteralSettings.isEndless_of_isEndless_depthBound declared targetPackage reached.isSound
  · intro endless
    exact endless _

/-- Compiling an annotation from which nothing leads back to itself ends, in whatever state of a compiler, with a
    construction or with one of the other errors; and as that takes only finitely many steps inward, more depth
    makes no difference. -/
theorem materialization_ends_of_grounded (c : LiteralSettings) {s : LiteralState} (reached : c.Reached s)
    {a : Annotation} (grounded : c.corpus.Grounded a) (targetPackage : String) :
    (∀ type, ((c.materializeFromCorpus a targetPackage).run s).1 ≠ .error (.endlessNesting type)) ∧
      ∀ d, c.corpus.class? a.type = some d → ∀ depth, c.depthBound s d a ≤ depth →
        (c.materializeWithin depth d a targetPackage).run s = (c.materializeFromCorpus a targetPackage).run s := by
  cases declared : c.corpus.class? a.type with
  | none =>
    rw [LiteralSettings.materializeFromCorpus, declared]
    refine ⟨fun type failed => ?_, fun d found => ?_⟩
    · cases failed
    · cases found
  | some d =>
    have ends : ¬IsEndless ((c.materializeWithin (c.depthBound s d a) d a targetPackage).run s) := fun endless =>
      LiteralSettings.not_seemsEndless grounded (Corpus.length_pool_lt_depthBound c s d a)
        ⟨d, targetPackage, s, declared, reached.isSound, endless⟩
    rw [LiteralSettings.materializeFromCorpus_run declared]
    refine ⟨fun type failed => ends ⟨type, _, Prod.ext failed rfl⟩, ?_⟩
    intro d' same depth deeper
    obtain rfl := Option.some.inj same
    exact LiteralSettings.materializeWithin_run_eq declared targetPackage reached.isSound deeper ends

/-! ### Corpora without cycles -/

namespace Corpus

variable {c : Corpus} (rank : TypeName → Nat)

/-- The greatest rank among the types of annotations. -/
def height (as : List Annotation) : Nat := as.foldr (fun a rest => max (rank a.type) rest) 0

variable {rank}

theorem rank_le_height {as : List Annotation} {a : Annotation} (member : a ∈ as) : rank a.type ≤ height rank as := by
  induction as with
  | nil => exact absurd member List.not_mem_nil
  | cons b rest ih =>
    rw [height, List.foldr_cons]
    rcases List.mem_cons.1 member with rfl | later
    · exact Nat.le_max_left _ _
    · exact Nat.le_trans (ih later) (Nat.le_max_right _ _)

theorem height_le {as : List Annotation} {n : Nat} (each : ∀ a ∈ as, rank a.type ≤ n) : height rank as ≤ n := by
  induction as with
  | nil => exact Nat.zero_le n
  | cons b rest ih =>
    rw [height, List.foldr_cons]
    exact Nat.max_le.2 ⟨each b List.mem_cons_self, ih fun a member => each a (List.mem_cons_of_mem _ member)⟩

/-- The second annotation has a smaller height than the first, or holds fewer annotations and has no greater one. -/
def Lowers (rank : TypeName → Nat) (b inner : Annotation) : Prop :=
  height rank (inner :: inner.held) < height rank (b :: b.held) ∨
    height rank (inner :: inner.held) ≤ height rank (b :: b.held) ∧ inner.nestedCount < b.nestedCount

theorem Lowers.trans {a b inner : Annotation} (first : Lowers rank a b) (second : Lowers rank b inner) :
    Lowers rank a inner := by
  rcases first with less | ⟨less, fewer⟩
  · rcases second with less' | ⟨less', -⟩
    · exact .inl (Nat.lt_trans less' less)
    · exact .inl (Nat.lt_of_le_of_lt less' less)
  · rcases second with less' | ⟨less', fewer'⟩
    · exact .inl (Nat.lt_of_lt_of_le less' less)
    · exact .inr ⟨Nat.le_trans less' less, Nat.lt_trans fewer' fewer⟩

theorem Lowers.irrefl {a : Annotation} : ¬Lowers rank a a := by
  rintro (less | ⟨-, fewer⟩)
  · exact Nat.lt_irrefl _ less
  · exact Nat.lt_irrefl _ fewer

/-- The defaults of each type hold annotations of types with smaller ranks only. -/
def Descends (c : Corpus) (rank : TypeName → Nat) : Prop :=
  ∀ d ∈ c.classes, ∀ m ∈ d.regularMethods, ∀ v, m.default? = some v → ∀ a ∈ v.held, rank a.type < rank d.name

theorem Asks.lowers {b inner : Annotation} (asks : c.Asks b inner) (descends : c.Descends rank) :
    Lowers rank b inner := by
  rcases asks.mem_held with held | ⟨d, listed, named, m, member, v, default, held⟩
  · have inside := Annotation.held_sublist held
    have length := inside.length_le
    rw [List.length_cons, Annotation.length_held, Annotation.length_held] at length
    refine .inr ⟨height_le fun x own => ?_, length⟩
    exact rank_le_height (List.mem_cons_of_mem _ (inside.subset own))
  · have lower (x : Annotation) (own : x ∈ inner :: inner.held) : rank x.type < rank d.name :=
      descends d listed m member v default x ((Value.held_sublist held).subset own)
    have top : rank d.name ≤ height rank (b :: b.held) := named ▸ rank_le_height List.mem_cons_self
    have positive := lower inner List.mem_cons_self
    have highest : height rank (inner :: inner.held) ≤ rank d.name - 1 := by
      refine height_le fun x own => ?_
      have := lower x own
      omega
    exact .inl (by omega)

/-- If the types of a corpus can be ranked in this way, nothing leads back to itself. -/
theorem grounded_of_descends (descends : c.Descends rank) (a : Annotation) : c.Grounded a := by
  intro b _ back
  have lowers (inner : Annotation) (path : TransGen c.Asks b inner) : Lowers rank b inner := by
    induction path with
    | single asks => exact asks.lowers descends
    | tail _ asks ih => exact ih.trans (asks.lowers descends)
  exact (lowers b back).irrefl

end Corpus

/-- An annotation type whose default holds an annotation with a default of its own. -/
def limits : Corpus where
  outlines := [
    ⟨⟨"app.Limit"⟩, .annotationType, none, [], [],
      [⟨"range", [], .named ⟨"app.Range"⟩, [], some (.nested (.marker ⟨"app.Range"⟩)), false⟩], []⟩,
    ⟨⟨"app.Range"⟩, .annotationType, none, [], [], [⟨"max", [], .primitive .int, [], some (.int 9), false⟩], []⟩]
  classes := _
  declared := rfl
  accepted := by decide +kernel

/-- A compiler that writes a class for each annotation of `limits`. -/
def limitsCompiler : LiteralSettings := ⟨limits, false, Literal.defaultGeneratedPackage, fun _ => true⟩

/-- A limit holds a range, and a range holds nothing. -/
def limitRank (type : TypeName) : Nat := if type = ⟨"app.Limit"⟩ then 1 else 0

theorem limits_descends : limits.Descends limitRank := by
  intro d listed m member v default a held
  rcases List.mem_cons.1 listed with rfl | later
  · obtain rfl := List.mem_singleton.1 member
    obtain rfl := Option.some.inj default
    obtain rfl := List.mem_singleton.1 held
    decide
  · obtain rfl := List.mem_singleton.1 later
    obtain rfl := List.mem_singleton.1 member
    obtain rfl := Option.some.inj default
    exact absurd held List.not_mem_nil

theorem materialization_ends_in_limits :
    limitsCompiler.Reached .initial ∧ limits.Grounded (.marker ⟨"app.Limit"⟩) ∧
      (∀ type, ((limitsCompiler.materializeFromCorpus (.marker ⟨"app.Limit"⟩) "app").run .initial).1 ≠
        .error (.endlessNesting type)) ∧
      ∃ d, limits.class? ⟨"app.Limit"⟩ = some d ∧ ∀ depth, 3 ≤ depth →
        (limitsCompiler.materializeWithin depth d (.marker ⟨"app.Limit"⟩) "app").run .initial =
          (limitsCompiler.materializeFromCorpus (.marker ⟨"app.Limit"⟩) "app").run .initial := by
  have grounded : limits.Grounded (.marker ⟨"app.Limit"⟩) := Corpus.grounded_of_descends limits_descends _
  obtain ⟨ends, deeper⟩ := materialization_ends_of_grounded limitsCompiler .fresh grounded "app"
  refine ⟨.fresh, grounded, ends, _, rfl, fun depth enough => ?_⟩
  exact deeper _ rfl depth enough

/-- An annotation type whose default is an annotation of its own. -/
def loops : Corpus where
  outlines := [⟨⟨"app.Loop"⟩, .annotationType, none, [], [],
    [⟨"inner", [], .named ⟨"app.Loop"⟩, [], some (.nested (.marker ⟨"app.Loop"⟩)), false⟩], []⟩]
  classes := _
  declared := rfl
  accepted := by decide +kernel

/-- A compiler that shares the literals of `loops`. -/
def loopsCompiler : LiteralSettings := ⟨loops, true, Literal.defaultGeneratedPackage, fun _ => true⟩

theorem materialization_endless_in_loops :
    loopsCompiler.Reached .initial ∧
      IsEndless ((loopsCompiler.materializeFromCorpus (.marker ⟨"app.Loop"⟩) "app").run .initial) ∧
      ∃ d, loops.class? ⟨"app.Loop"⟩ = some d ∧ ∀ depth,
        IsEndless ((loopsCompiler.materializeWithin depth d (.marker ⟨"app.Loop"⟩) "app").run .initial) := by
  have endless : IsEndless ((loopsCompiler.materializeFromCorpus (.marker ⟨"app.Loop"⟩) "app").run .initial) :=
    ⟨⟨"app.Loop"⟩, _, rfl⟩
  refine ⟨.fresh, endless, _, rfl, ?_⟩
  exact (isEndless_iff_at_every_depth loopsCompiler .fresh rfl "app").1 endless

end AnnotationWeaver
