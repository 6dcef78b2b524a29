import AnnotationWeaver.Proofs.CompilerRuns
import AnnotationWeaver.Proofs.Lists

/-!
Reads of static fields. A value that is the default of its member is not built but read from the static field
that keeps the default, if the member holds classes. The reader looks at the type of the member, the writer of the
field at the default as well: a default is kept as a whole if it is a class, or if it is an array of classes only and
the member returns an array. Every read stands in an instance of the class that it refers to, which is always there;
it resolves exactly if the default is kept as a whole.
-/
namespace AnnotationWeaver

/-! ### Static fields -/

/-- A static field keeps the default as a whole. -/
inductive MethodDecl.Keeps (m : MethodDecl) : Value → Prop
  | single (type : Ty) : Keeps m (.classLiteral type)
  | several {kind : ValueKind} (array : m.returns.isArray = true) (types : List Ty) :
    Keeps m (.array kind (types.map .classLiteral))

/-- The construction loads the class, or each class of the array, that the value is. -/
inductive Construction.Represents : Construction → Value → Prop
  | single (type : Ty) : Represents (.loadClass type.erased) (.classLiteral type)
  | several {component : Ty} {kind : ValueKind} (types : List Ty) :
    Represents (.newArray component (types.map fun type => .loadClass type.erased))
      (.array kind (types.map .classLiteral))

/-- The class declares the static field, and sets it once, to what represents the value. -/
structure LiteralClass.Resolves (k : LiteralClass) (field : String) (type : Ty) (v : Value) : Prop where
  declares : ⟨field, type, true⟩ ∈ k.fields
  sets : ∃ value : Construction, k.staticInits.filter (·.field == field) = [⟨field, value⟩] ∧ value.Represents v

namespace Literal

theorem defaultField_inj {member other : String} : defaultField member = defaultField other ↔ member = other :=
  String.append_left_inj _

/-- Nothing is left out of an array of classes. -/
theorem staticDefault?_classes {m : MethodDecl} {component : Ty} (holds : m.returns.holdsClasses = true)
    (array : m.returns.component? = some component) {kind : ValueKind} {types : List Ty}
    (default : m.default? = some (.array kind (types.map .classLiteral))) :
    staticDefault? m = some (.newArray component (types.map fun type => .loadClass type.erased)) := by
  simp [staticDefault?, holds, default, array, List.filterMap_map]

/-- What is written for a default represents it exactly if the default is kept as a whole. -/
theorem exists_represents_iff {m : MethodDecl} {v : Value} (holds : m.returns.holdsClasses = true)
    (default : m.default? = some v) : (∃ value, staticDefault? m = some value ∧ value.Represents v) ↔ m.Keeps v := by
  constructor
  · rintro ⟨value, written, represents⟩
    cases represents with
    | single type => exact .single type
    | @several component kind types =>
      cases array : m.returns.component? with
      | some component => exact .several (by simp [Ty.isArray, array]) types
      | none => simp [staticDefault?, holds, default, array] at written
  · intro keeps
    cases keeps with
    | single type => exact ⟨.loadClass type.erased, by simp [staticDefault?, holds, default], .single type⟩
    | @several kind array types =>
      obtain ⟨component, array⟩ := Option.isSome_iff_exists.1 array
      exact ⟨_, staticDefault?_classes holds array default, .several types⟩

variable {l : Literal} {m : MethodDecl}

/-- What the statics of a literal are turned into, for a member that no other is named like. -/
theorem filter_statics {β : Type} (make : MethodDecl × Construction → β) (field : β → String)
    (named : ∀ m value, field (make (m, value)) = defaultField m.name)
    (distinct : (l.members.map (·.name)).Nodup) (member : m ∈ l.members) :
    (l.statics.map make).filter (field · == defaultField m.name) =
      ((staticDefault? m).map fun value => make (m, value)).toList := by
  rw [statics, List.map_filterMap]
  refine (filter_filterMap_of_nodup distinct member fun other y made => ?_).trans (by rw [Option.map_map]; rfl)
  rw [Option.map_map] at made
  obtain ⟨value, -, rfl⟩ := Option.map_eq_some_iff.1 made
  rw [beq_iff_eq, Function.comp_apply, named, defaultField_inj]

/-- Each static field is set once, to what is written for its default. -/
theorem staticInits_filter (distinct : (l.members.map (·.name)).Nodup) (member : m ∈ l.members) :
    l.staticInits.filter (·.field == defaultField m.name) =
      ((staticDefault? m).map fun value => ⟨defaultField m.name, value⟩).toList :=
  filter_statics _ StaticInit.field (fun _ _ => rfl) distinct member

/-- A static field is declared for each default that is written. -/
theorem staticField_mem_iff (distinct : (l.members.map (·.name)).Nodup) (member : m ∈ l.members) :
    ⟨defaultField m.name, m.returns, true⟩ ∈ l.staticFields ↔ ∃ value, staticDefault? m = some value := by
  have alone : l.staticFields.filter (·.name == defaultField m.name) =
      ((staticDefault? m).map fun _ => ⟨defaultField m.name, m.returns, true⟩).toList :=
    filter_statics _ GeneratedField.name (fun _ _ => rfl) distinct member
  have listed : ⟨defaultField m.name, m.returns, true⟩ ∈ l.staticFields ↔
      ⟨defaultField m.name, m.returns, true⟩ ∈ l.staticFields.filter (·.name == defaultField m.name) := by
    simp
  rw [listed, alone, Option.mem_toList]
  cases staticDefault? m with
  | none => simp
  | some value => simp

/-- A class with the statics of a literal resolves the default of a member exactly if it is kept as a whole. -/
theorem resolves_iff {k : LiteralClass} (inits : k.staticInits = l.staticInits)
    (fields : ∀ f : GeneratedField, f.isStatic = true → (f ∈ k.fields ↔ f ∈ l.staticFields))
    (distinct : (l.members.map (·.name)).Nodup) (member : m ∈ l.members) {v : Value} (default : m.default? = some v)
    (holds : m.returns.holdsClasses = true) : k.Resolves (defaultField m.name) m.returns v ↔ m.Keeps v := by
  rw [← exists_represents_iff holds default]
  constructor
  · rintro ⟨-, value, set, represents⟩
    rw [inits, staticInits_filter distinct member] at set
    cases written : staticDefault? m with
    | none => simp [written] at set
    | some made =>
      have same : made = value := by simpa [written] using set
      exact ⟨made, rfl, same ▸ represents⟩
  · rintro ⟨value, written, represents⟩
    refine ⟨(fields _ rfl).2 ((staticField_mem_iff distinct member).2 ⟨value, written⟩), value, ?_, represents⟩
    rw [inits, staticInits_filter distinct member, written]
    rfl

theorem static_mem_sharedClass (l : Literal) (f : GeneratedField) (isStatic : f.isStatic = true) :
    f ∈ l.sharedClass.fields ↔ f ∈ l.staticFields := by
  have member : f ∉ l.members.map fun m => ⟨m.name, m.returns, false⟩ := by
    intro listed
    obtain ⟨m, -, rfl⟩ := List.mem_map.1 listed
    cases isStatic
  rw [sharedClass, List.mem_append, or_iff_right member]

end Literal

namespace LiteralSettings

/-- The classes that stand for annotations: the shared ones, or those that were written. -/
def classes (c : LiteralSettings) (s : LiteralState) : List LiteralClass :=
  if c.shared then s.generate [] else s.written

/-- The read stands in the construction or in a method of one of the classes. -/
def Occurs (x : Construction) (written : List LiteralClass) (r : StaticRead) : Prop :=
  x.Reads none r ∨ ∃ k ∈ written, ∃ m ∈ k.methods, ∃ value, m.body = .returnValue value ∧ value.Reads (some k.name) r

/-- The class is made from the literal. -/
structure IsMadeFrom (k : LiteralClass) (l : Literal) : Prop where
  name : k.name = l.name
  type : k.annotationType = l.type
  inits : k.staticInits = l.staticInits
  fields : ∀ f : GeneratedField, f.isStatic = true → (f ∈ k.fields ↔ f ∈ l.staticFields)

variable {c : LiteralSettings} {s : LiteralState}

theorem isMadeFrom_sharedClass (l : Literal) : IsMadeFrom l.sharedClass l :=
  ⟨rfl, rfl, rfl, l.static_mem_sharedClass⟩

theorem isMadeFrom_oneOffClass (l : Literal) (values : List Construction) : IsMadeFrom (l.oneOffClass values) l :=
  ⟨rfl, rfl, rfl, fun _ _ => Iff.rfl⟩

theorem mem_generate {k : LiteralClass} : k ∈ s.generate [] ↔ ∃ l ∈ s.literals, k = l.sharedClass := by
  simp [LiteralState.generate, eq_comm]

/-- Each class is made from a literal of the corpus. -/
theorem IsSound.exists_literal (sound : c.IsSound s) {k : LiteralClass} (listed : k ∈ c.classes s) :
    ∃ l, IsMadeFrom k l ∧ c.corpus.class? l.type = some l.declaration := by
  rw [classes] at listed
  split at listed
  · obtain ⟨l, prepared, rfl⟩ := mem_generate.1 listed
    exact ⟨l, isMadeFrom_sharedClass l, (sound.prepared l prepared).2⟩
  · obtain ⟨-, l, values, rfl, declared, -⟩ := sound.written k listed
    exact ⟨l, isMadeFrom_oneOffClass l values, declared⟩

/-- A read that occurs is owned by a literal, whose class is there. -/
theorem IsSound.exists_owner (sound : c.IsSound s) {x : Construction} (settled : c.Settled s.literals x)
    {r : StaticRead} (occurs : Occurs x s.written r) :
    ∃ l, l.Owns r ∧ c.corpus.class? l.type = some l.declaration ∧ ∃ k ∈ c.classes s, IsMadeFrom k l := by
  rcases occurs with reads | ⟨k, written, m, method, value, body, reads⟩
  · obtain ⟨sharing, l, prepared, owns⟩ := settled _ r reads
    refine ⟨l, owns, (sound.prepared l prepared).2, l.sharedClass, ?_, isMadeFrom_sharedClass l⟩
    rw [classes, if_pos sharing]
    exact mem_generate.2 ⟨l, prepared, rfl⟩
  · obtain ⟨alone, l, values, rfl, declared, own⟩ := sound.written k written
    obtain ⟨⟨m, built⟩, paired, rfl⟩ := List.mem_map.1 method
    obtain rfl := MethodBody.returnValue.inj body
    refine ⟨l, own _ (List.of_mem_zip paired).2 r reads, declared, _, ?_, isMadeFrom_oneOffClass l values⟩
    rwa [classes, if_neg (by simp [alone])]

end LiteralSettings

/-- After a compilation of a compiler's run that succeeds, every read of a static field, in what was built and in the
    methods of the classes written, stands in an instance of the class that it refers to, which is there; it is
    for the default of a member of the annotation type, and if no two members are named alike, it resolves exactly
    if that default is kept as a whole. -/
theorem static_read_resolves_iff (c : LiteralSettings) {s s' : LiteralState} (reached : c.Reached s) {a : Annotation}
    {targetPackage : String} {x : Construction}
    (compiled : (c.materializeFromCorpus a targetPackage).run s = (.ok x, s')) {r : StaticRead}
    (occurs : LiteralSettings.Occurs x s'.written r) :
    r.holder = some r.owner ∧ ∃ d ∈ c.corpus.classes, ∃ m ∈ d.regularMethods, ∃ v, m.default? = some v ∧
      r.field = Literal.defaultField m.name ∧ r.type = m.returns ∧
      (∃ k ∈ c.classes s', k.name = r.owner ∧ k.annotationType = d.name) ∧
      ((d.regularMethods.map (·.name)).Nodup →
        ((∃ k ∈ c.classes s', k.name = r.owner ∧ k.annotationType = d.name ∧ k.Resolves r.field r.type v) ↔
          m.Keeps v)) := by
  obtain ⟨sound', settled⟩ := reached.isSound.materializeFromCorpus a targetPackage
  specialize settled x s' compiled
  rw [compiled] at sound'
  obtain ⟨l, owns, declared, k, listed, made⟩ := sound'.exists_owner settled occurs
  obtain ⟨holder, owner, m, member, v, default, holds, field, type⟩ := owns
  have existing : k.name = r.owner ∧ k.annotationType = l.declaration.name := ⟨made.name.trans owner.symm, made.type⟩
  refine ⟨by rw [holder, owner], l.declaration, (Corpus.class?_eq_some_iff.1 declared).1, m, member, v, default, field,
    type, ⟨k, listed, existing⟩, fun distinct => ?_⟩
  rw [field, type]
  constructor
  · rintro ⟨k', listed', -, sameType, resolves⟩
    -- The other class of this name is made from the same declaration, as the corpus has one of each name.
    obtain ⟨l', made', declared'⟩ := sound'.exists_literal listed'
    have same : l'.declaration = l.declaration := by
      have names : l'.type = l.type := made'.type.symm.trans sameType
      rw [names, declared] at declared'
      exact (Option.some.inj declared').symm
    have members : l'.members = l.members := congrArg ClassDecl.regularMethods same
    have resolvesIff := Literal.resolves_iff made'.inits made'.fields (members ▸ distinct) (members ▸ member) default holds
    exact resolvesIff.1 resolves
  · intro keeps
    exact ⟨k, listed, existing.1, existing.2,
      (Literal.resolves_iff made.inits made.fields distinct member default holds).2 keeps⟩

/-- An annotation type with two members that hold classes; the default of the second is no class. -/
def handlers : Corpus where
  outlines := [⟨⟨"app.Handler"⟩, .annotationType, none, [], [],
    [⟨"event", [], .named classType, [], some (.classLiteral (.named ⟨"app.Event"⟩)), false⟩,
      ⟨"fallback", [], .named classType, [], some (.string "none"), false⟩], []⟩]
  classes := _
  declared := rfl
  accepted := by decide +kernel

/-- A compiler that shares the literals of `handlers`. -/
def handlersCompiler : LiteralSettings := ⟨handlers, true, Literal.defaultGeneratedPackage, fun _ => true⟩

/-- What the annotation without members is compiled to. -/
def handler : Construction :=
  .newInstance ⟨"app.Handler_Shared_AnnotationLiteral"⟩ [.named classType, .named classType]
    [.staticField ⟨"app.Handler_Shared_AnnotationLiteral"⟩ "event_default_value" (.named classType),
      .staticField ⟨"app.Handler_Shared_AnnotationLiteral"⟩ "fallback_default_value" (.named classType)]

/-- The state of the compiler after that. -/
def handled : LiteralState :=
  ((handlersCompiler.materializeFromCorpus (.marker ⟨"app.Handler"⟩) "app").run .initial).2

/-- The read in `handler` of the static field for a member. -/
def handlerRead (member : String) : StaticRead :=
  ⟨some ⟨"app.Handler_Shared_AnnotationLiteral"⟩, ⟨"app.Handler_Shared_AnnotationLiteral"⟩,
    Literal.defaultField member, .named classType⟩

theorem static_read_resolves_in_handlers :
    handlersCompiler.Reached .initial ∧
      (handlersCompiler.materializeFromCorpus (.marker ⟨"app.Handler"⟩) "app").run .initial = (.ok handler, handled) ∧
      LiteralSettings.Occurs handler handled.written (handlerRead "event") ∧
      ∃ k ∈ handlersCompiler.classes handled, k.name = (handlerRead "event").owner ∧
        k.Resolves (handlerRead "event").field (.named classType) (.classLiteral (.named ⟨"app.Event"⟩)) := by
  have compiled : (handlersCompiler.materializeFromCorpus (.marker ⟨"app.Handler"⟩) "app").run .initial =
    (.ok handler, handled) := rfl
  have occurs : LiteralSettings.Occurs handler handled.written (handlerRead "event") :=
    .inl (.argument List.mem_cons_self .here)
  obtain ⟨-, d, declared, m, member, v, default, field, type, -, resolves⟩ :=
    static_read_resolves_iff handlersCompiler .fresh compiled occurs
  obtain rfl := List.mem_singleton.1 declared
  have value : v = .classLiteral (.named ⟨"app.Event"⟩) := by
    rcases List.mem_cons.1 member with rfl | other
    · exact (Option.some.inj default).symm
    · obtain rfl := List.mem_singleton.1 other
      exact absurd field (by decide)
  subst value
  obtain ⟨k, listed, name, -, resolved⟩ := (resolves (by decide)).2 (.single _)
  exact ⟨.fresh, compiled, occurs, k, listed, name, resolved⟩

/-- The default that is no class is read from a static field that no class declares. -/
theorem static_read_unresolved_in_handlers :
    handlersCompiler.Reached .initial ∧ (∀ d ∈ handlers.classes, (d.regularMethods.map (·.name)).Nodup) ∧
      (handlersCompiler.materializeFromCorpus (.marker ⟨"app.Handler"⟩) "app").run .initial = (.ok handler, handled) ∧
      LiteralSettings.Occurs handler handled.written (handlerRead "fallback") ∧
      ¬∃ k ∈ handlersCompiler.classes handled, k.name = (handlerRead "fallback").owner ∧
        ∃ v, k.Resolves (handlerRead "fallback").field (handlerRead "fallback").type v := by
  refine ⟨.fresh, by decide, rfl, .inl (.argument (List.mem_cons_of_mem _ List.mem_cons_self) .here), ?_⟩
  have undeclared : ∀ k ∈ handlersCompiler.classes handled,
      ⟨(handlerRead "fallback").field, (handlerRead "fallback").type, true⟩ ∉ k.fields := by decide +kernel
  rintro ⟨k, listed, -, v, resolves⟩
  exact undeclared k listed resolves.declares

end AnnotationWeaver
