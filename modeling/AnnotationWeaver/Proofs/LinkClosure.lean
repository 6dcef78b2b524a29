import AnnotationWeaver.Proofs.BuildOutput

/-!
The output of a build is closed under linking. Wherever a class is instantiated, be it in the qualifiers of the outcome
or of the components or inside a class that was written, the class is there with the constructor that is called, or it
was in the corpus before. What carries this is the trace: each instance anywhere in a construction is that of
an annotation which was compiled, and for each of these there is a class.
-/
namespace AnnotationWeaver

/-- The first construction stands somewhere in the second. -/
inductive Construction.OccursIn (inner : Construction) : Construction → Prop
  | here : OccursIn inner inner
  | element {component : Ty} {elements : List Construction} {x : Construction} (listed : x ∈ elements)
    (deeper : OccursIn inner x) : OccursIn inner (.newArray component elements)
  | argument {name : TypeName} {constructor : List Ty} {arguments : List Construction} {x : Construction}
    (listed : x ∈ arguments) (deeper : OccursIn inner x) : OccursIn inner (.newInstance name constructor arguments)

/-- Somewhere in the construction a class is instantiated, by the constructor and with the arguments. -/
def Construction.Instantiates (x : Construction) (name : TypeName) (constructor : List Ty)
    (arguments : List Construction) : Prop :=
  (Construction.newInstance name constructor arguments).OccursIn x

def MethodBody.value? : MethodBody → Option Construction
  | .returnField _ => none
  | .returnValue value => some value

/-- What is built in the methods and the static initializers of a class. -/
def LiteralClass.constructions (k : LiteralClass) : List Construction :=
  k.methods.filterMap (·.body.value?) ++ k.staticInits.map (·.value)

/-! ### Instances come from the trace -/

section

variable {c : LiteralSettings} {trace more : List Compiled} {x : Construction} {xs ys : List Construction}

/-- Every instance in the construction is that of an annotation of the trace. -/
def Construction.IsTraced (c : LiteralSettings) (trace : List Compiled) (x : Construction) : Prop :=
  ∀ name constructor arguments, x.Instantiates name constructor arguments →
    ∃ e ∈ trace, e.construction c = .newInstance name constructor arguments

/-- The trace accounts for the instances in the constructions and in the values of its own annotations, each of which has
    one for every member. -/
structure Accounts (c : LiteralSettings) (trace : List Compiled) (xs : List Construction) : Prop where
  traced : ∀ x ∈ xs, x.IsTraced c trace
  inside : ∀ e ∈ trace, ∀ x ∈ e.values, x.IsTraced c trace
  full : ∀ e ∈ trace, e.values.length = e.declaration.regularMethods.length

theorem Construction.IsTraced.widen (traced : x.IsTraced c trace) (wider : trace ⊆ more) : x.IsTraced c more := by
  intro name constructor arguments occurs
  obtain ⟨e, listed, same⟩ := traced name constructor arguments occurs
  exact ⟨e, wider listed, same⟩

theorem Construction.isTraced_newArray {component : Ty} (each : ∀ y ∈ xs, y.IsTraced c trace) :
    (Construction.newArray component xs).IsTraced c trace := by
  intro name constructor arguments occurs
  cases occurs with
  | element listed deeper => exact each _ listed name constructor arguments deeper

theorem Construction.isTraced_emptyArrayOf (component : Ty) : (Construction.emptyArrayOf component).IsTraced c trace := by
  unfold emptyArrayOf
  cases EmptyArray.ofComponent? component with
  | some kind => exact fun _ _ _ occurs => by cases occurs
  | none => exact isTraced_newArray (by simp)

theorem Value.isTraced_of_plain? {v : Value} (built : v.plain? = some x) : x.IsTraced c trace := by
  intro name constructor arguments occurs
  cases v <;> cases built <;> cases occurs

theorem Accounts.append (accounts : Accounts c trace xs) (rest : Accounts c more ys) :
    Accounts c (trace ++ more) (xs ++ ys) where
  traced x member := by
    rcases List.mem_append.1 member with first | later
    · exact (accounts.traced x first).widen (List.subset_append_left _ _)
    · exact (rest.traced x later).widen (List.subset_append_right _ _)
  inside e member x listed := by
    rcases List.mem_append.1 member with first | later
    · exact (accounts.inside e first x listed).widen (List.subset_append_left _ _)
    · exact (rest.inside e later x listed).widen (List.subset_append_right _ _)
  full e member := by
    rcases List.mem_append.1 member with first | later
    · exact accounts.full e first
    · exact rest.full e later

theorem Accounts.nil (traced : ∀ x ∈ xs, x.IsTraced c []) : Accounts c [] xs := ⟨traced, by simp, by simp⟩

theorem Accounts.one (accounts : Accounts c trace xs) (traced : x.IsTraced c trace) : Accounts c trace [x] :=
  ⟨by simpa using traced, accounts.inside, accounts.full⟩

theorem Each.accounts {ι : Type} {R : ι → Construction → List Compiled → Prop} {is : List ι} (each : Each R is xs trace)
    (one : ∀ i y t, R i y t → Accounts c t [y]) : Accounts c trace xs := by
  induction each with
  | nil => exact .nil (by simp)
  | cons head tail ih => exact (one _ _ _ head).append ih

section

variable {N : Annotation → Construction → List Compiled → Prop} (nested : ∀ a y t, N a y t → Accounts c t [y])
include nested

theorem Value.BuildsAs.accounts {expected : Ty} {v : Value} (builds : v.BuildsAs N expected x trace) :
    Accounts c trace [x] := by
  cases builds with
  | plain fits built => exact .nil (by simpa using v.isTraced_of_plain? built)
  | nested fits built => exact nested _ _ _ built

theorem MethodDecl.LoadsFrom.accounts {name : TypeName} {a : Annotation} {m : MethodDecl}
    (loads : m.LoadsFrom N name a x trace) : Accounts c trace [x] := by
  obtain ⟨v, -, loads⟩ := loads
  cases loads with
  | static kept => exact .nil fun _ member _ _ _ occurs => by cases List.mem_singleton.1 member; cases occurs
  | single made alone builds => exact builds.accounts nested
  | none made several => exact .nil (by simpa using Construction.isTraced_emptyArrayOf _)
  | several made several each =>
    have elements := each.accounts fun _ _ _ builds => builds.accounts nested
    exact elements.one (Construction.isTraced_newArray elements.traced)

theorem LiteralSettings.CompilesWith.accounts {a : Annotation} {package : String}
    (compiles : c.CompilesWith N a package x trace) : Accounts c trace [x] := by
  cases compiles with
  | @intro d values before declared members =>
    have parts := members.accounts fun _ _ _ loads => loads.accounts nested
    let e : Compiled := ⟨a, package, d, values⟩
    have wider : before ⊆ before ++ [e] := List.subset_append_left _ _
    have last : e ∈ before ++ [e] := List.mem_append_right _ List.mem_cons_self
    have ofValues (y) (listed : y ∈ values) : y.IsTraced c (before ++ [e]) := (parts.traced y listed).widen wider
    refine ⟨fun y member => ?_, fun e' member y listed => ?_, fun e' member => ?_⟩
    · rw [List.mem_singleton.1 member]
      intro name constructor arguments occurs
      -- Either the instance is the one that is built, or it stands inside a value that a shared class is given.
      by_cases sharing : c.shared = true
      · simp only [Compiled.construction, if_pos sharing] at occurs
        cases occurs with
        | here => exact ⟨e, last, by simp only [Compiled.construction, if_pos sharing, e]⟩
        | argument listed deeper => exact ofValues _ listed name constructor arguments deeper
      · simp only [Compiled.construction, if_neg sharing] at occurs
        cases occurs with
        | here => exact ⟨e, last, by simp only [Compiled.construction, if_neg sharing, e]⟩
        | argument listed deeper => exact absurd listed List.not_mem_nil
    · rcases List.mem_append.1 member with first | same
      · exact (parts.inside e' first y listed).widen wider
      · rw [List.mem_singleton.1 same] at listed
        exact ofValues y listed
    · rcases List.mem_append.1 member with first | same
      · exact parts.full e' first
      · rw [List.mem_singleton.1 same]
        exact members.length

end

theorem LiteralSettings.CompilesWithin.accounts {depth : Nat} {a : Annotation} {package : String}
    (compiles : c.CompilesWithin depth a package x trace) : Accounts c trace [x] := by
  induction depth generalizing a package x trace with
  | zero => exact compiles.elim
  | succ depth ih => exact LiteralSettings.CompilesWith.accounts (fun _ _ _ inner => ih inner) compiles

/-- The trace of an annotation accounts for every instance in what it is built as. -/
theorem LiteralSettings.Compiles.accounts {a : Annotation} {package : String} (compiles : c.Compiles a package x trace) :
    Accounts c trace [x] := by
  obtain ⟨depth, compiles⟩ := compiles
  exact compiles.accounts

end

/-! ### Instances inside classes -/

section

variable {c : LiteralSettings} {trace : List Compiled} {x : Construction}

/-- Static initializers load classes and put them into arrays, and instantiate nothing. -/
theorem Literal.isTraced_of_staticDefault? {m : MethodDecl} (made : staticDefault? m = some x) : x.IsTraced c trace := by
  have loads (type : TypeName) : (Construction.loadClass type).IsTraced c trace :=
    fun _ _ _ occurs => by cases occurs
  unfold staticDefault? at made
  split at made
  · split at made
    · cases made
      exact loads _
    · obtain ⟨component, -, rfl⟩ := Option.map_eq_some_iff.1 made
      refine Construction.isTraced_newArray fun y listed => ?_
      obtain ⟨v, -, element⟩ := List.mem_filterMap.1 listed
      cases v <;> cases element
      exact loads _
    · cases made
  · cases made

theorem Literal.isTraced_of_mem_staticInits {l : Literal} (listed : x ∈ l.staticInits.map (·.value)) :
    x.IsTraced c trace := by
  obtain ⟨init, member, rfl⟩ := List.mem_map.1 listed
  obtain ⟨entry, kept, rfl⟩ := List.mem_map.1 member
  obtain ⟨m, -, made⟩ := List.mem_filterMap.1 kept
  obtain ⟨value, static, rfl⟩ := Option.map_eq_some_iff.1 made
  exact isTraced_of_staticDefault? static

/-- The methods of a shared class return its fields. -/
theorem Literal.isTraced_of_mem_sharedClass {l : Literal} (listed : x ∈ l.sharedClass.constructions) :
    x.IsTraced c trace := by
  have bodies : l.sharedClass.methods.filterMap (·.body.value?) = [] := by
    simp [sharedClass, List.filterMap_map, MethodBody.value?]
  rw [LiteralClass.constructions, bodies, List.nil_append] at listed
  exact isTraced_of_mem_staticInits listed

/-- The methods of a class of one annotation return its values. -/
theorem Compiled.isTraced_of_mem_oneOffClass {e : Compiled} (values : ∀ y ∈ e.values, y.IsTraced c trace)
    (listed : x ∈ (e.oneOffClass c).constructions) : x.IsTraced c trace := by
  rcases List.mem_append.1 listed with body | static
  · obtain ⟨method, member, returned⟩ := List.mem_filterMap.1 body
    obtain ⟨⟨m, value⟩, paired, rfl⟩ := List.mem_map.1 member
    cases returned
    exact values x (List.of_mem_zip paired).2
  · exact Literal.isTraced_of_mem_staticInits static

end

/-! ### Builds -/

namespace Pipeline

/-- A class for the instance is among the classes, or in the corpus if literals are shared. -/
def Links (p : Pipeline) (classes : List LiteralClass) (name : TypeName) (constructor : List Ty) : Prop :=
  (∃ k ∈ classes, k.name = name ∧ k.constructor = constructor) ∨
    p.config.sharedLiterals = true ∧ p.corpus.hasClass name = true

variable {p : Pipeline} {requests : List QualifierRequest} {s : QualifierState} {trace : List Compiled}
  (served : p.literalSettings.Served requests s trace)
include served

theorem accounts_built : Accounts p.literalSettings trace s.built :=
  served.built.accounts fun _ _ _ compiles => compiles.accounts

omit served in
/-- A shared class is generated, unless the corpus has one of its name. -/
theorem links_of_shared (sharing : p.literalSettings.shared = true) {l : Literal} (prepared : l ∈ s.literals.literals) :
    p.Links (p.literalClasses s.literals) l.name l.constructor := by
  by_cases known : (p.corpus.classes.map (·.name)).contains l.name = true
  · have named : p.corpus.hasClass l.name = true := by
      obtain ⟨d, member, same⟩ := List.mem_map.1 (List.contains_iff_mem.1 known)
      exact Option.isSome_iff_exists.2 ⟨d, Corpus.class?_eq_some_iff.2 ⟨member, same⟩⟩
    exact .inr ⟨sharing, named⟩
  · have generated : l.sharedClass ∈ s.literals.generate (p.corpus.classes.map (·.name)) :=
      List.mem_map_of_mem (List.mem_filter.2 ⟨prepared, by simpa using known⟩)
    exact .inl ⟨l.sharedClass, List.mem_append_right _ generated, rfl, rfl⟩

theorem links_construction {e : Compiled} (listed : e ∈ trace) {name : TypeName} {constructor : List Ty}
    {arguments : List Construction} (built : e.construction p.literalSettings = .newInstance name constructor arguments) :
    arguments.length = constructor.length ∧ p.Links (p.literalClasses s.literals) name constructor := by
  by_cases sharing : p.literalSettings.shared = true
  · have full := (accounts_built served).full e listed
    have literal : e.literal p.literalSettings = p.literalSettings.prepare e.declaration := by
      rw [Compiled.literal, LiteralSettings.literalFor, if_pos sharing]
    have linked := links_of_shared sharing (served.leads.prepared sharing e listed)
    simp only [Compiled.construction, if_pos sharing] at built
    cases built
    refine ⟨?_, linked⟩
    rw [full, literal]
    exact (List.length_map _).symm
  · have written := served.leads.written
    rw [if_neg sharing] at written
    have listed_class : e.oneOffClass p.literalSettings ∈ s.literals.written := by
      rw [written]
      exact List.mem_append_right _ (List.mem_map_of_mem listed)
    simp only [Compiled.construction, if_neg sharing] at built
    cases built
    exact ⟨rfl, .inl ⟨_, List.mem_append_left _ listed_class, rfl, rfl⟩⟩

theorem isTraced_of_mem_class {k : LiteralClass} (written : k ∈ p.literalClasses s.literals) {x : Construction}
    (listed : x ∈ k.constructions) : x.IsTraced p.literalSettings trace := by
  rcases List.mem_append.1 written with early | late
  · rw [served.leads.written] at early
    split at early
    · simp [LiteralState.initial] at early
    · obtain ⟨e, member, rfl⟩ : ∃ e ∈ trace, e.oneOffClass p.literalSettings = k := by
        simpa [LiteralState.initial] using early
      exact e.isTraced_of_mem_oneOffClass ((accounts_built served).inside e member) listed
  · obtain ⟨l, -, rfl⟩ := List.mem_map.1 late
    exact l.isTraced_of_mem_sharedClass listed

end Pipeline

/-- Whatever a build that succeeded holds or has written, every class that is instantiated in it is there. -/
theorem build_output_is_linked (p : Pipeline) (id : BuildId) (sink : Sink) (resolutions : Nat) {o : Outcome}
    (succeeds : (p.run id sink resolutions).result = .ok o) :
    ∃ components s, p.Delivers id (p.run id sink resolutions) o components s ∧
      ∀ x ∈ o.qualifierLiterals.constructions ++ components.constructions ++
          (p.literalClasses s.literals).flatMap (·.constructions),
        ∀ name constructor arguments, x.Instantiates name constructor arguments →
          arguments.length = constructor.length ∧ p.Links (p.literalClasses s.literals) name constructor := by
  obtain ⟨components, s, delivers⟩ := Pipeline.run_ok succeeds
  obtain ⟨⟨trace, served⟩, -, ofComponents, ofOutcome⟩ := delivers.served
  refine ⟨components, s, delivers, fun x member name constructor arguments occurs => ?_⟩
  have built := Pipeline.accounts_built served
  have traced : x.IsTraced p.literalSettings trace := by
    simp only [List.mem_append, List.mem_flatMap] at member
    obtain (literal | component) | ⟨k, written, listed⟩ := member
    · exact built.traced x (ofOutcome literal)
    · exact built.traced x (ofComponents component)
    · exact Pipeline.isTraced_of_mem_class served written listed
  obtain ⟨e, listed, same⟩ := traced name constructor arguments occurs
  exact Pipeline.links_construction served listed same

theorem build_output_is_linked_in_measuring :
    let p := measuring true ["app.Size", "app.Weight"]
    ∃ o components s, (p.run (.ofNumber 1) .accepting 0).result = .ok o ∧
      p.Delivers (.ofNumber 1) (p.run (.ofNumber 1) .accepting 0) o components s ∧
      ∀ x ∈ o.qualifierLiterals.constructions, ∀ name constructor arguments,
        x.Instantiates name constructor arguments →
          arguments.length = constructor.length ∧ p.Links (p.literalClasses s.literals) name constructor := by
  intro p
  have succeeds : (p.run (.ofNumber 1) .accepting 0).result.isOk = true := by decide +kernel
  cases ends : (p.run (.ofNumber 1) .accepting 0).result with
  | error e =>
    rw [ends] at succeeds
    cases succeeds
  | ok o =>
    obtain ⟨components, s, delivers, linked⟩ := build_output_is_linked p (.ofNumber 1) .accepting 0 ends
    refine ⟨o, components, s, rfl, delivers, fun x listed => linked x ?_⟩
    exact List.mem_append_left _ (List.mem_append_left _ listed)

end AnnotationWeaver
