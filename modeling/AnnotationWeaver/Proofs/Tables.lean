import AnnotationWeaver.Corpus.Tables

/-!
What the tables hold. A pass over classes links, notes and enters one thing after another; at every point of it the
tables reflect what was entered so far (`Tables.Reflects`), and each step of the pass adds to that what it is about. An
annotation type that stands at a declaration more than once is noted with it once, as it was seen by then. Members and
classes have keys of their own in a corpus, so that no entry takes the place of another.
-/
namespace AnnotationWeaver

namespace Tables

/-- What a pass has entered: classes and members in the tables of their kinds, links of classes to their supertypes, and
    declarations that were noted at their annotations. -/
structure Entries where
  classes : List ClassDecl
  methods : List MethodDecl
  fields : List FieldDecl
  linked : List ClassDecl
  noted : List Declaration

/-- All that is entered with classes. -/
def Entries.of (classes : List ClassDecl) : Entries where
  classes := classes
  methods := classes.flatMap (·.methods)
  fields := classes.flatMap (·.fields)
  linked := classes
  noted := classes.flatMap (·.declarations)

/-- The tables answer with what was entered: the members and classes themselves, and for each type the classes that are
    linked to it and the declarations that carry an annotation of it, in the order of the entries. -/
structure Reflects (t : Tables) (e : Entries) : Prop where
  classes : t.classes = e.classes.map fun d => (d.name, d)
  methods : t.methods = e.methods.map fun m => (m.key, m)
  fields : t.fields = e.fields.map fun f => (f.key, f)
  subclasses : ∀ name, Assoc.listed name t.subclasses = (e.linked.filter fun d => d.superclass == some name).map (·.name)
  implementors : ∀ name,
    Assoc.listed name t.implementors = e.linked.flatMap fun d => (d.interfaces.filter (· == name)).map fun _ => d.name
  annotated : ∀ type, Assoc.listed type t.byAnnotation = (e.noted.filter (·.declares type)).map (·.key)

theorem reflects_empty : empty.Reflects (.of []) where
  classes := rfl
  methods := rfl
  fields := rfl
  subclasses := fun _ => rfl
  implementors := fun _ => rfl
  annotated := fun _ => rfl

/-! ## What a step adds -/

/-- A key is noted at a type if an annotation of it is listed and it was not seen before, and then once. -/
theorem listed_noteKey (key : DeclKey) (type : TypeName) (seen : List TypeName) (annotations : List Annotation)
    (noted : List (TypeName × List DeclKey)) :
    Assoc.listed type (noteKey key seen annotations noted) =
      Assoc.listed type noted ++ if type ∉ seen ∧ annotations.any (·.type == type) = true then [key] else [] := by
  induction annotations generalizing seen noted with
  | nil => simp [noteKey]
  | cons a rest ih =>
    rw [noteKey]
    split
    case isTrue known =>
      rw [ih]
      by_cases same : a.type = type
      · subst same
        simp [known]
      · simp [same]
    case isFalse fresh =>
      rw [ih, Assoc.listed_push, List.append_assoc]
      by_cases same : a.type = type
      · subst same
        simp [fresh]
      · simp [same, Ne.symm same]

/-- Pushing a name at each of some types adds it once for each time that a type is among them. -/
theorem listed_foldl_push (name type : TypeName) (above : List TypeName) (edges : List (TypeName × List TypeName)) :
    Assoc.listed type (above.foldl (fun edges a => Assoc.push a name edges) edges) =
      Assoc.listed type edges ++ (above.filter (· == type)).map fun _ => name := by
  induction above generalizing edges with
  | nil => simp
  | cons a rest ih =>
    rw [List.foldl_cons, ih, Assoc.listed_push, List.append_assoc, List.filter_cons]
    by_cases same : a = type
    · simp [same]
    · simp [same]

/-- A value with a key that is new comes last. -/
theorem set_keyed {κ β : Type} [DecidableEq κ] {name : β → κ} {x : β} {xs : List β} (fresh : name x ∉ xs.map name) :
    Assoc.set (name x) x (xs.map fun y => (name y, y)) = (xs ++ [x]).map fun y => (name y, y) := by
  rw [Assoc.set_of_notMem (by simpa using fresh), List.map_append]
  rfl

/-- Where all keys differ, each is new behind the ones before it. -/
theorem fresh_of_nodup {κ β : Type} {name : β → κ} {earlier rest : List β} {x : β}
    (distinct : ((earlier ++ x :: rest).map name).Nodup) : name x ∉ earlier.map name := by
  rw [List.map_append, List.map_cons] at distinct
  exact fun known => (List.nodup_append.1 distinct).2.2 _ known _ List.mem_cons_self rfl

namespace Reflects

variable {t : Tables} {e : Entries}

theorem note (reflects : t.Reflects e) (d : Declaration) : (t.note d).Reflects { e with noted := e.noted ++ [d] } where
  classes := reflects.classes
  methods := reflects.methods
  fields := reflects.fields
  subclasses := reflects.subclasses
  implementors := reflects.implementors
  annotated := by
    intro type
    rw [Tables.note, listed_noteKey, reflects.annotated, List.filter_append, List.map_append]
    cases carries : d.annotations.any (·.type == type) <;> simp [Declaration.declares, carries]

theorem notes (reflects : t.Reflects e) (ps : List ParamDecl) :
    (ps.foldl (fun t p => t.note (.parameter p)) t).Reflects { e with noted := e.noted ++ ps.map .parameter } := by
  induction ps generalizing t e with
  | nil => simpa using reflects
  | cons p rest ih => simpa using ih (reflects.note (.parameter p))

theorem link (reflects : t.Reflects e) (d : ClassDecl) : (t.link d).Reflects { e with linked := e.linked ++ [d] } where
  classes := reflects.classes
  methods := reflects.methods
  fields := reflects.fields
  annotated := reflects.annotated
  subclasses := by
    intro name
    rw [Tables.link, listed_foldl_push, reflects.subclasses, List.filter_append, List.map_append]
    cases extended : d.superclass with
    | none => simp [extended]
    | some above => by_cases same : above = name <;> simp [extended, same]
  implementors := by
    intro name
    rw [Tables.link, listed_foldl_push, reflects.implementors, List.flatMap_append, List.flatMap_singleton]

theorem enterMethod (reflects : t.Reflects e) {m : MethodDecl} (fresh : m.key ∉ e.methods.map (·.key)) :
    (t.enterMethod m).Reflects { e with methods := e.methods ++ [m], noted := e.noted ++ m.declarations } := by
  have noted := (reflects.note (.method m)).notes m.parameters
  rw [List.append_assoc] at noted
  exact { noted with methods := by rw [Tables.enterMethod, noted.methods, set_keyed fresh] }

theorem enterMethods (reflects : t.Reflects e) {ms : List MethodDecl} (distinct : ((e.methods ++ ms).map (·.key)).Nodup) :
    (ms.foldl Tables.enterMethod t).Reflects
      { e with methods := e.methods ++ ms, noted := e.noted ++ ms.flatMap (·.declarations) } := by
  induction ms generalizing t e with
  | nil => simpa using reflects
  | cons m rest ih =>
    have entered := ih (reflects.enterMethod (fresh_of_nodup distinct)) (by simpa using distinct)
    simpa using entered

theorem enterField (reflects : t.Reflects e) {f : FieldDecl} (fresh : f.key ∉ e.fields.map (·.key)) :
    (t.enterField f).Reflects { e with fields := e.fields ++ [f], noted := e.noted ++ [.field f] } := by
  have noted := reflects.note (.field f)
  exact { noted with fields := by rw [Tables.enterField, noted.fields, set_keyed fresh] }

theorem enterFields (reflects : t.Reflects e) {fs : List FieldDecl} (distinct : ((e.fields ++ fs).map (·.key)).Nodup) :
    (fs.foldl Tables.enterField t).Reflects
      { e with fields := e.fields ++ fs, noted := e.noted ++ fs.map .field } := by
  induction fs generalizing t e with
  | nil => simpa using reflects
  | cons f rest ih =>
    have entered := ih (reflects.enterField (fresh_of_nodup distinct)) (by simpa using distinct)
    simpa using entered

/-- A class is entered with all that it declares. -/
theorem enterClass {earlier : List ClassDecl} (reflects : t.Reflects (.of earlier)) {d : ClassDecl}
    (fresh : d.name ∉ earlier.map (·.name))
    (methods : (((earlier ++ [d]).flatMap (·.methods)).map (·.key)).Nodup)
    (fields : (((earlier ++ [d]).flatMap (·.fields)).map (·.key)).Nodup) :
    (t.enterClass d).Reflects (.of (earlier ++ [d])) := by
  rw [List.flatMap_append, List.flatMap_singleton] at methods fields
  have entered := (((reflects.link d).note (.type d)).enterMethods methods).enterFields fields
  have all : Entries.of (earlier ++ [d]) =
      { classes := earlier ++ [d], methods := earlier.flatMap (·.methods) ++ d.methods,
        fields := earlier.flatMap (·.fields) ++ d.fields, linked := earlier ++ [d],
        noted := earlier.flatMap (·.declarations) ++ [.type d] ++ d.methods.flatMap (·.declarations) ++
          d.fields.map .field } := by
    simp [Entries.of, ClassDecl.declarations]
  rw [all]
  exact { entered with classes := by rw [Tables.enterClass, entered.classes]; exact set_keyed fresh }

/-- A pass that begins behind some classes. -/
theorem enterClasses {earlier ds : List ClassDecl} (reflects : t.Reflects (.of earlier))
    (names : ((earlier ++ ds).map (·.name)).Nodup)
    (methods : (((earlier ++ ds).flatMap (·.methods)).map (·.key)).Nodup)
    (fields : (((earlier ++ ds).flatMap (·.fields)).map (·.key)).Nodup) :
    (ds.foldl Tables.enterClass t).Reflects (.of (earlier ++ ds)) := by
  induction ds generalizing t earlier with
  | nil => simpa using reflects
  | cons d rest ih =>
    have fresh := fresh_of_nodup names
    have onward : earlier ++ d :: rest = earlier ++ [d] ++ rest := by simp
    rw [onward] at names methods fields ⊢
    have through {α κ : Type} {members : ClassDecl → List α} {key : α → κ}
        (distinct : (((earlier ++ [d] ++ rest).flatMap members).map key).Nodup) :
        (((earlier ++ [d]).flatMap members).map key).Nodup := by
      rw [List.flatMap_append, List.map_append] at distinct
      exact (List.nodup_append.1 distinct).1
    exact ih (reflects.enterClass fresh (through methods) (through fields)) names methods fields

end Reflects

/-- The tables of classes that share no name, no method and no field hold them with all that they declare. -/
theorem reflects_ofClasses {ds : List ClassDecl} (names : (ds.map (·.name)).Nodup)
    (methods : ((ds.flatMap (·.methods)).map (·.key)).Nodup) (fields : ((ds.flatMap (·.fields)).map (·.key)).Nodup) :
    (ofClasses ds).Reflects (.of ds) := by
  have behind_none : ds = [] ++ ds := rfl
  rw [behind_none] at names methods fields
  exact reflects_empty.enterClasses names methods fields

end Tables

end AnnotationWeaver
