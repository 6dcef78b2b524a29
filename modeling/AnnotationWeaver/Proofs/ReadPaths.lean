import AnnotationWeaver.Overlay.View
import AnnotationWeaver.Proofs.Ancestry
import AnnotationWeaver.Proofs.Lists
import AnnotationWeaver.Proofs.Seeding

/-!
The three ways to read a view. A view holds sets for some declarations and falls back to the corpus for
all others (`setOf`); as long as it is readable, the annotations of a declaration, the question for one
type and the search for all declarations of a type are answered from these same sets.
-/
namespace AnnotationWeaver

theorem mem_keysHolding {entries : List (DeclKey × AnnotationSet)} {key : DeclKey} {set : AnnotationSet}
    {type : TypeName} (found : Assoc.find? key entries = some set) (held : set.contains type = true) :
    key ∈ keysHolding entries type :=
  List.mem_map.2 ⟨(key, set), List.mem_filter.2 ⟨Assoc.mem_of_find? found, held⟩, rfl⟩

/-- A declaration that carries an annotation itself is in the list of what carries one of its type. -/
theorem Corpus.mem_annotatedWith {c : Corpus} {key : DeclKey} {type : TypeName}
    (declared : (c.declaredAnnotations key).any (·.type == type) = true) : key ∈ c.annotatedWith type := by
  unfold Corpus.declaredAnnotations at declared
  cases search : c.find? key with
  | none => simp [search] at declared
  | some d =>
    obtain ⟨member, same⟩ := Corpus.mem_declarations_of_find? search
    have declares : d.declares type = true := by simpa [search, Declaration.declares] using declared
    rw [Corpus.annotatedWith_eq]
    exact List.mem_map.2 ⟨d, List.mem_filter.2 ⟨member, declares⟩, same⟩

namespace View

/-- The view answers: a final view always does, an overlay while it is in use. -/
def IsReadable : View → Prop
  | .live o => o.valid = true
  | .final _ => True

/-- The sets that the view holds itself. -/
def entries : View → List (DeclKey × AnnotationSet)
  | .live o => o.entries
  | .final v => v.revised

/-- The set of a declaration: the one held, else the one that the corpus gives. -/
def setOf (v : View) (key : DeclKey) : AnnotationSet := (Assoc.find? key v.entries).getD (v.corpus.seed key)

theorem annotations_eq {v : View} (readable : v.IsReadable) (key : DeclKey) :
    v.annotations key = .ok (v.setOf key) := by
  cases v with
  | live o => exact if_pos readable
  | final v => rfl

theorem has_eq {v : View} (readable : v.IsReadable) (key : DeclKey) (type : TypeName) :
    v.has key type = .ok ((v.setOf key).contains type) := by
  cases v with
  | live o =>
    have valid : o.valid = true := readable
    rw [has, Overlay.has, Overlay.guard, if_pos valid]
    show _ = Except.ok (((o.entry? key).getD (o.corpus.seed key)).contains type)
    cases o.entry? key with
    | none => simp
    | some set => rfl
  | final v =>
    rw [has, FinalView.has]
    show _ = Except.ok (((Assoc.find? key v.revised).getD (v.corpus.seed key)).contains type)
    cases Assoc.find? key v.revised with
    | none => simp
    | some set => rfl

theorem overlaidWith_eq {v : View} (readable : v.IsReadable) (type : TypeName) :
    v.overlaidWith type = .ok (keysHolding v.entries type) := by
  cases v with
  | live o => exact if_pos readable
  | final v => rfl

theorem declarationsWith_eq {v : View} (readable : v.IsReadable) (type : TypeName) :
    v.declarationsWith type =
      .ok ((v.candidates type (keysHolding v.entries type)).filter fun key => (v.setOf key).contains type) := by
  rw [declarationsWith, overlaidWith_eq readable]
  exact filterM_ok fun key => has_eq readable key type

/-- The roots of a search are candidates. -/
theorem mem_candidates_of_root {v : View} {type : TypeName} {overlaid : List DeclKey} {key : DeclKey}
    (root : key ∈ v.corpus.annotatedWith type ++ overlaid) : key ∈ v.candidates type overlaid := by
  have kept := List.mem_eraseDups.2 root
  unfold candidates
  split
  · exact List.mem_eraseDups.2 (List.mem_append_left _ kept)
  · exact kept

/-- So are the subclasses of a root that is a class, where the type applies to subclasses. -/
theorem mem_candidates_of_subclass {v : View} {type : TypeName} {overlaid : List DeclKey}
    {ancestor name : TypeName} (applies : v.corpus.isInherited type = true)
    (root : .type ancestor ∈ v.corpus.annotatedWith type ++ overlaid)
    (below : name ∈ v.corpus.allSubclasses ancestor) : .type name ∈ v.candidates type overlaid := by
  have kept := List.mem_eraseDups.2 root
  unfold candidates
  rw [if_pos applies, List.mem_eraseDups, List.mem_append]
  exact .inr (List.mem_flatMap.2
    ⟨ancestor, List.mem_filterMap.2 ⟨_, kept, rfl⟩, List.mem_map.2 ⟨name, below, rfl⟩⟩)

/-- No declaration that has an annotation of the type escapes the search. Either its own set holds the
    annotation, or the corpus declares it there, or it is inherited from a superclass, which is then a
    root that has the declaration among its subclasses. -/
theorem mem_candidates {v : View} {key : DeclKey} {type : TypeName} (held : (v.setOf key).contains type = true) :
    key ∈ v.candidates type (keysHolding v.entries type) := by
  cases found : Assoc.find? key v.entries with
  | some set =>
    have here : set.contains type = true := by simpa [setOf, found] using held
    exact mem_candidates_of_root (List.mem_append_right _ (mem_keysHolding found here))
  | none =>
    have seeded : v.corpus.seedContains key type = true := by simpa [setOf, found] using held
    unfold Corpus.seedContains at seeded
    rcases Bool.or_eq_true_iff.1 seeded with declared | inherited
    · exact mem_candidates_of_root (List.mem_append_left _ (Corpus.mem_annotatedWith declared))
    · cases key with
      | type name =>
        obtain ⟨applies, chained⟩ := Bool.and_eq_true_iff.1 inherited
        obtain ⟨ancestor, above, declares⟩ := List.any_eq_true.1 chained
        have below := Corpus.mem_allSubclasses_of_mem_superclassChain above
        have root : DeclKey.type ancestor.name ∈ v.corpus.annotatedWith type := by
          have member : Declaration.type ancestor ∈ v.corpus.declarations :=
            List.mem_flatMap.2 ⟨ancestor, (Corpus.mem_climb above).1, List.mem_cons_self⟩
          rw [Corpus.annotatedWith_eq]
          exact List.mem_map.2 ⟨_, List.mem_filter.2 ⟨member, declares⟩, rfl⟩
        exact mem_candidates_of_subclass applies (List.mem_append_left _ root) below
      | method key => cases inherited
      | field key => cases inherited
      | parameter key => cases inherited

end View

/-- Two classes that extend each other, one of which carries an annotation that applies to subclasses. -/
def cyclicLineage : Corpus where
  outlines := [
    ⟨⟨"app.Tracked"⟩, .annotationType, none, [], [.marker inheritedType], [], []⟩,
    ⟨⟨"app.Base"⟩, .regular, some ⟨"app.Leaf"⟩, [], [.marker ⟨"app.Tracked"⟩], [], []⟩,
    ⟨⟨"app.Leaf"⟩, .regular, some ⟨"app.Base"⟩, [], [], [], []⟩]
  classes := _
  declared := rfl
  accepted := by decide +kernel

/-- Its overlay after the annotation was taken from the class that carries it; nothing was read from the
    other class, which still inherits it from the corpus. -/
def strippedLineage : View := .live ((Overlay.ofCorpus cyclicLineage).put (.type ⟨"app.Base"⟩) .empty)

theorem isReadable_strippedLineage : strippedLineage.IsReadable := rfl

theorem contains_setOf_strippedLineage :
    (strippedLineage.setOf (.type ⟨"app.Leaf"⟩)).contains ⟨"app.Tracked"⟩ = true ∧
      (strippedLineage.setOf (.type ⟨"app.Base"⟩)).contains ⟨"app.Tracked"⟩ = false := by decide +kernel

end AnnotationWeaver
