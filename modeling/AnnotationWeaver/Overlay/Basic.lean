import AnnotationWeaver.Assoc
import AnnotationWeaver.Overlay.Seed

/-!
The overlay: the current annotations of a corpus that is itself never changed. A declaration gets an
entry when it is first read or edited; until then its annotations are those of the corpus, so `current`
does not depend on what was read. An overlay can be put out of use, after which it has no entries and
refuses every access.
-/
namespace AnnotationWeaver

/-- Why an overlay refuses an access. -/
inductive OverlayError where
  | invalidated
  deriving DecidableEq, Repr

def OverlayError.message : OverlayError → String
  | .invalidated => "annotations overlay no longer valid"

/-- The keys of the entries that hold an annotation of the type. -/
def keysHolding (entries : List (DeclKey × AnnotationSet)) (type : TypeName) : List DeclKey :=
  (entries.filter (·.2.contains type)).map (·.1)

/-- A corpus and the sets of the declarations that were read or edited, in the order of first access. -/
structure Overlay where
  corpus : Corpus
  entries : List (DeclKey × AnnotationSet)
  valid : Bool

namespace Overlay

/-- The overlay that nothing was read from. -/
def ofCorpus (corpus : Corpus) : Overlay := ⟨corpus, [], true⟩

def entry? (o : Overlay) (key : DeclKey) : Option AnnotationSet := Assoc.find? key o.entries

def isOverlaid (o : Overlay) (key : DeclKey) : Bool := (o.entry? key).isSome

def size (o : Overlay) : Nat := o.entries.length

/-- The number of entries of a kind. -/
def sizeOf (o : Overlay) (kind : DeclKind) : Nat := (o.entries.filter (·.1.kind == kind)).length

/-- The annotations that a declaration has now. -/
def current (o : Overlay) (key : DeclKey) : AnnotationSet := (o.entry? key).getD (o.corpus.seed key)

/-- The overlay with the set of a declaration put in. -/
def put (o : Overlay) (key : DeclKey) (set : AnnotationSet) : Overlay :=
  { o with entries := Assoc.set key set o.entries }

/-- Refuses unless the overlay is in use. -/
def guard {α : Type} (o : Overlay) (result : α) : Except OverlayError α :=
  if o.valid then .ok result else .error .invalidated

/-- The annotations of a declaration, which has an entry from then on. -/
def read (o : Overlay) (key : DeclKey) : Except OverlayError (AnnotationSet × Overlay) :=
  o.guard (o.current key, o.put key (o.current key))

/-- Reading an overlay in use enters the set that is read. -/
theorem read_eq {o : Overlay} (valid : o.valid = true) (key : DeclKey) :
    o.read key = .ok (o.current key, o.put key (o.current key)) := if_pos valid

theorem lookup_put (o : Overlay) (key other : DeclKey) (set : AnnotationSet) :
    entry? (o.put key set) other = if key = other then some set else o.entry? other :=
  Assoc.find?_set key other set o.entries

theorem current_put (o : Overlay) (key other : DeclKey) (set : AnnotationSet) :
    (o.put key set).current other = if key = other then set else o.current other := by
  unfold current
  rw [lookup_put]
  split <;> rfl

theorem isOverlaid_put (o : Overlay) (key other : DeclKey) (set : AnnotationSet) :
    (o.put key set).isOverlaid other ↔ key = other ∨ o.isOverlaid other := by
  unfold isOverlaid
  rw [lookup_put]
  by_cases same : key = other
  · simp [same]
  · simp [same]

/-- The current set of a declaration that has an entry is the entry's. -/
theorem lookup_of_isOverlaid {o : Overlay} {key : DeclKey} (entered : o.isOverlaid key) :
    o.entry? key = some (o.current key) := by
  obtain ⟨set, found⟩ := Option.isSome_iff_exists.1 entered
  simp [current, found]

/-- What is read stays the current set, and so does every other. -/
theorem current_put_current (o : Overlay) (key other : DeclKey) :
    (o.put key (o.current key)).current other = o.current other := by
  rw [current_put]
  split
  · next same => rw [same]
  · rfl

/-- Whether a declaration has an annotation of the type; it gets no entry by this. -/
def has (o : Overlay) (key : DeclKey) (type : TypeName) : Except OverlayError Bool :=
  o.guard <|
    match o.entry? key with
    | some set => set.contains type
    | none => o.corpus.seedContains key type

/-- The declarations whose entries hold an annotation of the type. -/
def overlaidWith (o : Overlay) (type : TypeName) : Except OverlayError (List DeclKey) :=
  o.guard (keysHolding o.entries type)

/-- The overlay put out of use. -/
def invalidate (o : Overlay) : Overlay := { o with entries := [], valid := false }

end Overlay

end AnnotationWeaver
