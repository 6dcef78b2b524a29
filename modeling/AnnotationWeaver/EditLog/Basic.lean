import AnnotationWeaver.Overlay.Basic
import AnnotationWeaver.Predicate

/-!
The edit log. Every edit of annotations acts on the overlay at once and is recorded, so that it can
be replayed: on a set of its own (`replayInto`) or on fresh sets of the corpus (`EditLog.freeze`). Each
edited declaration has a record of its changes. Those of a parameter go into the record of its method,
at the position of the parameter, in the order in which they were made between the method's own. A
recorded predicate remembers how many questions it was asked.
-/
namespace AnnotationWeaver

/-- What an edit does to a set. -/
inductive Change where
  | add (a : Annotation)
  /-- A predicate that was asked so many questions. -/
  | remove (predicate : Predicate) (asked : Nat)

namespace Change

/-- The set after the change. -/
def apply : Change → AnnotationSet → AnnotationSet
  | .add a, s => s.insert a
  | .remove p asked, s => s.remove p asked

/-- The change after it was made to a set: its predicate was asked about every annotation. -/
def advance : Change → AnnotationSet → Change
  | .add a, _ => .add a
  | .remove p asked, s => .remove p (asked + s.size)

/-- Whether the change alters a set. An equal annotation in the place of another alters nothing. -/
def alters : Change → AnnotationSet → Bool
  | .add a, s => match s.get? a.type with
    | some b => !(a == b)
    | none => true
  | .remove p asked, s => (s.remove p asked).size != s.size

end Change

/-- What a change touches, seen from the declaration whose record holds it. -/
inductive EditTarget where
  | declaration
  | parameter (position : UInt16)
  deriving DecidableEq, Repr

namespace DeclKey

/-- The declaration whose record holds the changes of a key. -/
def owner : DeclKey → DeclKey
  | .parameter key => .method key.method
  | key => key

/-- What the changes of a key touch, seen from the declaration whose record holds them. -/
def target : DeclKey → EditTarget
  | .parameter key => .parameter key.position
  | _ => .declaration

end DeclKey

/-- A change in the record of a declaration. -/
structure RecordedChange where
  target : EditTarget
  change : Change

/-- Why an edit or a freeze is refused. -/
inductive EditError where
  | frozen
  | overlay (e : OverlayError)
  | keyMismatch (key : DeclKey)
  | replayDivergence (key : DeclKey)
  deriving DecidableEq, Repr

def EditError.message : EditError → String
  | .frozen => "annotation transformations are frozen"
  | .overlay e => e.message
  | .keyMismatch key => "transformation recorded for " ++ key.text ++ " has no overlay entry"
  | .replayDivergence key => "replaying transformations of " ++ key.text ++ " diverges from the overlay"

/-- An overlay and the records of what was changed in it, in the order of their first changes. -/
structure EditLog where
  overlay : Overlay
  records : List (DeclKey × List RecordedChange)
  isFrozen : Bool

namespace EditLog

def ofCorpus (corpus : Corpus) : EditLog := ⟨.ofCorpus corpus, [], false⟩

/-- The log over another state of the overlay. -/
def withOverlay (l : EditLog) (overlay : Overlay) : EditLog := { l with overlay }

/-- The log after a change, which comes last in the record that holds it. -/
def commit (l : EditLog) (key : DeclKey) (change : Change) : EditLog :=
  let before := l.overlay.current key
  { l with
    overlay := l.overlay.put key (change.apply before)
    records := Assoc.push key.owner ⟨key.target, change.advance before⟩ l.records }

/-- Makes a change and records it; tells whether it altered the set. -/
def edit (l : EditLog) (key : DeclKey) (change : Change) : Except EditError (Bool × EditLog) :=
  if l.isFrozen then .error .frozen
  else if l.overlay.valid then .ok (change.alters (l.overlay.current key), l.commit key change)
  else .error (.overlay .invalidated)

/-- Adds an annotation to a declaration. -/
def add (l : EditLog) (key : DeclKey) (a : Annotation) : Except EditError EditLog :=
  (l.edit key (.add a)).map (·.2)

/-- Removes the annotations of a declaration that the predicate holds of. -/
def remove (l : EditLog) (key : DeclKey) (p : Predicate) : Except EditError (Bool × EditLog) :=
  l.edit key (.remove p 0)

/-- The changes that the record of a declaration holds, oldest first. -/
def record (l : EditLog) (owner : DeclKey) : List RecordedChange := Assoc.listed owner l.records

/-- The declarations with a record, in the order of their first changes. -/
def owners (l : EditLog) : List DeclKey := l.records.map (·.1)

/-- The changes that replaying a declaration delivers: for a parameter its own in the record of the method, and for
    any other declaration its record. -/
def replay (l : EditLog) (key : DeclKey) : List (EditTarget × Change) :=
  match key with
  | .parameter _ => ((l.record key.owner).filter (·.target == key.target)).map fun r => (.declaration, r.change)
  | _ => (l.record key).map fun r => (r.target, r.change)

end EditLog

/-- Makes the changes of a target to a set, one after the other; the record comes back with their predicates asked
    once more. -/
def replayTarget (target : EditTarget) : AnnotationSet → List RecordedChange → AnnotationSet × List RecordedChange
  | s, [] => (s, [])
  | s, r :: rest =>
    if r.target = target then
      let (final, rest') := replayTarget target (r.change.apply s) rest
      (final, ⟨r.target, r.change.advance s⟩ :: rest')
    else
      let (final, rest') := replayTarget target s rest
      (final, r :: rest')

/-- Replays the changes of a declaration on a set. -/
def EditLog.replayInto (l : EditLog) (key : DeclKey) (set : AnnotationSet) : AnnotationSet × EditLog :=
  let asked (r : DeclKey × List RecordedChange) :=
    if r.1 = key.owner then (r.1, (replayTarget key.target set r.2).2) else r
  ((replayTarget key.target set (l.record key.owner)).1, { l with records := l.records.map asked })

end AnnotationWeaver
