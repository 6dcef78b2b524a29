import AnnotationWeaver.EditLog.Basic
import AnnotationWeaver.Overlay.View

/-!
Freezing an edit log. From then on no edit is accepted. Every record is replayed on sets of its own, which
begin as the corpus has them, and the sets that come out have to be the ones that the overlay holds; then
they make up the final view. A predicate that changed its mind shows as a divergence of the declaration it
was asked about.
-/
namespace AnnotationWeaver

/-- The declaration that a target of a record is. -/
def EditTarget.resolve (owner : DeclKey) : EditTarget → DeclKey
  | .declaration => owner
  | .parameter position =>
    match owner with
    | .method m => .parameter ⟨m, position⟩
    | _ => owner

/-- Replays a record on sets of its targets, each of which begins as the corpus has it when it is first touched; the
    record comes back with its predicates asked once more. -/
def replayRecord (corpus : Corpus) (owner : DeclKey) :
    List (EditTarget × AnnotationSet) → List RecordedChange → List (EditTarget × AnnotationSet) × List RecordedChange
  | sets, [] => (sets, [])
  | sets, r :: rest =>
    let before := (Assoc.find? r.target sets).getD (corpus.seed (r.target.resolve owner))
    let (final, rest') := replayRecord corpus owner (Assoc.set r.target (r.change.apply before) sets) rest
    (final, ⟨r.target, r.change.advance before⟩ :: rest')

/-- The first of the replayed sets that the overlay does not hold. -/
def divergence? (live : Overlay) : List (DeclKey × AnnotationSet) → Option EditError
  | [] => none
  | (key, replayed) :: rest =>
    match live.entry? key with
    | none => some (.keyMismatch key)
    | some set => if set == replayed then divergence? live rest else some (.replayDivergence key)

/-- Replays one record after the other and collects the sets; stops at a divergence. The records come back with
    the predicates asked that took part. -/
def replayRecords (live : Overlay) : (records : List (DeclKey × List RecordedChange)) →
    Except EditError (List (DeclKey × AnnotationSet)) × List (DeclKey × List RecordedChange)
  | [] => (.ok [], [])
  | (owner, record) :: rest =>
    let (sets, asked) := replayRecord live.corpus owner [] record
    let replayed := sets.map fun s => (s.1.resolve owner, s.2)
    match divergence? live replayed with
    | some e => (.error e, (owner, asked) :: rest)
    | none =>
      let (result, rest') := replayRecords live rest
      (result.map (replayed ++ ·), (owner, asked) :: rest')

/-- Ends the editing; the log is frozen whether or not a final view comes out. -/
def EditLog.freeze (l : EditLog) : Except EditError FinalView × EditLog :=
  if l.isFrozen then (.error .frozen, l)
  else if l.overlay.valid then
    let (result, records) := replayRecords l.overlay l.records
    (result.map fun revised => ⟨l.overlay.corpus, revised⟩, { l with records, isFrozen := true })
  else (.error (.overlay .invalidated), { l with isFrozen := true })

end AnnotationWeaver
