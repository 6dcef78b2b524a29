import AnnotationWeaver.Overlay.Basic

/-!
Views of the current annotations. Before the edits are final the view is the overlay; afterwards it
is a `FinalView`, which holds the set of every edited declaration and never refuses an access. Both
answer the same questions: the annotations of a declaration, whether it has one of a type, and which
declarations have one of a type.
-/
namespace AnnotationWeaver

/-- The final sets of the edited declarations; all others have what the corpus gives them. -/
structure FinalView where
  corpus : Corpus
  revised : List (DeclKey × AnnotationSet)

namespace FinalView

/-- The view of a corpus without edits. -/
def ofCorpus (corpus : Corpus) : FinalView := ⟨corpus, []⟩

def size (v : FinalView) : Nat := v.revised.length

def isRevised (v : FinalView) (key : DeclKey) : Bool := (Assoc.find? key v.revised).isSome

def annotations (v : FinalView) (key : DeclKey) : AnnotationSet :=
  (Assoc.find? key v.revised).getD (v.corpus.seed key)

def has (v : FinalView) (key : DeclKey) (type : TypeName) : Bool :=
  match Assoc.find? key v.revised with
  | some set => set.contains type
  | none => v.corpus.seedContains key type

def overlaidWith (v : FinalView) (type : TypeName) : List DeclKey := keysHolding v.revised type

end FinalView

/-- Where current annotations are looked up. -/
inductive View where
  | live (overlay : Overlay)
  | final (view : FinalView)

namespace View

def corpus : View → Corpus
  | .live o => o.corpus
  | .final v => v.corpus

def annotations : View → DeclKey → Except OverlayError AnnotationSet
  | .live o, key => o.guard (o.current key)
  | .final v, key => .ok (v.annotations key)

def has : View → DeclKey → TypeName → Except OverlayError Bool
  | .live o, key, type => o.has key type
  | .final v, key, type => .ok (v.has key type)

/-- The declarations that the view holds a set for, in which there is an annotation of the type. -/
def overlaidWith : View → TypeName → Except OverlayError (List DeclKey)
  | .live o, type => o.overlaidWith type
  | .final v, type => .ok (v.overlaidWith type)

/-- The classes among the keys. -/
def classNames (keys : List DeclKey) : List TypeName :=
  keys.filterMap fun
    | .type name => some name
    | _ => none

/-- Every declaration that can have an annotation of the type: what declares it, what the view holds
    one for and, for an inherited type, the subclasses of these. -/
def candidates (v : View) (type : TypeName) (overlaid : List DeclKey) : List DeclKey :=
  let roots := (v.corpus.annotatedWith type ++ overlaid).eraseDups
  if v.corpus.isInherited type then
    (roots ++ (classNames roots).flatMap fun n => (v.corpus.allSubclasses n).map DeclKey.type).eraseDups
  else roots

/-- The declarations that have an annotation of the type. -/
def declarationsWith (v : View) (type : TypeName) : Except OverlayError (List DeclKey) := do
  let overlaid ← v.overlaidWith type
  (v.candidates type overlaid).filterM fun key => v.has key type

end View

end AnnotationWeaver
