import AnnotationWeaver.Query.Classes

/-!
Queries for methods, constructors and fields. A query is a list of criteria in three families: the
classes that declare the member, the type of the member, which for a method is what it returns, and the
annotations on it. Within a family each criterion widens what is admitted; the families narrow each
other. The members of the declaring classes are the candidates if such classes are asked for, else what
has an annotation asked for, else all members of the corpus.
-/
namespace AnnotationWeaver

inductive MemberCriterion where
  | declaredOn (classes : ClassQuery)
  | ofType (type : Ty)
  | annotatedWith (type : TypeName)

/-- The kinds of members that are searched for. -/
inductive MemberKind where
  | method | constructor | field
  deriving DecidableEq, Repr

/-- What a query sees of a member: its key and its type. -/
structure MemberOutline where
  key : DeclKey
  type : Ty

/-- A method is of the kind; static initializers are of none. -/
def MemberKind.admits : MemberKind → MethodDecl → Bool
  | .method, m => m.isRegular
  | .constructor, m => m.isConstructor
  | .field, _ => false

def MethodDecl.outline (m : MethodDecl) : MemberOutline := ⟨.method m.key, m.returns⟩

def FieldDecl.outline (f : FieldDecl) : MemberOutline := ⟨.field f.key, f.type⟩

/-- The members of a kind that a class declares, in order. -/
def ClassDecl.members (d : ClassDecl) : MemberKind → List MemberOutline
  | .field => d.fields.map (·.outline)
  | kind => (d.methods.filter kind.admits).map (·.outline)

/-- The member of a kind that has the key. -/
def Corpus.member? (c : Corpus) (kind : MemberKind) : DeclKey → Option MemberOutline
  | .method key => ((c.method? key).filter kind.admits).map (·.outline)
  | .field key => if kind = .field then (c.field? key).map (·.outline) else none
  | _ => none

/-- The criteria of a search for members. -/
structure MemberQuery where
  criteria : List MemberCriterion

namespace MemberQuery

def sites (q : MemberQuery) : List ClassQuery :=
  q.criteria.filterMap fun
    | .declaredOn classes => some classes
    | _ => none

def types (q : MemberQuery) : List Ty :=
  q.criteria.filterMap fun
    | .ofType type => some type
    | _ => none

def annotationTypes (q : MemberQuery) : List TypeName :=
  q.criteria.filterMap fun
    | .annotatedWith type => some type
    | _ => none

/-- The type of a member is one of those asked for, or none is. -/
def admitsType (q : MemberQuery) (m : MemberOutline) : Bool := q.types.isEmpty || q.types.contains m.type

/-- The members of some classes whose type the query admits. -/
def among (q : MemberQuery) (kind : MemberKind) (classes : List ClassDecl) : List MemberOutline :=
  (classes.flatMap (·.members kind)).filter q.admitsType

/-- The answer has no order of its own: some candidates come from a search by annotation alone. -/
def isLoose (q : MemberQuery) : Bool :=
  if q.sites.isEmpty then !q.annotationTypes.isEmpty else q.sites.any (·.isLoose)

/-- The classes that the query's sites admit, each once. -/
def declaring (q : MemberQuery) (v : View) : Except OverlayError (List ClassDecl) := do
  let found ← q.sites.mapM (·.find v)
  return ((found.flatten.map (·.name)).eraseDups).filterMap v.corpus.class?

/-- The members of a kind that the query admits, in the order of the candidates. -/
def admitted (q : MemberQuery) (kind : MemberKind) (v : View) :
    Except OverlayError (List MemberOutline) :=
  if !q.sites.isEmpty then do
    let classes ← q.declaring v
    v.retain q.annotationTypes (·.key) (q.among kind classes)
  else if q.annotationTypes.isEmpty then .ok (q.among kind v.corpus.sorted)
  else do
    let keys ← v.declarationsWithAny q.annotationTypes
    return (keys.filterMap (v.corpus.member? kind)).filter q.admitsType

/-- The keys of the members that the query admits. -/
def find (q : MemberQuery) (kind : MemberKind) (v : View) : Except OverlayError (List DeclKey) := do
  let keys := (← q.admitted kind v).map (·.key)
  return if q.isLoose then sortKeys keys else keys

end MemberQuery

/-- A search for declarations of one kind. -/
inductive Query where
  | classes (query : ClassQuery)
  | members (kind : MemberKind) (query : MemberQuery)

/-- The keys of the declarations that the query admits. -/
def Query.find (v : View) : Query → Except OverlayError (List DeclKey)
  | .classes q => do return (← q.find v).map fun d => .type d.name
  | .members kind q => q.find kind v

end AnnotationWeaver
