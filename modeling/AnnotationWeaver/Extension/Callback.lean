import AnnotationWeaver.Extension.Message
import AnnotationWeaver.Extension.MetaAnnotation
import AnnotationWeaver.Extension.Synthetic
import AnnotationWeaver.Query.Deployed
import AnnotationWeaver.Query.Members

/-!
Callbacks. An extension declares callbacks, each with its phases, the roles of its parameters and, for
a query role, the constraints that select its matches. The body of a callback is a program; what it
asks for is allowed by the parameters that the callback declared. Which declarations of callbacks are
fit to run is the matter of `Plan`.
-/
namespace AnnotationWeaver

/-- How a constraint selects types. -/
inductive ConstraintScope where
  | exact | subtypes
  deriving DecidableEq, Repr

/-- Selects a type or its subtypes, perhaps by their annotations. -/
structure Constraint where
  scope : ConstraintScope
  type : TypeName
  annotatedWith : List TypeName
  deriving DecidableEq, Repr

/-- What a callback asks for. -/
inductive Request where
  | edit (r : EditRequest)
  /-- Asks whether a parameter with the role was declared; fails if not. -/
  | require (role : Role)
  | report (m : Message)
  | scan (name : TypeName)
  | addContext (c : ScopeContext)
  | registerMeta (kind : MetaKind) (type : TypeName) (configure : Configurator)
  | classConfig
  | methodConfig
  | fieldConfig
  | classInfo
  | methodInfo
  | fieldInfo
  | bean
  | observer
  | configurable (q : Query)
  | search (q : Query)
  | deployed (q : DeployedQuery)
  | isIndexed (name : TypeName)
  | addBean (implementation : TypeName)
  | refineBean (place : Nat) (r : BeanRefinement)
  | addObserver (observed : Ty)
  | refineObserver (place : Nat) (r : ObserverRefinement)

namespace Request

/-- What is replied: for a new component, its place. -/
def Reply : Request → Type
  | .edit r => r.Reply
  | .require _ | .report _ | .scan _ | .addContext _ | .registerMeta _ _ _ => Unit
  | .classConfig | .classInfo => ClassDecl
  | .methodConfig | .methodInfo => MethodDecl
  | .fieldConfig | .fieldInfo => FieldDecl
  | .bean => Bean
  | .observer => Observer
  | .configurable _ | .search _ => List DeclKey
  | .deployed _ => List String
  | .isIndexed _ => Bool
  | .addBean _ | .addObserver _ => Nat
  | .refineBean _ _ | .refineObserver _ _ => Unit

/-- The role of the parameter that allows the request; an edit is allowed by what it edits. -/
def role? : Request → Option Role
  | .edit _ => none
  | .require role => some role
  | .report _ => some .messages
  | .scan _ => some .scannedClasses
  | .addContext _ | .registerMeta _ _ _ => some .metaAnnotations
  | .classConfig => some .classConfig
  | .methodConfig => some .methodConfig
  | .fieldConfig => some .fieldConfig
  | .classInfo => some .classInfo
  | .methodInfo => some .methodInfo
  | .fieldInfo => some .fieldInfo
  | .bean => some .beanInfo
  | .observer => some .observerInfo
  | .configurable _ => some .archiveConfig
  | .search _ => some .archive
  | .deployed _ => some .deployment
  | .isIndexed _ => some .types
  | .addBean _ | .refineBean _ _ | .addObserver _ | .refineObserver _ _ => some .syntheticComponents

end Request

abbrev CallbackProgram (α : Type) : Type := Program Failure Request Request.Reply α

namespace CallbackProgram

def ask (r : Request) : CallbackProgram r.Reply := Program.request r

def note (content : Json) : CallbackProgram Unit := ask (.edit (.note content))

/-- Has a callback make the requests of an editing program. -/
def edit (p : EditProgram Unit) : CallbackProgram Unit := Program.through (fun r => ask (.edit r)) p

def require (role : Role) : CallbackProgram Unit := ask (.require role)

def report (m : Message) : CallbackProgram Unit := ask (.report m)

def scan (name : TypeName) : CallbackProgram Unit := ask (.scan name)

def addContext (c : ScopeContext) : CallbackProgram Unit := ask (.addContext c)

def registerMeta (kind : MetaKind) (type : TypeName) (configure : Configurator) : CallbackProgram Unit :=
  ask (.registerMeta kind type configure)

def classConfig : CallbackProgram ClassDecl := ask .classConfig

def methodConfig : CallbackProgram MethodDecl := ask .methodConfig

def fieldConfig : CallbackProgram FieldDecl := ask .fieldConfig

def classInfo : CallbackProgram ClassDecl := ask .classInfo

def methodInfo : CallbackProgram MethodDecl := ask .methodInfo

def fieldInfo : CallbackProgram FieldDecl := ask .fieldInfo

def bean : CallbackProgram Bean := ask .bean

def observer : CallbackProgram Observer := ask .observer

/-- Searches among the annotations as they are edited. -/
def configurable (q : Query) : CallbackProgram (List DeclKey) := ask (.configurable q)

def search (q : Query) : CallbackProgram (List DeclKey) := ask (.search q)

def deployed (q : DeployedQuery) : CallbackProgram (List String) := ask (.deployed q)

def isIndexed (name : TypeName) : CallbackProgram Bool := ask (.isIndexed name)

/-- Registers a bean with a description. -/
def addBean (implementation : TypeName) (refinements : List BeanRefinement) : CallbackProgram Unit := do
  let place : Nat ← ask (.addBean implementation)
  refinements.forM fun r => (ask (.refineBean place r) : CallbackProgram Unit)

/-- Registers an observer with a description. -/
def addObserver (observed : Ty) (refinements : List ObserverRefinement) : CallbackProgram Unit := do
  let place : Nat ← ask (.addObserver observed)
  refinements.forM fun r => (ask (.refineObserver place r) : CallbackProgram Unit)

end CallbackProgram

/-- What a parameter of a query role stands for in one invocation. -/
inductive Subject where
  | type (d : ClassDecl)
  | method (m : MethodDecl)
  | field (f : FieldDecl)
  | bean (b : Bean)
  | observer (o : Observer)

namespace Subject

/-- The key of a declaration, or the id of a bean or observer. -/
def identity : Subject → String
  | .type d => d.name.text
  | .method m => m.key.text
  | .field f => f.key.text
  | .bean b => b.id
  | .observer o => o.id

end Subject

/-- A parameter of an invocation; what has a query role stands for a match. -/
structure Argument where
  role : Role
  subject? : Option Subject

/-- One run of a callback: where it happens and what it is given. -/
structure Invocation where
  phase : Phase
  extension : String
  callback : String
  arguments : List Argument

namespace Invocation

def argument? (i : Invocation) (role : Role) : Option Argument := i.arguments.find? (·.role == role)

def undeclared (i : Invocation) (role : Role) : Failure := .undeclared i.extension i.callback role

/-- What the parameter of a query role stands for. -/
def subject? (i : Invocation) (role : Role) : Option Subject := (i.argument? role).bind (·.subject?)

end Invocation

/-- A callback as an extension declares it. -/
structure CallbackDecl where
  name : String
  phases : List Phase
  priority : Option Int32
  roles : List Role
  constraints : List Constraint
  isPublic : Bool
  isStatic : Bool
  body? : Option (Invocation → CallbackProgram Unit)

def CallbackDecl.queryRoles (c : CallbackDecl) : List Role := c.roles.filter (·.isQuery)

/-- A callback that is fit to run. -/
structure Callback where
  extension : String
  name : String
  phase : Phase
  priority : Option Int32
  roles : List Role
  constraints : List Constraint
  body : Invocation → CallbackProgram Unit
  /-- All roles may be declared in the phase. -/
  legal : ∀ role ∈ roles, role.isLegalIn phase = true

/-- The query role of a callback, which has at most one. -/
def Callback.queryRole? (c : Callback) : Option Role := c.roles.find? (·.isQuery)

/-- An extension: its name, the sort of extension it is, and its callbacks. -/
structure Extension where
  name : String
  sort : String
  callbacks : List CallbackDecl

/-- A text with a dot for every double colon, from the left. -/
def dotted : List Char → List Char
  | ':' :: ':' :: rest => '.' :: dotted rest
  | c :: rest => c :: dotted rest
  | [] => []

/-- The class that stands for an extension: its name with dots for the double colons. -/
def extensionClass (name : String) : TypeName := .ofChars (dotted name.toList)

/-- The extensions of a build, and the sorts that were registered. -/
structure Registry where
  extensions : List Extension
  sorts : List String

namespace Registry

def empty : Registry := ⟨[], []⟩

/-- Registers an extension unless one of its sort was registered. -/
def register (r : Registry) (e : Extension) : Registry :=
  if e.sort ∈ r.sorts then r else ⟨r.extensions ++ [e], e.sort :: r.sorts⟩

/-- Registers an extension whatever was registered before. -/
def add (r : Registry) (e : Extension) : Registry := ⟨r.extensions ++ [e], e.sort :: r.sorts⟩

/-- Registers an extension without its sort. -/
def share (r : Registry) (e : Extension) : Registry := ⟨r.extensions ++ [e], r.sorts⟩

end Registry

end AnnotationWeaver
