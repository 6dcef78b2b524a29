import AnnotationWeaver.Deployment

/-!
Queries over a deployment. As in the searches for declarations, criteria of one family widen what is
admitted and the families narrow each other. Types count by their erased names, so a bean of a
parameterized type is found under its raw type.
-/
namespace AnnotationWeaver

inductive BeanCriterion where
  | scope (name : TypeName)
  | beanType (type : Ty)
  | qualifier (type : TypeName)
  | declaringClass (name : TypeName)

inductive ObserverCriterion where
  | observedType (type : Ty)
  | qualifier (type : TypeName)
  | declaringClass (name : TypeName)

/-- One of the names is asked for, or none is. -/
def admitsAny (wanted names : List TypeName) : Bool := wanted.isEmpty || names.any wanted.contains

structure BeanQuery where
  criteria : List BeanCriterion

namespace BeanQuery

def scopes (q : BeanQuery) : List TypeName :=
  q.criteria.filterMap fun
    | .scope name => some name
    | _ => none

def types (q : BeanQuery) : List TypeName :=
  q.criteria.filterMap fun
    | .beanType type => some type.erased
    | _ => none

def qualifiers (q : BeanQuery) : List TypeName :=
  q.criteria.filterMap fun
    | .qualifier type => some type
    | _ => none

def declaringClasses (q : BeanQuery) : List TypeName :=
  q.criteria.filterMap fun
    | .declaringClass name => some name
    | _ => none

def admits (q : BeanQuery) (b : Bean) : Bool :=
  admitsAny q.scopes [b.scope] && admitsAny q.types (b.types.map (·.erased))
    && admitsAny q.qualifiers (b.qualifiers.map (·.type)) && admitsAny q.declaringClasses [b.declaringClass]

def find (q : BeanQuery) (d : Deployment) : List Bean := d.beans.filter q.admits

end BeanQuery

structure ObserverQuery where
  criteria : List ObserverCriterion

namespace ObserverQuery

def observedTypes (q : ObserverQuery) : List TypeName :=
  q.criteria.filterMap fun
    | .observedType type => some type.erased
    | _ => none

def qualifiers (q : ObserverQuery) : List TypeName :=
  q.criteria.filterMap fun
    | .qualifier type => some type
    | _ => none

def declaringClasses (q : ObserverQuery) : List TypeName :=
  q.criteria.filterMap fun
    | .declaringClass name => some name
    | _ => none

def admits (q : ObserverQuery) (o : Observer) : Bool :=
  admitsAny q.observedTypes [o.observed.erased] && admitsAny q.qualifiers (o.qualifiers.map (·.type))
    && admitsAny q.declaringClasses [o.declaringClass]

def find (q : ObserverQuery) (d : Deployment) : List Observer := d.observers.filter q.admits

end ObserverQuery

/-- A search in a deployment. -/
inductive DeployedQuery where
  | beans (query : BeanQuery)
  | observers (query : ObserverQuery)

/-- The ids of what the query admits, in the order of the deployment. -/
def DeployedQuery.find (d : Deployment) : DeployedQuery → List String
  | .beans q => (q.find d).map (·.id)
  | .observers q => (q.find d).map (·.id)

end AnnotationWeaver
