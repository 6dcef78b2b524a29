import AnnotationWeaver.Extension.Callback

/-!
The plan of a build: the callbacks of all extensions, checked and put in order. A callback is fit to
run if it has exactly one phase, is public and not static, has a body, declares only known roles that
are legal in its phase and at most one query role, and has constraints exactly if it has a query role.
Within a phase explicit priorities come first, in ascending order, and equals keep the order of their
declarations.
-/
namespace AnnotationWeaver

/-- What makes a callback unfit to run. -/
inductive ConfigurationFault where
  | phaseMarkers (count : Nat)
  | modifiers
  | missingInvoker
  | unknownRole (name : String)
  | illegalRole (role : Role) (phase : Phase)
  | multipleQueryRoles (count : Nat)
  | missingConstraint (role : Role)
  | unexpectedConstraint
  deriving DecidableEq, Repr

/-- An unfit callback. -/
structure ConfigurationError where
  extension : String
  callback : String
  fault : ConfigurationFault
  deriving DecidableEq, Repr

def ConfigurationFault.message : ConfigurationFault → String
  | .phaseMarkers count => " declares " ++ toString count ++ " phase markers; exactly one is required"
  | .modifiers => " must be public and non-static"
  | .missingInvoker => " has no invoker"
  | .unknownRole name => " has parameter of unknown type " ++ name
  | .illegalRole role phase => " may not declare " ++ role.text ++ " in " ++ phase.label
  | .multipleQueryRoles count =>
    " declares " ++ toString count ++ " query parameters; at most one is allowed"
  | .missingConstraint role => " declares query parameter " ++ role.text ++ " without constraints"
  | .unexpectedConstraint => " declares constraints but no query parameter"

def ConfigurationError.message (e : ConfigurationError) : String :=
  e.extension ++ "::" ++ e.callback ++ e.fault.message

/-- The first fault of the roles, in their order. -/
def roleFault? (phase : Phase) : List Role → Option ConfigurationFault
  | [] => none
  | .unknown name :: _ => some (.unknownRole name)
  | role :: rest => if role.isLegalIn phase then roleFault? phase rest else some (.illegalRole role phase)

/-- Roles without a fault are legal in the phase. -/
theorem isLegalIn_of_roleFault? {phase : Phase} {roles : List Role} (sound : roleFault? phase roles = none) :
    ∀ role ∈ roles, role.isLegalIn phase = true := by
  fun_induction roleFault? phase roles with
  | case1 => simp
  | case2 => cases sound
  | case3 role rest _ legal ih =>
    intro other member
    rcases List.mem_cons.1 member with rfl | later
    · exact legal
    · exact ih sound other later
  | case4 => cases sound

/-- Whether query roles and constraints go together. -/
def constraintFault? (queryRoles : List Role) (constraints : List Constraint) : Option ConfigurationFault :=
  match queryRoles, constraints with
  | [], [] => none
  | [], _ :: _ => some .unexpectedConstraint
  | [role], [] => some (.missingConstraint role)
  | [_], _ :: _ => none
  | roles, _ => some (.multipleQueryRoles roles.length)

/-- The callback if it is fit to run, else its first fault. -/
def CallbackDecl.check (extension : String) (c : CallbackDecl) : Except ConfigurationFault Callback :=
  match c.phases with
  | [phase] =>
    if !c.isPublic || c.isStatic then .error .modifiers
    else
      match c.body? with
      | none => .error .missingInvoker
      | some body =>
        match sound : roleFault? phase c.roles with
        | some fault => .error fault
        | none =>
          match constraintFault? c.queryRoles c.constraints with
          | some fault => .error fault
          | none =>
            .ok ⟨extension, c.name, phase, c.priority, c.roles, c.constraints, body, isLegalIn_of_roleFault? sound⟩
  | phases => .error (.phaseMarkers phases.length)

/-- Checked callbacks in the order of their declarations. -/
structure Plan where
  callbacks : List Callback

namespace Plan

/-- One priority comes no later than another; none comes last. -/
def noLater : Option Int32 → Option Int32 → Bool
  | some x, some y => decide (x.toInt ≤ y.toInt)
  | some _, none => true
  | none, some _ => false
  | none, none => true

/-- The callbacks of a phase in the order in which they run. -/
def of (p : Plan) (phase : Phase) : List Callback :=
  (p.callbacks.filter (·.phase == phase)).mergeSort fun a b => noLater a.priority b.priority

/-- The callbacks of all phases, phase by phase. -/
def ordered (p : Plan) : List Callback := Phase.all.flatMap p.of

end Plan

/-- Checks the callbacks of an extension, one after the other. -/
def Extension.check (e : Extension) : Except ConfigurationError (List Callback) :=
  e.callbacks.mapM fun c => (c.check e.name).mapError fun fault => ⟨e.name, c.name, fault⟩

/-- The plan of all extensions, or the first unfit callback. -/
def Registry.discover (r : Registry) : Except ConfigurationError Plan := do
  return ⟨(← r.extensions.mapM (·.check)).flatten⟩

end AnnotationWeaver
