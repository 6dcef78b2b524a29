import AnnotationWeaver.Build.Outcome
import AnnotationWeaver.Json.Writer

/-!
What a build writes: classes as texts, and the service entry that announces its components. A
generator turns classes into texts and a sink takes them; both may refuse. What was written before a
refusal stays written.
-/
namespace AnnotationWeaver

/-- Turns classes into texts, or says why it does not. -/
structure Generator where
  literal : LiteralClass → Except String String
  components : ComponentsClass → Except String String

namespace Generator

/-- Writes classes as JSON. -/
def json (write : Json → String) : Generator := ⟨fun c => .ok (write c.toJson), fun c => .ok (write c.toJson)⟩

def compact : Generator := json Json.compact

def pretty : Generator := json Json.pretty

/-- Refuses to write components. -/
def withoutComponents (g : Generator) : Generator := { g with components := fun _ => .error "cannot render components" }

/-- Refuses to write any class. -/
def withoutLiterals (g : Generator) : Generator :=
  { g.withoutComponents with literal := fun c => .error ("cannot render " ++ c.name.text) }

end Generator

/-- Something to write: a class as a text, or the entry that announces who provides a service. -/
inductive Write where
  | type (name : TypeName) (text : String)
  | service (name provider : TypeName)
  deriving DecidableEq, Repr

namespace Write

def class? : Write → Option (TypeName × String)
  | .type name text => some (name, text)
  | .service _ _ => none

def service? : Write → Option (TypeName × TypeName)
  | .type _ _ => none
  | .service name provider => some (name, provider)

end Write

/-- Takes what is handed to it, or says why it does not; it may go by what it took before. -/
structure Sink where
  take : (taken : List Write) → Write → Except String Unit

namespace Sink

/-- Takes everything. -/
def accepting : Sink := ⟨fun _ _ => .ok ()⟩

/-- A text contains another. -/
def containsText (part : List Char) : List Char → Bool
  | [] => part.isEmpty
  | c :: rest => part.isPrefixOf (c :: rest) || containsText part rest

/-- Refuses the classes whose names contain a text. -/
def refusingClass (s : Sink) (part : String) : Sink where
  take := fun taken w =>
    match w with
    | .type name _ => if containsText part.toList name.chars then .error "disk full" else s.take taken w
    | .service _ _ => s.take taken w

/-- Refuses every service entry. -/
def refusingServices (s : Sink) : Sink where
  take := fun taken w =>
    match w with
    | .type _ _ => s.take taken w
    | .service _ _ => .error "registry locked"

end Sink

/-- What was handed to a sink: what it took, in order, and what it refused, if anything. -/
structure Written where
  taken : List Write
  refused? : Option Write

namespace Written

def none : Written := ⟨[], .none⟩

/-- All that was handed over; a refusal is the last. -/
def handed (w : Written) : List Write := w.taken ++ w.refused?.toList

def classes (w : Written) : List (TypeName × String) := w.taken.filterMap (·.class?)

def services (w : Written) : List (TypeName × TypeName) := w.taken.filterMap (·.service?)

end Written

/-- What announces the components of a build. -/
def componentsProvider : TypeName := ⟨"anvil.runtime.ComponentsProvider"⟩

/-- Writing: what was written is kept on failure. -/
abbrev WriteM (α : Type) : Type := ExceptT BuildError (StateM Written) α

/-- Goes on with a result, or fails to write something with a name. -/
def orFail {α : Type} (name : TypeName) (result : Except String α) : WriteM α :=
  match result with
  | .ok a => pure a
  | .error cause => throw (.output name.text cause)

namespace Sink

/-- Hands something with a name to the sink. -/
def hand (s : Sink) (name : TypeName) (write : Write) : WriteM Unit := do
  let w ← get
  match s.take w.taken write with
  | .ok () => set { w with taken := w.taken ++ [write] }
  | .error cause =>
    set { w with refused? := some write }
    throw (.output name.text cause)

/-- Writes one class. -/
def writeClass (s : Sink) (name : TypeName) (rendered : Except String String) : WriteM Unit := do
  let text ← orFail name rendered
  s.hand name (.type name text)

/-- Writes the literal classes, then the components and their service entry if there are any. -/
def writeAll (s : Sink) (g : Generator) (literals : List LiteralClass) (components : ComponentsClass) :
    WriteM Unit := do
  literals.forM fun c => s.writeClass c.name (g.literal c)
  if !components.isEmpty then
    s.writeClass components.name (g.components components)
    s.hand componentsProvider (.service componentsProvider components.name)

end Sink

end AnnotationWeaver
