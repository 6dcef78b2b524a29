import AnnotationWeaver.Key
import AnnotationWeaver.Wire.Encode

/-!
Messages that extensions report, each with a level and perhaps with what it is about.
-/
namespace AnnotationWeaver

inductive Level where
  | info | warning | error
  deriving DecidableEq, Repr

namespace Level

def all : List Level := [.info, .warning, .error]

def label : Level → String
  | .info => "info"
  | .warning => "warning"
  | .error => "error"

def severity : Level → Nat
  | .info => 0
  | .warning => 1
  | .error => 2

/-- As severe as another level, or more. -/
def reaches (l least : Level) : Bool := decide (least.severity ≤ l.severity)

end Level

/-- What a message is about. -/
inductive MessageContext where
  | declaration (key : DeclKey)
  | bean (id : String)
  | observer (id : String)
  deriving DecidableEq, Repr

structure Message where
  level : Level
  text : String
  context : Option MessageContext
  deriving DecidableEq, Repr

namespace MessageContext

def text : MessageContext → String
  | .declaration key => key.text
  | .bean id => "bean " ++ id
  | .observer id => "observer " ++ id

def toJson : MessageContext → Json
  | .declaration key => .tagged "kind" "declaration" "id" key.toJson
  | .bean id => .tagged "kind" "bean" "id" (.str id)
  | .observer id => .tagged "kind" "observer" "id" (.str id)

end MessageContext

namespace Message

/-- The text with what it is about in parentheses. -/
def shown (m : Message) : String :=
  match m.context with
  | some c => m.text ++ " (" ++ c.text ++ ")"
  | none => m.text

def toJson (m : Message) : Json :=
  .object [("level", .str m.level.label), ("text", .str m.text), ("context", .option MessageContext.toJson m.context)]

/-- The messages of a level or above. -/
def atLeast (least : Level) (messages : List Message) : List Message :=
  messages.filter (·.level.reaches least)

end Message

end AnnotationWeaver
