/-!
The four phases of a build and their order.
-/
namespace AnnotationWeaver

inductive Phase where
  | discovery | enhancement | synthesis | validation
  deriving DecidableEq, Repr

namespace Phase

/-- The phases in the order in which a build runs them. -/
def all : List Phase := [.discovery, .enhancement, .synthesis, .validation]

/-- The place of the phase among all. -/
def ordinal : Phase → Nat
  | .discovery => 0
  | .enhancement => 1
  | .synthesis => 2
  | .validation => 3

/-- The phase that comes after. -/
def next? : Phase → Option Phase
  | .discovery => some .enhancement
  | .enhancement => some .synthesis
  | .synthesis => some .validation
  | .validation => none

def label : Phase → String
  | .discovery => "discovery"
  | .enhancement => "enhancement"
  | .synthesis => "synthesis"
  | .validation => "validation"

/-- One phase runs before another. -/
def before (p q : Phase) : Bool := decide (p.ordinal < q.ordinal)

end Phase

end AnnotationWeaver
