import Statechart.Vocabulary

/-!
# Conditions

Guards that can be written down: comparisons of an event's number with a bound that the context
holds, joined by the connectives.
-/

namespace Statechart

structure Signal where
  kind : String
  payload : Int
  deriving DecidableEq, Repr

instance : Event Signal where
  kind signal := signal.kind

namespace Condition

inductive Term
  | literal (value : Int)
  | payload
  | bound
  deriving DecidableEq, Repr

def Term.value (bound payload : Int) : Term → Int
  | .literal value => value
  | .payload => payload
  | .bound => bound

inductive Comparison
  | lt
  | le
  | eq
  | ne
  | ge
  | gt
  deriving DecidableEq, Repr

def Comparison.holds (left right : Int) : Comparison → Bool
  | .lt => left < right
  | .le => left ≤ right
  | .eq => left = right
  | .ne => left ≠ right
  | .ge => right ≤ left
  | .gt => right < left

end Condition

inductive Condition
  | const (value : Bool)
  | not (condition : Condition)
  | and (left right : Condition)
  | or (left right : Condition)
  | compare (comparison : Condition.Comparison) (left right : Condition.Term)
  deriving DecidableEq, Repr

namespace Condition

def holds (bound payload : Int) : Condition → Bool
  | const value => value
  | not condition => !condition.holds bound payload
  | and left right => left.holds bound payload && right.holds bound payload
  | or left right => left.holds bound payload || right.holds bound payload
  | compare comparison left right =>
    comparison.holds (left.value bound payload) (right.value bound payload)

def all (conditions : List Condition) : Condition :=
  conditions.foldr .and (.const true)

def any (conditions : List Condition) : Condition :=
  conditions.foldr .or (.const false)

/-- The guard that a condition describes; the context is the bound. -/
def guard (condition : Condition) : Guard Int Signal where
  check bound signal := condition.holds bound signal.payload

end Condition

end Statechart
