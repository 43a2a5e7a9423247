/-!
# Violations

What can be wrong with a declaration. A region is named by its dotted path: the id of the
top-level region, then the ids of the composite states on the way down.
-/

namespace Statechart

inductive Violation
  | noRegions (machine : String)
  | emptyRegion (region : String)
  | missingInitial (region : String)
  | unknownInitial (region initial : String)
  | duplicateState (region state : String)
  | unknownTarget (region state event target : String)
  deriving DecidableEq, Repr

namespace Violation

def message : Violation → String
  | noRegions machine => "Machine '" ++ machine ++ "' declares no regions"
  | emptyRegion region => "Region '" ++ region ++ "' declares no states"
  | missingInitial region =>
    "Region '" ++ region ++ "' has no initial state. Call .initial(id) on its builder"
  | unknownInitial region initial =>
    "Region '" ++ region ++ "' names unknown initial state '" ++ initial ++ "'"
  | duplicateState region state =>
    "State '" ++ state ++ "' is declared more than once in region '" ++ region ++ "'"
  | unknownTarget region state event target =>
    "Transition on '" ++ event ++ "' from '" ++ state ++ "' targets unknown state '" ++
      target ++ "' in region '" ++ region ++ "'"

end Violation

/-- Everything wrong with a declaration, in the order in which it is written down. -/
structure InvalidDefinition where
  violations : List Violation
  deriving DecidableEq, Repr

def InvalidDefinition.message (invalid : InvalidDefinition) : String :=
  "Invalid machine definition: " ++ "; ".intercalate (invalid.violations.map (·.message))

end Statechart
