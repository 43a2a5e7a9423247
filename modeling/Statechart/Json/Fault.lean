/-!
# Faults in a text

Where a text stops being a document. A fault is found by the characters alone, before it is known
what the document is read as.
-/

namespace Statechart.Json

inductive Fault
  | malformed
  | truncated
  | truncatedWord
  | truncatedNumber
  deriving DecidableEq, Repr

namespace Fault

def isTruncation : Fault → Bool
  | malformed => false
  | truncated | truncatedWord | truncatedNumber => true

/-- The same for whoever passes over the value: a number cut short is then malformed. -/
def isTruncationSkimmed : Fault → Bool
  | malformed | truncatedNumber => false
  | truncated | truncatedWord => true

end Fault

end Statechart.Json
