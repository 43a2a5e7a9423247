import Statechart.Json.Fault

/-!
# Problems

Why a text is not what it is read as: it is no document at all, or the document holds something
else. The messages name what was found and what was expected.
-/

namespace Statechart.Json

inductive Mismatch
  | type (found expected : String)
  | value (found expected : String)
  | length (count : Nat) (expected : String)
  | variant (name : String) (known : List String)
  | duplicateField (name : String)
  | missingField (name : String)
  | timestamp (text : String)
  deriving DecidableEq, Repr

namespace Mismatch

def ticked (name : String) : String :=
  "`" ++ name ++ "`"

def message : Mismatch → String
  | type found expected => "invalid type: " ++ found ++ ", expected " ++ expected
  | value found expected => "invalid value: " ++ found ++ ", expected " ++ expected
  | length count expected => "invalid length " ++ toString count ++ ", expected " ++ expected
  | variant name known =>
    "unknown variant " ++ ticked name ++ ", expected one of " ++
      ", ".intercalate (known.map ticked)
  | duplicateField name => "duplicate field " ++ ticked name
  | missingField name => "missing field " ++ ticked name
  | timestamp text => "invalid timestamp " ++ ticked text

end Mismatch

inductive Problem
  | malformed
  | truncated
  | mismatch (mismatch : Mismatch)
  deriving DecidableEq, Repr

namespace Problem

def ofFault (fault : Fault) : Problem :=
  if fault.isTruncation then .truncated else .malformed

/-- A fault as it is met in passing over a value. -/
def ofSkimmed (fault : Fault) : Problem :=
  if fault.isTruncationSkimmed then .truncated else .malformed

end Problem

end Statechart.Json
