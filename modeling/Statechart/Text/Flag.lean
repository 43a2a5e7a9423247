/-!
# Flags as text
-/

namespace Statechart.Flag

def text (value : Bool) : String :=
  if value then "true" else "false"

end Statechart.Flag
