/-!
# Timestamps

A moment in universal time, as seconds since the start of 1970 and nanoseconds within the second.
A leap second has no number of its own: it is the second before it, run on past a full second.
-/

namespace Statechart

/-- Seconds since the start of 1970, and nanoseconds; these reach past a full second only within
a leap second. -/
structure Timestamp where
  second : Int
  nano : Nat
  deriving DecidableEq, Repr, Inhabited

namespace Timestamp

def secondsPerDay : Nat := 86400

def nanosPerSecond : Nat := 1000000000

def day (timestamp : Timestamp) : Int :=
  timestamp.second.fdiv secondsPerDay

def secondOfDay (timestamp : Timestamp) : Nat :=
  (timestamp.second.fmod secondsPerDay).toNat

def isLeap (timestamp : Timestamp) : Bool :=
  timestamp.nano ≥ nanosPerSecond

/-- The time from one moment to another in nanoseconds. A leap second counts when the two times
of day stand on either side of it. -/
def nanosSince (timestamp start : Timestamp) : Int :=
  let leap : Int :=
    if start.secondOfDay < timestamp.secondOfDay then if start.isLeap then 1 else 0
    else if timestamp.secondOfDay < start.secondOfDay then if timestamp.isLeap then -1 else 0
    else 0
  (timestamp.second - start.second + leap) * nanosPerSecond + (timestamp.nano - start.nano)

end Timestamp

end Statechart
