import Statechart.Configuration
import Statechart.Timestamp

/-!
# Histories

The processed events that are remembered, oldest first. A history at its limit forgets the
oldest step when it records another; one that was read with more steps than its limit only
grows, and one with limit zero records nothing.
-/

namespace Statechart

structure Step where
  event : String
  before : Configuration
  after : Configuration
  actions : List String
  time : Timestamp
  deriving DecidableEq, Repr, Inhabited

def Step.changed (step : Step) : Bool :=
  step.before ≠ step.after

structure History where
  steps : List Step
  limit : Nat
  deriving DecidableEq, Repr, Inhabited

namespace History

def withLimit (limit : Nat) : History :=
  ⟨[], limit⟩

def record (history : History) (step : Step) : History :=
  if history.limit = 0 then history
  else
    let kept :=
      if history.steps.length = history.limit then history.steps.tail else history.steps
    { history with steps := kept ++ [step] }

def last (history : History) : Option Step :=
  history.steps.getLast?

/-- The configurations gone through: the first one, then the one after each step that changed
something. -/
def path (history : History) : List Configuration :=
  (history.steps.head?.map (·.before)).toList ++
    (history.steps.filter (·.changed)).map (·.after)

/-- The nanoseconds from the first step to the last, unless time ran backwards. -/
def duration (history : History) : Option Nat := do
  let first ← history.steps.head?
  let last ← history.steps.getLast?
  (last.time.nanosSince first.time).toNat?

end History

end Statechart
