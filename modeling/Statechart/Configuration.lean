import Statechart.Dotted

/-!
# Configurations

A configuration says which states are active: for every top-level region the ids of the active
states, outermost first. Ids are kept as they are, so two regions may share an id and an id may
hold a dot; equality of configurations compares the ids and not the text shown for them.
-/

namespace Statechart

structure ActivePath where
  region : String
  states : List String
  deriving DecidableEq, Repr, Inhabited

namespace ActivePath

def dotted (path : ActivePath) : String :=
  Dotted.ofIds path.states

def leaf (path : ActivePath) : Option String :=
  path.states.getLast?

end ActivePath

structure Configuration where
  regions : List ActivePath
  deriving DecidableEq, Repr, Inhabited

namespace Configuration

def active (configuration : Configuration) (region : String) : Option (List String) :=
  (configuration.regions.find? (·.region == region)).map (·.states)

/-- Whether some region is in the state that a dotted path names, counted from its top. -/
def isIn (configuration : Configuration) (path : String) : Bool :=
  configuration.regions.any fun active => (Dotted.ids path).isPrefixOf active.states

def leaves (configuration : Configuration) : List String :=
  configuration.regions.map (·.dotted)

def display (configuration : Configuration) : String :=
  "\x7b" ++ ", ".intercalate configuration.leaves ++ "\x7d"

end Configuration

end Statechart
