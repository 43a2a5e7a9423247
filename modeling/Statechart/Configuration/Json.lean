import Statechart.Configuration
import Statechart.Json.Record

/-!
# Configurations as documents
-/

namespace Statechart

open Json (Value Record Doc Problem)

namespace ActivePath

def toValue (path : ActivePath) : Value :=
  .object [("region", .string path.region), ("states", .ofTexts path.states)]

def format : Record ActivePath where
  name := "RegionPath"
  fields :=
    [("region", fun doc path => return { path with region := ← doc.string }),
      ("states", fun doc path => return { path with states := ← doc.list Doc.string })]

def ofDoc : Doc → Except Problem ActivePath :=
  format.read default

end ActivePath

namespace Configuration

def toValue (configuration : Configuration) : Value :=
  .object [("regions", .array (configuration.regions.map (·.toValue)))]

def format : Record Configuration where
  name := "Configuration"
  fields :=
    [("regions", fun doc configuration =>
      return { configuration with regions := ← doc.list ActivePath.ofDoc })]

def ofDoc : Doc → Except Problem Configuration :=
  format.read default

end Configuration

end Statechart
