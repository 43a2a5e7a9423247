import Statechart.Configuration

/-!
# The log of a run

What a machine reports while it runs. An `Entry` says what happened; its `record` is the form in
which it is written down: a level, a message and the fields with their values. Performing an
action may add records of its own, which stand in the log as notes.
-/

namespace Statechart.Log

inductive Level
  | trace
  | debug
  | info
  deriving DecidableEq, Repr

def Level.name : Level → String
  | .trace => "TRACE"
  | .debug => "DEBUG"
  | .info => "INFO"

structure Record where
  level : Level
  message : String
  fields : List (String × String)
  deriving DecidableEq, Repr

def Record.shownFields (record : Record) : List String :=
  record.fields.map fun (name, value) => name ++ "=" ++ value

inductive Entry
  | started (machine : String) (configuration : Configuration) (actions : Nat)
  | refused (region state event : String)
  | transition (region source target event : String)
  | firing (action : String)
  | ignored (event : String)
  | note (record : Record)
  deriving DecidableEq, Repr

def Entry.record : Entry → Record
  | .started machine configuration actions =>
    ⟨.info, "interpreter started",
      [("machine", machine), ("configuration", configuration.display),
        ("actions", toString actions)]⟩
  | .refused region state event =>
    ⟨.trace, "guard rejected every candidate",
      [("region", region), ("state", state), ("event", event)]⟩
  | .transition region source target event =>
    ⟨.debug, "transition",
      [("region", region), ("from", source), ("to", target), ("event", event)]⟩
  | .firing action => ⟨.trace, "firing action", [("action", action)]⟩
  | .ignored event => ⟨.trace, "event ignored by every region", [("event", event)]⟩
  | .note record => record

end Statechart.Log
