import Statechart.Configuration.Json
import Statechart.History
import Statechart.Timestamp.Text

/-!
# Histories as documents

A history is written with its steps and its limit, so that one which is read back goes on as the
one that was written. Nothing ties the number of steps read to the limit.
-/

namespace Statechart

open Json (Value Record Doc Problem)

namespace Timestamp

def ofDoc (doc : Doc) : Except Problem Timestamp := do
  let text ← match doc with
    | .scalar (.string spelling) => Json.faulty spelling.read
    | doc => throw (doc.reject "an RFC 3339 formatted date and time string")
  match read? text with
  | some timestamp => return timestamp
  | none => throw (.mismatch (.timestamp text))

end Timestamp

namespace Step

def toValue (step : Step) : Value :=
  .object
    [("event", .string step.event), ("from", step.before.toValue), ("to", step.after.toValue),
      ("actions", .ofTexts step.actions), ("timestamp", .string step.time.text)]

def format : Record Step where
  name := "StepRecord"
  fields :=
    [("event", fun doc step => return { step with event := ← doc.string }),
      ("from", fun doc step => return { step with before := ← Configuration.ofDoc doc }),
      ("to", fun doc step => return { step with after := ← Configuration.ofDoc doc }),
      ("actions", fun doc step => return { step with actions := ← doc.list Doc.string }),
      ("timestamp", fun doc step => return { step with time := ← Timestamp.ofDoc doc })]

def ofDoc : Doc → Except Problem Step :=
  format.read default

end Step

namespace History

def toValue (history : History) : Value :=
  .object
    [("steps", .array (history.steps.map (·.toValue))), ("limit", .ofInt history.limit)]

def greatestLimit : Nat := 18446744073709551615

def format : Record History where
  name := "StepHistory"
  fields :=
    [("steps", fun doc history => return { history with steps := ← doc.list Step.ofDoc }),
      ("limit", fun doc history =>
        return { history with limit := ← doc.natural greatestLimit "usize" })]

def ofDoc : Doc → Except Problem History :=
  format.read default

end History

end Statechart
