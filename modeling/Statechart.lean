import Statechart.Condition
import Statechart.Execution
import Statechart.History.Json
import Statechart.MarkIV.Json
import Statechart.MarkIV.Rig
import Statechart.Proofs.Acceptance
import Statechart.Proofs.Account.Run
import Statechart.Proofs.Balance.Run
import Statechart.Proofs.Checked
import Statechart.Proofs.Composite.Run
import Statechart.Proofs.Display
import Statechart.Proofs.Flat.Run
import Statechart.Proofs.History.Bound
import Statechart.Proofs.History.Changed
import Statechart.Proofs.History.Json
import Statechart.Proofs.History.Limit
import Statechart.Proofs.History.Run
import Statechart.Proofs.Lookup
import Statechart.Proofs.MarkIV.Event
import Statechart.Proofs.MarkIV.Observation
import Statechart.Proofs.MarkIV.Trace
import Statechart.Proofs.MarkIV.Writes
import Statechart.Proofs.Misuse
import Statechart.Proofs.Parallel
import Statechart.Proofs.Reordering.Run
import Statechart.Proofs.Shadowing.Run
