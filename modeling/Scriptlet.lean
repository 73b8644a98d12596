import Scriptlet.Main
import Scriptlet.Store.Equality
import Scriptlet.Proofs.Syntax.Unfolding
import Scriptlet.Proofs.Syntax.Operand
import Scriptlet.Proofs.Syntax.FirstFault
import Scriptlet.Proofs.Syntax.Printer
import Scriptlet.Proofs.Syntax.RoundTrip
import Scriptlet.Proofs.Syntax.Soundness
import Scriptlet.Proofs.Eval.FrameLaw
import Scriptlet.Proofs.Eval.Reach
import Scriptlet.Proofs.Session.Unshared
import Scriptlet.Proofs.Session.LoopControl
import Scriptlet.Proofs.Session.Traceback
import Scriptlet.Proofs.Eval.Moved
import Scriptlet.Proofs.Store.Matching
import Scriptlet.Proofs.Session.Text
import Scriptlet.Proofs.Session.Agreement
import Scriptlet.Proofs.Session.Joined
import Scriptlet.Proofs.Eval.Provenance
import Scriptlet.Proofs.Eval.Caller
import Scriptlet.Proofs.Session.Isolated
import Scriptlet.Proofs.Syntax.Grouping
import Scriptlet.Proofs.Token.Partition
import Scriptlet.Proofs.Session.PipeMode
import Scriptlet.Proofs.Eval.Habit
import Scriptlet.Proofs.Session.Hosts
import Scriptlet.Proofs.Eval.Exact
import Scriptlet.Proofs.Session.Arithmetic
import Scriptlet.Proofs.Eval.LoopExpansion
import Scriptlet.Proofs.Source.Located
import Scriptlet.Proofs.Session.Relaid
import Scriptlet.Proofs.Session.Displayed
import Scriptlet.Proofs.Session.Dialogue
import Scriptlet.Proofs.Numeric.Power
import Scriptlet.Proofs.Eval.InPlace
import Scriptlet.Proofs.Eval.EarlyExit
import Scriptlet.Proofs.Eval.Progression
import Scriptlet.Proofs.Token.FirstProblem
import Scriptlet.Proofs.Eval.Asking
import Scriptlet.Proofs.Syntax.Ranges
import Scriptlet.Proofs.Source.Offsets
import Scriptlet.Proofs.Eval.Comparing
import Scriptlet.Proofs.Session.Copies
import Scriptlet.Proofs.Syntax.Termination
import Scriptlet.Proofs.Session.Scoping
