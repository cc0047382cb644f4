import WorldAudit.Audit.Call
import WorldAudit.Audit.Finding
import WorldAudit.Markup.Event
/-!
# Rule — a check that is fed call by call

A rule answers every call with what it has found and its next state.  It may fail as well: a failure is reported
against the record at hand, unless the rule says that its calls were out of order, which ends the run.

A rule is not shown the report.  All that a call can do to the report is to add to its end, and that is what the
findings of a reply stand for.  A rule that looked at the report too would answer the calls of any one run with some
replies, and so would a rule that has these replies for its state and gives them one by one; so whatever holds of every
run holds of the runs of such rules.  Only where two runs are compared, with other rules beside a rule, does it matter
that rules do not look: what one of them finds is then no part of what another is told.
-/
namespace WorldAudit

namespace Rule

inductive Fault where
  /-- A text that should be markup is not. -/
  | markup (fault : Markup.Fault)
  /-- Any other failure, in the rule's own words. -/
  | invalid (message : String)
  /-- The rule was called out of order. -/
  | contract (reason : String)
deriving Repr, DecidableEq

def Fault.message : Fault → String
  | .markup fault => s!"contains malformed markup ({fault.message})"
  | .invalid message => message
  | .contract reason => s!"hook contract violated: {reason}"

/-- What a rule answers: its findings are its own even if it fails. -/
structure Reply (σ : Type) where
  state : σ
  findings : List Finding := []
  fault : Option Fault := none

end Rule

structure Rule where
  State : Type
  name : String
  initial : State
  step : Context → Call → State → Rule.Reply State

/-- A rule that remembers nothing. -/
def Rule.stateless (name : String) (findings : Context → Call → List Finding × Option Rule.Fault) : Rule where
  State := Unit
  name := name
  initial := ()
  step ctx call _ := ⟨(), (findings ctx call).1, (findings ctx call).2⟩

end WorldAudit
