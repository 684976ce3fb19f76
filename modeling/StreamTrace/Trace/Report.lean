import StreamTrace.Trace.Value
import StreamTrace.Trace.Error

/-!
# Progress and reports

What an observer of the tracer sees while it works: the state it publishes, and the reports that
it delivers for each requested trace.
-/

namespace StreamTrace

inductive TraceState where
  | idle
  | placingBreakpoints
  /-- The stream in the source variable is being replaced. -/
  | awaitingQualifierReplacement
  /-- The entry or the exit of this stage is awaited. -/
  | stageActive (stage : Nat)
  /-- The chain has ended; the thread is on its way back to the invoking frame. -/
  | completing
  | completed
  | failed
  deriving Repr, DecidableEq, Inhabited

namespace TraceState

def text : TraceState → String
  | idle => "idle"
  | placingBreakpoints => "placing breakpoints"
  | awaitingQualifierReplacement => "awaiting qualifier replacement"
  | stageActive stage => s!"stage {stage} active"
  | completing => "completing"
  | completed => "completed"
  | failed => "failed"

/-- The name of the state in the description of a manager. -/
def label : TraceState → String
  | idle => "Idle"
  | placingBreakpoints => "PlacingBreakpoints"
  | awaitingQualifierReplacement => "AwaitingQualifierReplacement"
  | stageActive stage => s!"StageActive({stage})"
  | completing => "Completing"
  | completed => "Completed"
  | failed => "Failed"

/-- The description of a manager in this state. -/
def describeManager (s : TraceState) (stopped : Bool) : String :=
  s!"TraceManager \x7b state: {s.label}, stopped: {stopped}, .. \x7d"

end TraceState

/-- Where a chain was evaluated: the thread, and the invoking frame's place when it began. -/
structure EvaluationContext where
  thread : ThreadId
  location : Location
  deriving Repr, DecidableEq

inductive Report where
  | evaluated (trace : ChainTrace) (context : EvaluationContext)
  | failed (expression : String) (failure : TraceFailure)
  /-- A refused write with which the trace goes on. -/
  | setupFailed (message : String)
  deriving Repr, DecidableEq

/-- Whether the report is the last one of its trace. -/
def Report.isFinal : Report → Bool
  | evaluated _ _ => true
  | failed _ _ => true
  | setupFailed _ => false

end StreamTrace
