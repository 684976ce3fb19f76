import StreamTrace.Debugger.Session

/-!
# The trace manager

Runs requested traces one after another. A manager is in one of four phases: it waits for a
request, it performs a program of its own, it waits for an event of the trace in flight, or it has
stopped. `Manager.Step` lists its steps; where several are possible, any of them may be taken.

Requests wait in two queues: in the channel in which they arrive, and among the pending ones, to
which they are moved while a trace runs. Events are only kept while a trace runs.
-/

namespace StreamTrace

/-- A chain to trace on a thread that is suspended in front of it. The order in which the trace
will hand out its pins belongs to the request, so that every trace of a manager has its own. -/
structure TraceRequest where
  chain : StreamChain
  thread : ThreadId
  order : Arrangement := .kept

/-- A trace that waits for an event. -/
structure ActiveTrace where
  plan : TracePlan
  state : SessionState

/-- What comes after a program of the manager. -/
inductive Continuation where
  | finished
  | listen (t : ActiveTrace)

/-! ## The programs of a trace -/

namespace ActiveTrace

open TracePlan

def fail (expression : String) (failure : TraceFailure) : Program Unit := do
  let _ ← Program.perform (.publish .failed)
  let _ ← Program.perform (.deliver (.failed expression failure))
  return ()

/-- Ends a trace in failure: it is taken back, the failure is delivered, and the pinned objects
are released. -/
def giveUp (t : ActiveTrace) (failure : TraceFailure) : Program Continuation := do
  let (_, state) ← (t.plan.takeBack : Routine Unit SessionState Unit) t.state
  fail t.plan.chain.text failure
  let _ ← (dispose : Routine Unit SessionState Unit) state
  return .finished

/-- Ends a trace with its result. -/
def succeed (t : ActiveTrace) (finished : Finished) : Program Continuation := do
  let _ ← Program.perform (.publish .completed)
  let _ ← Program.perform (.deliver (.evaluated finished.1 finished.2))
  let _ ← (dispose : Routine Unit SessionState Unit) t.state
  return .finished

/-- Begins a requested trace. -/
def start (options : TraceOptions) (request : TraceRequest) : Program Continuation := do
  let begun : Except TraceError TracePlan × Unit ←
    (TracePlan.begin options request.chain request.thread : Routine TraceError Unit TracePlan) ()
  match begun.1 with
  | .error e =>
    fail request.chain.text (TraceFailure.new .cannotInitializeBreakpoints e)
    return .finished
  | .ok plan =>
    let (result, state) ← plan.setup (.start request.order)
    let t : ActiveTrace := { plan, state }
    match result with
    | .ok () => return .listen t
    | .error failure => t.giveUp failure

/-- Goes on with an event. -/
def onEvent (t : ActiveTrace) (e : Event) : Program Continuation := do
  let (result, state) ← t.plan.onEvent e t.state
  let t : ActiveTrace := { t with state }
  match result with
  | .ok none => return .listen t
  | .ok (some finished) => t.succeed finished
  | .error failure => t.giveUp failure

def shutDownFailure : TraceFailure :=
  { key := .exceptionDuringExecution, message := "trace manager shut down" }

def streamClosedFailure : TraceFailure :=
  { key := .exceptionDuringExecution, message := "JDWP event stream closed" }

end ActiveTrace

/-! ## The manager -/

inductive Phase where
  | idle
  | working (p : Program Continuation)
  | listening (t : ActiveTrace)
  | stopped

structure Manager where
  options : TraceOptions
  phase : Phase := .idle
  /-- Requests that arrived and were not looked at yet. -/
  channel : List TraceRequest := []
  /-- Whether requests can still arrive. -/
  channelOpen : Bool := true
  /-- Whether the manager still looks at the channel. -/
  reading : Bool := true
  /-- Requests that arrived while a trace ran. -/
  pending : List TraceRequest := []
  shutdown : Bool := false
  /-- Events since the trace in flight began. -/
  inbox : List Event := []
  /-- Whether events can still arrive. -/
  eventsOpen : Bool := true

namespace Manager

/-- Queues a request, unless the manager has stopped. -/
def request (m : Manager) (r : TraceRequest) : Except TraceError Manager :=
  match m.phase with
  | .stopped => .error .managerClosed
  | _ => .ok { m with channel := m.channel ++ [r] }

def requestShutdown (m : Manager) : Manager := { m with shutdown := true }

/-- The handle through which requests arrive is gone. -/
def closeChannel (m : Manager) : Manager := { m with channelOpen := false }

/-- An event of the debuggee. Between two traces nobody listens. -/
def notify (m : Manager) (e : Event) : Manager :=
  match m.phase with
  | .working _ => { m with inbox := m.inbox ++ [e] }
  | .listening _ => { m with inbox := m.inbox ++ [e] }
  | .idle => m
  | .stopped => m

def start (m : Manager) (r : TraceRequest) : Manager :=
  { m with phase := .working (ActiveTrace.start m.options r), inbox := [] }

/-- What a step of the manager is about. -/
inductive Choice where
  /-- Begin with the first pending request. -/
  | resume
  /-- Begin with the first request of the channel. -/
  | receive
  /-- Stop. -/
  | stop
  /-- Move on once a program has ended. -/
  | conclude
  /-- Put the first request of the channel behind the running trace. -/
  | queue
  /-- Note that the channel is closed. -/
  | close
  /-- Handle the first event. -/
  | event
  /-- Give the running trace up, because of a shutdown. -/
  | cancel
  /-- Give the running trace up, because no event can come any more. -/
  | lose
  deriving Repr, DecidableEq

/-- Makes a choice, if it is open now. -/
def choose (m : Manager) : Choice → Option Manager
  | .resume =>
    match m.phase, m.pending with
    | .idle, r :: rest => some ({ m with pending := rest }.start r)
    | _, _ => none
  | .receive =>
    match m.phase, m.pending, m.reading, m.channel with
    | .idle, [], true, r :: rest => some ({ m with channel := rest }.start r)
    | _, _, _, _ => none
  | .stop =>
    match m.phase, m.pending with
    | .idle, [] =>
      if ¬m.reading ∨ m.shutdown ∨ (m.channel.isEmpty ∧ ¬m.channelOpen) then
        some { m with phase := .stopped }
      else none
    | _, _ => none
  | .conclude =>
    match m.phase with
    | .working (.done .finished) =>
      some { m with phase := if m.shutdown then .stopped else .idle, inbox := [] }
    | .working (.done (.listen t)) => some { m with phase := .listening t }
    | _ => none
  | .queue =>
    match m.phase, m.reading, m.channel with
    | .listening _, true, r :: rest =>
      some { m with channel := rest, pending := m.pending ++ [r] }
    | _, _, _ => none
  | .close =>
    match m.phase, m.reading, m.channel, m.channelOpen with
    | .listening _, true, [], false => some { m with reading := false }
    | _, _, _, _ => none
  | .event =>
    match m.phase, m.inbox with
    | .listening t, e :: rest => some { m with phase := .working (t.onEvent e), inbox := rest }
    | _, _ => none
  | .cancel =>
    match m.phase, m.shutdown with
    | .listening t, true =>
      some { m with phase := .working (t.giveUp ActiveTrace.shutDownFailure) }
    | _, _ => none
  | .lose =>
    match m.phase, m.inbox, m.eventsOpen with
    | .listening t, [], false =>
      some { m with phase := .working (t.giveUp ActiveTrace.streamClosedFailure) }
    | _, _, _ => none

/-- What happens to a manager: it chooses, it performs the next action of its program and gets the
reply, or the world changes one of its queues. -/
inductive Step : Manager → Manager → Prop where
  | choice {m m' : Manager} (c : Choice) (h : m.choose c = some m') : Step m m'
  | action {m : Manager} (a : Action) (next : a.Reply → Program Continuation) (r : a.Reply)
      (h : m.phase = .working (.act a next)) : Step m { m with phase := .working (next r) }
  | request {m m' : Manager} (r : TraceRequest) (h : m.request r = .ok m') : Step m m'
  | shutdown {m : Manager} : Step m m.requestShutdown
  | closeChannel {m : Manager} : Step m m.closeChannel
  | event {m : Manager} (e : Event) : Step m (m.notify e)
  | eventsEnd {m : Manager} : Step m { m with eventsOpen := false }

/-- The order in which a manager on its own looks at its choices. -/
def preferred : List Choice :=
  [.conclude, .cancel, .event, .queue, .close, .lose, .stop, .resume, .receive]

/-- The first preferred choice that is open. -/
def next? (m : Manager) : Option Manager := preferred.findSome? m.choose

/-- The description of the manager when it has published this state. -/
def describe (m : Manager) (s : TraceState) : String := s.describeManager m.shutdown

end Manager

end StreamTrace
