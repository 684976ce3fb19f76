import StreamTrace.Debugger.Manager
import StreamTrace.Machine.StreamProgram
import StreamTrace.Machine.Answer
import StreamTrace.Jdwp.Payload

/-!
# A debuggee under a debugger

The simulated virtual machine together with its thread, a trace manager, and a record of what
happens between them. Commands reach the machine through `World.command`, which may answer some of
them itself; so a test can have any command fail.

The thread and the manager take turns: `settle` lets the manager go on until it waits, then the
thread until it stops, and so on until neither can move. Time stands still meanwhile.
-/

namespace StreamTrace

/-- What was seen between debugger and debuggee. -/
inductive LogEntry where
  | command (c : Command)
  /-- The manager had published a new state before the next command. -/
  | state (s : TraceState)
  deriving Repr, DecidableEq

/-- Answers in place of the machine to the `n`-th command of a kind, counted from 1. -/
abbrev Interception := (c : Command) → (n : Nat) → Option c.Answer

structure World where
  vm : Vm
  /-- What the thread does once it is resumed; nothing when it has ended. -/
  thread : Option (Vm → Run Unit)
  intercept : Interception := fun _ _ => none
  /-- How many commands of each kind were sent. -/
  sent : Table (UInt8 × UInt8) Nat := {}
  manager : Option Manager := none
  /-- The state that the manager published last. -/
  published : TraceState := .idle
  /-- The state in the log's last entry of that kind. -/
  logged : Option TraceState := none
  /-- Commands and states, oldest first. -/
  log : List LogEntry := []
  reports : List Report := []
  /-- The events of the machine, oldest first. -/
  events : List Event := []
  now : Nat := 0

namespace World

/-- The debuggee of a program, without a debugger. -/
def launch (p : StreamProgram) (intercept : Interception := fun _ _ => none) : World :=
  match p.launch with
  | .ended () vm => { vm, thread := none, intercept }
  | .waiting vm resume => { vm, thread := some resume, intercept }

/-! ## Events -/

def notify (w : World) (e : Event) : World :=
  { w with events := w.events ++ [e], manager := w.manager.map (·.notify e) }

/-- Hands on the events that the machine has raised. -/
def collect (w : World) : World :=
  w.vm.outbox.foldl notify { w with vm := { w.vm with outbox := [] } }

/-! ## Actions -/

/-- Enters the state of the manager into the log, if it is new. -/
def logState (w : World) : World :=
  if w.manager.isNone ∨ w.logged = some w.published then w
  else { w with logged := some w.published, log := w.log ++ [.state w.published] }

/-- How many commands of the kind of `c` were sent. -/
def sentCount (w : World) (c : Command) : Nat := (w.sent.get? c.number).getD 0

/-- Enters a command into the log. -/
def logCommand (w : World) (c : Command) : World :=
  let w := w.logState
  { w with
    log := w.log ++ [.command c]
    sent := w.sent.set c.number (w.sentCount c + 1) }

/-- Answers a command. -/
def command (w : World) (c : Command) : c.Answer × World :=
  let w := w.logCommand c
  match w.intercept c (w.sentCount c) with
  | some r => (r, w)
  | none =>
    let (r, vm) := w.vm.answer c
    (r, { w with vm }.collect)

def perform (w : World) : (a : Action) → a.Reply × World
  | .command c => w.command c
  | .publish s => ((), { w with published := s })
  | .deliver r => ((), { w with reports := w.reports ++ [r] })
  | .clock => (w.now, w)

/-- Performs a routine that is not the manager's. -/
def runRoutine {ε σ α : Type} (w : World) (t : Routine ε σ α) (s : σ) :
    (Except ε α × σ) × World :=
  Program.run perform (t s) w

/-! ## Taking turns -/

/-- Performs the manager's program. -/
def work (w : World) : World :=
  match w.manager with
  | none => w
  | some m =>
    match m.phase with
    | .working p =>
      let (k, w) := Program.run perform p w
      { w with manager := w.manager.map fun m => { m with phase := .working (.done k) } }
    | _ => w

/-- Lets the manager take so many steps, until it waits. -/
def manage : (steps : Nat) → World → World
  | 0, w => w
  | steps + 1, w =>
    let w := w.work
    match w.manager.bind Manager.next? with
    | none => w
    | some m => manage steps { w with manager := some m }

/-- A bound on the steps that a manager takes before it waits: no more than three for a request
and two for an event. -/
def stepBound (m : Manager) : Nat :=
  4 * (m.channel.length + m.pending.length + m.inbox.length) + 16

/-- Lets the manager go on until it waits. -/
def manageAll (w : World) : World :=
  match w.manager with
  | none => w
  | some m => manage (stepBound m) w

/-- Whether a waiting thread can go on. -/
def released (w : World) : Bool := w.vm.dead || !w.vm.suspended

/-- Goes on from where the thread has come to, until neither it nor the manager can move. -/
def settleAt : Run Unit → World → World
  | .ended () vm, w => manageAll { w with vm, thread := none }.collect
  | .waiting vm resume, w =>
    let w := manageAll { w with vm, thread := some resume }.collect
    if w.released then settleAt (resume w.vm) w else w

/-- Lets manager and thread take turns until neither can move. -/
def settle (w : World) : World :=
  let w := manageAll w
  match w.thread with
  | none => w
  | some resume => if w.released then settleAt (resume w.vm) w else w

/-! ## The manager -/

/-- Starts a manager that waits for requests. -/
def startManager (w : World) (options : TraceOptions) : World :=
  { w with manager := some { options }, published := .idle, logged := none }

/-- Queues a request. -/
def request (w : World) (r : TraceRequest) : Except TraceError World :=
  match w.manager with
  | none => .error .managerClosed
  | some m => do
    let m ← m.request r
    return { w with manager := some m }

/-- Asks the manager to stop, and waits until it has. -/
def shutdown (w : World) : World :=
  let w := settle { w with manager := w.manager.map (·.requestShutdown) }
  { w with manager := none }

/-- Takes the log out. -/
def takeLog (w : World) : List LogEntry × World := (w.log, { w with log := [] })

def takeReports (w : World) : List Report × World := (w.reports, { w with reports := [] })

def takeEvents (w : World) : List Event × World := (w.events, { w with events := [] })

end World

end StreamTrace
