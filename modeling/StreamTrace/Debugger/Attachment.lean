import StreamTrace.Debugger.Manager
import StreamTrace.Jdwp.Link

/-!
# Attachments

A trace manager that drives a connection. Its commands are calls on the connection, and what the
connection reports are its events. Manager and connection move on their own; `Attachment.Move`
lists their moves.

A manager hears of the end of events only when nobody can hand on events any more. It holds the
connection itself, so that never happens to an attached manager, even when the line has ended.
-/

namespace StreamTrace

structure Attachment where
  connection : Connection
  manager : Manager
  /-- The call that the manager's program waits for, with the widths it was sent with. -/
  call : Option (Nat × IdSizes) := none
  /-- The state that the manager published last. -/
  published : TraceState := .idle
  reports : List Report := []

namespace Attachment

/-- What may happen to a manager and its connection. -/
inductive Move where
  | connection (m : Connection.Move)
  | manager (c : Manager.Choice)
  /-- The manager's program begins a command. -/
  | send
  /-- The manager's program gets the result of its command. -/
  | hear
  /-- The manager's program publishes or reports something. -/
  | tell
  /-- The manager's program looks at the clock. -/
  | clock (now : Nat)
  | request (r : TraceRequest)
  | shutDown
  /-- No request can come any more. -/
  | closeChannel

/-- The next action of the manager's program. -/
def nextAction? (a : Attachment) : Option ((x : Action) × (x.Reply → Program Continuation)) :=
  match a.manager.phase with
  | .working (.act x next) => some ⟨x, next⟩
  | _ => none

def proceed (a : Attachment) (p : Program Continuation) : Attachment :=
  { a with manager := { a.manager with phase := .working p } }

/-- Goes on with another connection; the manager hears of the events that are new. -/
def withConnection (a : Attachment) (c : Connection) : Attachment :=
  { a with
    connection := c
    manager := (c.events.drop a.connection.events.length).foldl Manager.notify a.manager }

/-- Makes a move, if it is open. -/
def move? (a : Attachment) : Move → Option Attachment
  | .connection m => do return a.withConnection (← a.connection.move? m)
  | .manager c => do return { a with manager := ← a.manager.choose c }
  | .send =>
    match a.call, a.nextAction? with
    | none, some ⟨.command c, _⟩ =>
      some { a with
        connection := a.connection.after (a.connection.beginCommand c)
        call := some (a.connection.calls.length, a.connection.sizes) }
    | _, _ => none
  | .hear =>
    match a.call, a.nextAction? with
    | some (k, sizes), some ⟨.command c, next⟩ => do
      let r ← a.connection.result? k
      return { a with call := none }.proceed (next (c.interpret sizes r))
    | _, _ => none
  | .tell =>
    match a.nextAction? with
    | some ⟨.publish s, next⟩ => some ({ a with published := s }.proceed (next ()))
    | some ⟨.deliver r, next⟩ => some ({ a with reports := a.reports ++ [r] }.proceed (next ()))
    | _ => none
  | .clock now =>
    match a.nextAction? with
    | some ⟨.clock, next⟩ => some (a.proceed (next now))
    | _ => none
  | .request r => do return { a with manager := ← (a.manager.request r).toOption }
  | .shutDown => some { a with manager := a.manager.requestShutdown }
  | .closeChannel => some { a with manager := a.manager.closeChannel }

/-- A history of moves, each open when it is made. -/
def run (moves : List Move) (a : Attachment) : Option Attachment := moves.foldlM move? a

end Attachment

/-- Whether the values that methods return can be replaced, which every stage of a trace needs. -/
def canForceReturns (capabilities : List Bool) : Bool :=
  capabilities[forceReturnCapability]?.getD false

namespace Link

/-- Attaches a manager to an agent that can do what traces need. -/
def attach (agent : Agent) (settings : TraceSettings) (classFiles : ClassFiles) :
    Except TraceError Attachment := do
  let l ← (connect agent).mapError TraceError.jdwp
  let (r, l) := l.capabilities
  let capabilities ← r.mapError TraceError.jdwp
  if canForceReturns capabilities then
    return { connection := l.connection, manager := { options := { settings, classFiles } } }
  else throw .cannotForceReturns

end Link

end StreamTrace
