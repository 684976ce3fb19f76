import StreamTrace.Jdwp.Agent
import StreamTrace.Jdwp.Connection

/-!
# Links

A connection and an agent that answers at once. One call is made at a time, so the moves of the
connection follow each other in one order: the call is written, the agent's bytes arrive, and the
reader deals with them before the caller looks.
-/

namespace StreamTrace

structure Link where
  connection : Connection
  agent : Agent

namespace Link

/-- Makes a call and waits for its result. -/
def call (l : Link) (number : UInt8 × UInt8) (payload : Bytes) :
    Except JdwpError Bytes × Link :=
  let k := l.connection.calls.length
  let packet := Packet.command l.connection.nextId number payload
  let (reply, agent) := l.agent.answer packet
  let asked := [.begin number payload, .register k, .write k, .arrive reply.encode].foldl
    Connection.after l.connection
  let connection := [.collect k, .cancel k, .timeOut k].foldl Connection.after asked.readAll
  ((connection.result? k).getD (.error .timeout), { connection, agent })

def command (l : Link) (c : Command) : c.Answer × Link :=
  let (r, after) := l.call c.number (c.payload l.connection.sizes)
  (c.interpret l.connection.sizes r, after)

/-- Asks for the widths of identifiers and goes on with them. -/
def negotiate (l : Link) : Except JdwpError IdSizes × Link :=
  let (r, l) := l.call (1, 7) []
  match r.bind (IdSizes.read.decode ·) with
  | .ok sizes => (.ok sizes, { l with connection := l.connection.after (.adopt sizes) })
  | .error e => (.error e, l)

def capabilities (l : Link) : Except JdwpError (List Bool) × Link :=
  let (r, l) := l.call (1, 17) []
  (r.map readCapabilities, l)

/-- A link with an agent, once its widths of identifiers are known. -/
def connect (agent : Agent) : Except JdwpError Link := do
  let connection ← Connection.greet (.reply handshake)
  let (sizes, l) := negotiate { connection, agent }
  let _ ← sizes
  return l

/-- The agent reports events. -/
def emit (l : Link) (policy : UInt8) (events : List Event) : Link :=
  let (packet, agent) := l.agent.emit policy events
  { connection := (l.connection.after (.arrive packet.encode)).readAll, agent }

end Link

end StreamTrace
