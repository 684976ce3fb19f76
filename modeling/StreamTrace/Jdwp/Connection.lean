import StreamTrace.Jdwp.EventPacket
import StreamTrace.Jdwp.Packet
import StreamTrace.Jdwp.Payload
import StreamTrace.Table
import StreamTrace.Text.Quoted

/-!
# Connections

The debugger's end of a connection with a virtual machine. Several callers may have calls under way
at once. A call has an identifier, stands in the table of pending calls until its reply comes, and
goes out as one packet. A single reader takes packets from the line: it hands each reply to the
pending call of that identifier, and keeps the events that are reported.

The callers, the reader, the clock and the other side all move on their own. `Connection.Move`
lists what may happen next and `Connection.move?` what becomes of the connection then, so a history
of a connection is a list of moves that were open one after the other.

A caller has the line to itself while it writes, so a write is one move. The line may refuse a
packet after it has taken some of its bytes; these stay on the line, and what is written next
follows them.
-/

namespace StreamTrace

/-! ## The handshake -/

/-- The text that both sides send before any packet. -/
def handshake : Bytes := Utf8.encode "JDWP-Handshake"

/-- How the other side takes the handshake. -/
inductive Greeting where
  /-- Nobody listens there. -/
  | unreachable
  /-- The time limit passed first. -/
  | silent
  /-- The line ended first. -/
  | cut
  /-- As many bytes as the handshake has. -/
  | reply (bytes : Bytes)
  deriving Repr, DecidableEq

/-! ## Calls -/

/-- What the reader leaves for a call. -/
inductive Delivery where
  | reply (errorCode : UInt16) (payload : Bytes)
  /-- No reply can come any more. -/
  | closed
  deriving Repr, DecidableEq

/-- What a delivery means to the caller. -/
def Delivery.result : Delivery → Except JdwpError Bytes
  | reply code payload => if code = 0 then .ok payload else .error (.vm code)
  | closed => .error .connectionClosed

inductive CallStage where
  /-- It has an identifier and nothing else. -/
  | begun
  /-- It is in the table of pending calls. -/
  | registered
  /-- Its packet was written. -/
  | waiting
  | returned (result : Except JdwpError Bytes)

namespace CallStage

def isBegun : CallStage → Bool
  | begun => true
  | _ => false

def isRegistered : CallStage → Bool
  | registered => true
  | _ => false

def isWaiting : CallStage → Bool
  | waiting => true
  | _ => false

end CallStage

structure Call where
  id : UInt32
  number : UInt8 × UInt8
  payload : Bytes
  stage : CallStage := .begun
  delivery : Option Delivery := none

def Call.packet (c : Call) : Packet := Packet.command c.id c.number c.payload

/-! ## The state of a connection -/

inductive ReaderStage where
  | reading
  /-- It has met an error and called the connection off; the pending calls do not know yet. -/
  | failing
  | finished
  deriving Repr, DecidableEq

structure Connection where
  /-- The widths of identifiers as far as they are known. -/
  sizes : IdSizes := {}
  /-- All calls, in the order in which they began. -/
  calls : List Call := []
  /-- The calls that a reply is waited for, by identifier. -/
  pending : Table UInt32 Nat := {}
  /-- The bytes that the line has taken since the handshake. -/
  sent : Bytes := []
  /-- The bytes that arrived and were not read yet. -/
  unread : Bytes := []
  /-- Whether the other side has closed the line. -/
  ended : Bool := false
  reader : ReaderStage := .reading
  /-- Whether the connection was called off, by its owner or by the reader. -/
  shutdown : Bool := false
  /-- The events that were reported, oldest first. -/
  events : List Event := []

namespace Connection

/-- The connection after a greeting. Until the widths of identifiers are known, the widest are
assumed. -/
def greet : Greeting → Except JdwpError Connection
  | .unreachable => .error .transport
  | .silent => .error .timeout
  | .cut => .error .transport
  | .reply bytes =>
    if bytes = handshake then .ok {}
    else .error (.protocol s!"invalid handshake reply: {quoted (Utf8.decodeLossy bytes)}")

/-- The identifier of the next call. They start at 1 and wrap around. -/
def nextId (c : Connection) : UInt32 := UInt32.ofNat (c.calls.length + 1)

def setCall (c : Connection) (k : Nat) (call : Call) : Connection :=
  { c with calls := c.calls.set k call }

/-- Leaves something for a call. -/
def deliver (c : Connection) (k : Nat) (d : Delivery) : Connection :=
  { c with calls := c.calls.modify k fun call => { call with delivery := some d } }

/-- Puts a call into the table. A call of the same identifier loses its place. -/
def register (c : Connection) (k : Nat) (call : Call) : Connection :=
  let c := match c.pending.get? call.id with
    | some old => c.deliver old .closed
    | none => c
  { c with pending := c.pending.set call.id k }.setCall k { call with stage := .registered }

/-- Ends a call, with its place in the table given up. -/
def giveUp (c : Connection) (k : Nat) (call : Call) (e : JdwpError) : Connection :=
  { c with pending := c.pending.erase call.id }.setCall k
    { call with stage := .returned (.error e) }

/-- The reader calls the connection off. -/
def fail (c : Connection) : Connection := { c with reader := .failing, shutdown := true }

/-- Deals with a packet from the line. A reply that nobody waits for and a command other than a
report of events are passed over; an undecodable event ends the connection. -/
def accept (c : Connection) (p : Packet) : Connection :=
  if p.isReply then
    match c.pending.get? p.id with
    | none => c
    | some k =>
      { c with pending := c.pending.erase p.id }.deliver k (.reply p.errorCode p.payload)
  else if p.isEvents then
    let (events, fault) := Event.decodePacket c.sizes p.payload
    let c := { c with events := c.events ++ events }
    match fault with
    | none => c
    | some _ => c.fail
  else c

/-- Tells all pending calls that the connection has failed. -/
def drain (c : Connection) : Connection :=
  c.pending.values.foldl (fun c k => c.deliver k .closed)
    { c with pending := {}, reader := .finished }

/-! ## Moves -/

/-- What may happen to a connection. -/
inductive Move where
  /-- A caller begins a call. -/
  | begin (number : UInt8 × UInt8) (payload : Bytes)
  /-- The caller of call `k` enters it into the table. -/
  | register (k : Nat)
  /-- The caller writes the packet. -/
  | write (k : Nat)
  /-- The line takes so many bytes of the packet and refuses the others. -/
  | refuse (k : Nat) (taken : Nat)
  /-- The caller finds what was left for it. -/
  | collect (k : Nat)
  /-- The time limit of the call passes. -/
  | timeOut (k : Nat)
  /-- The caller learns that the connection was called off. -/
  | cancel (k : Nat)
  /-- The widths of identifiers become known. -/
  | adopt (sizes : IdSizes)
  /-- Bytes arrive. -/
  | arrive (bytes : Bytes)
  /-- The other side closes the line. -/
  | close
  /-- The reader deals with the first packet, or finds that there is none to come. -/
  | read
  /-- The reader tells the pending calls of its failure. -/
  | drain
  /-- The reader learns that the connection was called off. -/
  | stop
  /-- The owner calls the connection off. -/
  | shutDown
  deriving Repr, DecidableEq

/-- Call `k`, if it is at a stage that `fits`. -/
def callAt? (c : Connection) (k : Nat) (fits : CallStage → Bool) : Option Call :=
  match c.calls[k]? with
  | some call => if fits call.stage then some call else none
  | none => none

/-- Makes a move, if it is open. -/
def move? (c : Connection) : Move → Option Connection
  | .begin number payload =>
    some { c with calls := c.calls ++ [{ id := c.nextId, number, payload }] }
  | .register k => do
    let call ← c.callAt? k CallStage.isBegun
    return c.register k call
  | .write k => do
    let call ← c.callAt? k CallStage.isRegistered
    return { c with sent := c.sent ++ call.packet.encode }.setCall k
      { call with stage := .waiting }
  | .refuse k taken => do
    let call ← c.callAt? k CallStage.isRegistered
    let bytes := call.packet.encode
    if taken < bytes.length then
      return { c with sent := c.sent ++ bytes.take taken }.giveUp k call .transport
    else none
  | .collect k => do
    let call ← c.callAt? k CallStage.isWaiting
    return c.setCall k { call with stage := .returned (← call.delivery).result }
  | .timeOut k => do
    let call ← c.callAt? k CallStage.isWaiting
    if call.delivery.isNone then return c.giveUp k call .timeout else none
  | .cancel k => do
    let call ← c.callAt? k CallStage.isWaiting
    if c.shutdown then return c.giveUp k call .cancelled else none
  | .adopt sizes => some { c with sizes }
  | .arrive bytes => if c.ended then none else some { c with unread := c.unread ++ bytes }
  | .close => some { c with ended := true }
  | .read =>
    match c.reader, Packet.split c.unread with
    | .reading, .packet p rest => some ({ c with unread := rest }.accept p)
    | .reading, .malformed => some c.fail
    | .reading, .incomplete => if c.ended then some c.fail else none
    | _, _ => none
  | .drain => if c.reader = .failing then some c.drain else none
  | .stop =>
    if c.reader = .reading ∧ c.shutdown then some { c with reader := .finished } else none
  | .shutDown => some { c with shutdown := true }

/-- A history of moves, each open when it is made. -/
def run (moves : List Move) (c : Connection) : Option Connection := moves.foldlM move? c

/-- The connection after a move, or as it was where the move is not open. -/
def after (c : Connection) (m : Move) : Connection := (c.move? m).getD c

/-! ## Commands -/

/-- How a command begins. Its payload is laid out with the widths known by then. -/
def beginCommand (c : Connection) (command : Command) : Move :=
  .begin command.number (command.payload c.sizes)

/-- The result of call `k`, once it has returned. -/
def result? (c : Connection) (k : Nat) : Option (Except JdwpError Bytes) :=
  match (c.calls[k]?).map Call.stage with
  | some (.returned r) => some r
  | _ => none

/-- Lets the reader deal with the next `n` packets, as far as they are there. -/
def readUpTo : (n : Nat) → Connection → Connection
  | 0, c => c
  | n + 1, c =>
    match c.move? .read with
    | some c => readUpTo n c
    | none => c

/-- Lets the reader deal with all that has arrived. Each packet has at least one byte. -/
def readAll (c : Connection) : Connection := (readUpTo (c.unread.length + 1) c).after .drain

end Connection

/-- What a command's result holds, read with the widths that it was sent with. -/
def Command.interpret (sizes : IdSizes) (c : Command) (r : Except JdwpError Bytes) : c.Answer :=
  match r with
  | .ok payload => (c.readReply sizes).decode payload
  | .error e => .error e

end StreamTrace
