import StreamTrace.Jdwp.Packet
import StreamTrace.Jdwp.EventPacket
import StreamTrace.Jdwp.ReplyEncoding
import StreamTrace.Table

/-!
# Scripted agents

The other end of a connection, as far as a test needs it. An agent announces its widths of
identifiers and its capabilities, numbers the event requests, and resumes whatever it is asked to.
All other commands are answered as was arranged, or refused as not implemented.
-/

namespace StreamTrace

structure Agent where
  sizes : IdSizes := {}
  capabilities : List Bool := List.replicate 32 true
  /-- The arranged replies, by command: an error code and a payload. -/
  replies : Table (UInt8 × UInt8) (UInt16 × Bytes) := {}
  nextRequest : Nat := 1
  /-- The identifier of the next packet that the agent sends on its own. -/
  nextPacket : UInt32 := 0x40000000
  /-- The commands that came, oldest first. -/
  received : List Packet := []

namespace Agent

/-- Arranges the reply to all further commands of that number. -/
def arrange (a : Agent) (number : UInt8 × UInt8) (errorCode : UInt16) (payload : Bytes) : Agent :=
  { a with replies := a.replies.set number (errorCode, payload) }

/-- Arranges what comes back for commands like `c`. -/
def arrangeReply (a : Agent) (c : Command) (r : c.Reply) : Agent :=
  a.arrange c.number 0 (c.encodeReply a.sizes r)

/-- The error code and the payload that answer a command, and the agent after it. -/
def respond (a : Agent) (number : UInt8 × UInt8) (payload : Bytes) : (UInt16 × Bytes) × Agent :=
  match a.replies.get? number with
  | some r => (r, a)
  | none =>
    match number with
    | (1, 7) => ((0, a.sizes.encode), a)
    | (1, 17) => ((0, a.capabilities.flatMap Encode.bool), a)
    | (15, 1) =>
      if payload.isEmpty then ((ErrorCode.invalidLength, []), a)
      else ((0, Encode.i32 a.nextRequest), { a with nextRequest := a.nextRequest + 1 })
    | (1, 8) | (1, 9) | (11, 3) | (15, 2) => ((0, []), a)
    | _ => ((ErrorCode.notImplemented, []), a)

/-- The reply to a command packet. -/
def answer (a : Agent) (p : Packet) : Packet × Agent :=
  let ((code, payload), a) := a.respond (p.first, p.second) p.payload
  (Packet.reply p.id code payload, { a with received := a.received ++ [p] })

/-- A packet that reports events. -/
def emit (a : Agent) (policy : UInt8) (events : List Event) : Packet × Agent :=
  (Packet.command a.nextPacket (64, 100) (Event.encodePacket a.sizes policy events),
    { a with nextPacket := a.nextPacket + 1 })

end Agent

end StreamTrace
