/-!
# Protocol errors

Why a debug command failed. An error code is the virtual machine's own refusal; the other causes
lie in the connection.
-/

namespace StreamTrace

/-! Error codes of the virtual machine. -/
namespace ErrorCode

def invalidThread : UInt16 := 10
def threadNotSuspended : UInt16 := 13
def invalidObject : UInt16 := 20
def invalidClass : UInt16 := 21
def classNotPrepared : UInt16 := 22
def invalidMethod : UInt16 := 23
def invalidFrame : UInt16 := 30
def opaqueFrame : UInt16 := 32
def typeMismatch : UInt16 := 34
def invalidSlot : UInt16 := 35
def notFound : UInt16 := 41
def notImplemented : UInt16 := 99
def absentInformation : UInt16 := 101
def invalidIndex : UInt16 := 503
def invalidLength : UInt16 := 504

/-- The codes that are reported by name. -/
def names : List (UInt16 × String) :=
  [(invalidThread, "INVALID_THREAD"), (threadNotSuspended, "THREAD_NOT_SUSPENDED"),
    (invalidObject, "INVALID_OBJECT"), (invalidClass, "INVALID_CLASS"),
    (classNotPrepared, "CLASS_NOT_PREPARED"), (invalidMethod, "INVALID_METHODID"),
    (invalidFrame, "INVALID_FRAMEID"), (opaqueFrame, "OPAQUE_FRAME"),
    (typeMismatch, "TYPE_MISMATCH"), (invalidSlot, "INVALID_SLOT"), (notFound, "NOT_FOUND"),
    (notImplemented, "NOT_IMPLEMENTED"), (invalidIndex, "INVALID_INDEX"),
    (invalidLength, "INVALID_LENGTH")]

def name (code : UInt16) : String :=
  match names.find? (·.1 == code) with
  | some (_, name) => name
  | none => "UNKNOWN"

end ErrorCode

inductive JdwpError where
  /-- The operating system failed to read or write. -/
  | transport
  | protocol (text : String)
  | timeout
  | cancelled
  | connectionClosed
  | vm (code : UInt16)
  deriving Repr, DecidableEq, Inhabited

namespace JdwpError

def code? : JdwpError → Option UInt16
  | vm code => some code
  | _ => none

def message : JdwpError → String
  | transport => "input or output failed"
  | protocol text => s!"JDWP protocol error: {text}"
  | timeout => "timed out waiting for JDWP reply"
  | cancelled => "JDWP request cancelled"
  | connectionClosed => "JDWP connection closed"
  | vm code => s!"JDWP command failed with error code {code} ({ErrorCode.name code})"

end JdwpError

end StreamTrace
