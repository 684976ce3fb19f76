import StreamTrace.Jdwp.Error

/-!
# Failures of a trace

The causes for which a trace fails, how they are worded, and how they are told to the caller.
Writing a substituted value into the debuggee can fail in three recoverable ways, which are told
from the other refusals by their error codes.
-/

namespace StreamTrace

/-- Why the virtual machine refused to write a substituted value. -/
inductive SubstitutionFault where
  | classNotLoaded
  | incompatibleThreadState
  | invalidType
  deriving Repr, DecidableEq

namespace SubstitutionFault

def ofCode? (code : UInt16) : Option SubstitutionFault :=
  if code = ErrorCode.invalidClass ∨ code = ErrorCode.classNotPrepared then some classNotLoaded
  else if code = ErrorCode.threadNotSuspended ∨ code = ErrorCode.opaqueFrame then
    some incompatibleThreadState
  else if code = ErrorCode.typeMismatch then some invalidType
  else none

def ofError? (e : JdwpError) : Option SubstitutionFault := e.code?.bind ofCode?

def text : SubstitutionFault → String
  | classNotLoaded => "class not loaded"
  | incompatibleThreadState => "incompatible thread state"
  | invalidType => "invalid type"

end SubstitutionFault

inductive TraceError where
  | placeNotFound (call reason : String)
  | methodNotFound (name signature declaringType : String)
  | valueInstantiation (className reason : String)
  | argumentTypeMismatch (method : String)
  | incorrectValueType (expected actual : String)
  | valueInterception (text : String)
  | remoteException (method : String) (exception : Nat)
  | tracing (text : String)
  | storageReleased
  | substitution (fault : SubstitutionFault) (cause : JdwpError)
  | interpret (text : String)
  | managerClosed
  | unsupportedVm (lacking : String)
  | jdwp (cause : JdwpError)
  deriving Repr, DecidableEq

inductive ErrorCategory where
  | setupFatal
  | valueInjection
  | invariantViolation
  | substitution
  | transport
  deriving Repr, DecidableEq

def ErrorCategory.label : ErrorCategory → String
  | setupFatal => "SetupFatal"
  | valueInjection => "ValueInjection"
  | invariantViolation => "InvariantViolation"
  | substitution => "Substitution"
  | transport => "Transport"

namespace TraceError

def message : TraceError → String
  | placeNotFound call reason => s!"cannot find a place for a breakpoint on `{call}`: {reason}"
  | methodNotFound name signature declaringType =>
    s!"method `{name}{signature}` not found in `{declaringType}`"
  | valueInstantiation className reason =>
    s!"cannot instantiate a value of `{className}`: {reason}"
  | argumentTypeMismatch method => s!"argument type mismatch invoking `{method}`"
  | incorrectValueType expected actual =>
    s!"incorrect value type: expected `{expected}`, got `{actual}`"
  | valueInterception text => s!"value interception failed: {text}"
  | remoteException method exception =>
    s!"`{method}` threw an exception in the debuggee (object {exception})"
  | tracing text => text
  | storageReleased => "pinned value storage was already released"
  | substitution fault cause => s!"substitution failed ({fault.text}): {cause.message}"
  | interpret text => s!"cannot interpret trace result: {text}"
  | managerClosed => "trace manager is not running"
  | unsupportedVm lacking => s!"the debuggee cannot {lacking}"
  | jdwp cause => cause.message

def category : TraceError → ErrorCategory
  | placeNotFound _ _ => .setupFatal
  | methodNotFound _ _ _ => .setupFatal
  | unsupportedVm _ => .setupFatal
  | valueInstantiation _ _ => .valueInjection
  | argumentTypeMismatch _ => .valueInjection
  | incorrectValueType _ _ => .valueInjection
  | remoteException _ _ => .valueInjection
  | tracing _ => .valueInjection
  | interpret _ => .valueInjection
  | valueInterception _ => .invariantViolation
  | storageReleased => .invariantViolation
  | substitution _ _ => .substitution
  | managerClosed => .transport
  | jdwp _ => .transport

/-- A virtual machine that cannot make a method return early. -/
def cannotForceReturns : TraceError := unsupportedVm "force early returns"

/-- A refused write: one of the recoverable faults, or the error as it is. -/
def ofWrite (e : JdwpError) : TraceError :=
  match SubstitutionFault.ofError? e with
  | some fault => substitution fault e
  | none => jdwp e

end TraceError

/-- The kinds of failure that a caller can tell apart. -/
inductive FailureKey where
  | cannotFindPlaces
  | cannotInitializeBreakpoints
  | exceptionDuringExecution
  | cannotInterpretResult
  deriving Repr, DecidableEq

namespace FailureKey

def text : FailureKey → String
  | cannotFindPlaces => "evaluation.failed.cannot.find.places.for.breakpoints"
  | cannotInitializeBreakpoints => "evaluation.failed.cannot.initialize.breakpoints"
  | exceptionDuringExecution => "evaluation.failed.exception.occurred.during.stream.execution"
  | cannotInterpretResult => "evaluation.failed.cannot.interpret.result"

def ofError : TraceError → FailureKey
  | .placeNotFound _ _ => cannotFindPlaces
  | .interpret _ => cannotInterpretResult
  | .tracing _ => exceptionDuringExecution
  | e => match e.category with
    | .transport => exceptionDuringExecution
    | _ => cannotInitializeBreakpoints

end FailureKey

structure TraceFailure where
  key : FailureKey
  message : String
  deriving Repr, DecidableEq

namespace TraceFailure

def new (key : FailureKey) (e : TraceError) : TraceFailure := { key, message := e.message }

def ofError (e : TraceError) : TraceFailure := new (FailureKey.ofError e) e

def text (f : TraceFailure) : String := s!"{f.key.text}: {f.message}"

end TraceFailure

end StreamTrace
