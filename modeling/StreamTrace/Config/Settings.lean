import StreamTrace.Json.Record

/-!
# Settings

The settings of the tracer with their defaults.
-/

namespace StreamTrace

structure LoggingSettings where
  /-- A level, or the directives of a log filter. -/
  level : String := "info"
  json : Bool := false
  stderr : Bool := true
  /-- The file that log lines are appended to. -/
  file : Option String := none
  deriving Repr, DecidableEq, Inhabited

structure JdwpSettings where
  handshakeTimeoutMs : UInt64 := 5000
  replyTimeoutMs : UInt64 := 10000
  /-- How many events may wait before a slow reader misses some. -/
  eventChannelSize : UInt64 := 256
  deriving Repr, DecidableEq, Inhabited

namespace JdwpSettings

/-- The handshake's time limit in whole seconds. -/
def handshakeSeconds (s : JdwpSettings) : Nat := s.handshakeTimeoutMs.toNat / 1000

/-- The time limit of a reply in whole seconds. -/
def replySeconds (s : JdwpSettings) : Nat := s.replyTimeoutMs.toNat / 1000

end JdwpSettings

structure TraceSettings where
  /-- The directory of the helper classes' files. -/
  helperClassesDir : Option String := none
  /-- Whether a refused write ends the trace. -/
  failOnSubstitutionError : Bool := false
  /-- How many steps may be taken on the way back to the invoking frame. -/
  maxStepAttempts : UInt32 := 1000
  /-- Whether the source stream is made sequential. -/
  sequentialSource : Bool := true
  /-- Whether other threads stay suspended during invocations. -/
  invokeSingleThreaded : Bool := true
  deriving Repr, DecidableEq, Inhabited

structure Settings where
  logging : LoggingSettings := {}
  jdwp : JdwpSettings := {}
  trace : TraceSettings := {}
  deriving Repr, DecidableEq, Inhabited

namespace TraceSettings

def fieldNames : List String :=
  ["helper_classes_dir", "fail_on_substitution_error", "max_step_attempts", "sequential_source",
    "invoke_single_threaded"]

open Json in
/-- The settings of traces from JSON, where an unknown name is refused. -/
def ofJson? (j : Json) : Option TraceSettings :=
  let known : Bool := match j with
    | .obj members => members.all fun (name, _) => fieldNames.contains name
    | _ => true
  if known then
    record (do
      let helperClassesDir ← fieldOr "helper_classes_dir" none (nullable asString?)
      let failOnSubstitutionError ← fieldOr "fail_on_substitution_error" false asBool?
      let maxStepAttempts ← fieldOr "max_step_attempts" 1000 unsigned32?
      let sequentialSource ← fieldOr "sequential_source" true asBool?
      let invokeSingleThreaded ← fieldOr "invoke_single_threaded" true asBool?
      return { helperClassesDir, failOnSubstitutionError, maxStepAttempts, sequentialSource,
               invokeSingleThreaded }) j
  else none

end TraceSettings

end StreamTrace
