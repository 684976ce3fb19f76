import StreamTrace.Debugger.StageHandler
import StreamTrace.Trace.Value

/-!
# Packing and reading back

The results of a trace are packed into one array in the debuggee: what the calls reported, the
result of the chain in an array of its own, and the elapsed time. `pack` makes that array and
`interpret` reads it back.
-/

namespace StreamTrace

/-- The results of a trace while they are still in the debuggee. -/
structure RawResults where
  intermediate : List Value
  terminal : Value
  thrown : Option ObjectId
  elapsedMs : Int64
  deriving Repr, DecidableEq

def throwableArray : String := s!"{ClassName.throwable}[]"

namespace Bridge

/-- Packs the results: an array of reports, the outcome and the elapsed time. An exception takes
the place of the chain's result, in an array that only holds exceptions. -/
def pack (b : Bridge) (r : RawResults) : BridgeRoutine Value := do
  match ← readArray r.terminal with
  | [terminalInfo, terminalResult] =>
    let info ← b.array (r.intermediate ++ [terminalInfo])
    let result ← match r.thrown with
      | some exception => b.arrayOf ClassName.throwable [.object exception]
      | none => pure terminalResult
    let elapsed ← b.arrayOf "long" [.long r.elapsedMs]
    b.array [info, result, elapsed]
  | slots =>
    let count := slots.length
    throw (.interpret s!"terminal result has {count} slots, expected 2")

/-- Reads an array. That a value is no array counts as an unreadable trace. -/
def readSlots (v : Value) : BridgeRoutine (List Value) :=
  (readArray v).mapError fun e =>
    match e with
    | .incorrectValueType expected actual => .interpret s!"expected {expected}, found {actual}"
    | e => e

def badSlots (what : String) (found expected : Nat) : TraceError :=
  .interpret s!"{what} has {found} slots, expected {expected}"

/-- Reads an array of one slot. -/
def readOne (v : Value) (what : String) : BridgeRoutine Value := do
  match ← readSlots v with
  | [a] => return a
  | slots => throw (badSlots what slots.length 1)

/-- Reads an array of two slots. -/
def readTwo (v : Value) (what : String) : BridgeRoutine (Value × Value) := do
  match ← readSlots v with
  | [a, b] => return (a, b)
  | slots => throw (badSlots what slots.length 2)

/-- Reads an array of three slots. -/
def readThree (v : Value) (what : String) : BridgeRoutine (Value × Value × Value) := do
  match ← readSlots v with
  | [a, b, c] => return (a, b, c)
  | slots => throw (badSlots what slots.length 3)

/-- A value as it stands in a trace. -/
def readValue (v : Value) : BridgeRoutine TraceValue := do
  match v with
  | .boolean v => return .boolean v
  | .byte v => return .byte v
  | .char v => return .char v
  | .short v => return .short v
  | .int v => return .int v
  | .long v => return .long v
  | .float bits => return .float bits
  | .double bits => return .double bits
  | .void => return .null
  | .reference tag id =>
    if id = 0 then return .null
    else if tag = Tag.string then return .string (← readString v)
    else return .object (← typeOf v) id

/-- Recorded elements with their times. -/
def readTraced : List (Value × Value) → BridgeRoutine (List TracedValue)
  | [] => return []
  | (key, v) :: rest => do
    match key.asInt? with
    | none => throw (.interpret "collector key is not an int")
    | some time =>
      let value ← readValue v
      return { time, value } :: (← readTraced rest)

/-- One side of a call: an array of times and an array of elements. -/
def readSide (v : Value) : BridgeRoutine (List TracedValue) := do
  let (keys, values) ← readTwo v "collected values"
  let keys ← readSlots keys
  let values ← readSlots values
  if keys.length = values.length then readTraced (keys.zip values)
  else
    let found := keys.length
    let other := values.length
    throw (.interpret s!"{found} keys but {other} values")

/-- A stage from the array of its two sides. -/
def readStage (call : String) (v : Value) : BridgeRoutine StageTrace := do
  let (before, after) ← readTwo v "stage result"
  let before ← readSide before
  let after ← readSide after
  return { call, before, after }

def readStages : List (StreamCall × Value) → BridgeRoutine (List StageTrace)
  | [] => return []
  | (call, v) :: rest => do
    let stage ← readStage call.name v
    return stage :: (← readStages rest)

/-- What the consuming call reported, and the array of its two sides. -/
def readTerminal (kind : HandlerKind) (v : Value) : BridgeRoutine (Value × TerminalPayload) := do
  match kind with
  | .matchShortCircuit =>
    let (sides, result) ← readTwo v "match info"
    let result ← readOne result "match result"
    return (sides, .matched (← readValue result))
  | .optionalProducing =>
    let (sides, optional) ← readTwo v "optional info"
    let (present, value) ← readTwo optional "optional content"
    let present ← readOne present "isPresent"
    let value ← readOne value "orElse"
    match present.asBool? with
    | none => throw (.interpret "isPresent is not a boolean")
    | some present =>
      let value ← if present then readValue value else pure .null
      return (sides, .optional present value)
  | .toCollection =>
    let (sides, time) ← readTwo v "collection info"
    let time ← readOne time "collection time"
    match time.asInt? with
    | none => throw (.interpret "time is not an int")
    | some time => return (sides, .collection time)
  | _ => return (v, .none)

def readOutcome (v : Value) (returnsVoid : Bool) : BridgeRoutine Outcome := do
  let typeName ← typeOf v
  let first ← readOne v "stream result"
  if typeName = throwableArray then return .thrown (← readValue first)
  else if returnsVoid then return .void
  else return .returned (← readValue first)

/-- The trace of `chain` from the packed array. -/
def interpret (chain : StreamChain) (packed : Value) : BridgeRoutine ChainTrace := do
  let (info, result, elapsed) ← readThree packed "trace"
  let info ← readArray info
  let expected := chain.intermediate.length + 1
  if info.length ≠ expected then
    let found := info.length
    throw (.interpret s!"expected {expected} stage results, got {found}")
  let stages ← readStages (chain.intermediate.zip info)
  let terminalInfo := (info.getLast?).getD .null
  let (sides, terminal) ←
    readTerminal (StageHandler.forTerminal chain.terminal.toStreamCall).kind terminalInfo
  let last ← readStage chain.terminal.name sides
  let outcome ← readOutcome result chain.terminal.returnsVoid
  let elapsed ← readOne elapsed "elapsed time"
  match elapsed.asLong? with
  | none => throw (.interpret "elapsed time is not a long")
  | some elapsedMs => return { stages := stages ++ [last], terminal, outcome, elapsedMs }

end Bridge

end StreamTrace
