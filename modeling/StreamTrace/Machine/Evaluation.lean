import StreamTrace.Machine.Thread
import StreamTrace.HelperClass

/-!
# Evaluating the chain

How the program runs its statement. Every call of the chain and every call of a lambda has a frame
of its own, in which the debugger may replace arguments; in front of its end a call stops at the
exit event, at which the debugger may replace the value. The elements of the source go through the
pipeline one by one, when the consuming call is made.
-/

namespace StreamTrace

/-- A call as it stands in the program. -/
structure ProgramCall where
  name : String
  descriptor : String
  args : List Value
  deriving Repr, DecidableEq

/-- Where the first call finds its receiver. -/
inductive CallTarget where
  | slot (slot : Nat)
  /-- A collection that is asked for its stream. -/
  | collection (v : Value)
  deriving Repr, DecidableEq

/-- The statement and how often it is evaluated. -/
structure Repetition where
  receiver : CallTarget
  calls : List ProgramCall
  runs : Nat
  deriving Repr, DecidableEq

/-- A step of a pipeline. -/
inductive PipelineStep where
  | filter (predicate : ObjectId)
  | map (function : ObjectId)
  | peek (consumer : ObjectId)
  deriving Repr, DecidableEq

/-- What becomes of the elements at the end of a pipeline. -/
inductive PipelineEnd where
  | count
  | anyMatch (predicate : ObjectId)
  | findFirst
  | toList
  | forEach (consumer : ObjectId)
  deriving Repr, DecidableEq

def nullPointerException : String := "java.lang.NullPointerException"

def illegalStateException : String := "java.lang.IllegalStateException"

namespace Vm

/-- The elements of the source behind a stream, and the steps up to it, last step first. A stream
is younger than the one it builds on, so its identifier bounds the number of steps. -/
def pipelineFrom (vm : Vm) : (fuel : Nat) → ObjectId → List Element × List PipelineStep
  | 0, _ => ([], [])
  | fuel + 1, stream =>
    let onto (source : ObjectId) (op : PipelineStep) :=
      let (items, ops) := pipelineFrom vm fuel source
      (items, op :: ops)
    match vm.object? stream with
    | some (.stream _ (.source items)) => (items, [])
    | some (.stream _ (.filter source predicate)) => onto source (.filter predicate)
    | some (.stream _ (.map source function)) => onto source (.map function)
    | some (.stream _ (.peek source consumer)) => onto source (.peek consumer)
    | some (.stream _ (.pass source)) => pipelineFrom vm fuel source
    | _ => ([], [])

/-- The elements of the source behind a stream, and the steps that they go through. -/
def pipeline (vm : Vm) (stream : ObjectId) : List Element × List PipelineStep :=
  let (items, ops) := vm.pipelineFrom (stream + 1) stream
  (items, ops.reverse)

/-- The time that a counter shows, after it was advanced if need be. -/
def tick (time : ObjectId) (advance : Bool) : StateM Vm Int32 := do
  match (← get).object? time with
  | some (.counter n) =>
    let n := if advance then n + 1 else n
    setObject time (.counter n)
    return n
  | _ => return 0

def putEntry (key : Int32) (e : Element) : List (Int32 × Element) → List (Int32 × Element)
  | [] => [(key, e)]
  | (k, old) :: rest => if k = key then (k, e) :: rest else (k, old) :: putEntry key e rest

/-- Records an element in a map. -/
def put (map : ObjectId) (key : Int32) (e : Element) : StateM Vm Unit := do
  match (← get).object? map with
  | some (.map entries) => setObject map (.map (putEntry key e entries))
  | _ => return ()

/-- The element type that a lambda's method takes. -/
def parameterElement (descriptor : String) : ElementType :=
  match descriptor.toList with
  | '(' :: 'I' :: _ => .int
  | _ => .object

/-- The only method of a lambda's class. -/
def lambdaMethod? (vm : Vm) (function : ObjectId) : Option (TypeId × MethodDef) := do
  let e ← vm.lookup? function
  let c ← vm.classes.byId? e.type
  let m ← c.methods.head?
  return (e.type, m)

end Vm

namespace Code

open Vm

/-! ## Lambdas -/

/-- What a lambda comes to in its frame. -/
def lambdaBody (o : LambdaOutcome) : Code Element := do
  match o with
  | .value e => return e
  | .raise exception (some fallback) =>
    let handler ← read fun vm => vm.topLocation?.map fun l => { l with index := l.index + 4 }
    let thrown ← use (makeThrowable exception)
    stop (exceptionEvent thrown handler)
    return fallback
  | .raise exception none => raise exception
  | .raiseReplaced exception replacement =>
    let thrown ← use (makeThrowable exception)
    stop (exceptionEvent thrown none)
    raise replacement
  | .exitVm =>
    use (modify Vm.kill)
    throw .exited

/-- Calls a lambda in a frame of its own. -/
def runLambda (function : ObjectId) (f : Lambda) (e : Element) : Code Element := do
  match ← read (·.lambdaMethod? function) with
  | none => raise nullPointerException
  | some (type, m) =>
    let argument ← use (materialize e (parameterElement m.descriptor))
    let receiver ← read (·.valueOf function)
    let slots : Table Nat Value := ⟨(0, receiver) :: (frameSlots m.descriptor).zip [argument]⟩
    let result ← inFrame type m.id slots do
      stop enteredEvent
      lambdaBody (f e)
    stop (stepEvent .returned)
    return result

/-- Applies a lambda or a helper to an element. A collector gives the element back; a matcher
answers as its predicate does. -/
def apply (function : ObjectId) (e : Element) : Code Element := do
  match ← read (·.object? function) with
  | some (.lambda f) => runLambda function f e
  | some (.collector map time advance) =>
    use do
      let now ← tick time advance
      match map with
      | some map => put map now e
      | none => pure ()
    return e
  | some (.matcher before after time predicate) =>
    use do put before (← tick time false) e
    match ← read (·.object? predicate) with
    | some (.lambda f) =>
      let result ← runLambda predicate f e
      if result.isTrue then use do put after (← tick time true) e
      return result
    | _ => raise nullPointerException
  | _ => raise nullPointerException

/-! ## Pipelines -/

/-- Puts an element through the steps, at one of which it may be dropped. -/
def through : List PipelineStep → Element → Code (Option Element)
  | [], e => return some e
  | .filter predicate :: ops, e => do
    let result ← apply predicate e
    if result.isTrue then through ops e else return none
  | .map function :: ops, e => do
    let e ← apply function e
    through ops e
  | .peek consumer :: ops, e => do
    let _ ← apply consumer e
    through ops e

/-- A new optional of the kind that belongs to the element type. -/
def newOptional (element : ElementType) (content : Option Element) : Code Value := use do
  let id ← allocOf (if element = .int then "java.util.OptionalInt" else "java.util.Optional")
    (.optional content)
  return (← get).valueOf id

/-- The value of a consuming call that has seen all elements: `taken` of them, of which it keeps
`kept`. -/
def finish (element : ElementType) (taken : Nat) (kept : List Element) : PipelineEnd → Code Value
  | .count => return .long (Int64.ofNat taken)
  | .anyMatch _ => return .boolean false
  | .findFirst => newOptional element none
  | .toList => use do
    let id ← allocOf "java.util.ArrayList" (.list kept)
    return (← get).valueOf id
  | .forEach _ => return .void

/-- Consumes the elements of a source. -/
def drain (element : ElementType) (ops : List PipelineStep) (ending : PipelineEnd) :
    (taken : Nat) → (kept : List Element) → List Element → Code Value
  | taken, kept, [] => finish element taken kept ending
  | taken, kept, e :: rest => do
    match ← through ops e with
    | none => drain element ops ending taken kept rest
    | some e =>
      match ending with
      | .count => drain element ops ending (taken + 1) kept rest
      | .anyMatch predicate =>
        let result ← apply predicate e
        if result.isTrue then return .boolean true
        else drain element ops ending taken kept rest
      | .findFirst => newOptional element (some e)
      | .toList => drain element ops ending taken (kept ++ [e]) rest
      | .forEach consumer =>
        let _ ← apply consumer e
        drain element ops ending taken kept rest

/-- The end of a pipeline that a consuming call makes. -/
def pipelineEndOf (name : String) (function : Option ObjectId) : Code PipelineEnd :=
  match name, function with
  | "count", _ => return .count
  | "anyMatch", some predicate => return .anyMatch predicate
  | "anyMatch", none => raise nullPointerException
  | "findFirst", _ => return .findFirst
  | "toList", _ => return .toList
  | "forEach", some consumer => return .forEach consumer
  | "forEach", none => raise nullPointerException
  | _, _ => raise illegalStateException

/-- A new stream of the same kind. -/
def derive (type : TypeId) (element : ElementType) (op : StreamOp) : Code Value :=
  use (allocValue type (.stream element op))

/-- The steps of a chain that take a function. -/
def stepOf? (stream function : ObjectId) : String → Option StreamOp
  | "filter" => some (.filter stream function)
  | "map" => some (.map stream function)
  | "peek" => some (.peek stream function)
  | _ => none

def takesFunction (name : String) : Bool := ["filter", "map", "peek"].contains name

/-- What a method of the chain comes to in its frame. -/
def methodBody (receiver : ObjectId) (name : String) (args : List Value) : Code Value := do
  let function := args.head?.bind Value.objectId?
  match ← read (·.lookup? receiver) with
  | some { type := _, object := .list items } =>
    if name = "stream" then
      let type ← read (·.appClass "java.util.stream.ReferencePipeline")
      derive type .object (.source items)
    else raise illegalStateException
  | some { type, object := .stream element _ } =>
    if takesFunction name then
      match function.bind fun f => stepOf? receiver f name with
      | some op => derive type element op
      | none => raise nullPointerException
    else if name = "parallel" ∨ name = "sequential" then derive type element (.pass receiver)
    else
      let ending ← pipelineEndOf name function
      let (items, ops) ← read (·.pipeline receiver)
      drain element ops ending 0 [] items
  | _ => raise illegalStateException

/-! ## Calls -/

/-- The arguments of a call as they stand in its frame. -/
def currentArguments (descriptor : String) (args : List Value) (vm : Vm) : List Value :=
  match vm.frames.head? with
  | none => args
  | some frame =>
    ((frameSlots descriptor).zip args).map fun (slot, v) => (frame.slots.get? slot).getD v

/-- The value that a call returns: the one that the debugger wants, or its own. -/
def takeForced (v : Value) : StateM Vm Value := modifyGet fun vm =>
  (vm.forcedReturn.getD v, { vm with forcedReturn := none })

/-- A call by the program: it stops where it enters the method, in front of its end, and behind
it. -/
def call (receiver : Value) (c : ProgramCall) : Code Value := do
  match receiver.objectId? with
  | none => raise nullPointerException
  | some id =>
    let code ← read fun vm =>
      (vm.lookup? id).bind fun e => vm.classes.dispatch e.type c.name c.descriptor
    match code with
    | none => raise illegalStateException
    | some (type, method) =>
      let slots : Table Nat Value := ⟨(0, receiver) :: (frameSlots c.descriptor).zip c.args⟩
      let v ← inFrame type method slots do
        stop enteredEvent
        let args ← read (currentArguments c.descriptor c.args)
        let v ← methodBody id c.name args
        stop (exitEvent v)
        use (takeForced v)
      stop (stepEvent .returned)
      return v

/-- Makes the calls of a chain on one another's values. -/
def callAll : List ProgramCall → Value → Code Value
  | [], v => return v
  | c :: rest, v => do
    let v ← call v c
    callAll rest v

/-- Evaluates the statement. -/
def evaluate (s : Repetition) : Code Value := do
  let first ← match s.receiver with
    | .slot slot =>
      read fun vm => ((vm.frames.head?.bind (·.slots.get? slot)).getD .null)
    | .collection v =>
      call v { name := "stream", descriptor := "()Ljava/util/stream/Stream;", args := [] }
  callAll s.calls first

end Code

/-- Evaluates the statement so many times, each time once the thread is resumed. An exception is
caught around the statement. -/
def Repetition.loop (s : Repetition) : (runs : Nat) → Thread Unit
  | 0 => pure ()
  | runs + 1 => do
    match ← Code.awaitResume.run with
    | .error _ => return ()
    | .ok () =>
      let r ← (Code.evaluate s).run
      let _ ← (Code.use (modify (·.noteEvaluation r))).run
      match r with
      | .ok _ => s.loop runs
      | .error .exited => return ()
      | .error .thrown =>
        match ← (Code.stop (Vm.stepEvent .returned)).run with
        | .error _ => return ()
        | .ok () => s.loop runs

def Repetition.main (s : Repetition) : Thread Unit := s.loop s.runs

end StreamTrace
