import StreamTrace.Chain.Basic
import StreamTrace.Machine.ClassTable
import StreamTrace.Machine.Element

/-!
# The simulated virtual machine

The state of a virtual machine with one thread: its classes, its heap, the frames of the thread and
the event requests that are set. A command of the debugger either yields a reply or is refused with
an error, and may change the machine in both cases.

Identifiers of objects, classes, methods and frames come from one counter.
-/

namespace StreamTrace

/-- The only thread. -/
def mainThread : ThreadId := 1

/-- How a stream comes about. -/
inductive StreamOp where
  | source (items : List Element)
  | filter (source predicate : ObjectId)
  | map (source function : ObjectId)
  | peek (source consumer : ObjectId)
  /-- Making a stream parallel or sequential, which changes nothing. -/
  | pass (source : ObjectId)
  deriving Repr, DecidableEq

inductive HeapObject where
  | plain
  | string (s : String)
  | array (component : String) (values : List Value)
  | map (entries : List (Int32 × Element))
  | counter (n : Int32)
  /-- Records elements in a map, if it has one, under the time of a counter. -/
  | collector (map : Option ObjectId) (time : ObjectId) (tick : Bool)
  /-- Wraps a predicate and records what it is asked about and what it accepts. -/
  | matcher (before after time predicate : ObjectId)
  | lambda (f : Lambda)
  | stream (element : ElementType) (op : StreamOp)
  | optional (content : Option Element)
  | classObject (type : TypeId)
  | classLoader
  | throwable
  | list (items : List Element)
  | boxed (e : Element)

structure TypedObject where
  type : TypeId
  object : HeapObject

structure Frame where
  id : FrameId
  location : Location
  slots : Table Nat Value
  deriving Repr, DecidableEq

/-- A request that is set. `depth` is the number of frames at the time it was made. -/
structure InstalledRequest where
  id : RequestId
  kind : UInt8
  modifiers : List EventModifier
  depth : Nat
  deriving Repr, DecidableEq

/-- Why control leaves a call without a value. -/
inductive Interruption where
  /-- An exception is on its way. -/
  | thrown
  /-- The machine has ended. -/
  | exited
  deriving Repr, DecidableEq

structure Vm where
  nextId : Nat := 1000
  classes : ClassTable := []
  heap : Table ObjectId TypedObject := {}
  /-- How often each object is kept from collection. -/
  pins : Table ObjectId Nat := {}
  requests : List InstalledRequest := []
  nextRequest : RequestId := 1
  /-- The frames of the thread, the one on top first. -/
  frames : List Frame := []
  suspended : Bool := true
  dead : Bool := false
  /-- The value that the method on top has to return. -/
  forcedReturn : Option Value := none
  /-- How often each helper class was defined. -/
  defined : Table String Nat := {}
  /-- The slots that the debugger wrote, oldest first. -/
  frameWrites : List (FrameId × Nat × Value) := []
  methodRequestsSet : Nat := 0
  maxMethodRequests : Nat := 0
  /-- The value of the last evaluation that ended with one. -/
  programResult : Option Value := none
  /-- How each evaluation ended, oldest first. -/
  evaluations : List (Except Interruption Value) := []
  appLoader : ObjectId := 0
  /-- Invocations that ran into a request and never end. -/
  stalled : List String := []
  /-- Invocations that ended, oldest first. -/
  invocations : List String := []
  rejectsForcedReturns : Bool := false
  /-- Events that were raised and not handed on yet. -/
  outbox : List Event := []

/-- A change of the machine that may be refused; what was changed before a refusal stays. -/
abbrev VmCommand := ExceptT JdwpError (StateM Vm)

def refuse {α : Type} (code : UInt16) : VmCommand α := throw (.vm code)

namespace Vm

/-! ## Reading -/

def lookup? (vm : Vm) (id : ObjectId) : Option TypedObject := vm.heap.get? id

def object? (vm : Vm) (id : ObjectId) : Option HeapObject := (vm.lookup? id).map (·.object)

/-- The class of that name which the program sees, or 0. -/
def appClass (vm : Vm) (name : String) : TypeId := (vm.classes.named? name vm.appLoader).getD 0

/-- The value that refers to an object. -/
def valueOf (vm : Vm) (id : ObjectId) : Value :=
  let tag := match vm.object? id with
    | some (.string _) => Tag.string
    | some (.array _ _) => Tag.array
    | some (.classObject _) => Tag.classObject
    | some .classLoader => Tag.classLoader
    | _ => Tag.object
  .reference tag id

/-- The text of a string object. -/
def stringOf? (vm : Vm) (v : Value) : Option String :=
  match v.objectId?.bind vm.object? with
  | some (.string s) => some s
  | _ => none

/-- A position in a method. -/
def location (vm : Vm) (type : TypeId) (method : MethodId) (index : UInt64) : Location :=
  { typeTag := ((vm.classes.byId? type).map ClassDef.typeTag).getD TypeTag.classType
    typeId := type, methodId := method, index }

/-- The frame of the statement that is evaluated: the second from the bottom. -/
def statementFrame? (vm : Vm) : Option Frame := vm.frames.reverse[1]?

/-- A local variable of the statement's method. -/
def local? (vm : Vm) (slot : Nat) : Option Value := vm.statementFrame?.bind (·.slots.get? slot)

/-- What the debugger wrote into a local variable of the statement's method, oldest first. -/
def writesTo (vm : Vm) (slot : Nat) : List Value :=
  match vm.statementFrame? with
  | none => []
  | some frame => vm.frameWrites.filterMap fun (id, written, v) =>
      if id = frame.id ∧ written = slot then some v else none

/-- How many objects are kept from collection. -/
def pinnedCount (vm : Vm) : Nat := (vm.pins.values.filter (0 < ·)).length

def timesDefined (vm : Vm) (className : String) : Nat := (vm.defined.get? className).getD 0

/-- A short description. -/
def describe (vm : Vm) : String :=
  let frames := vm.frames.length
  s!"FakeVm \x7b frames: {frames}, suspended: {vm.suspended}, dead: {vm.dead} \x7d"

/-- Notes how an evaluation ended. -/
def noteEvaluation (vm : Vm) (r : Except Interruption Value) : Vm :=
  { vm with
    programResult := r.toOption.or vm.programResult
    evaluations := vm.evaluations ++ [r] }

/-- Ends the machine. -/
def kill (vm : Vm) : Vm :=
  if vm.dead then vm else { vm with dead := true, outbox := vm.outbox ++ [.vmDeath] }

/-! ## Making objects -/

def freshId : StateM Vm Nat := modifyGet fun vm =>
  let id := vm.nextId + 1
  (id, { vm with nextId := id })

def alloc (type : TypeId) (object : HeapObject) : StateM Vm ObjectId := do
  let id ← freshId
  modify fun vm => { vm with heap := vm.heap.set id { type, object } }
  return id

/-- Makes an object of the class of that name which the program sees. -/
def allocOf (className : String) (object : HeapObject) : StateM Vm ObjectId := do
  alloc ((← get).appClass className) object

/-- Makes an object and the value that refers to it. -/
def allocValue (type : TypeId) (object : HeapObject) : StateM Vm Value := do
  let id ← alloc type object
  return (← get).valueOf id

def setObject (id : ObjectId) (object : HeapObject) : StateM Vm Unit := modify fun vm =>
  match vm.lookup? id with
  | some e => { vm with heap := vm.heap.set id { e with object } }
  | none => vm

def newString (s : String) : StateM Vm Value := do
  let id ← allocOf "java.lang.String" (.string s)
  return (← get).valueOf id

def makeThrowable (className : String) : StateM Vm ObjectId := allocOf className .throwable

/-- Defines the array class of a component given by its signature. -/
def declareArray (component : String) : StateM Vm TypeId := do
  let signature := s!"[{component}"
  let id ← freshId
  modify fun vm =>
    let c : ClassDef :=
      { id, name := (signatureToTypeName? signature).getD signature, signature, isArray := true
        superclass := vm.classes.named? "java.lang.Object" 0 }
    { vm with classes := vm.classes ++ [c] }
  return id

def newArray (component : String) (values : List Value) : StateM Vm Value := do
  let type ← match (← get).classes.bySignature? s!"[{component}" with
    | some c => pure c.id
    | none => declareArray component
  allocValue type (.array component values)

/-- An element as a reference. -/
def box (e : Element) : StateM Vm Value := do
  let boxed (className : String) : StateM Vm Value := do
    let id ← allocOf className (.boxed e)
    return (← get).valueOf id
  match e with
  | .null => return .null
  | .str s => newString s
  | .bool _ => boxed "java.lang.Boolean"
  | .int _ => boxed "java.lang.Integer"
  | .long _ => boxed "java.lang.Long"
  | .double _ => boxed "java.lang.Double"

/-- An element as a primitive value; one that has none becomes null. -/
def unboxed : Element → Value
  | .bool v => .boolean v
  | .int v => .int v
  | .long v => .long v
  | .double bits => .double bits
  | .null => .null
  | .str _ => .null

/-- An element as a stream of that element type carries it. -/
def materialize (e : Element) (stream : ElementType) : StateM Vm Value :=
  if stream = .object then box e else return unboxed e

/-- The same for each element of a list. -/
def materializeAll (stream : ElementType) : List Element → StateM Vm (List Value)
  | [] => return []
  | e :: rest => do
    let v ← materialize e stream
    return v :: (← materializeAll stream rest)

end Vm

end StreamTrace
