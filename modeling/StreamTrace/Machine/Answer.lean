import StreamTrace.Jdwp.Command
import StreamTrace.Machine.Invocation

/-!
# Answers to commands

What the simulated virtual machine does with each command. A dead machine answers none. Commands
about the thread need it to be the only one there is, and to be stopped.
-/

namespace StreamTrace

namespace Vm

/-- Goes on if the machine is alive. -/
def alive : VmCommand Unit := do
  if (← get).dead then throw .connectionClosed

/-- Goes on if this is the thread and it is stopped. -/
def stopped (thread : ThreadId) : VmCommand Unit := do
  if thread ≠ mainThread then refuse ErrorCode.invalidThread
  alive
  if ¬(← get).suspended then refuse ErrorCode.threadNotSuspended

def resume : VmCommand Unit := do
  alive
  modify fun vm => { vm with suspended := false }

/-! ## Frames -/

/-- Some of the frames from the top down; a negative length stands for all. -/
def framesFrom (vm : Vm) (start length : Int) : List FrameInfo :=
  let all := (vm.frames.drop start.toNat).map fun f =>
    ({ frameId := f.id, location := f.location } : FrameInfo)
  if length < 0 then all else all.take length.toNat

def getFrame (frame : FrameId) : VmCommand Frame := do
  match (← get).frames.find? (·.id == frame) with
  | some f => return f
  | none => refuse ErrorCode.invalidFrame

def readSlots (f : Frame) : List (Nat × String) → VmCommand (List Value)
  | [] => return []
  | (slot, _) :: rest =>
    match f.slots.get? slot with
    | none => refuse ErrorCode.invalidSlot
    | some v => do return v :: (← readSlots f rest)

/-- Puts a value into a slot of a frame. -/
def setSlot (vm : Vm) (frame : FrameId) (slot : Nat) (v : Value) : Vm :=
  { vm with frames := vm.frames.map fun f =>
      if f.id = frame then { f with slots := f.slots.set slot v } else f }

/-- Writes one slot after another, up to the first that cannot be written. -/
def writeSlots (frame : FrameId) : List (Nat × Value) → VmCommand Unit
  | [] => return ()
  | (slot, v) :: rest => do
    let f ← getFrame frame
    match f.slots.get? slot with
    | none => refuse ErrorCode.invalidSlot
    | some old =>
      if old.isReference ≠ v.isReference then refuse ErrorCode.typeMismatch
      else
        modify (·.setSlot frame slot v)
        writeSlots frame rest

def setSlots (frame : FrameId) (values : List (Nat × Value)) : VmCommand Unit := do
  let _ ← getFrame frame
  writeSlots frame values
  modify fun vm =>
    { vm with frameWrites := vm.frameWrites ++ values.map fun (slot, v) => (frame, slot, v) }

/-! ## Arrays -/

/-- The value that every element of a new array has. -/
def defaultOf (component : String) : Value :=
  match component with
  | "B" => .byte 0
  | "Z" => .boolean false
  | "I" => .int 0
  | "J" => .long 0
  | "D" => .double 0
  | _ => .null

def makeArray (type : TypeId) (length : Int) : VmCommand ObjectId := do
  let c ← getClass type
  if ¬c.isArray then refuse ErrorCode.invalidClass
  let component := String.ofList (c.signature.toList.drop 1)
  alloc type (.array component (List.replicate length.toNat (defaultOf component)))

def getArray (array : ObjectId) : VmCommand (String × List Value) := do
  match (← getEntry array).object with
  | .array component values => return (component, values)
  | _ => refuse ErrorCode.invalidObject

def arrayRange (array : ObjectId) (first length : Int) : VmCommand (List Value) := do
  let (_, values) ← getArray array
  if first < 0 ∨ length < 0 ∨ values.length < first.toNat + length.toNat then
    refuse ErrorCode.invalidIndex
  else return (values.drop first.toNat).take length.toNat

/-- Whether an array of that component can hold a value. -/
def holds (component : String) (v : Value) : Bool :=
  match component.toList.head? with
  | some 'L' => v.isReference
  | some '[' => v.isReference
  | some c => v.tag.toNat == c.toNat
  | none => false

def setArray (array : ObjectId) (first : Int) (values : List Value) : VmCommand Unit := do
  let (component, slots) ← getArray array
  let start := first.toNat
  if ¬values.all (holds component) then refuse ErrorCode.typeMismatch
  else if slots.length < start + values.length then refuse ErrorCode.invalidIndex
  else
    let slots := slots.take start ++ values ++ slots.drop (start + values.length)
    setObject array (.array component slots)

/-! ## Pins -/

def disableCollection (object : ObjectId) : VmCommand Unit := do
  let _ ← getEntry object
  modify fun vm =>
    { vm with pins := vm.pins.set object ((vm.pins.get? object).getD 0 + 1) }

def enableCollection (object : ObjectId) : VmCommand Unit := do
  let _ ← getEntry object
  modify fun vm =>
    match vm.pins.get? object with
    | none => vm
    | some n =>
      if n ≤ 1 then { vm with pins := vm.pins.erase object }
      else { vm with pins := vm.pins.set object (n - 1) }

/-! ## Commands -/

/-- What the machine does with a command. -/
def respond : (c : Command) → VmCommand c.Reply
  | .classesBySignature signature => do
    alive
    return ((← get).classes.filter (·.signature == signature)).map ClassDef.info
  | .resumeVm => resume
  | .createString text => do
    alive
    let v ← newString text
    return v.objectId?.getD 0
  | .typeSignature type => do
    alive
    return (← getClass type).signature
  | .typeLoader type => do
    alive
    return (← getClass type).loader
  | .typeMethods type => do
    alive
    return (← getClass type).methodInfos
  | .typeInterfaces type => do
    alive
    return (← getClass type).interfaces
  | .superclass type => do
    alive
    let c ← getClass type
    if c.isInterface then refuse ErrorCode.invalidClass else return c.superclass
  | .invokeStatic type thread method args _ => do
    stopped thread
    invoke none type method args
  | .newInstance type thread method args _ => do
    stopped thread
    newInstance type method args
  | .newArray type length => do
    alive
    makeArray type length
  | .reflectedType object => do
    alive
    match (← getEntry object).object with
    | .classObject type => return type
    | _ => refuse ErrorCode.invalidObject
  | .variableTable type method => do
    alive
    match (← getClass type).locals.get? method with
    | some locals => return (1, locals)
    | none => refuse ErrorCode.absentInformation
  | .objectType object => do
    alive
    return (← getEntry object).type
  | .invokeVirtual object thread type method args _ => do
    stopped thread
    invoke (some object) type method args
  | .disableCollection object => do
    alive
    disableCollection object
  | .enableCollection object => do
    alive
    enableCollection object
  | .stringValue string => do
    alive
    match (← getEntry string).object with
    | .string s => return s
    | _ => refuse ErrorCode.invalidObject
  | .arrayLength array => do
    alive
    return ((← getArray array).2.length : Int)
  | .arrayValues array first length => do
    alive
    arrayRange array first length
  | .setArrayValues array first values => do
    alive
    setArray array first values
  | .resumeThread thread => do
    if thread ≠ mainThread then refuse ErrorCode.invalidThread
    resume
  | .frames thread start length => do
    stopped thread
    return (← get).framesFrom start length
  | .frameCount thread => do
    stopped thread
    return ((← get).frames.length : Int)
  | .forceReturn thread v => do
    stopped thread
    if (← get).rejectsForcedReturns then refuse ErrorCode.opaqueFrame
    modify fun vm => { vm with forcedReturn := some v }
  | .slotValues thread frame slots => do
    stopped thread
    readSlots (← getFrame frame) slots
  | .setSlots thread frame values => do
    stopped thread
    setSlots frame values
  | .setRequest kind _ modifiers => do
    alive
    installRequest kind modifiers
  | .clearRequest kind request => do
    alive
    clearRequest kind request

/-- The answer to a command, and the machine after it. -/
def answer (vm : Vm) (c : Command) : c.Answer × Vm := (respond c).run vm

end Vm

end StreamTrace
