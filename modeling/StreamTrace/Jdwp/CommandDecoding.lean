import StreamTrace.Jdwp.Payload

/-!
# Reading commands

Commands as a virtual machine reads them: the other direction of `Command.payload`. Two commands
are not read back, because their payloads do not say all: elements of arrays are set without their
tags, and slots are asked for by the first letter of their types.
-/

namespace StreamTrace

open Decoder

def EventModifier.read (sizes : IdSizes) : Decoder EventModifier := do
  let kind ← u8
  if kind = 1 then return .count (← u32)
  else if kind = 3 then return .threadOnly (← objectId sizes)
  else if kind = 4 then return .classOnly (← typeId sizes)
  else if kind = 5 then return .classMatch (← string)
  else if kind = 7 then return .locationOnly (← location sizes)
  else if kind = 8 then
    let c ← typeId sizes
    let caught ← bool
    let uncaught ← bool
    return .exceptionOnly c caught uncaught
  else if kind = 10 then
    let t ← objectId sizes
    let size ← u32
    let depth ← u32
    return .step t size depth
  else throw (.protocol s!"unknown event modifier {kind}")

namespace Command

def readArguments (sizes : IdSizes) : Decoder (List Value) := counted (tagged sizes)

/-- A slot and the value for it. -/
def readSlot (sizes : IdSizes) : Decoder (Nat × Value) := do
  let slot ← count
  let v ← tagged sizes
  return (slot, v)

/-- Reads the payload of a command with this number, if it can be read back. -/
def read? (sizes : IdSizes) : UInt8 × UInt8 → Option (Decoder Command)
  | (1, 2) => some (classesBySignature <$> string)
  | (1, 9) => some (pure resumeVm)
  | (1, 11) => some (createString <$> string)
  | (2, 1) => some (typeSignature <$> typeId sizes)
  | (2, 2) => some (typeLoader <$> typeId sizes)
  | (2, 5) => some (typeMethods <$> typeId sizes)
  | (2, 10) => some (typeInterfaces <$> typeId sizes)
  | (3, 1) => some (superclass <$> typeId sizes)
  | (3, 3) => some do
    let c ← typeId sizes
    let t ← objectId sizes
    let m ← methodId sizes
    let args ← readArguments sizes
    let options ← u32
    return invokeStatic c t m args options
  | (3, 4) => some do
    let c ← typeId sizes
    let t ← objectId sizes
    let m ← methodId sizes
    let args ← readArguments sizes
    let options ← u32
    return newInstance c t m args options
  | (4, 1) => some do
    let c ← typeId sizes
    let length ← i32
    return newArray c length
  | (6, 2) => some do
    let c ← typeId sizes
    let m ← methodId sizes
    return variableTable c m
  | (9, 1) => some (objectType <$> objectId sizes)
  | (9, 6) => some do
    let o ← objectId sizes
    let t ← objectId sizes
    let c ← typeId sizes
    let m ← methodId sizes
    let args ← readArguments sizes
    let options ← u32
    return invokeVirtual o t c m args options
  | (9, 7) => some (disableCollection <$> objectId sizes)
  | (9, 8) => some (enableCollection <$> objectId sizes)
  | (10, 1) => some (stringValue <$> objectId sizes)
  | (11, 3) => some (resumeThread <$> objectId sizes)
  | (11, 6) => some do
    let t ← objectId sizes
    let start ← i32
    let length ← i32
    return frames t start length
  | (11, 7) => some (frameCount <$> objectId sizes)
  | (11, 14) => some do
    let t ← objectId sizes
    let v ← tagged sizes
    return forceReturn t v
  | (13, 1) => some (arrayLength <$> objectId sizes)
  | (13, 2) => some do
    let o ← objectId sizes
    let first ← i32
    let length ← i32
    return arrayValues o first length
  | (15, 1) => some do
    let kind ← u8
    let policy ← u8
    let modifiers ← counted (EventModifier.read sizes)
    return setRequest kind policy modifiers
  | (15, 2) => some do
    let kind ← u8
    let request ← i32
    return clearRequest kind request
  | (16, 2) => some do
    let t ← objectId sizes
    let f ← frameId sizes
    let values ← counted (readSlot sizes)
    return setSlots t f values
  | (17, 1) => some (reflectedType <$> objectId sizes)
  | _ => none

end Command

end StreamTrace
