import StreamTrace.Jdwp.Command
import StreamTrace.Jdwp.Decoding

/-!
# Command payloads

The bytes of each command and of its reply. `Command.number` is the pair of command set and command
under which it is sent, `Command.payload` its arguments, and `Command.readReply` reads the reply.
-/

namespace StreamTrace

open Encode in
/-- The bytes of one condition of an event request: its number and its arguments. -/
def EventModifier.encode (sizes : IdSizes) : EventModifier → Bytes
  | .count n => u8 1 ++ u32 n
  | .threadOnly t => u8 3 ++ objectId sizes t
  | .classOnly c => u8 4 ++ typeId sizes c
  | .classMatch pattern => u8 5 ++ string pattern
  | .locationOnly l => u8 7 ++ location sizes l
  | .exceptionOnly c caught uncaught =>
    u8 8 ++ typeId sizes c ++ bool caught ++ bool uncaught
  | .step t size depth => u8 10 ++ objectId sizes t ++ u32 size ++ u32 depth

/-- The tag under which a slot of that type is read. -/
def slotTag (signature : String) : UInt8 :=
  if signature = "Ljava/lang/String;" then Tag.string
  else (Utf8.encode signature).head?.getD Tag.void

namespace Command

def number : Command → UInt8 × UInt8
  | classesBySignature _ => (1, 2)
  | resumeVm => (1, 9)
  | createString _ => (1, 11)
  | typeSignature _ => (2, 1)
  | typeLoader _ => (2, 2)
  | typeMethods _ => (2, 5)
  | typeInterfaces _ => (2, 10)
  | superclass _ => (3, 1)
  | invokeStatic _ _ _ _ _ => (3, 3)
  | newInstance _ _ _ _ _ => (3, 4)
  | newArray _ _ => (4, 1)
  | reflectedType _ => (17, 1)
  | variableTable _ _ => (6, 2)
  | objectType _ => (9, 1)
  | invokeVirtual _ _ _ _ _ _ => (9, 6)
  | disableCollection _ => (9, 7)
  | enableCollection _ => (9, 8)
  | stringValue _ => (10, 1)
  | arrayLength _ => (13, 1)
  | arrayValues _ _ _ => (13, 2)
  | setArrayValues _ _ _ => (13, 3)
  | resumeThread _ => (11, 3)
  | frames _ _ _ => (11, 6)
  | frameCount _ => (11, 7)
  | forceReturn _ _ => (11, 14)
  | slotValues _ _ _ => (16, 1)
  | setSlots _ _ _ => (16, 2)
  | setRequest _ _ _ => (15, 1)
  | clearRequest _ _ => (15, 2)

open Encode in
def payload (sizes : IdSizes) : Command → Bytes
  | classesBySignature signature => string signature
  | resumeVm => []
  | createString text => string text
  | typeSignature c => typeId sizes c
  | typeLoader c => typeId sizes c
  | typeMethods c => typeId sizes c
  | typeInterfaces c => typeId sizes c
  | superclass c => typeId sizes c
  | invokeStatic c t m args options =>
    typeId sizes c ++ objectId sizes t ++ methodId sizes m ++ counted (tagged sizes) args
      ++ u32 options
  | newInstance c t m args options =>
    typeId sizes c ++ objectId sizes t ++ methodId sizes m ++ counted (tagged sizes) args
      ++ u32 options
  | newArray c length => typeId sizes c ++ i32 length
  | reflectedType o => objectId sizes o
  | variableTable c m => typeId sizes c ++ methodId sizes m
  | objectType o => objectId sizes o
  | invokeVirtual o t c m args options =>
    objectId sizes o ++ objectId sizes t ++ typeId sizes c ++ methodId sizes m
      ++ counted (tagged sizes) args ++ u32 options
  | disableCollection o => objectId sizes o
  | enableCollection o => objectId sizes o
  | stringValue o => objectId sizes o
  | arrayLength o => objectId sizes o
  | arrayValues o first length => objectId sizes o ++ i32 first ++ i32 length
  | setArrayValues o first values =>
    objectId sizes o ++ i32 first ++ counted (untagged sizes) values
  | resumeThread t => objectId sizes t
  | frames t start length => objectId sizes t ++ i32 start ++ i32 length
  | frameCount t => objectId sizes t
  | forceReturn t v => objectId sizes t ++ tagged sizes v
  | slotValues t f slots =>
    objectId sizes t ++ frameId sizes f
      ++ counted (fun (slot, signature) => count slot ++ u8 (slotTag signature)) slots
  | setSlots t f values =>
    objectId sizes t ++ frameId sizes f
      ++ counted (fun (slot, v) => count slot ++ tagged sizes v) values
  | setRequest kind policy modifiers =>
    u8 kind ++ u8 policy ++ counted (EventModifier.encode sizes) modifiers
  | clearRequest kind request => u8 kind ++ i32 request

open Decoder

/-- The value and the exception of an invocation. -/
def readOutcome (sizes : IdSizes) : Decoder InvokeOutcome := do
  let value ← tagged sizes
  let (_, exception) ← taggedObjectId sizes
  return { value, exception := if exception = 0 then none else some exception }

/-- The new object and the exception of a construction. -/
def readConstruction (sizes : IdSizes) : Decoder InvokeOutcome := do
  let (tag, object) ← taggedObjectId sizes
  let (_, exception) ← taggedObjectId sizes
  return { value := .reference tag object
           exception := if exception = 0 then none else some exception }

def readClass (sizes : IdSizes) (signature : String) : Decoder ClassInfo := do
  let typeTag ← u8
  let typeId ← Decoder.typeId sizes
  let status ← u32
  return { typeTag, typeId, signature, status }

def readMethod (sizes : IdSizes) : Decoder MethodInfo := do
  let methodId ← Decoder.methodId sizes
  let name ← string
  let signature ← string
  let modifiers ← u32
  return { methodId, name, signature, modifiers }

def readVariable : Decoder VariableInfo := do
  let codeIndex ← u64
  let name ← string
  let signature ← string
  let length ← u32
  let slot ← count
  return { codeIndex, name, signature, length, slot }

def readFrame (sizes : IdSizes) : Decoder FrameInfo := do
  let frameId ← Decoder.frameId sizes
  let location ← Decoder.location sizes
  return { frameId, location }

/-- A type identifier behind the tag of the type. -/
def readTypeBehindTag (sizes : IdSizes) : Decoder TypeId := do
  let _ ← u8
  Decoder.typeId sizes

def readReply (sizes : IdSizes) : (c : Command) → Decoder c.Reply
  | classesBySignature signature => counted (readClass sizes signature)
  | resumeVm => (pure () : Decoder Unit)
  | createString _ => Decoder.objectId sizes
  | typeSignature _ => string
  | typeLoader _ => Decoder.objectId sizes
  | typeMethods _ => counted (readMethod sizes)
  | typeInterfaces _ => counted (Decoder.typeId sizes)
  | superclass _ => (fun c => if c = 0 then none else some c) <$> Decoder.typeId sizes
  | invokeStatic _ _ _ _ _ => readOutcome sizes
  | newInstance _ _ _ _ _ => readConstruction sizes
  | newArray _ _ => Prod.snd <$> taggedObjectId sizes
  | reflectedType _ => readTypeBehindTag sizes
  | variableTable _ _ => do
    let arguments ← count
    let locals ← counted readVariable
    return (arguments, locals)
  | objectType _ => readTypeBehindTag sizes
  | invokeVirtual _ _ _ _ _ _ => readOutcome sizes
  | disableCollection _ => (pure () : Decoder Unit)
  | enableCollection _ => (pure () : Decoder Unit)
  | stringValue _ => string
  | arrayLength _ => i32
  | arrayValues _ _ _ => arrayRegion sizes
  | setArrayValues _ _ _ => (pure () : Decoder Unit)
  | resumeThread _ => (pure () : Decoder Unit)
  | frames _ _ _ => counted (readFrame sizes)
  | frameCount _ => i32
  | forceReturn _ _ => (pure () : Decoder Unit)
  | slotValues _ _ _ => counted (tagged sizes)
  | setSlots _ _ _ => (pure () : Decoder Unit)
  | setRequest _ _ _ => i32
  | clearRequest _ _ => (pure () : Decoder Unit)

end Command

/-- The reply that announces the widths of identifiers. -/
def IdSizes.read : Decoder IdSizes := do
  let field ← Decoder.count
  let method ← Decoder.count
  let object ← Decoder.count
  let referenceType ← Decoder.count
  let frame ← Decoder.count
  return { field, method, object, referenceType, frame }

def IdSizes.encode (sizes : IdSizes) : Bytes :=
  [sizes.field, sizes.method, sizes.object, sizes.referenceType, sizes.frame].flatMap Encode.count

/-- The reply that announces capabilities, one byte each. -/
def readCapabilities (payload : Bytes) : List Bool := payload.map (· != 0)

/-- The position of the capability to replace the value that a method returns. -/
def forceReturnCapability : Nat := 20

end StreamTrace
