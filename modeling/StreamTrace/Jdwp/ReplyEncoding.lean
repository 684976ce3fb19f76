import StreamTrace.Jdwp.Payload

/-!
# Reply layouts

Replies as a virtual machine lays them out: the other direction of `Command.readReply`. A list is
its length and then its items, each with a layout of its own.
-/

namespace StreamTrace

open Encode

/-- The signature of a class is known from the request and not repeated. -/
def ClassInfo.encode (sizes : IdSizes) (c : ClassInfo) : Bytes :=
  u8 c.typeTag ++ Encode.typeId sizes c.typeId ++ u32 c.status

def MethodInfo.encode (sizes : IdSizes) (m : MethodInfo) : Bytes :=
  Encode.methodId sizes m.methodId ++ string m.name ++ string m.signature ++ u32 m.modifiers

def VariableInfo.encode (v : VariableInfo) : Bytes :=
  u64 v.codeIndex ++ string v.name ++ string v.signature ++ u32 v.length ++ count v.slot

def FrameInfo.encode (sizes : IdSizes) (f : FrameInfo) : Bytes :=
  Encode.frameId sizes f.frameId ++ Encode.location sizes f.location

/-- An exception is a tagged object, or the null object when there is none. -/
def InvokeOutcome.encode (sizes : IdSizes) (o : InvokeOutcome) : Bytes :=
  tagged sizes o.value ++ u8 Tag.object ++ objectId sizes (o.exception.getD 0)

/-- Elements of an array under the tag of their type. Primitive elements have no tag of their own,
references do. -/
def Encode.arrayRegion (sizes : IdSizes) (tag : UInt8) (values : List Value) : Bytes :=
  u8 tag ++ counted (if Decoder.isPrimitiveTag tag then untagged sizes else tagged sizes) values

/-- The tag under which a list of elements is sent: that of the first, or that of objects. -/
def regionTag (values : List Value) : UInt8 := (values.head?.map Value.tag).getD Tag.object

/-- A type identifier behind the tag of classes. -/
def encodeTypeBehindTag (sizes : IdSizes) (c : TypeId) : Bytes := u8 1 ++ typeId sizes c

namespace Command

def encodeReply (sizes : IdSizes) : (c : Command) → c.Reply → Bytes
  | classesBySignature _, (r : List ClassInfo) => counted (ClassInfo.encode sizes) r
  | resumeVm, _ => []
  | createString _, (r : ObjectId) => objectId sizes r
  | typeSignature _, (r : String) => string r
  | typeLoader _, (r : ObjectId) => objectId sizes r
  | typeMethods _, (r : List MethodInfo) => counted (MethodInfo.encode sizes) r
  | typeInterfaces _, (r : List TypeId) => counted (typeId sizes) r
  | superclass _, (r : Option TypeId) => typeId sizes (r.getD 0)
  | invokeStatic _ _ _ _ _, (r : InvokeOutcome) => r.encode sizes
  | newInstance _ _ _ _ _, (r : InvokeOutcome) => r.encode sizes
  | newArray _ _, (r : ObjectId) => u8 Tag.array ++ objectId sizes r
  | reflectedType _, (r : TypeId) => encodeTypeBehindTag sizes r
  | variableTable _ _, (r : Nat × List VariableInfo) =>
    count r.1 ++ counted VariableInfo.encode r.2
  | objectType _, (r : TypeId) => encodeTypeBehindTag sizes r
  | invokeVirtual _ _ _ _ _ _, (r : InvokeOutcome) => r.encode sizes
  | disableCollection _, _ => []
  | enableCollection _, _ => []
  | stringValue _, (r : String) => string r
  | arrayLength _, (r : Int) => i32 r
  | arrayValues _ _ _, (r : List Value) => arrayRegion sizes (regionTag r) r
  | setArrayValues _ _ _, _ => []
  | resumeThread _, _ => []
  | frames _ _ _, (r : List FrameInfo) => counted (FrameInfo.encode sizes) r
  | frameCount _, (r : Int) => i32 r
  | forceReturn _ _, _ => []
  | slotValues _ _ _, (r : List Value) => counted (tagged sizes) r
  | setSlots _ _ _, _ => []
  | setRequest _ _ _, (r : RequestId) => i32 r
  | clearRequest _ _, _ => []

end Command

end StreamTrace
