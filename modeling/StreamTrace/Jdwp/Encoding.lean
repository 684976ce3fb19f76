import StreamTrace.Bytes
import StreamTrace.Text.Utf8
import StreamTrace.Jdwp.Event

/-!
# Encoding

How numbers, strings, identifiers, locations and values are laid out in a packet. Numbers are
big-endian. Identifiers take as many bytes as the virtual machine announced for their kind, at
most eight. A string is its length in bytes followed by its UTF-8 bytes.
-/

namespace StreamTrace

/-- The widths of identifiers in bytes, by kind. -/
structure IdSizes where
  field : Nat := 8
  method : Nat := 8
  object : Nat := 8
  referenceType : Nat := 8
  frame : Nat := 8
  deriving Repr, DecidableEq, Inhabited

namespace Encode

def u8 (v : UInt8) : Bytes := [v]

def bool (v : Bool) : Bytes := [if v then 1 else 0]

def u16 (v : UInt16) : Bytes := Bytes.ofNat 2 v.toNat

def u32 (v : UInt32) : Bytes := Bytes.ofNat 4 v.toNat

def u64 (v : UInt64) : Bytes := Bytes.ofNat 8 v.toNat

def i32 (v : Int) : Bytes := Bytes.ofInt 4 v

def i64 (v : Int) : Bytes := Bytes.ofInt 8 v

/-- A number of items, bytes or slots. -/
def count (n : Nat) : Bytes := Bytes.ofNat 4 n

def string (s : String) : Bytes :=
  let bytes := Utf8.encode s
  count bytes.length ++ bytes

def id (n size : Nat) : Bytes := Bytes.ofNat (min size 8) n

def objectId (sizes : IdSizes) (n : ObjectId) : Bytes := id n sizes.object

def typeId (sizes : IdSizes) (n : TypeId) : Bytes := id n sizes.referenceType

def methodId (sizes : IdSizes) (n : MethodId) : Bytes := id n sizes.method

def frameId (sizes : IdSizes) (n : FrameId) : Bytes := id n sizes.frame

def location (sizes : IdSizes) (l : Location) : Bytes :=
  u8 l.typeTag ++ typeId sizes l.typeId ++ methodId sizes l.methodId ++ u64 l.index

/-- The content of a value without its tag. -/
def untagged (sizes : IdSizes) : Value → Bytes
  | .boolean v => bool v
  | .byte v => u8 v.toUInt8
  | .char v => u16 v
  | .short v => u16 v.toUInt16
  | .int v => u32 v.toUInt32
  | .long v => u64 v.toUInt64
  | .float bits => u32 bits
  | .double bits => u64 bits
  | .reference _ n => objectId sizes n
  | .void => []

def tagged (sizes : IdSizes) (v : Value) : Bytes := u8 v.tag ++ untagged sizes v

/-- A list with its length before it. -/
def counted {α : Type} (encode : α → Bytes) (items : List α) : Bytes :=
  count items.length ++ items.flatMap encode

end Encode

end StreamTrace
