import StreamTrace.Jdwp.Encoding
import StreamTrace.Jdwp.Error

/-!
# Decoding

Reading what `Encode` lays out. A decoder consumes bytes from the front; a failing one leaves
consumed what it read before the fault, and reports a protocol error.
-/

namespace StreamTrace

/-- Bytes still to be read, with the number of those read already. -/
structure Input where
  position : Nat
  rest : Bytes
  deriving Repr, DecidableEq

abbrev Decoder := ExceptT JdwpError (StateM Input)

namespace Decoder

def input (bytes : Bytes) : Input := ⟨0, bytes⟩

/-- Runs a decoder from the start of `bytes`; what it leaves over is ignored. -/
def decode {α : Type} (d : Decoder α) (bytes : Bytes) : Except JdwpError α :=
  (d.run (input bytes)).1

def take (n : Nat) : Decoder Bytes := do
  let s ← get
  if n ≤ s.rest.length then
    set { position := s.position + n, rest := s.rest.drop n : Input }
    return s.rest.take n
  else
    let available := s.position + s.rest.length
    throw (.protocol s!"buffer underflow: need {n} bytes at {s.position}, have {available}")

/-- A number of `width` bytes. -/
def nat (width : Nat) : Decoder Nat := Bytes.toNat <$> take width

def u8 : Decoder UInt8 := UInt8.ofNat <$> nat 1

def bool : Decoder Bool := (· != 0) <$> u8

def u16 : Decoder UInt16 := UInt16.ofNat <$> nat 2

def u32 : Decoder UInt32 := UInt32.ofNat <$> nat 4

def u64 : Decoder UInt64 := UInt64.ofNat <$> nat 8

def i32 : Decoder Int := Bytes.toInt <$> take 4

def i64 : Decoder Int := Bytes.toInt <$> take 8

def count : Decoder Nat := nat 4

def string : Decoder String := do
  let bytes ← take (← count)
  match Utf8.decode bytes with
  | .ok s => return s
  | .error fault => throw (.protocol s!"invalid utf-8 string: {fault.message}")

def id (size : Nat) : Decoder Nat :=
  if size = 0 ∨ 8 < size then throw (.protocol s!"invalid id size: {size}") else nat size

def objectId (sizes : IdSizes) : Decoder ObjectId := id sizes.object

def typeId (sizes : IdSizes) : Decoder TypeId := id sizes.referenceType

def methodId (sizes : IdSizes) : Decoder MethodId := id sizes.method

def frameId (sizes : IdSizes) : Decoder FrameId := id sizes.frame

def taggedObjectId (sizes : IdSizes) : Decoder (UInt8 × ObjectId) := do
  let tag ← u8
  let id ← objectId sizes
  return (tag, id)

def location (sizes : IdSizes) : Decoder Location := do
  let typeTag ← u8
  let typeId ← typeId sizes
  let methodId ← methodId sizes
  let index ← u64
  return { typeTag, typeId, methodId, index }

/-- A location that may be missing, which all zeroes stand for. -/
def optionalLocation (sizes : IdSizes) : Decoder (Option Location) := do
  let l ← location sizes
  return if l = ⟨0, 0, 0, 0⟩ then none else some l

/-- The content of a value whose tag is known. -/
def untagged (sizes : IdSizes) (tag : UInt8) : Decoder Value :=
  if tag = 'Z'.toUInt8 then Value.boolean <$> bool
  else if tag = 'B'.toUInt8 then (fun v => Value.byte v.toInt8) <$> u8
  else if tag = 'C'.toUInt8 then Value.char <$> u16
  else if tag = 'S'.toUInt8 then (fun v => Value.short v.toInt16) <$> u16
  else if tag = 'I'.toUInt8 then (fun v => Value.int v.toInt32) <$> u32
  else if tag = 'J'.toUInt8 then (fun v => Value.long v.toInt64) <$> u64
  else if tag = 'F'.toUInt8 then Value.float <$> u32
  else if tag = 'D'.toUInt8 then Value.double <$> u64
  else if tag = Tag.void then pure Value.void
  else Value.reference tag <$> objectId sizes

def tagged (sizes : IdSizes) : Decoder Value := do untagged sizes (← u8)

/-- The same thing `n` times. -/
def times {α : Type} (d : Decoder α) : (n : Nat) → Decoder (List α)
  | 0 => return []
  | n + 1 => do
    let a ← d
    let as ← times d n
    return a :: as

/-- A list with its length before it. -/
def counted {α : Type} (d : Decoder α) : Decoder (List α) := do times d (← count)

def isPrimitiveTag (tag : UInt8) : Bool :=
  ['Z', 'B', 'C', 'S', 'I', 'J', 'F', 'D'].any fun c => c.toUInt8 == tag

/-- The elements of an array: one tag for all, and then each element with a tag of its own when
they are references. -/
def arrayRegion (sizes : IdSizes) : Decoder (List Value) := do
  let tag ← u8
  let n ← count
  times (if isPrimitiveTag tag then untagged sizes tag else tagged sizes) n

end Decoder

end StreamTrace
