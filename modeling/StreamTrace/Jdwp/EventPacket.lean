import StreamTrace.Jdwp.Decoding

/-!
# Event packets

The packets in which a virtual machine reports its events: a suspend policy, the number of events,
and each event with a layout of its own. An event of an unknown kind cannot be framed, so it ends
the reading of its packet without being an error; a fault in an event of a known kind is one.
-/

namespace StreamTrace

namespace Event

open Encode in
def encodeFields (sizes : IdSizes) : Event → Bytes
  | singleStep _ t l => objectId sizes t ++ location sizes l
  | breakpoint _ t l => objectId sizes t ++ location sizes l
  | exception _ t l e caught =>
    objectId sizes t ++ location sizes l ++ u8 Tag.object ++ objectId sizes e
      ++ location sizes (caught.getD ⟨0, 0, 0, 0⟩)
  | methodEntry _ t l => objectId sizes t ++ location sizes l
  | methodExit _ t l => objectId sizes t ++ location sizes l
  | methodExitWithValue _ t l v => objectId sizes t ++ location sizes l ++ tagged sizes v
  | classPrepare _ t typeTag c signature status =>
    objectId sizes t ++ u8 typeTag ++ typeId sizes c ++ string signature ++ u32 status
  | vmStart _ t => objectId sizes t
  | vmDeath => []

def encode (sizes : IdSizes) (e : Event) : Bytes :=
  Encode.u8 e.kind ++ Encode.i32 (e.request?.getD 0) ++ e.encodeFields sizes

/-- The payload of a packet with these events. -/
def encodePacket (sizes : IdSizes) (policy : UInt8) (events : List Event) : Bytes :=
  Encode.u8 policy ++ Encode.counted (encode sizes) events

open Decoder in
/-- The next event, or `none` when its kind is unknown. -/
def read (sizes : IdSizes) : Decoder (Option Event) := do
  let kind ← u8
  let request ← i32
  let placed (make : RequestId → ThreadId → Location → Event) : Decoder (Option Event) := do
    let thread ← objectId sizes
    let l ← location sizes
    return some (make request thread l)
  if kind = EventKind.singleStep then placed singleStep
  else if kind = EventKind.breakpoint then placed breakpoint
  else if kind = EventKind.exception then
    let thread ← objectId sizes
    let l ← location sizes
    let (_, thrown) ← taggedObjectId sizes
    let caught ← optionalLocation sizes
    return some (exception request thread l thrown caught)
  else if kind = EventKind.methodEntry then placed methodEntry
  else if kind = EventKind.methodExit then placed methodExit
  else if kind = EventKind.methodExitWithReturnValue then
    let thread ← objectId sizes
    let l ← location sizes
    let v ← tagged sizes
    return some (methodExitWithValue request thread l v)
  else if kind = EventKind.classPrepare then
    let thread ← objectId sizes
    let typeTag ← u8
    let c ← typeId sizes
    let signature ← string
    let status ← u32
    return some (classPrepare request thread typeTag c signature status)
  else if kind = EventKind.vmStart then
    let thread ← objectId sizes
    return some (vmStart request thread)
  else if kind = EventKind.vmDeath then return some vmDeath
  else return none

/-- Up to `n` events from `input`, and the fault that stopped the reading. -/
def readMany (sizes : IdSizes) : (n : Nat) → Input → List Event × Option JdwpError
  | 0, _ => ([], none)
  | n + 1, input =>
    match (read sizes).run input with
    | (.ok (some e), input) =>
      let (events, fault) := readMany sizes n input
      (e :: events, fault)
    | (.ok none, _) => ([], none)
    | (.error fault, _) => ([], some fault)

/-- The events of a packet in order, up to the fault if there is one. -/
def decodePacket (sizes : IdSizes) (payload : Bytes) : List Event × Option JdwpError :=
  let header : Decoder Nat := do
    let _ ← Decoder.u8
    Decoder.count
  match header.run (Decoder.input payload) with
  | (.ok n, input) => readMany sizes n input
  | (.error fault, _) => ([], some fault)

end Event

end StreamTrace
