import StreamTrace.Bytes

/-!
# Packets

The frames of the protocol. A packet starts with its whole length, its number, a flags byte and two
more bytes: the command set and the command, or in a reply the error code. `Packet.split` cuts the
first packet off a stream of bytes; `split_encode` says that it finds what `encode` wrote.
-/

namespace StreamTrace

structure Packet where
  id : UInt32
  flags : UInt8
  first : UInt8
  second : UInt8
  payload : Bytes
  deriving Repr, DecidableEq, Inhabited

namespace Packet

def headerLength : Nat := 11

def replyFlag : UInt8 := 0x80

def command (id : UInt32) (number : UInt8 × UInt8) (payload : Bytes) : Packet :=
  { id, flags := 0, first := number.1, second := number.2, payload }

def reply (id : UInt32) (errorCode : UInt16) (payload : Bytes) : Packet :=
  { id, flags := replyFlag, first := UInt8.ofNat (errorCode.toNat / 256),
    second := UInt8.ofNat errorCode.toNat, payload }

def isReply (p : Packet) : Bool := p.flags &&& replyFlag != 0

/-- The error code of a reply. -/
def errorCode (p : Packet) : UInt16 := UInt16.ofNat (p.first.toNat * 256 + p.second.toNat)

/-- Whether the packet reports events. -/
def isEvents (p : Packet) : Bool := !p.isReply && p.first == 64 && p.second == 100

def encode (p : Packet) : Bytes :=
  Bytes.ofNat 4 (headerLength + p.payload.length) ++ Bytes.ofNat 4 p.id.toNat
    ++ p.flags :: p.first :: p.second :: p.payload

/-- What the bytes received so far begin with. -/
inductive Split where
  /-- A whole packet, and the bytes behind it. -/
  | packet (p : Packet) (rest : Bytes)
  /-- The beginning of a packet. -/
  | incomplete
  /-- A header that announces less than itself. -/
  | malformed
  deriving Repr, DecidableEq

def split (bytes : Bytes) : Split :=
  match bytes with
  | l0 :: l1 :: l2 :: l3 :: i0 :: i1 :: i2 :: i3 :: flags :: first :: second :: body =>
    let length := Bytes.toNat [l0, l1, l2, l3]
    if length < headerLength then .malformed
    else
      let size := length - headerLength
      if body.length < size then .incomplete
      else
        .packet
          { id := UInt32.ofNat (Bytes.toNat [i0, i1, i2, i3]), flags, first, second,
            payload := body.take size }
          (body.drop size)
  | _ => .incomplete

theorem ofNat_four (n : Nat) : ∃ a b c d, Bytes.ofNat 4 n = [a, b, c, d] := ⟨_, _, _, _, rfl⟩

theorem length_encode (p : Packet) : p.encode.length = headerLength + p.payload.length := by
  simp only [encode, List.length_append, Bytes.length_ofNat, List.length_cons, headerLength]
  omega

/-- A packet whose length fits its field is cut off as it was written, whatever follows. -/
theorem split_encode (p : Packet) (rest : Bytes)
    (h : headerLength + p.payload.length < UInt32.size) :
    split (p.encode ++ rest) = .packet p rest := by
  have hlength := @Bytes.toNat_ofNat_of_lt 4 _ h
  have hnumber := @Bytes.toNat_ofNat_of_lt 4 _ p.id.toNat_lt
  obtain ⟨l0, l1, l2, l3, hl⟩ := ofNat_four (headerLength + p.payload.length)
  obtain ⟨i0, i1, i2, i3, hi⟩ := ofNat_four p.id.toNat
  rw [hl] at hlength
  rw [hi] at hnumber
  unfold encode
  rw [hl, hi]
  simp only [List.cons_append, List.nil_append, split, hlength, hnumber]
  rw [if_neg (by omega)]
  simp

end Packet

end StreamTrace
