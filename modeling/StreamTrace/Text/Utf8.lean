import StreamTrace.Bytes

/-!
# UTF-8

Text as UTF-8 bytes. Decoding goes sequence by sequence and stops at the first one that is not
well formed; a `Fault` says where that sequence starts and how many of its bytes are certainly
wrong, or that the bytes end inside it.
-/

namespace StreamTrace

namespace Utf8

/-- The first ill-formed sequence of a byte string: `badLength` bytes from `index` on cannot start
any character, or (when it is `none`) the bytes end in the middle of a character. -/
structure Fault where
  index : Nat
  badLength : Option Nat
  deriving Repr, DecidableEq

def Fault.message (f : Fault) : String :=
  match f.badLength with
  | some n => s!"invalid utf-8 sequence of {n} bytes from index {f.index}"
  | none => s!"incomplete utf-8 byte sequence from index {f.index}"

/-- The one to four bytes of a character. -/
def encodeChar (c : Char) : Bytes :=
  let n := c.toNat
  if n < 0x80 then [UInt8.ofNat n]
  else if n < 0x800 then [UInt8.ofNat (0xC0 + n / 64), UInt8.ofNat (0x80 + n % 64)]
  else if n < 0x10000 then
    [UInt8.ofNat (0xE0 + n / 4096), UInt8.ofNat (0x80 + n / 64 % 64),
      UInt8.ofNat (0x80 + n % 64)]
  else
    [UInt8.ofNat (0xF0 + n / 262144), UInt8.ofNat (0x80 + n / 4096 % 64),
      UInt8.ofNat (0x80 + n / 64 % 64), UInt8.ofNat (0x80 + n % 64)]

def encodeChars (cs : List Char) : Bytes := cs.flatMap encodeChar

def encode (s : String) : Bytes := encodeChars s.toList

def isContinuation (b : UInt8) : Bool := b.toNat / 64 == 2

/-- Whether `second` may follow the leading byte `first` of a three-byte character. Longer forms
of shorter characters and the surrogates are excluded. -/
def secondOfThree (first second : UInt8) : Bool :=
  isContinuation second &&
    (if first = 0xE0 then 0xA0 ≤ second else if first = 0xED then second ≤ 0x9F else true)

/-- Whether `second` may follow the leading byte `first` of a four-byte character. Longer forms of
shorter characters and numbers past the last character are excluded. -/
def secondOfFour (first second : UInt8) : Bool :=
  isContinuation second &&
    (if first = 0xF0 then 0x90 ≤ second else if first = 0xF4 then second ≤ 0x8F else true)

/-- The first character of `bytes` with its length, or how its sequence is wrong. -/
def step (first : UInt8) (rest : Bytes) : Except (Option Nat) (Char × Nat) :=
  let low (b : UInt8) : Nat := b.toNat % 64
  if first < 0x80 then .ok (Char.ofNat first.toNat, 1)
  else if 0xC2 ≤ first ∧ first ≤ 0xDF then
    match rest with
    | [] => .error none
    | b :: _ =>
      if isContinuation b then .ok (Char.ofNat ((first.toNat - 0xC0) * 64 + low b), 2)
      else .error (some 1)
  else if 0xE0 ≤ first ∧ first ≤ 0xEF then
    match rest with
    | [] => .error none
    | b :: rest =>
      if secondOfThree first b then
        match rest with
        | [] => .error none
        | c :: _ =>
          if isContinuation c then
            .ok (Char.ofNat ((first.toNat - 0xE0) * 4096 + low b * 64 + low c), 3)
          else .error (some 2)
      else .error (some 1)
  else if 0xF0 ≤ first ∧ first ≤ 0xF4 then
    match rest with
    | [] => .error none
    | b :: rest =>
      if secondOfFour first b then
        match rest with
        | [] => .error none
        | c :: rest =>
          if isContinuation c then
            match rest with
            | [] => .error none
            | d :: _ =>
              if isContinuation d then
                .ok (Char.ofNat
                  ((first.toNat - 0xF0) * 262144 + low b * 4096 + low c * 64 + low d), 4)
              else .error (some 3)
          else .error (some 2)
      else .error (some 1)
  else .error (some 1)

/-- Decodes from byte number `index` on. `skip` bytes belong to the character before. -/
def decodeFrom : (index skip : Nat) → Bytes → Except Fault (List Char)
  | _, _, [] => .ok []
  | index, skip + 1, _ :: rest => decodeFrom (index + 1) skip rest
  | index, 0, first :: rest =>
    match step first rest with
    | .error bad => .error ⟨index, bad⟩
    | .ok (c, length) => (decodeFrom (index + 1) (length - 1) rest).map (c :: ·)

def decode (bytes : Bytes) : Except Fault String := (decodeFrom 0 0 bytes).map String.ofList

/-- The character that stands for bytes which spell none. -/
def replacement : Char := '\uFFFD'

/-- Decodes with one replacement for each ill-formed sequence. `skip` bytes belong to the sequence
before. -/
def decodeLossyFrom : (skip : Nat) → Bytes → List Char
  | _, [] => []
  | skip + 1, _ :: rest => decodeLossyFrom skip rest
  | 0, first :: rest =>
    match step first rest with
    | .ok (c, length) => c :: decodeLossyFrom (length - 1) rest
    | .error (some bad) => replacement :: decodeLossyFrom (bad - 1) rest
    | .error none => [replacement]

def decodeLossy (bytes : Bytes) : String := String.ofList (decodeLossyFrom 0 bytes)

end Utf8

/-- The number of 16-bit units of a string in UTF-16. -/
def utf16Length (s : String) : Nat :=
  s.toList.foldl (fun n c => n + if c.toNat < 0x10000 then 1 else 2) 0

end StreamTrace
