/-!
# Bytes

Numbers as big-endian byte strings. `ofNat width n` writes the low `width` bytes of `n`, most
significant byte first, and `toNat` reads such a string back; writing keeps exactly the value
modulo `256 ^ width`.
-/

namespace StreamTrace

abbrev Bytes := List UInt8

namespace Bytes

/-- The low `width` bytes of `n`, most significant byte first. -/
def ofNat : Nat → Nat → Bytes
  | 0, _ => []
  | width + 1, n => ofNat width (n / 256) ++ [UInt8.ofNat (n % 256)]

/-- The number that the bytes spell in base 256. -/
def toNat (bytes : Bytes) : Nat := bytes.foldl (fun n b => n * 256 + b.toNat) 0

@[simp] theorem length_ofNat (width n : Nat) : (ofNat width n).length = width := by
  induction width generalizing n with
  | zero => rfl
  | succ width ih => simp [ofNat, ih]

@[simp] theorem toNat_nil : toNat [] = 0 := rfl

theorem toNat_append_singleton (bytes : Bytes) (b : UInt8) :
    toNat (bytes ++ [b]) = toNat bytes * 256 + b.toNat := by
  simp [toNat]

theorem toNat_ofNat (width n : Nat) : toNat (ofNat width n) = n % Nat.pow 256 width := by
  induction width generalizing n with
  | zero => simp [ofNat, Nat.mod_one]
  | succ width ih =>
    have hpow : Nat.pow 256 (width + 1) = 256 * Nat.pow 256 width := Nat.mul_comm _ _
    have h : n % Nat.pow 256 (width + 1) = n % 256 + 256 * (n / 256 % Nat.pow 256 width) := by
      rw [hpow, Nat.mod_mul]
    rw [ofNat, toNat_append_singleton, ih, h, UInt8.toNat_ofNat']
    omega

theorem toNat_ofNat_of_lt {width n : Nat} (h : n < Nat.pow 256 width) :
    toNat (ofNat width n) = n := by
  rw [toNat_ofNat, Nat.mod_eq_of_lt h]

/-- A number in two's complement, `width` bytes wide. -/
def ofInt (width : Nat) (n : Int) : Bytes := ofNat width (n % Nat.pow 256 width).toNat

/-- The signed reading of a string: the upper half of the range stands for negative numbers. -/
def toInt (bytes : Bytes) : Int := Int.bmod (toNat bytes) (Nat.pow 256 bytes.length)

@[simp] theorem length_ofInt (width : Nat) (n : Int) : (ofInt width n).length = width :=
  length_ofNat width _

end Bytes

end StreamTrace
