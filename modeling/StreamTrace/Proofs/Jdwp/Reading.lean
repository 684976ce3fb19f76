import StreamTrace.Jdwp.Decoding
import StreamTrace.Proofs.Text.Utf8

/-!
# Reading back what was laid out

A decoder reads a value off its encoding when two things hold. On the encoding, whatever stands
behind it, the decoder gives the value and leaves what stands behind. On an encoding that was cut
short, it fails. Both are kept when one decoder follows another, so they hold of every layout in
`Encode` by the way the layouts are put together.
-/

namespace StreamTrace

namespace Decoder

variable {α β : Type}

/-- `d` reads `a` off `b` and nothing behind it, and fails where the end of `b` is gone. -/
structure Reads (d : Decoder α) (b : Bytes) (a : α) : Prop where
  whole : ∀ (position : Nat) (rest : Bytes),
    d.run ⟨position, b ++ rest⟩ = (.ok a, ⟨position + b.length, rest⟩)
  cut : ∀ (position : Nat) (short gone : Bytes), b = short ++ gone → gone ≠ [] →
    ∃ e s, d.run ⟨position, short⟩ = (.error e, s)

/-! ## One decoder after another -/

theorem run_bind_ok {d : Decoder α} {k : α → Decoder β} {s s' : Input} {a : α}
    (h : d.run s = (.ok a, s')) : (d >>= k).run s = (k a).run s' := by
  rw [ExceptT.run_bind]
  simp only [bind, StateT.bind, h]

theorem run_bind_error {d : Decoder α} {k : α → Decoder β} {s s' : Input} {e : JdwpError}
    (h : d.run s = (.error e, s')) : (d >>= k).run s = (.error e, s') := by
  rw [ExceptT.run_bind]
  simp only [bind, StateT.bind, h]
  rfl

theorem reads_pure (a : α) : Reads (pure a) [] a where
  whole _ _ := rfl
  cut _ _ _ hb hgone := absurd (List.append_eq_nil_iff.mp hb.symm).2 hgone

theorem Reads.bind {d : Decoder α} {k : α → Decoder β} {b c : Bytes} {a : α} {y : β}
    (hd : Reads d b a) (hk : Reads (k a) c y) : Reads (d >>= k) (b ++ c) y where
  whole position rest := by
    rw [List.append_assoc, run_bind_ok (hd.whole position (c ++ rest)), hk.whole,
      List.length_append, Nat.add_assoc]
  cut position short gone hb hgone := by
    -- The end is gone from inside `b`, or `b` is there and the end is gone from behind it.
    rcases List.append_eq_append_iff.mp hb with ⟨behind, rfl, hc⟩ | ⟨missing, hshort, hmissing⟩
    · obtain ⟨e, s, h⟩ := hk.cut (position + b.length) behind gone hc hgone
      exact ⟨e, s, by rw [run_bind_ok (hd.whole position behind), h]⟩
    · cases missing with
      | nil =>
          -- The cut lies right between the two.
          obtain ⟨e, s, h⟩ := hk.cut (position + b.length) [] gone hmissing.symm hgone
          obtain rfl : b = short := by simpa using hshort
          have hwhole := hd.whole position []
          rw [List.append_nil] at hwhole
          exact ⟨e, s, by rw [run_bind_ok hwhole, h]⟩
      | cons x missing =>
          obtain ⟨e, s, h⟩ := hd.cut position short _ hshort (List.cons_ne_nil _ _)
          exact ⟨e, s, run_bind_error h⟩

/-- A last decoder that reads nothing. -/
theorem Reads.bind_nil {d : Decoder α} {k : α → Decoder β} {b : Bytes} {a : α} {y : β}
    (hd : Reads d b a) (hk : Reads (k a) [] y) : Reads (d >>= k) b y := by
  have hread := hd.bind hk
  rwa [List.append_nil] at hread

theorem Reads.map {d : Decoder α} {b : Bytes} {a : α} (f : α → β) (hd : Reads d b a) :
    Reads (f <$> d) b (f a) := by
  rw [← bind_pure_comp]
  exact hd.bind_nil (reads_pure (f a))

theorem reads_take (b : Bytes) : Reads (take b.length) b b where
  whole position rest := by
    unfold take
    rw [run_bind_ok (d := get) (s := ⟨position, b ++ rest⟩) rfl, if_pos (by simp)]
    simp only [List.take_left, List.drop_left]
    rfl
  cut position short gone hb hgone := by
    have hlong : ¬b.length ≤ short.length := by
      have := List.length_pos_iff.mpr hgone
      rw [hb, List.length_append]
      omega
    unfold take
    rw [run_bind_ok (d := get) (s := ⟨position, short⟩) rfl, if_neg hlong]
    exact ⟨_, _, rfl⟩

/-! ## Numbers and text -/

theorem reads_nat {width n : Nat} (h : n < Nat.pow 256 width) :
    Reads (nat width) (Bytes.ofNat width n) n := by
  have htake := (reads_take (Bytes.ofNat width n)).map Bytes.toNat
  rwa [Bytes.length_ofNat, Bytes.toNat_ofNat_of_lt h] at htake

theorem reads_u8 (v : UInt8) : Reads u8 (Encode.u8 v) v := by
  have hbyte : Bytes.ofNat 1 v.toNat = [v] := by
    simp [Bytes.ofNat, Nat.mod_eq_of_lt v.toNat_lt]
  have hread := (@reads_nat 1 _ v.toNat_lt).map UInt8.ofNat
  rwa [hbyte, UInt8.ofNat_toNat] at hread

theorem reads_bool (v : Bool) : Reads bool (Encode.bool v) v := by
  have hread := (reads_u8 (if v then 1 else 0)).map (· != 0)
  cases v <;> exact hread

theorem reads_u16 (v : UInt16) : Reads u16 (Encode.u16 v) v := by
  have hread := (@reads_nat 2 _ v.toNat_lt).map UInt16.ofNat
  rwa [UInt16.ofNat_toNat] at hread

theorem reads_u32 (v : UInt32) : Reads u32 (Encode.u32 v) v := by
  have hread := (@reads_nat 4 _ v.toNat_lt).map UInt32.ofNat
  rwa [UInt32.ofNat_toNat] at hread

theorem reads_u64 (v : UInt64) : Reads u64 (Encode.u64 v) v := by
  have hread := (@reads_nat 8 _ v.toNat_lt).map UInt64.ofNat
  rwa [UInt64.ofNat_toNat] at hread

theorem toInt_ofInt {width : Nat} {n : Int} (hlow : -(Nat.pow 256 width : Int) ≤ n * 2)
    (hhigh : n * 2 < Nat.pow 256 width) : Bytes.toInt (Bytes.ofInt width n) = n := by
  have hpos : (0 : Int) < Nat.pow 256 width := by omega
  have hnat : ((n % Nat.pow 256 width).toNat : Int) = n % Nat.pow 256 width :=
    Int.toNat_of_nonneg (Int.emod_nonneg n (Int.ne_of_gt hpos))
  have hless := Int.emod_lt_of_pos n hpos
  unfold Bytes.toInt
  rw [Bytes.length_ofInt]
  unfold Bytes.ofInt
  rw [Bytes.toNat_ofNat_of_lt (by omega), hnat, Int.emod_bmod]
  exact Int.bmod_eq_of_le_mul_two hlow hhigh

theorem reads_i32_bytes {b : Bytes} (h : b.length = 4) : Reads i32 b (Bytes.toInt b) := by
  have htake := (reads_take b).map Bytes.toInt
  rwa [h] at htake

theorem reads_i32 {n : Int} (hlow : -2147483648 ≤ n) (hhigh : n < 2147483648) :
    Reads i32 (Encode.i32 n) n := by
  have hpow : Nat.pow 256 4 = 4294967296 := rfl
  have hread := reads_i32_bytes (Bytes.length_ofInt 4 n)
  rwa [toInt_ofInt (by rw [hpow]; omega) (by rw [hpow]; omega)] at hread

theorem reads_i64 {n : Int} (hlow : -9223372036854775808 ≤ n) (hhigh : n < 9223372036854775808) :
    Reads i64 (Encode.i64 n) n := by
  have hpow : Nat.pow 256 8 = 18446744073709551616 := rfl
  have hread := (reads_take (Encode.i64 n)).map Bytes.toInt
  rw [show (Encode.i64 n).length = 8 from Bytes.length_ofInt 8 n] at hread
  rwa [show Bytes.toInt (Encode.i64 n) = n from
    toInt_ofInt (by rw [hpow]; omega) (by rw [hpow]; omega)] at hread

theorem reads_count {n : Nat} (h : n < UInt32.size) : Reads count (Encode.count n) n := reads_nat h

theorem reads_string {s : String} (h : (Utf8.encode s).length < UInt32.size) :
    Reads string (Encode.string s) s := by
  refine (reads_count h).bind ?_
  refine (reads_take (Utf8.encode s)).bind_nil ?_
  rw [Utf8.decode_encode]
  exact reads_pure s

/-! ## Identifiers, locations and values -/

theorem reads_id {n size : Nat} (hlow : 1 ≤ size) (hhigh : size ≤ 8)
    (h : n < Nat.pow 256 size) : Reads (id size) (Encode.id n size) n := by
  unfold id Encode.id
  rw [if_neg (by omega), Nat.min_eq_left hhigh]
  exact reads_nat h

end Decoder

/-! ## Widths of identifiers -/

/-- Identifiers of every kind take one to eight bytes. -/
structure IdSizes.Allowed (sizes : IdSizes) : Prop where
  field : 1 ≤ sizes.field ∧ sizes.field ≤ 8
  method : 1 ≤ sizes.method ∧ sizes.method ≤ 8
  object : 1 ≤ sizes.object ∧ sizes.object ≤ 8
  referenceType : 1 ≤ sizes.referenceType ∧ sizes.referenceType ≤ 8
  frame : 1 ≤ sizes.frame ∧ sizes.frame ≤ 8

/-- Widths of identifiers that differ from kind to kind. -/
def mixedSizes : IdSizes := { field := 1, method := 2, object := 4, referenceType := 3, frame := 8 }

theorem mixedSizes_allowed : mixedSizes.Allowed := by
  constructor <;> decide

/-- The identifiers of a location fit their widths. -/
structure Location.Fits (sizes : IdSizes) (l : Location) : Prop where
  typeId : l.typeId < Nat.pow 256 sizes.referenceType
  methodId : l.methodId < Nat.pow 256 sizes.method

/-- A reference fits its width, and its tag is not that of another kind of value. -/
def Value.Fits (sizes : IdSizes) : Value → Prop
  | .reference tag id =>
    id < Nat.pow 256 sizes.object ∧ Decoder.isPrimitiveTag tag = false ∧ tag ≠ Tag.void
  | _ => True

namespace Decoder

variable {sizes : IdSizes}

theorem reads_objectId (hs : sizes.Allowed) {n : ObjectId} (h : n < Nat.pow 256 sizes.object) :
    Reads (objectId sizes) (Encode.objectId sizes n) n :=
  reads_id hs.object.1 hs.object.2 h

theorem reads_typeId (hs : sizes.Allowed) {n : TypeId}
    (h : n < Nat.pow 256 sizes.referenceType) :
    Reads (typeId sizes) (Encode.typeId sizes n) n :=
  reads_id hs.referenceType.1 hs.referenceType.2 h

theorem reads_methodId (hs : sizes.Allowed) {n : MethodId} (h : n < Nat.pow 256 sizes.method) :
    Reads (methodId sizes) (Encode.methodId sizes n) n :=
  reads_id hs.method.1 hs.method.2 h

theorem reads_taggedObjectId (hs : sizes.Allowed) (tag : UInt8) {n : ObjectId}
    (h : n < Nat.pow 256 sizes.object) :
    Reads (taggedObjectId sizes) (Encode.u8 tag ++ Encode.objectId sizes n) (tag, n) := by
  refine (reads_u8 tag).bind ?_
  exact (reads_objectId hs h).map (tag, ·)

theorem reads_location (hs : sizes.Allowed) {l : Location} (h : l.Fits sizes) :
    Reads (location sizes) (Encode.location sizes l) l := by
  unfold location Encode.location
  simp only [List.append_assoc]
  refine (reads_u8 l.typeTag).bind ?_
  refine (reads_typeId hs h.typeId).bind ?_
  refine (reads_methodId hs h.methodId).bind ?_
  exact (reads_u64 l.index).bind_nil (reads_pure l)

/-- A missing location is laid out as the one that is all zeroes. -/
theorem reads_optionalLocation (hs : sizes.Allowed) {l : Option Location}
    (h : ∀ m, l = some m → m.Fits sizes ∧ m ≠ ⟨0, 0, 0, 0⟩) :
    Reads (optionalLocation sizes) (Encode.location sizes (l.getD ⟨0, 0, 0, 0⟩)) l := by
  have hfits : (l.getD ⟨0, 0, 0, 0⟩).Fits sizes := by
    cases l with
    | none => exact ⟨Nat.pow_pos (by omega), Nat.pow_pos (by omega)⟩
    | some m => exact (h m rfl).1
  have hread := (reads_location hs hfits).map fun l => if l = ⟨0, 0, 0, 0⟩ then none else some l
  cases l with
  | none => exact hread
  | some m => rwa [Option.getD_some, if_neg (h m rfl).2] at hread

theorem reads_untagged (hs : sizes.Allowed) {v : Value} (h : v.Fits sizes) :
    Reads (untagged sizes v.tag) (Encode.untagged sizes v) v := by
  cases v with
  | boolean v => exact (reads_bool v).map Value.boolean
  | byte v => exact (reads_u8 v.toUInt8).map fun v => Value.byte v.toInt8
  | char v => exact (reads_u16 v).map Value.char
  | short v => exact (reads_u16 v.toUInt16).map fun v => Value.short v.toInt16
  | int v => exact (reads_u32 v.toUInt32).map fun v => Value.int v.toInt32
  | long v => exact (reads_u64 v.toUInt64).map fun v => Value.long v.toInt64
  | float bits => exact (reads_u32 bits).map Value.float
  | double bits => exact (reads_u64 bits).map Value.double
  | void => exact reads_pure Value.void
  | reference tag n =>
      obtain ⟨hid, hprimitive, hvoid⟩ := h
      have huntagged : untagged sizes tag = Value.reference tag <$> objectId sizes := by
        simp only [isPrimitiveTag, List.any_cons, List.any_nil, Bool.or_eq_false_iff,
          beq_eq_false_iff_ne, ne_eq] at hprimitive
        obtain ⟨hz, hb, hc, hshort, hi, hj, hf, hd, -⟩ := hprimitive
        unfold untagged
        rw [if_neg (Ne.symm hz), if_neg (Ne.symm hb), if_neg (Ne.symm hc), if_neg (Ne.symm hshort),
          if_neg (Ne.symm hi), if_neg (Ne.symm hj), if_neg (Ne.symm hf), if_neg (Ne.symm hd),
          if_neg hvoid]
      show Reads (untagged sizes tag) (Encode.objectId sizes n) _
      rw [huntagged]
      exact (reads_objectId hs hid).map (Value.reference tag)

theorem reads_tagged (hs : sizes.Allowed) {v : Value} (h : v.Fits sizes) :
    Reads (tagged sizes) (Encode.tagged sizes v) v :=
  (reads_u8 v.tag).bind (reads_untagged hs h)

/-! ## Lists -/

section Lists

variable {α : Type} {d : Decoder α} {encode : α → Bytes} {items : List α}

theorem reads_times (h : ∀ a ∈ items, Reads d (encode a) a) :
    Reads (times d items.length) (items.flatMap encode) items := by
  induction items with
  | nil => exact reads_pure []
  | cons a items ih =>
      rw [List.length_cons, List.flatMap_cons, times]
      refine (h a List.mem_cons_self).bind ?_
      have hrest := ih fun a' ha' => h a' (List.mem_cons_of_mem _ ha')
      exact hrest.bind_nil (reads_pure (a :: items))

/-- A list is read back if its length fits the field in front of it. -/
theorem reads_counted (hcount : items.length < UInt32.size)
    (h : ∀ a ∈ items, Reads d (encode a) a) :
    Reads (counted d) (Encode.counted encode items) items :=
  (reads_count hcount).bind (reads_times h)

end Lists

end Decoder

end StreamTrace
