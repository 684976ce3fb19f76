import Mathlib.Data.List.Induction
import StreamTrace.Proofs.Jdwp.Reading

/-!
# Layouts are uniquely readable

A payload is a list of items, one after the other, and only the reader's list of kinds says where
one ends and the next begins. `Item.read_back` states that writing and reading are inverse in both
directions: what was written is read back, whatever stands behind it, and a string, a location or a
tagged value that is read from any bytes at all is written as those bytes. The one exception is a
truth value, which may be spelled by any byte other than zero.
-/

namespace StreamTrace

/-! ## Items -/

/-- One thing that is written into a payload. -/
inductive Item where
  | u8 (v : UInt8)
  | bool (v : Bool)
  | u16 (v : UInt16)
  | u32 (v : UInt32)
  | i32 (n : Int)
  | u64 (v : UInt64)
  | i64 (n : Int)
  | string (s : String)
  /-- An identifier of a width that is not announced. -/
  | id (n size : Nat)
  | objectId (n : ObjectId)
  | typeId (n : TypeId)
  | location (l : Location)
  | tagged (v : Value)
  | untagged (v : Value)
  deriving Repr, DecidableEq

/-- What a reader has to know of an item in advance. -/
inductive ItemKind where
  | u8
  | bool
  | u16
  | u32
  | i32
  | u64
  | i64
  | string
  | id (size : Nat)
  | objectId
  | typeId
  | location
  | tagged
  | untagged (tag : UInt8)
  deriving Repr, DecidableEq

namespace Item

def kind : Item → ItemKind
  | u8 _ => .u8
  | bool _ => .bool
  | u16 _ => .u16
  | u32 _ => .u32
  | i32 _ => .i32
  | u64 _ => .u64
  | i64 _ => .i64
  | string _ => .string
  | id _ size => .id size
  | objectId _ => .objectId
  | typeId _ => .typeId
  | location _ => .location
  | tagged _ => .tagged
  | untagged v => .untagged v.tag

def encode (sizes : IdSizes) : Item → Bytes
  | u8 v => Encode.u8 v
  | bool v => Encode.bool v
  | u16 v => Encode.u16 v
  | u32 v => Encode.u32 v
  | i32 n => Encode.i32 n
  | u64 v => Encode.u64 v
  | i64 n => Encode.i64 n
  | string s => Encode.string s
  | id n size => Encode.id n size
  | objectId n => Encode.objectId sizes n
  | typeId n => Encode.typeId sizes n
  | location l => Encode.location sizes l
  | tagged v => Encode.tagged sizes v
  | untagged v => Encode.untagged sizes v

/-- The item fits its field. -/
def Fits (sizes : IdSizes) : Item → Prop
  | i32 n => -2147483648 ≤ n ∧ n < 2147483648
  | i64 n => -9223372036854775808 ≤ n ∧ n < 9223372036854775808
  | string s => (Utf8.encode s).length < UInt32.size
  | id n size => 1 ≤ size ∧ size ≤ 8 ∧ n < Nat.pow 256 size
  | objectId n => n < Nat.pow 256 sizes.object
  | typeId n => n < Nat.pow 256 sizes.referenceType
  | location l => l.Fits sizes
  | tagged v => v.Fits sizes
  | untagged v => v.Fits sizes
  | _ => True

end Item

def ItemKind.read (sizes : IdSizes) : ItemKind → Decoder Item
  | u8 => .u8 <$> Decoder.u8
  | bool => .bool <$> Decoder.bool
  | u16 => .u16 <$> Decoder.u16
  | u32 => .u32 <$> Decoder.u32
  | i32 => .i32 <$> Decoder.i32
  | u64 => .u64 <$> Decoder.u64
  | i64 => .i64 <$> Decoder.i64
  | string => .string <$> Decoder.string
  | id size => (Item.id · size) <$> Decoder.id size
  | objectId => .objectId <$> Decoder.objectId sizes
  | typeId => .typeId <$> Decoder.typeId sizes
  | location => .location <$> Decoder.location sizes
  | tagged => .tagged <$> Decoder.tagged sizes
  | untagged tag => .untagged <$> Decoder.untagged sizes tag

/-- Items of these kinds, one after the other. -/
def readItems (sizes : IdSizes) : List ItemKind → Decoder (List Item)
  | [] => return []
  | kind :: kinds => do
    let item ← kind.read sizes
    let items ← readItems sizes kinds
    return item :: items

/-! ## What was written is read -/

namespace Decoder

variable {sizes : IdSizes}

theorem reads_item (hs : sizes.Allowed) {item : Item} (h : item.Fits sizes) :
    Reads (item.kind.read sizes) (item.encode sizes) item := by
  cases item with
  | u8 v => exact (reads_u8 v).map Item.u8
  | bool v => exact (reads_bool v).map Item.bool
  | u16 v => exact (reads_u16 v).map Item.u16
  | u32 v => exact (reads_u32 v).map Item.u32
  | i32 n => exact (reads_i32 h.1 h.2).map Item.i32
  | u64 v => exact (reads_u64 v).map Item.u64
  | i64 n => exact (reads_i64 h.1 h.2).map Item.i64
  | string s => exact (reads_string h).map Item.string
  | id n size => exact (reads_id h.1 h.2.1 h.2.2).map (Item.id · size)
  | objectId n => exact (reads_objectId hs h).map Item.objectId
  | typeId n => exact (reads_typeId hs h).map Item.typeId
  | location l => exact (reads_location hs h).map Item.location
  | tagged v => exact (reads_tagged hs h).map Item.tagged
  | untagged v => exact (reads_untagged hs h).map Item.untagged

theorem reads_items (hs : sizes.Allowed) {items : List Item} (h : ∀ i ∈ items, i.Fits sizes) :
    Reads (readItems sizes (items.map Item.kind)) (items.flatMap (Item.encode sizes)) items := by
  induction items with
  | nil => exact reads_pure []
  | cons item items ih =>
      rw [List.map_cons, List.flatMap_cons, readItems]
      refine (reads_item hs (h item List.mem_cons_self)).bind ?_
      have hrest := ih fun i hi => h i (List.mem_cons_of_mem _ hi)
      exact hrest.bind_nil (reads_pure (item :: items))

/-! ## What is read was written -/

variable {α β : Type}

/-- What `d` reads is read off bytes that are related to it by `P`, and `d` leaves what stands
behind them. -/
def Takes (d : Decoder α) (P : α → Bytes → Prop) : Prop :=
  ∀ position bytes a s, d.run ⟨position, bytes⟩ = (.ok a, s) →
    ∃ taken, P a taken ∧ bytes = taken ++ s.rest ∧ s.position = position + taken.length

theorem run_bind_eq_ok {d : Decoder α} {k : α → Decoder β} {s s' : Input} {y : β}
    (h : (d >>= k).run s = (.ok y, s')) :
    ∃ a mid, d.run s = (.ok a, mid) ∧ (k a).run mid = (.ok y, s') := by
  cases hd : d.run s with
  | mk r mid =>
      cases r with
      | ok a => exact ⟨a, mid, rfl, by rw [← run_bind_ok hd, h]⟩
      | error e =>
          rw [run_bind_error hd] at h
          cases h

theorem Takes.mono {d : Decoder α} {P Q : α → Bytes → Prop} (h : Takes d P)
    (hPQ : ∀ a taken, P a taken → Q a taken) : Takes d Q := by
  intro position bytes a s hrun
  obtain ⟨taken, hP, hrest⟩ := h position bytes a s hrun
  exact ⟨taken, hPQ a taken hP, hrest⟩

theorem takes_pure {P : α → Bytes → Prop} {a : α} (h : P a []) : Takes (pure a) P := by
  intro position bytes a' s hrun
  cases hrun
  exact ⟨[], h, rfl, rfl⟩

theorem takes_throw {P : α → Bytes → Prop} (e : JdwpError) : Takes (throw e) P := by
  intro position bytes a s hrun
  cases hrun

theorem Takes.bind {d : Decoder α} {k : α → Decoder β} {P : α → Bytes → Prop}
    {Q : β → Bytes → Prop} (hd : Takes d P)
    (hk : ∀ a front, P a front → Takes (k a) fun y behind => Q y (front ++ behind)) :
    Takes (d >>= k) Q := by
  intro position bytes y s hrun
  obtain ⟨a, mid, hfirst, hsecond⟩ := run_bind_eq_ok hrun
  obtain ⟨front, hP, rfl, hposition⟩ := hd _ _ _ _ hfirst
  obtain ⟨behind, hQ, hmid, hposition'⟩ := hk a front hP _ _ _ _ hsecond
  refine ⟨front ++ behind, hQ, ?_, ?_⟩
  · rw [List.append_assoc, ← hmid]
  · rw [hposition', hposition, List.length_append, Nat.add_assoc]

theorem Takes.map {d : Decoder α} {P : α → Bytes → Prop} {Q : β → Bytes → Prop} {f : α → β}
    (hd : Takes d P) (h : ∀ a taken, P a taken → Q (f a) taken) : Takes (f <$> d) Q := by
  rw [← bind_pure_comp]
  refine hd.bind fun a front hP => takes_pure ?_
  rw [List.append_nil]
  exact h a front hP

theorem takes_take (n : Nat) : Takes (take n) fun b taken => b = taken ∧ taken.length = n := by
  intro position bytes b s hrun
  unfold take at hrun
  rw [run_bind_ok (d := get) (s := ⟨position, bytes⟩) rfl] at hrun
  split at hrun
  next hlength =>
    cases hrun
    exact ⟨bytes.take n, ⟨rfl, List.length_take_of_le hlength⟩, (List.take_append_drop ..).symm,
      by rw [List.length_take_of_le hlength]⟩
  next => cases hrun

end Decoder

namespace Bytes

theorem ofNat_toNat (b : Bytes) : ofNat b.length (toNat b) = b := by
  induction b using List.reverseRecOn with
  | nil => rfl
  | append_singleton b x ih =>
      have hx := x.toNat_lt
      rw [List.length_append, List.length_singleton, ofNat, toNat_append_singleton,
        show (toNat b * 256 + x.toNat) / 256 = toNat b by omega,
        show (toNat b * 256 + x.toNat) % 256 = x.toNat by omega, ih, UInt8.ofNat_toNat]

theorem toNat_lt (b : Bytes) : toNat b < Nat.pow 256 b.length := by
  have h := toNat_ofNat b.length (toNat b)
  rw [ofNat_toNat] at h
  rw [h]
  exact Nat.mod_lt _ (Nat.pow_pos (by decide))

end Bytes

namespace Decoder

variable {sizes : IdSizes}

/-! ### Numbers and text -/

theorem takes_nat (width : Nat) :
    Takes (nat width) fun n taken => Bytes.ofNat width n = taken ∧ n < Nat.pow 256 width := by
  refine (takes_take width).map ?_
  rintro b taken ⟨rfl, rfl⟩
  exact ⟨Bytes.ofNat_toNat b, Bytes.toNat_lt b⟩

theorem takes_u8 : Takes u8 fun v taken => Encode.u8 v = taken := by
  refine (takes_nat 1).map ?_
  rintro n taken ⟨rfl, hn⟩
  have hsmall : n % 256 = n := Nat.mod_eq_of_lt hn
  show [UInt8.ofNat n] = [UInt8.ofNat (n % 256)]
  rw [hsmall]

theorem takes_u16 : Takes u16 fun v taken => Encode.u16 v = taken := by
  refine (takes_nat 2).map ?_
  rintro n taken ⟨rfl, hn⟩
  show Bytes.ofNat 2 (UInt16.ofNat n).toNat = _
  rw [UInt16.toNat_ofNat_of_lt' hn]

theorem takes_u32 : Takes u32 fun v taken => Encode.u32 v = taken := by
  refine (takes_nat 4).map ?_
  rintro n taken ⟨rfl, hn⟩
  show Bytes.ofNat 4 (UInt32.ofNat n).toNat = _
  rw [UInt32.toNat_ofNat_of_lt' hn]

theorem takes_u64 : Takes u64 fun v taken => Encode.u64 v = taken := by
  refine (takes_nat 8).map ?_
  rintro n taken ⟨rfl, hn⟩
  show Bytes.ofNat 8 (UInt64.ofNat n).toNat = _
  rw [UInt64.toNat_ofNat_of_lt' hn]

/-- A truth value may also be spelled by a byte that is not written for it. -/
theorem takes_bool :
    Takes bool fun v taken => Encode.bool v = taken ∨ ∃ x, x ≠ 0 ∧ taken = [x] ∧ v = true := by
  refine takes_u8.map ?_
  rintro x _ rfl
  by_cases hx : x = 0
  · subst hx
    exact .inl rfl
  · refine .inr ⟨x, hx, rfl, ?_⟩
    simpa using hx

theorem takes_string : Takes string fun s taken => Encode.string s = taken := by
  refine (takes_nat 4).bind ?_
  rintro n _ ⟨rfl, hn⟩
  refine (takes_take n).bind ?_
  rintro b _ ⟨rfl, rfl⟩
  cases hdecode : Utf8.decode b with
  | error fault => exact takes_throw _
  | ok s =>
      refine takes_pure ?_
      show Encode.count (Utf8.encode s).length ++ Utf8.encode s = _
      rw [Utf8.encode_of_decode hdecode, List.append_nil]
      rfl

/-! ### Identifiers, locations and values -/

theorem takes_id (size : Nat) : Takes (id size) fun n taken => Encode.id n size = taken := by
  unfold id
  split
  next => exact takes_throw _
  next hsize =>
    refine (takes_nat size).mono ?_
    rintro n taken ⟨rfl, -⟩
    unfold Encode.id
    rw [Nat.min_eq_left (by omega)]

theorem takes_location :
    Takes (location sizes) fun l taken => Encode.location sizes l = taken := by
  refine takes_u8.bind ?_
  rintro typeTag _ rfl
  refine (takes_id sizes.referenceType).bind ?_
  rintro typeId _ rfl
  refine (takes_id sizes.method).bind ?_
  rintro methodId _ rfl
  refine takes_u64.bind ?_
  rintro index _ rfl
  refine takes_pure ?_
  simp only [Encode.location, Encode.typeId, Encode.methodId, List.append_assoc, List.append_nil]

/-- The bytes that a tagged value was read from are those written for it, or they are the tag of
truth values and any byte other than zero. -/
def Spells (sizes : IdSizes) (v : Value) (taken : Bytes) : Prop :=
  Encode.tagged sizes v = taken ∨
    ∃ x : UInt8, x ≠ 0 ∧ v = .boolean true ∧ taken = Encode.u8 v.tag ++ [x]

theorem Takes.spells {α : Type} {d : Decoder α} {layout : α → Bytes} {make : α → Value}
    {tag : UInt8} (hd : Takes d fun a taken => layout a = taken)
    (h : ∀ a, Encode.tagged sizes (make a) = Encode.u8 tag ++ layout a) :
    Takes (make <$> d) fun v taken => Spells sizes v (Encode.u8 tag ++ taken) := by
  refine hd.map ?_
  rintro a _ rfl
  exact .inl (h a)

theorem takes_untagged (tag : UInt8) :
    Takes (untagged sizes tag) fun v taken => Spells sizes v (Encode.u8 tag ++ taken) := by
  unfold untagged
  -- One case for each tag, in the order in which they are asked for.
  split
  · subst tag
    refine takes_bool.map ?_
    rintro v taken (rfl | ⟨x, hx, rfl, rfl⟩)
    · exact .inl rfl
    · exact .inr ⟨x, hx, rfl, rfl⟩
  split
  · subst tag
    exact takes_u8.spells fun _ => rfl
  split
  · subst tag
    exact takes_u16.spells fun _ => rfl
  split
  · subst tag
    exact takes_u16.spells fun _ => rfl
  split
  · subst tag
    exact takes_u32.spells fun _ => rfl
  split
  · subst tag
    exact takes_u64.spells fun _ => rfl
  split
  · subst tag
    exact takes_u32.spells fun _ => rfl
  split
  · subst tag
    exact takes_u64.spells fun _ => rfl
  split
  · subst tag
    exact takes_pure (.inl rfl)
  · exact (takes_id sizes.object).spells fun _ => rfl

theorem takes_tagged : Takes (tagged sizes) (Spells sizes) := by
  refine takes_u8.bind ?_
  rintro tag _ rfl
  exact takes_untagged tag

end Decoder

/-! ## Both directions -/

/-- Items that were written one after the other are read back by a reader that knows their kinds,
and what stands behind them is left. Conversely, whatever bytes a string, a location or a tagged
value was read from are the bytes that are written for it, except that a truth value may be spelled
by any byte other than zero. -/
theorem Item.read_back {sizes : IdSizes} (hs : sizes.Allowed) {items : List Item}
    (h : ∀ i ∈ items, i.Fits sizes) (suffix : Bytes) :
    (readItems sizes (items.map Item.kind)).run
        (Decoder.input (items.flatMap (Item.encode sizes) ++ suffix)) =
      (.ok items, ⟨(items.flatMap (Item.encode sizes)).length, suffix⟩) ∧
    (∀ position bytes s rest, Decoder.string.run ⟨position, bytes⟩ = (.ok s, rest) →
      bytes = Encode.string s ++ rest.rest) ∧
    (∀ position bytes l rest, (Decoder.location sizes).run ⟨position, bytes⟩ = (.ok l, rest) →
      bytes = Encode.location sizes l ++ rest.rest) ∧
    ∀ position bytes v rest, (Decoder.tagged sizes).run ⟨position, bytes⟩ = (.ok v, rest) →
      bytes = Encode.tagged sizes v ++ rest.rest ∨
        ∃ x : UInt8, x ≠ 0 ∧ v = .boolean true ∧ bytes = Encode.u8 v.tag ++ x :: rest.rest := by
  refine ⟨?_, ?_, ?_, ?_⟩
  · have hwhole := (Decoder.reads_items hs h).whole 0 suffix
    rwa [Nat.zero_add] at hwhole
  · intro position bytes s rest hrun
    obtain ⟨_, rfl, hbytes, -⟩ := Decoder.takes_string position bytes s rest hrun
    exact hbytes
  · intro position bytes l rest hrun
    obtain ⟨_, rfl, hbytes, -⟩ := Decoder.takes_location position bytes l rest hrun
    exact hbytes
  · intro position bytes v rest hrun
    obtain ⟨taken, hspells, hbytes, -⟩ := Decoder.takes_tagged position bytes v rest hrun
    rcases hspells with rfl | ⟨x, hx, hv, rfl⟩
    · exact .inl hbytes
    · refine .inr ⟨x, hx, hv, ?_⟩
      rw [hbytes, List.append_assoc]
      rfl

/-- A text with a character of two bytes, numbers at the ends of their ranges, identifiers of four
widths, and values with and without their tags. -/
def mixedItems : List Item :=
  [.string "né", .i32 (-2147483648), .i64 9223372036854775807, .id 0x123456 3,
    .objectId 0xFFFFFFFF, .location ⟨1, 0xABCDEF, 0xFFFF, 12⟩, .tagged (.object 5),
    .untagged (.reference Tag.string 6), .untagged (.boolean true), .tagged (.float 0x7FC00001)]

/-- These items are read back in front of two bytes that stay, and a truth value that is spelled by
a seven is written with a one. -/
theorem Item.read_back_of_mixedItems : mixedSizes.Allowed ∧ (∀ i ∈ mixedItems, i.Fits mixedSizes) ∧
    (readItems mixedSizes (mixedItems.map Item.kind)).run
        (Decoder.input (mixedItems.flatMap (Item.encode mixedSizes) ++ [1, 2])) =
      (.ok mixedItems, ⟨(mixedItems.flatMap (Item.encode mixedSizes)).length, [1, 2]⟩) ∧
    (Decoder.tagged mixedSizes).run ⟨0, ['Z'.toUInt8, 7, 9]⟩ =
      (.ok (.boolean true), ⟨2, [9]⟩) ∧
    ∃ x : UInt8, x ≠ 0 ∧ ['Z'.toUInt8, 7, 9] = Encode.u8 'Z'.toUInt8 ++ x :: [9] := by
  have hfit : ∀ i ∈ mixedItems, i.Fits mixedSizes := by
    intro i hi
    simp only [mixedItems, List.mem_cons, List.not_mem_nil, or_false] at hi
    rcases hi with rfl | rfl | rfl | rfl | rfl | rfl | rfl | rfl | rfl | rfl
    · show (Utf8.encode "né").length < UInt32.size
      decide
    · exact ⟨by decide, by decide⟩
    · exact ⟨by decide, by decide⟩
    · exact ⟨by decide, by decide, by decide⟩
    · show 0xFFFFFFFF < Nat.pow 256 4
      decide
    · exact ⟨by decide, by decide⟩
    · exact ⟨by decide, by decide, by decide⟩
    · exact ⟨by decide, by decide, by decide⟩
    · exact trivial
    · exact trivial
  obtain ⟨hback, -, -, hspelt⟩ := Item.read_back mixedSizes_allowed hfit [1, 2]
  have hrun : (Decoder.tagged mixedSizes).run ⟨0, ['Z'.toUInt8, 7, 9]⟩ =
      (.ok (.boolean true), ⟨2, [9]⟩) := rfl
  refine ⟨mixedSizes_allowed, hfit, hback, hrun, ?_⟩
  rcases hspelt 0 _ _ _ hrun with hwritten | ⟨x, hx, -, hbytes⟩
  · exact absurd hwritten (by decide)
  · exact ⟨x, hx, hbytes⟩

end StreamTrace
