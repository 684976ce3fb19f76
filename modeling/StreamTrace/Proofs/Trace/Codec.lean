import Mathlib.Algebra.Group.Int.Defs
import StreamTrace.Proofs.Ieee.Exact
import StreamTrace.Proofs.Json.Amendments
import StreamTrace.Trace.Codec

/-!
# Traces read back

A trace is read back from the tree of its written form as it was, bit by bit, unless a single or a
double in it is infinite or not a number. Such a value is written as null, and no trace is read from
what holds a null in the place of a number.
-/

namespace StreamTrace

open Json (record field listOf find?)

/-! ## Reading -/

namespace Json

variable {α β : Type} {read : Json → Option α} {a : α} {ok : Bool}

theorem signed?_int {k : Nat} {n : Int} (h : -2 ^ k ≤ n) (h' : n < 2 ^ k) :
    (int n).signed? (k + 1) = some n := by
  refine intIn?_int ?_ ?_
  · simpa using h
  · simpa using h'

/-- A list is read if all its items are. -/
theorem listOf_if {write : α → Json} {ok : α → Bool}
    (hread : ∀ a, read (write a) = if ok a then some a else none) (as : List α) :
    listOf read (.arr (as.map write)) = if as.all ok then some as else none := by
  show (as.map write).mapM read = _
  induction as with
  | nil => rfl
  | cons a as ih =>
      rw [List.map_cons, List.mapM_cons, hread, ih, List.all_cons]
      cases ok a <;> cases as.all ok <;> rfl

/-- A field is read if its member is. -/
theorem field_if {members : List (String × Json)} {name : String} {j : Json}
    (hfound : find? members name = some j) (hread : read j = if ok then some a else none)
    (f : α → FieldReader β) :
    (field name read >>= f) (.named members) = if ok then f a (.named members) else none := by
  show (field name read (.named members)).bind (fun r => f r.1 r.2) = _
  rw [field_named, hfound, Option.bind_some, hread]
  cases ok <;> rfl

end Json

/-! ## Values -/

namespace TraceValue

/-- Whether a value has a written form that is read: a floating-point number is finite, and an
identifier has 64 bits. -/
def isWritable : TraceValue → Bool
  | float bits => FloatFormat.single.isFinite bits.toNat
  | double bits => FloatFormat.double.isFinite bits.toNat
  | object _ id => id < 2 ^ 64
  | _ => true

theorem ofJson?_content (buffered : Bool) {kind : String} (hkind : kind ≠ "null") (j : Json) :
    ofJson? buffered (.obj [("kind", .str kind), ("value", j)]) = ofContent? kind j := by
  have hcontent : (Json.obj [("kind", .str kind), ("value", j)]).withContent? buffered =
      some (kind, some j) := rfl
  rw [ofJson?, hcontent]
  show (if kind = "null" then _ else ofContent? kind j) = _
  rw [if_neg hkind]

theorem single_read (bits : UInt32) :
    (Json.ofDouble (FloatFormat.single.convert .double bits.toNat)).asSingle? =
      if FloatFormat.single.isFinite bits.toNat then some bits else none := by
  cases hfinite : FloatFormat.single.isFinite bits.toNat with
  | false =>
      rw [Json.ofDouble, FloatFormat.not_finite_widened hfinite]
      rfl
  | true =>
      obtain ⟨hfinite', hsize, hback⟩ := FloatFormat.convert_widened bits.toNat_lt hfinite
      rw [Json.ofDouble, if_pos hfinite']
      show some (UInt32.ofNat (FloatFormat.double.convert .single (UInt64.ofNat _).toNat)) = _
      rw [UInt64.toNat_ofNat_of_lt' hsize, hback, UInt32.ofNat_toNat]
      rfl

theorem double_read (bits : UInt64) :
    (Json.ofDouble bits.toNat).asDouble? =
      if FloatFormat.double.isFinite bits.toNat then some bits else none := by
  rw [Json.ofDouble]
  split
  · rw [UInt64.ofNat_toNat]
    rfl
  · rfl

theorem object_read (typeName : String) (id : ObjectId) :
    objectOfJson? (.obj [("typeName", .str typeName), ("id", .int id)]) =
      if (object typeName id).isWritable then some (object typeName id) else none := by
  have hid : (Json.int id).natBelow? 64 =
      if (object typeName id).isWritable then some id else none := by
    rw [Json.natBelow?_int, isWritable]
    simp only [decide_eq_true_eq]
  have htypeName : Json.asString? (.str typeName) = if true then some typeName else none := rfl
  rw [objectOfJson?, record, Json.field_if rfl htypeName, if_pos rfl, Json.field_if rfl hid]
  split <;> rfl

theorem ofJson?_toJson (buffered : Bool) (v : TraceValue) :
    ofJson? buffered v.toJson = if v.isWritable then some v else none := by
  cases v with
  | null => rfl
  | boolean v => exact ofJson?_content buffered (by decide) _
  | byte v =>
      refine (ofJson?_content buffered (by decide) _).trans ?_
      show ((Json.int v.toInt).signed? 8).map _ = _
      rw [Json.signed?_int v.le_toInt v.toInt_lt, Option.map_some, Int8.ofInt_toInt]
      rfl
  | char v =>
      refine (ofJson?_content buffered (by decide) _).trans ?_
      show ((Json.int v.toNat).natBelow? 16).map (fun n => char (UInt16.ofNat n)) = some (char v)
      rw [Json.natBelow?_int, if_pos v.toNat_lt, Option.map_some, UInt16.ofNat_toNat]
  | short v =>
      refine (ofJson?_content buffered (by decide) _).trans ?_
      show ((Json.int v.toInt).signed? 16).map _ = _
      rw [Json.signed?_int v.le_toInt v.toInt_lt, Option.map_some, Int16.ofInt_toInt]
      rfl
  | int v =>
      refine (ofJson?_content buffered (by decide) _).trans ?_
      show ((Json.int v.toInt).signed? 32).map _ = _
      rw [Json.signed?_int v.le_toInt v.toInt_lt, Option.map_some, Int32.ofInt_toInt]
      rfl
  | long v =>
      refine (ofJson?_content buffered (by decide) _).trans ?_
      show ((Json.int v.toInt).signed? 64).map _ = _
      rw [Json.signed?_int v.le_toInt v.toInt_lt, Option.map_some, Int64.ofInt_toInt]
      rfl
  | float bits =>
      refine (ofJson?_content buffered (by decide) _).trans ?_
      show (Json.asSingle? _).map _ = _
      rw [single_read, isWritable]
      split <;> rfl
  | double bits =>
      refine (ofJson?_content buffered (by decide) _).trans ?_
      show (Json.asDouble? _).map _ = _
      rw [double_read, isWritable]
      split <;> rfl
  | string s => exact ofJson?_content buffered (by decide) _
  | object typeName id =>
      refine (ofJson?_content buffered (by decide) _).trans ?_
      exact object_read typeName id

end TraceValue

/-! ## Records -/

/-- A time has 32 bits. -/
theorem time_read (time : Int32) :
    (Json.int time.toInt).signed? 32 = if true then some time.toInt else none :=
  Json.signed?_int time.le_toInt time.toInt_lt

theorem string_read_back (s : String) :
    (Json.str s).asString? = if true then some s else none := rfl

namespace TracedValue

def isWritable (v : TracedValue) : Bool := v.value.isWritable

theorem ofJson?_toJson (v : TracedValue) :
    ofJson? v.toJson = if v.isWritable then some v else none := by
  rw [toJson, ofJson?, record, Json.field_if rfl (time_read v.time), if_pos rfl,
    Json.field_if rfl (v.value.ofJson?_toJson false), Int32.ofInt_toInt, isWritable]
  split <;> rfl

end TracedValue

namespace StageTrace

def isWritable (s : StageTrace) : Bool :=
  s.before.all TracedValue.isWritable && s.after.all TracedValue.isWritable

theorem ofJson?_toJson (s : StageTrace) :
    ofJson? s.toJson = if s.isWritable then some s else none := by
  rw [toJson, ofJson?, record, Json.field_if rfl (string_read_back s.call), if_pos rfl,
    Json.field_if rfl (Json.listOf_if TracedValue.ofJson?_toJson s.before)]
  rw [isWritable]
  cases s.before.all TracedValue.isWritable with
  | false => rfl
  | true =>
      rw [if_pos rfl, Json.field_if rfl (Json.listOf_if TracedValue.ofJson?_toJson s.after),
        Bool.true_and]
      split <;> rfl

end StageTrace

namespace TerminalPayload

def isWritable : TerminalPayload → Bool
  | none => true
  | matched result => result.isWritable
  | optional _ value => value.isWritable
  | collection _ => true

theorem ofJson?_toJson (p : TerminalPayload) :
    ofJson? p.toJson = if p.isWritable then some p else Option.none := by
  cases p with
  | none => rfl
  | matched result =>
      show record _ (.obj _) = _
      rw [record, Json.field_if rfl (result.ofJson?_toJson true), isWritable]
      split <;> rfl
  | optional present value =>
      have hpresent : Json.asBool? (.bool present) =
        if true then some present else Option.none := rfl
      show record _ (.obj _) = _
      rw [record, Json.field_if rfl hpresent, if_pos rfl,
        Json.field_if rfl (value.ofJson?_toJson true), isWritable]
      split <;> rfl
  | collection time =>
      show record _ (.obj _) = _
      rw [record, Json.field_if rfl (time_read time), if_pos rfl, Int32.ofInt_toInt]
      rfl

end TerminalPayload

namespace Outcome

def isWritable : Outcome → Bool
  | returned v => v.isWritable
  | thrown v => v.isWritable
  | void => true

theorem ofJson?_toJson (o : Outcome) :
    ofJson? o.toJson = if o.isWritable then some o else none := by
  cases o with
  | returned v =>
      show ((some v.toJson).bind (TraceValue.ofJson? false)).map returned = _
      rw [Option.bind_some, v.ofJson?_toJson, isWritable]
      split <;> rfl
  | thrown v =>
      show ((some v.toJson).bind (TraceValue.ofJson? false)).map thrown = _
      rw [Option.bind_some, v.ofJson?_toJson, isWritable]
      split <;> rfl
  | void => rfl

end Outcome

/-! ## Traces -/

namespace ChainTrace

/-- Whether all values of a trace can be written. -/
def isWritable (t : ChainTrace) : Bool :=
  t.stages.all StageTrace.isWritable && t.terminal.isWritable && t.outcome.isWritable

/-- A trace is read back as it was written, and if one of its values is infinite or not a number,
nothing is read. This is about the tree of the written form, in which a number is an integer or the
bits of a double; how a number is spelled in a text, and read from one, is left to the library that
does so. -/
theorem trace_read_back (t : ChainTrace) :
    ofJson? t.toJson = if t.isWritable then some t else none := by
  have helapsed : (Json.int t.elapsedMs.toInt).signed? 64 =
      if true then some t.elapsedMs.toInt else none :=
    Json.signed?_int t.elapsedMs.le_toInt t.elapsedMs.toInt_lt
  rw [toJson, ofJson?, record,
    Json.field_if rfl (Json.listOf_if StageTrace.ofJson?_toJson t.stages), isWritable]
  cases t.stages.all StageTrace.isWritable with
  | false => rfl
  | true =>
      rw [if_pos rfl, Json.field_if rfl t.terminal.ofJson?_toJson, Bool.true_and]
      cases t.terminal.isWritable with
      | false => rfl
      | true =>
          rw [if_pos rfl, Json.field_if rfl t.outcome.ofJson?_toJson, Bool.true_and]
          cases t.outcome.isWritable with
          | false => rfl
          | true =>
              rw [if_pos rfl, Json.field_if rfl helapsed, if_pos rfl, Int64.ofInt_toInt]
              rfl

/-- The trace of a stage that an infinite double entered. -/
def infiniteTrace : ChainTrace :=
  { stages := [⟨"count", [⟨1, .double 0x7FF0000000000000⟩], []⟩], terminal := .none
    outcome := .void, elapsedMs := 1 }

/-- The one infinite value makes the whole trace unreadable. -/
theorem infiniteTrace_unread : ofJson? infiniteTrace.toJson = none := rfl

end ChainTrace

end StreamTrace
