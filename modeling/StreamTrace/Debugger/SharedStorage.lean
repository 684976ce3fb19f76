import StreamTrace.Debugger.Bridge

/-!
# Shared storages

Several calls may be under way on one storage: calls that keep an object, and calls that dispose
of all pins. A call gives way to the others while the debuggee answers a command of its, so it
looks at the storage before the command and changes it after, and the storage may be another one
by then. `SharedStorage.step?` is one step of one call, and `run` a schedule of such steps.
-/

namespace StreamTrace

/-- How far a call has come. -/
inductive PinCall where
  /-- A call that keeps an object has not begun. -/
  | keep (className : String) (v : Value)
  /-- The debuggee is asked to disable the collection of the object. -/
  | asking (className : String) (id : ObjectId)
  /-- The debuggee has answered, and the object is not recorded yet. -/
  | answered (className : String) (id : ObjectId) (r : Except JdwpError Unit)
  | kept (r : Except TraceError Unit)
  /-- A call that disposes of the pins has not begun. -/
  | dispose
  /-- The debuggee has still to be asked to enable the collection of these. -/
  | enabling (left : List ObjectId)
  | disposed (now : Bool)

namespace PinCall

/-- How a call that keeps an object begins. -/
def ofKeep (s : Storage) (className : String) (v : Value) : PinCall :=
  match v.objectId? with
  | none => kept (.ok ())
  | some id =>
    match s.admission id with
    | .refused => kept (.error .storageReleased)
    | .present => kept (.ok ())
    | .absent => asking className id

/-- How a call that disposes of the pins begins. -/
def ofDispose (s : Storage) : PinCall × Storage :=
  match s.release with
  | none => (disposed false, s)
  | some (ids, s) => (enabling ids, s)

/-- Whether the call has not begun. -/
def IsFresh : PinCall → Prop
  | keep _ _ => True
  | dispose => True
  | _ => False

def HasReturned : PinCall → Prop
  | kept _ => True
  | disposed _ => True
  | _ => False

end PinCall

/-- Records an object once the debuggee has answered. -/
def Storage.record (s : Storage) (className : String) (id : ObjectId) :
    Except JdwpError Unit → Except TraceError Unit × Storage
  | .ok () => (.ok (), s.pin className id)
  | .error e => (.error (.jdwp e), s)

/-- A storage, the calls on it, and what the debuggee was told. -/
structure SharedStorage where
  storage : Storage := {}
  calls : List PinCall
  /-- The objects whose collection was disabled, once for every time. -/
  disabled : List ObjectId := []
  /-- The objects whose collection was enabled, once for every time. -/
  enabled : List ObjectId := []
  /-- The objects that were recorded although they were pinned, or behind the release. -/
  unmatched : List ObjectId := []

namespace SharedStorage

/-- Calls on a new storage, which will hand out its objects in that order. -/
def start (order : Arrangement) (calls : List PinCall) : SharedStorage :=
  { storage := { order }, calls }

def setCall (s : SharedStorage) (i : Nat) (c : PinCall) : SharedStorage :=
  { s with calls := s.calls.set i c }

/-- The next step of call `i`. Where the debuggee answers, it answers `r`; if it is an error, the
command had no effect. -/
def step? (s : SharedStorage) (i : Nat) (r : Except JdwpError Unit) : Option SharedStorage :=
  match s.calls[i]? with
  | none => none
  | some (.keep className v) => some (s.setCall i (.ofKeep s.storage className v))
  | some (.asking className id) =>
    some { s.setCall i (.answered className id r) with
      disabled := if r.isOk then s.disabled ++ [id] else s.disabled }
  | some (.answered className id r) =>
    let (outcome, storage) := s.storage.record className id r
    some { s.setCall i (.kept outcome) with
      storage
      unmatched :=
        if r.isOk && (s.storage.released || s.storage.pinned.contains id) then s.unmatched ++ [id]
        else s.unmatched }
  | some .dispose =>
    let (call, storage) := PinCall.ofDispose s.storage
    some { s.setCall i call with storage }
  | some (.enabling (id :: left)) =>
    some { s.setCall i (.enabling left) with enabled := s.enabled ++ [id] }
  | some (.enabling []) => some (s.setCall i (.disposed true))
  | some (.kept _) => none
  | some (.disposed _) => none

/-- A schedule of steps: which call goes on, and what the debuggee answers if it is asked. -/
abbrev Schedule := List (Nat × Except JdwpError Unit)

def run (schedule : Schedule) (s : SharedStorage) : Option SharedStorage :=
  schedule.foldlM (fun s (i, r) => s.step? i r) s

end SharedStorage

end StreamTrace
