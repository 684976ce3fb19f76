import StreamTrace.Jdwp.Value
import StreamTrace.Table

/-!
# Pinned objects

Objects of the debuggee that are kept from garbage collection. Pinning an object takes two steps
with a command between them: `admission` decides whether to pin, and `pin` records the object once
the debuggee has disabled its collection. `release` hands out all pinned objects, at most once.

The pinned objects are a set, and a set has no order of its own. In which order this one hands out
its members is a parameter of the storage, an `Arrangement`, and nothing else depends on it.
-/

namespace StreamTrace

/-- An order in which a set hands out its members, which are listed as they came in. -/
structure Arrangement where
  arrange : List ObjectId → List ObjectId
  arrange_perm : ∀ ids, (arrange ids).Perm ids

namespace Arrangement

/-- The members come out as they came in. -/
def kept : Arrangement := ⟨id, fun _ => .refl _⟩

/-- The member that came in last comes out first. -/
def reversed : Arrangement := ⟨List.reverse, List.reverse_perm⟩

instance : Inhabited Arrangement := ⟨kept⟩

end Arrangement

/-- The pinned objects, and the same objects grouped by the name of their class. -/
structure Storage where
  byClass : Table String (List ObjectId) := {}
  pinned : List ObjectId := []
  released : Bool := false
  /-- The order in which the pinned objects will be handed out. -/
  order : Arrangement := .kept
  deriving Inhabited

/-- What is to be done to keep an object. -/
inductive Admission where
  | refused
  | present
  | absent
  deriving Repr, DecidableEq

namespace Storage

def admission (s : Storage) (id : ObjectId) : Admission :=
  if s.released then .refused else if id ∈ s.pinned then .present else .absent

def pin (s : Storage) (className : String) (id : ObjectId) : Storage :=
  { s with
    pinned := if id ∈ s.pinned then s.pinned else s.pinned ++ [id]
    byClass := s.byClass.set className ((s.byClass.get? className).getD [] ++ [id]) }

/-- The pinned objects in the order in which they are handed out. -/
def arranged (s : Storage) : List ObjectId := s.order.arrange s.pinned

theorem arranged_perm (s : Storage) : s.arranged.Perm s.pinned := s.order.arrange_perm s.pinned

/-- All pinned objects, or nothing when they were handed out before. -/
def release (s : Storage) : Option (List ObjectId × Storage) :=
  if s.released then none
  else some (s.arranged, { s with byClass := {}, pinned := [], released := true })

end Storage

end StreamTrace
