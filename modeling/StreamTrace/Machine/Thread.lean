import StreamTrace.Machine.Requests

/-!
# The thread of the debuggee

Code of the program runs on the machine until it stops at an event, and goes on once it is resumed.
A `Run` is what such code comes to: it has ended, or it waits with what it will do when it goes on.
The machine may have been changed by then.
-/

namespace StreamTrace

inductive Run (α : Type) where
  | ended (a : α) (vm : Vm)
  | waiting (vm : Vm) (resume : Vm → Run α)

namespace Run

variable {α β : Type}

def bind : Run α → (α → Vm → Run β) → Run β
  | ended a vm, f => f a vm
  | waiting vm resume, f => waiting vm fun vm => bind (resume vm) f

/-- The machine in its present state. -/
def vm : Run α → Vm
  | ended _ vm => vm
  | waiting vm _ => vm

end Run

/-- Code of the program. -/
def Thread (α : Type) : Type := Vm → Run α

namespace Thread

variable {α β : Type}

instance : Monad Thread where
  pure a := fun vm => .ended a vm
  bind t f := fun vm => (t vm).bind f

end Thread

/-- Code of the program that may be left without a value. -/
abbrev Code := ExceptT Interruption Thread

namespace Code

variable {α : Type}

/-- Uses the machine. -/
def use (m : StateM Vm α) : Code α := fun vm =>
  let (a, vm) := m.run vm
  .ended (.ok a) vm

def read (f : Vm → α) : Code α := fun vm => .ended (.ok (f vm)) vm

/-- Waits until the thread is resumed. -/
def awaitResume : Code Unit := fun vm =>
  if vm.dead then .ended (.error .exited) vm
  else if ¬vm.suspended then .ended (.ok ()) vm
  else .waiting vm fun vm => .ended (if vm.dead then .error .exited else .ok ()) vm

/-- Stops at the event that is due, if there is one. -/
def stop (due : StateM Vm (Option Event)) : Code Unit := fun vm =>
  if vm.dead then .ended (.error .exited) vm
  else
    match due.run vm with
    | (none, vm) => .ended (.ok ()) vm
    | (some e, vm) => awaitResume { vm with suspended := true, outbox := vm.outbox ++ [e] }

/-- Throws an exception that nothing catches. -/
def raise (className : String) : Code α := do
  let exception ← use (Vm.makeThrowable className)
  stop (Vm.exceptionEvent exception none)
  throw .thrown

/-- Runs code and then removes the frame on top, however the code ends. -/
def popping (body : Code α) : Code α := fun vm =>
  (body.run vm).bind fun r vm => .ended r { vm with frames := vm.frames.tail }

/-- Runs the code of a method in a new frame. -/
def inFrame (type : TypeId) (method : MethodId) (slots : Table Nat Value) (body : Code α) :
    Code α := do
  use do
    let id ← Vm.freshId
    modify fun vm =>
      { vm with frames := { id, location := vm.location type method 0, slots } :: vm.frames }
  popping body

end Code

end StreamTrace
