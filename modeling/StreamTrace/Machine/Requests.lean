import StreamTrace.Machine.Vm

/-!
# Event requests

Which requests are set, and which of them an occurrence in the program meets. The oldest request
that matches raises the event; a request with a count is used up by that.
-/

namespace StreamTrace

def isMethodKind (kind : UInt8) : Bool :=
  kind == EventKind.methodEntry || kind == EventKind.methodExitWithReturnValue

namespace InstalledRequest

def isMethodRequest (r : InstalledRequest) : Bool := isMethodKind r.kind

/-- Whether the request is used up by its first event. -/
def isCounted (r : InstalledRequest) : Bool := r.modifiers.any fun m =>
  match m with
  | .count _ => true
  | _ => false

/-- Whether the request asks for occurrences at that location. -/
def accepts (r : InstalledRequest) (cs : ClassTable) (l : Location) : Bool :=
  r.modifiers.all fun m =>
    match m with
    | .threadOnly t => t == mainThread
    | .classOnly c => cs.isSubtype l.typeId c
    | .locationOnly only => only == l
    | _ => true

/-- Whether the request asks for exceptions that are caught, or for those that are not. -/
def acceptsException (r : InstalledRequest) (isCaught : Bool) : Bool :=
  r.kind == EventKind.exception && r.modifiers.all fun m =>
    match m with
    | .exceptionOnly _ caught uncaught => if isCaught then caught else uncaught
    | .threadOnly t => t == mainThread
    | _ => true

end InstalledRequest

/-- Where a step can end: in a method that was entered, or behind one that returned. -/
inductive StepEnd where
  | entered
  | returned
  deriving Repr, DecidableEq

/-- Whether the request asks for a step that ends there, with so many frames left. -/
def InstalledRequest.acceptsStep (r : InstalledRequest) (point : StepEnd) (frames : Nat) : Bool :=
  r.kind == EventKind.singleStep && r.modifiers.any fun m =>
    match m with
    | .step _ _ depth =>
      match point with
      | .entered => depth == StepDepth.into
      | .returned =>
        depth == StepDepth.into || (depth == StepDepth.out && frames < r.depth)
          || (depth == StepDepth.across && frames ≤ r.depth)
    | _ => false

namespace Vm

def installRequest (kind : UInt8) (modifiers : List EventModifier) : StateM Vm RequestId :=
  modifyGet fun vm =>
    let id := vm.nextRequest
    let requests := vm.requests ++ [{ id, kind, modifiers, depth := vm.frames.length }]
    let vm := { vm with nextRequest := id + 1, requests }
    if isMethodKind kind then
      let count := (requests.filter InstalledRequest.isMethodRequest).length
      (id, { vm with methodRequestsSet := vm.methodRequestsSet + 1
                     maxMethodRequests := max vm.maxMethodRequests count })
    else (id, vm)

def clearRequest (kind : UInt8) (id : RequestId) : StateM Vm Unit := modify fun vm =>
  { vm with requests := vm.requests.filter fun r => !(r.kind == kind && r.id == id) }

/-- The oldest request that accepts, which is used up if it is counted. -/
def takeRequest (accepts : InstalledRequest → Bool) : StateM Vm (Option RequestId) :=
  modifyGet fun vm =>
    match vm.requests.find? accepts with
    | none => (none, vm)
    | some r =>
      if r.isCounted then
        (some r.id, { vm with requests := vm.requests.eraseP accepts })
      else (some r.id, vm)

def topLocation? (vm : Vm) : Option Location := vm.frames.head?.map (·.location)

/-- The event of the request that accepts, at the location on top. -/
def eventFor (accepts : Vm → Location → InstalledRequest → Bool)
    (make : RequestId → Location → Event) : StateM Vm (Option Event) := do
  let vm ← get
  match vm.topLocation? with
  | none => return none
  | some l =>
    let request ← takeRequest (accepts vm l)
    return request.map (make · l)

def entryEvent : StateM Vm (Option Event) :=
  eventFor (fun vm l r => r.kind == EventKind.methodEntry && r.accepts vm.classes l)
    fun request l => .methodEntry request mainThread l

def exitEvent (v : Value) : StateM Vm (Option Event) :=
  eventFor (fun vm l r => r.kind == EventKind.methodExitWithReturnValue && r.accepts vm.classes l)
    fun request l => .methodExitWithValue request mainThread l v

def stepEvent (point : StepEnd) : StateM Vm (Option Event) :=
  eventFor (fun vm _ r => r.acceptsStep point vm.frames.length)
    fun request l => .singleStep request mainThread l

def exceptionEvent (exception : ObjectId) (caught : Option Location) : StateM Vm (Option Event) :=
  eventFor (fun _ _ r => r.acceptsException caught.isSome)
    fun request l => .exception request mainThread l exception caught

/-- The event of a method that is entered: of its entry, or of a step into it. -/
def enteredEvent : StateM Vm (Option Event) := do
  match ← entryEvent with
  | some e => return some e
  | none => stepEvent .entered

/-- Whether a request of that kind asks for occurrences at that location. -/
def isArmed (vm : Vm) (kind : UInt8) (l : Location) : Bool :=
  vm.requests.any fun r => r.kind == kind && r.accepts vm.classes l

/-- Whether a request asks for exceptions that are not caught. -/
def isExceptionArmed (vm : Vm) : Bool := vm.requests.any (·.acceptsException false)

end Vm

end StreamTrace
