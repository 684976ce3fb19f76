import StreamTrace.Debugger.Breakpoint
import StreamTrace.Debugger.Readback
import StreamTrace.Chain.Places
import StreamTrace.Config.Settings

/-!
# Trace sessions

One trace of one chain, from the suspended thread in front of the chain to the thread back in the
invoking frame. The calls of the chain are the stages of the session. They are met in order: the
entry of stage `k` is awaited, then its exit, and only then the entry of stage `k + 1`, so at most
one method request is set at a time. Between a call and the next the stream is replaced by one that
records its elements.

`setup` places the first breakpoint and resumes, `onEvent` goes on with one event, and
`takeBack` undoes what is left of a trace that failed.
-/

namespace StreamTrace

/-- A call of the chain with its breakpoints. -/
structure Stage where
  handler : StageHandler
  entry : Breakpoint
  exit : Breakpoint
  deriving Repr, DecidableEq

/-- The variable whose stream was replaced, with the stream it held. -/
structure Substitution where
  slot : Nat
  held : Value
  restored : Bool := false
  deriving Repr, DecidableEq

/-- How traces are made: the settings, where helper classes come from, and how the methods of a
chain are found. -/
structure TraceOptions where
  settings : TraceSettings := {}
  classFiles : ClassFiles := ClassFiles.none
  findPlaces : StreamChain → Except TraceError Places := StreamChain.places

/-- What stays fixed during a trace. `baseDepth` is the number of frames when it begins, the
invoking one on top. -/
structure TracePlan where
  options : TraceOptions
  chain : StreamChain
  thread : ThreadId
  invoking : Location
  baseDepth : Int

structure SessionState where
  bridge : BridgeState := {}
  methods : MethodLists := {}
  clock : Value := .null
  stages : List Stage := []
  hasSourceStage : Bool := false
  substitution : Option Substitution := none
  /-- The request for exceptions. -/
  guard : Option RequestId := none
  /-- The request for a step. -/
  step : Option RequestId := none
  /-- How often a step into was called for, in 32 bits. -/
  stepAttempts : UInt32 := 0
  thrown : Option ObjectId := none
  startedAt : Nat := 0
  deriving Inhabited

abbrev SessionRoutine := Routine TraceError SessionState

/-- A session's routine whose failures are told to the caller as they are. -/
abbrev SessionStep := Routine TraceFailure SessionState

open Routine in
def frameOnTop {σ : Type} (thread : ThreadId) : Routine TraceError σ FrameInfo := do
  let frames : List FrameInfo ← command (.frames thread 0 1)
  match frames.head? with
  | some frame => return frame
  | none => throw (.tracing s!"thread {thread} has no frames")

namespace SessionState

/-- The state in which a trace begins. Its pins will be handed out in that order. -/
def start (order : Arrangement) : SessionState := { bridge := { storage := { order } } }

def setStage (s : SessionState) (k : Nat) (stage : Stage) : SessionState :=
  { s with stages := s.stages.set k stage }

/-- The first stage whose breakpoint of that kind has set this request. -/
def stageOf? (s : SessionState) (kind : MethodEdge) (request : RequestId) : Option Nat :=
  s.stages.findIdx? fun stage =>
    match kind with
    | .entry => stage.entry.request == some request
    | .exit => stage.exit.request == some request

end SessionState

namespace TracePlan

open Routine

/-- The bridge looks classes up from the class of the invoking frame. -/
def bridge (p : TracePlan) : Bridge :=
  { thread := p.thread
    frameClass := p.invoking.typeId
    classFiles := p.options.classFiles
    singleThreaded := p.options.settings.invokeSingleThreaded }

/-- The plan of a trace from where its thread stands. Nothing is changed in the debuggee. -/
def begin {σ : Type} (options : TraceOptions) (chain : StreamChain) (thread : ThreadId) :
    Routine TraceError σ TracePlan := do
  let frame ← frameOnTop thread
  let baseDepth : Int ← command (.frameCount thread)
  return { options, chain, thread, invoking := frame.location, baseDepth }

/-! ## Parts of the state -/

def inBridge {α : Type} (t : BridgeRoutine α) : SessionRoutine α :=
  t.within (·.bridge) fun bridge s => { s with bridge }

def inMethods {α : Type} (t : Routine TraceError MethodLists α) : SessionRoutine α :=
  t.within (·.methods) fun methods s => { s with methods }

def stageAt (k : Nat) : SessionRoutine Stage := do
  match (← get).stages[k]? with
  | some stage => return stage
  | none => throw (.tracing s!"no stage {k}")

def onEntryPoint {α : Type} (k : Nat) (t : Routine TraceError Breakpoint α) :
    SessionRoutine α := do
  let stage ← stageAt k
  t.within (fun _ => stage.entry) fun entry s => s.setStage k { stage with entry }

def onExitPoint {α : Type} (k : Nat) (t : Routine TraceError Breakpoint α) :
    SessionRoutine α := do
  let stage ← stageAt k
  t.within (fun _ => stage.exit) fun exit s => s.setStage k { stage with exit }

def probe (p : TracePlan) (s : SessionState) : Probe := { bridge := p.bridge, clock := s.clock }

/-- Lets the handler of stage `k` go on. -/
def onHandler {α : Type} (p : TracePlan) (k : Nat)
    (step : StageHandler → Probe → BridgeRoutine (StageHandler × α)) : SessionRoutine α := do
  let stage ← stageAt k
  let (handler, a) ← inBridge (step stage.handler (p.probe (← get)))
  modify fun s => s.setStage k { stage with handler }
  return a

def publish {ε σ : Type} (state : TraceState) : Routine ε σ Unit := perform (.publish state)

def resume (p : TracePlan) : SessionRoutine Unit := command (.resumeThread p.thread)

/-- A refused write is reported and overlooked, unless the settings say otherwise. -/
def overlook (p : TracePlan) (write : SessionRoutine Unit) : SessionRoutine Unit := do
  match ← attempt write with
  | .ok () => return ()
  | .error e =>
    if e.category = .substitution ∧ ¬p.options.settings.failOnSubstitutionError then
      perform (.deliver (.setupFailed e.message))
    else throw e

/-! ## Setting up -/

/-- The handlers of all stages, that of the producing call first if there is one. -/
def handlers (p : TracePlan) (places : Places) : List StageHandler :=
  let source := places.source.toList.map fun _ =>
    StageHandler.source p.chain.sourceElement p.options.settings.sequentialSource
  source ++ p.chain.intermediate.map StageHandler.forIntermediate
    ++ [StageHandler.forTerminal p.chain.terminal.toStreamCall]

def placeStages : List (StageHandler × MethodSignature) → SessionRoutine Unit
  | [] => return ()
  | (handler, signature) :: rest => do
    let entry ← inMethods (Breakpoint.create .entry signature)
    let exit ← inMethods (Breakpoint.create .exit signature)
    modify fun s => { s with stages := s.stages ++ [{ handler, entry, exit }] }
    placeStages rest

/-- The classes that every trace uses. They are found before any request is set, since finding
one can raise an exception that the debuggee handles itself. -/
def preloaded : List String :=
  [ClassName.atomicInteger, ClassName.linkedHashMap, HelperClass.collector.name,
    HelperClass.utils.name, s!"{ClassName.object}[]", "int[]"]

def preload (p : TracePlan) : List String → SessionRoutine Unit
  | [] => return ()
  | className :: rest => do
    let _ ← inBridge (p.bridge.resolveType className)
    preload p rest

/-- The variable of that name which is in scope at `index`. -/
def visibleVariable? (locals : List VariableInfo) (name : String) (index : UInt64) :
    Option VariableInfo :=
  locals.find? fun v => v.name == name && v.isVisibleAt index

/-- Replaces the stream in the source variable by one that is watched. -/
def substituteSource (p : TracePlan) : SessionRoutine Unit := do
  match p.chain.qualifier with
  | .call _ _ => return ()
  | .var _ name =>
    if (← get).substitution.isSome then
      throw (.valueInterception s!"variable `{name}` was already replaced")
    let frame ← frameOnTop p.thread
    let table : Nat × List VariableInfo ←
      command (.variableTable frame.location.typeId frame.location.methodId)
    match visibleVariable? table.2 name frame.location.index with
    | none =>
      throw (.valueInterception s!"variable `{name}` is not visible in the current frame")
    | some v =>
      let values : List Value ←
        command (.slotValues p.thread frame.frameId [(v.slot, v.signature)])
      match values.head? with
      | none => throw (.valueInterception s!"variable `{name}` has no value")
      | some held =>
        let source :=
          StageHandler.source p.chain.sourceElement p.options.settings.sequentialSource
        let (_, stream) ← inBridge (source.afterCall (p.probe (← get)) held)
        let stream ←
          if (← get).stages.isEmpty then pure stream
          else p.onHandler 0 fun h probe => h.beforeCall probe stream
        commandOr (.setSlots p.thread frame.frameId [(v.slot, stream)]) TraceError.ofWrite
        modify fun s => { s with substitution := some { slot := v.slot, held } }

/-- Puts the held stream back, at most once. The invoking frame is found by its distance from
the bottom; if it is gone or another method's, the variable is left as it is. -/
def restoreSource (p : TracePlan) : SessionRoutine Unit := do
  match (← get).substitution with
  | none => return ()
  | some substitution =>
    if substitution.restored then return ()
    else
      modify fun s => { s with substitution := some { substitution with restored := true } }
      let count : Int ← command (.frameCount p.thread)
      if count < p.baseDepth then return ()
      else
        let frames : List FrameInfo ← command (.frames p.thread (count - p.baseDepth) 1)
        match frames.head? with
        | none => throw (.tracing "invoking frame is missing")
        | some frame =>
          if frame.location.sameMethod p.invoking then
            commandOr
              (.setSlots p.thread frame.frameId [(substitution.slot, substitution.held)])
              TraceError.ofWrite
          else return ()

def failAs (key : FailureKey) {α : Type} (t : SessionRoutine α) : SessionStep α :=
  t.mapError (TraceFailure.new key)

/-- A failure while the chain runs. -/
def failRunning {α : Type} (t : SessionRoutine α) : SessionStep α :=
  t.mapError TraceFailure.ofError

/-- Everything before the chain may run: stages, classes, the clock, and the source variable when
no call produces the stream. -/
def prepare (p : TracePlan) (places : Places) : SessionRoutine Unit := do
  modify fun s => { s with hasSourceStage := places.source.isSome }
  placeStages ((p.handlers places).zip places.all)
  let matchers := (← get).stages.filterMap fun stage => stage.handler.matcher?.map (·.name)
  p.preload (preloaded ++ matchers)
  let probe ← inBridge (Probe.new p.bridge)
  modify fun s => { s with clock := probe.clock }
  if ¬(← get).hasSourceStage then
    publish .awaitingQualifierReplacement
    p.substituteSource
  let guard ← EventRequest.guard p.thread
  modify fun s => { s with guard := some guard }
  if ¬(← get).stages.isEmpty then onEntryPoint 0 (Breakpoint.enable p.thread)

/-- Prepares the trace and lets the debuggee run. -/
def setup (p : TracePlan) : SessionStep Unit := do
  publish .placingBreakpoints
  let places ← failAs .cannotFindPlaces (Routine.ofExcept (p.options.findPlaces p.chain))
  failAs .cannotInitializeBreakpoints (p.prepare places)
  publish (.stageActive 0)
  let now : Nat ← perform .clock
  modify fun s => { s with startedAt := now }
  failRunning (command .resumeVm)

/-! ## Entries and exits -/

/-- Stage `k` was entered: its arguments are replaced and its exit is awaited. The exit is
requested after all invocations, which would otherwise raise it. -/
def enterStage (p : TracePlan) (k : Nat) : SessionRoutine Unit := do
  let frame ← frameOnTop p.thread
  onEntryPoint k Breakpoint.consume
  let entry := (← stageAt k).entry
  let arguments ← entry.readArguments p.thread frame.frameId
  let substituted ← p.onHandler k fun h probe => h.spliceArguments probe arguments
  p.overlook (entry.writeArguments p.thread frame.frameId arguments substituted)
  onExitPoint k (Breakpoint.enable p.thread)

/-- Stage `k` returns: the value is replaced and the next stage awaited. Behind the last stage the
way back begins. -/
def leaveStage (p : TracePlan) (k : Nat) (returned : Value) : SessionRoutine Unit := do
  onExitPoint k Breakpoint.consume
  if k + 1 < (← get).stages.length then
    let v ← p.onHandler k fun h probe => h.afterCall probe returned
    let v ← p.onHandler (k + 1) fun h probe => h.beforeCall probe v
    onEntryPoint (k + 1) (Breakpoint.enable p.thread)
    publish (.stageActive (k + 1))
    if v.same returned then return ()
    else p.overlook (EventRequest.forceReturn p.thread v)
  else
    let _ ← p.onHandler k fun h probe => h.afterCall probe returned
    let step ← EventRequest.stepOut p.thread
    modify fun s => { s with step := some step }
    publish .completing

/-- An event of a method request. An event of a method that is not the breakpoint's only resumes
the thread, and one of another request does nothing. -/
def atMethodEvent (p : TracePlan) (kind : MethodEdge) (request : RequestId) (l : Location)
    (returned : Value) : SessionRoutine Unit := do
  match (← get).stageOf? kind request with
  | none => return ()
  | some k =>
    let stage ← stageAt k
    match kind with
    | .entry => if ← inMethods (stage.entry.isAt l) then p.enterStage k
    | .exit => if ← inMethods (stage.exit.isAt l) then p.leaveStage k returned
    p.resume

/-! ## The way back -/

/-- Removes the requests of these stages, whatever the debuggee answers. -/
def clearStages : List Nat → SessionRoutine Unit
  | [] => return ()
  | k :: rest => do
    let _ ← attempt (onEntryPoint k Breakpoint.disable)
    let _ ← attempt (onExitPoint k Breakpoint.disable)
    clearStages rest

def clearIfSet {σ : Type} (kind : UInt8) : Option RequestId → Routine TraceError σ Unit
  | none => return ()
  | some request => commandAnyway (.clearRequest kind request)

/-- Removes every request that is left, whatever the debuggee answers. -/
def clearOwnRequests : SessionRoutine Unit := do
  clearStages (List.range (← get).stages.length)
  let { guard, step, .. } ← get
  modify fun s => { s with guard := none, step := none }
  clearIfSet EventKind.exception guard
  clearIfSet EventKind.singleStep step

/-- The results of all stages and of the chain, still in the debuggee. -/
def gatherResults (p : TracePlan) : SessionRoutine RawResults := do
  let s ← get
  let reports ← collectReports s (s.stages.drop (if s.hasSourceStage then 1 else 0))
  let now : Nat ← perform .clock
  match reports.getLast? with
  | none => throw (.interpret "the terminal produced no result")
  | some terminal =>
    return { intermediate := reports.dropLast, terminal, thrown := s.thrown,
             elapsedMs := Int64.ofNat (min (now - s.startedAt) Int64.maxValue.toInt.toNat) }
where
  collectReports (s : SessionState) : List Stage → SessionRoutine (List Value)
    | [] => return []
    | stage :: rest => do
      let report ← inBridge (stage.handler.result (p.probe s))
      let reports ← collectReports s rest
      return report.toList ++ reports

/-- A trace that is done, with the place where its chain was evaluated. -/
abbrev Finished := ChainTrace × EvaluationContext

/-- The thread is back in the invoking frame: everything is put back and the results are read. -/
def complete (p : TracePlan) : SessionStep Finished := do
  publish .completing
  failRunning clearOwnRequests
  failRunning (p.overlook p.restoreSource)
  failAs .cannotInterpretResult do
    let results ← p.gatherResults
    let packed ← inBridge (p.bridge.pack results)
    let trace ← inBridge (Bridge.interpret p.chain packed)
    return (trace, { thread := p.thread, location := p.invoking })

/-- The thread stopped on its way back: it goes another step unless it has arrived. -/
def atPause (p : TracePlan) : SessionStep (Option Finished) := do
  let count : Int ← failRunning (command (.frameCount p.thread))
  if count ≤ p.baseDepth then
    return some (← p.complete)
  else
    let limit := p.options.settings.maxStepAttempts
    failRunning do
      modify fun s => { s with stepAttempts := s.stepAttempts + 1 }
      if limit < (← get).stepAttempts then
        throw (.tracing s!"did not return to the invoking frame after {limit} steps")
      let step ← EventRequest.stepInto p.thread
      modify fun s => { s with step := some step }
      p.resume
    return none

/-- Whether an exception leaves all the frames in which the chain runs. -/
def escapes (p : TracePlan) (caught : Option Location) : SessionRoutine Bool := do
  match caught with
  | none => return true
  | some l =>
    let count : Int ← command (.frameCount p.thread)
    let inner := count - p.baseDepth
    if inner ≤ 0 then return true
    else
      let frames : List FrameInfo ← command (.frames p.thread 0 inner)
      return ¬frames.any fun frame => frame.location.sameMethod l

/-- An exception was raised. One that is caught inside the chain, and any on the way back, only
resumes the thread. The first that escapes is the outcome. -/
def onException (p : TracePlan) (exception : ObjectId) (caught : Option Location) :
    SessionStep (Option Finished) := do
  if (← get).step.isSome then
    failRunning p.resume
    return none
  else if ← failRunning (p.escapes caught) then
    failRunning (inBridge (Bridge.keep (.object exception)))
    let guard := (← get).guard
    modify fun s => { s with thrown := some exception, guard := none }
    failRunning (clearIfSet EventKind.exception guard)
    publish .completing
    p.atPause
  else
    failRunning p.resume
    return none

/-! ## Events -/

/-- Goes on with an event, up to the finished trace. Events of other threads and of requests that
are not the session's change nothing. -/
def onEvent (p : TracePlan) (e : Event) : SessionStep (Option Finished) := do
  if e.thread?.any (· ≠ p.thread) then return none
  else
    match e with
    | .vmDeath =>
      throw { key := .exceptionDuringExecution, message := "the debuggee terminated" }
    | .methodEntry request _ l =>
      failRunning (p.atMethodEvent .entry request l .void)
      return none
    | .methodExitWithValue request _ l v =>
      failRunning (p.atMethodEvent .exit request l v)
      return none
    | .singleStep request _ _ =>
      if (← get).step = some request then
        modify fun s => { s with step := none }
        commandAnyway (.clearRequest EventKind.singleStep request)
        p.atPause
      else return none
    | .exception request _ _ exception caught =>
      if (← get).guard = some request then p.onException exception caught else return none
    | _ => return none

/-- Takes back what a failed trace left in the debuggee. -/
def takeBack {ε : Type} (p : TracePlan) : Routine ε SessionState Unit := do
  let _ ← attempt clearOwnRequests
  let _ ← attempt p.restoreSource

/-- Releases the objects that the trace pinned. -/
def dispose {ε : Type} : Routine ε SessionState Unit := do
  let _ ← Bridge.dispose.within (·.bridge) fun bridge s => { s with bridge }

end TracePlan

end StreamTrace
