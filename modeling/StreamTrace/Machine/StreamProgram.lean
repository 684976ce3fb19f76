import StreamTrace.Machine.Evaluation
import StreamTrace.Machine.Boot

/-!
# Simulated programs

A program that evaluates one stream chain, given by its source, its stages and its terminal call.
`chain` is the chain that a tracer would be asked to trace, and `launch` the machine that stands in
front of the statement.
-/

namespace StreamTrace

inductive ProgramStage where
  | filter (f : Lambda)
  | map (f : Lambda)
  /-- A `map` without function, which throws when it is called. -/
  | mapNull
  | peek (f : Lambda)
  | parallel

inductive ProgramTerminal where
  | count
  | anyMatch (f : Lambda)
  | findFirst
  | toList
  | forEach (f : Lambda)

/-- What the local variable of the statement holds: the stream, or a list that is asked for it. -/
inductive ProgramSource where
  | stream (variableName : String)
  | list (variableName : String)
  deriving Repr, DecidableEq

structure StreamProgram where
  element : ElementType
  items : List Element
  source : ProgramSource
  stages : List ProgramStage := []
  terminal : ProgramTerminal := .count
  runs : Nat := 1

namespace StreamProgram

/-- A program over objects that asks the list `list` for its stream. -/
def objects (items : List Element) : StreamProgram :=
  { element := .object, items, source := .list "list" }

/-- A program over integers whose variable `numbers` holds the stream. -/
def ints (items : List Int32) : StreamProgram :=
  { element := .int, items := items.map .int, source := .stream "numbers" }

/-- The same program with the stream in a variable of that name. -/
def inVariable (p : StreamProgram) (name : String) : StreamProgram :=
  { p with source := .stream name }

/-- The same program with the statement evaluated so many times, but at least once. -/
def repeated (p : StreamProgram) (runs : Nat) : StreamProgram := { p with runs := max runs 1 }

/-- The type of the function that a call of that name takes. -/
def lambdaType (element : ElementType) (name : String) : String :=
  if element = .int then
    match name with
    | "filter" => "java.util.function.IntPredicate"
    | "anyMatch" => "java.util.function.IntPredicate"
    | "map" => "java.util.function.IntUnaryOperator"
    | _ => "java.util.function.IntConsumer"
  else
    match name with
    | "filter" => "java.util.function.Predicate"
    | "anyMatch" => "java.util.function.Predicate"
    | "map" => "java.util.function.Function"
    | _ => "java.util.function.Consumer"

/-- The descriptor of the stream method of that name. -/
def descriptor (element : ElementType) (name : String) : String :=
  match (streamMethods element).find? (·.1 == name) with
  | some (_, descriptor) => descriptor
  | none => "()Ljava/util/stream/BaseStream;"

end StreamProgram

/-- The function that a call takes. -/
inductive CallArgument where
  | none
  | null
  | lambda (f : Lambda)

namespace ProgramStage

def name : ProgramStage → String
  | filter _ => "filter"
  | map _ => "map"
  | mapNull => "map"
  | peek _ => "peek"
  | parallel => "parallel"

def argument : ProgramStage → CallArgument
  | filter f => .lambda f
  | map f => .lambda f
  | mapNull => .null
  | peek f => .lambda f
  | parallel => .none

end ProgramStage

namespace ProgramTerminal

def name : ProgramTerminal → String
  | count => "count"
  | anyMatch _ => "anyMatch"
  | findFirst => "findFirst"
  | toList => "toList"
  | forEach _ => "forEach"

def argument : ProgramTerminal → CallArgument
  | count => .none
  | anyMatch f => .lambda f
  | findFirst => .none
  | toList => .none
  | forEach f => .lambda f

def resultType (element : ElementType) : ProgramTerminal → String
  | count => "long"
  | anyMatch _ => "boolean"
  | findFirst => if element = .int then "java.util.OptionalInt" else "java.util.Optional"
  | toList => "java.util.List"
  | forEach _ => "void"

end ProgramTerminal

namespace StreamProgram

/-! ## The chain -/

def argumentTypes (element : ElementType) (name : String) : CallArgument → List String
  | .none => []
  | .null => [lambdaType element name]
  | .lambda _ => [lambdaType element name]

def callText (name : String) : CallArgument → String
  | .none => s!".{name}()"
  | .null => s!".{name}(f)"
  | .lambda _ => s!".{name}(f)"

def sourceText : ProgramSource → String
  | .stream name => name
  | .list name => s!"{name}.stream()"

def streamSignature : MethodSignature :=
  { containingClass := "java.util.Collection", name := "stream", argumentTypes := []
    returnType := "java.util.stream.Stream" }

def qualifier : ProgramSource → Qualifier
  | .stream name => .var name name
  | .list name => .call (sourceText (.list name)) streamSignature

def streamCall (element : ElementType) (name : String) (a : CallArgument)
    (typeAfter : Option ElementType) : StreamCall :=
  { name, arguments := argumentTypes element name a, declaringType := element.streamType
    typeBefore := some element, typeAfter }

/-- The chain that the program evaluates. -/
def chain (p : StreamProgram) : StreamChain :=
  let calls := p.stages.map fun s => callText s.name s.argument
  { text := sourceText p.source ++ String.join calls ++ callText p.terminal.name p.terminal.argument
    qualifier := qualifier p.source
    intermediate := p.stages.map fun s => streamCall p.element s.name s.argument (some p.element)
    terminal :=
      { streamCall p.element p.terminal.name p.terminal.argument none with
        resultType := p.terminal.resultType p.element } }

/-! ## Launching -/

open Vm

/-- Makes the lambda of a call and the call. -/
def prepareCall (element : ElementType) (name : String) (a : CallArgument) :
    StateM Vm ProgramCall := do
  let args ← match a with
    | .none => pure []
    | .null => pure [Value.null]
    | .lambda f =>
      let id ← allocOf (lambdaClass (lambdaType element name)) (.lambda f)
      pure [(← get).valueOf id]
  return { name, descriptor := descriptor element name, args }

def prepareCalls (element : ElementType) : List (String × CallArgument) →
    StateM Vm (List ProgramCall)
  | [] => return []
  | (name, a) :: rest => do
    let c ← prepareCall element name a
    return c :: (← prepareCalls element rest)

/-- Makes the value of the local variable. Its signature and the receiver of the first call come
with it. -/
def prepareSource (p : StreamProgram) : StateM Vm (VariableInfo × Value × CallTarget) := do
  let variableInfo (name signature : String) : VariableInfo :=
    { codeIndex := 0, name, signature, length := 100, slot := 1 }
  match p.source with
  | .stream name =>
    let type := if p.element = .int then "java.util.stream.IntPipeline"
      else "java.util.stream.ReferencePipeline"
    let id ← allocOf type (.stream p.element (.source p.items))
    let v := (← get).valueOf id
    return (variableInfo name (typeNameToSignature p.element.streamType), v, .slot 1)
  | .list name =>
    let id ← allocOf "java.util.ArrayList" (.list p.items)
    let v := (← get).valueOf id
    return (variableInfo name "Ljava/util/List;", v, .collection v)

def thisVariable : VariableInfo :=
  { codeIndex := 0, name := "this", signature := "LMain;", length := 100, slot := 0 }

/-- The place of the statement in its method. -/
def statementIndex : UInt64 := 10

def pushFrame (type : TypeId) (method : MethodId) (index : UInt64) (slots : Table Nat Value) :
    StateM Vm Unit := do
  let id ← freshId
  modify fun vm =>
    { vm with frames := { id, location := vm.location type method index, slots } :: vm.frames }

/-- Sets up the machine in front of the statement. -/
def prepare (p : StreamProgram) : StateM Vm Repetition := do
  let stages := p.stages.map fun s => (s.name, s.argument)
  let calls ←
    prepareCalls p.element (stages ++ [(p.terminal.name, p.terminal.argument)])
  let (variableInfo, v, receiver) ← prepareSource p
  let vm ← get
  let main := vm.appClass "Main"
  let methodId (name descriptor : String) : MethodId :=
    (((vm.classes.byId? main).bind (·.method? name descriptor)).map (·.id)).getD 0
  let run := methodId "run" "()V"
  let this ← alloc main .plain
  modify fun vm =>
    { vm with classes := vm.classes.update main fun c =>
        { c with locals := c.locals.set run [thisVariable, variableInfo] } }
  pushFrame main (methodId "main" "([Ljava/lang/String;)V") 3 ⟨[(0, .null)]⟩
  pushFrame main run statementIndex ⟨[(0, .object this), (1, v)]⟩
  return { receiver, calls, runs := p.runs }

/-- The machine with its thread suspended in front of the statement, and what the thread will
do. -/
def launch (p : StreamProgram) : Run Unit :=
  let (script, vm) := (prepare p).run Vm.booted
  script.main vm

end StreamProgram

/-- The bytes of every helper class, as far as the simulated machine looks at them. -/
def HelperClass.files : ClassFiles := fun name =>
  .ok ((HelperClass.ofName? name).map fun _ => [0xca, 0xfe, 0xba, 0xbe, 0, 0, 0, 52])

end StreamTrace
