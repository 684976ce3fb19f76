import StreamTrace.Machine.Boot
import StreamTrace.Machine.Requests
import StreamTrace.Text.Utf8

/-!
# Invocations by the debugger

Constructors and methods that the debugger runs on the stopped thread: finding and defining
classes, making maps, counters and helpers, and the methods of streams, optionals and boxes. An
invocation that would raise a requested event never ends: the event stops the thread that runs it.
-/

namespace StreamTrace

namespace Vm

/-! ## Arguments -/

/-- Whether an argument fits a parameter whose type begins with that character. -/
def fits (parameter : Char) (v : Value) : Bool :=
  if parameter = 'L' ∨ parameter = '[' then v.isReference else v.tag.toNat == parameter.toNat

def fitsAll : List Char → List Value → Bool
  | [], [] => true
  | p :: ps, v :: vs => fits p v && fitsAll ps vs
  | _, _ => false

/-- Refuses arguments whose number or kinds disagree with the descriptor. -/
def requireFitting (descriptor : String) (args : List Value) : VmCommand Unit :=
  if fitsAll (parameterLetters descriptor) args then return () else refuse ErrorCode.typeMismatch

def getEntry (id : ObjectId) : VmCommand TypedObject := do
  match (← get).lookup? id with
  | some e => return e
  | none => refuse ErrorCode.invalidObject

def getClass (type : TypeId) : VmCommand ClassDef := do
  match (← get).classes.byId? type with
  | some c => return c
  | none => refuse ErrorCode.invalidClass

def getMethod (c : ClassDef) (method : MethodId) : VmCommand MethodDef :=
  match c.methods.find? (·.id == method) with
  | some m => return m
  | none => refuse ErrorCode.invalidMethod

/-- The object that an argument refers to. -/
def argumentId (v : Value) : VmCommand ObjectId :=
  match v.objectId? with
  | some id => return id
  | none => refuse ErrorCode.typeMismatch

def isMap : HeapObject → Bool
  | .map _ => true
  | _ => false

def isCounter : HeapObject → Bool
  | .counter _ => true
  | _ => false

/-- An object of the expected kind. -/
def expect (id : ObjectId) (kind : HeapObject → Bool) : VmCommand ObjectId := do
  let e ← getEntry id
  if kind e.object then return id else refuse ErrorCode.typeMismatch

/-- The arguments at these places. -/
def arg (args : List Value) (k : Nat) : Value := args[k]?.getD .null

def mapArgument (v : Value) : VmCommand ObjectId := do expect (← argumentId v) isMap

def counterArgument (v : Value) : VmCommand ObjectId := do expect (← argumentId v) isCounter

/-! ## Outcomes -/

def returned (v : Value) : InvokeOutcome := { value := v, exception := none }

/-- Ends an invocation with a new exception. -/
def thrown (className : String) : VmCommand InvokeOutcome := do
  let exception ← makeThrowable className
  return { value := .null, exception := some exception }

/-- Notes that an invocation never ends. -/
def stall (what : String) : VmCommand InvokeOutcome := do
  modify fun vm => { vm with stalled := vm.stalled ++ [what] }
  throw .timeout

/-- Runs `body` as the invocation `what` of the method at `entered`. -/
def invocation (what : String) (entered : Location) (body : VmCommand InvokeOutcome) :
    VmCommand InvokeOutcome := do
  if (← get).isArmed EventKind.methodEntry entered then stall s!"{what}: method entry"
  else
    let outcome ← body
    let vm ← get
    if outcome.exception.isSome && vm.isExceptionArmed then stall s!"{what}: exception"
    else if outcome.exception.isNone && vm.isArmed EventKind.methodExitWithReturnValue entered then
      stall s!"{what}: method exit"
    else
      modify fun vm => { vm with invocations := vm.invocations ++ [what] }
      return outcome

/-! ## Constructors -/

/-- The object that a constructor makes. -/
def constructed (className descriptor : String) (args : List Value) : VmCommand HeapObject := do
  if className = ClassName.object then return .plain
  else if className = ClassName.linkedHashMap then return .map []
  else if className = ClassName.atomicInteger then
    return .counter ((args.head?.bind Value.asInt?).getD 0)
  else
    match HelperClass.ofName? className with
    | some .collector =>
      if descriptor = HelperClass.collectorConstructor then
        let map := (arg args 0).objectId?
        if let some map := map then
          let _ ← expect map isMap
        let time ← counterArgument (arg args 1)
        return .collector map time (((arg args 2).asBool?).getD false)
      else refuse ErrorCode.notImplemented
    | some .utils => refuse ErrorCode.notImplemented
    | some _ =>
      let before ← mapArgument (arg args 0)
      let after ← mapArgument (arg args 1)
      let time ← counterArgument (arg args 2)
      let predicate ← argumentId (arg args 3)
      return .matcher before after time predicate
    | none => refuse ErrorCode.notImplemented

/-- Makes an object through a constructor. -/
def newInstance (type : TypeId) (method : MethodId) (args : List Value) :
    VmCommand InvokeOutcome := do
  let c ← getClass type
  let m ← getMethod c method
  if m.name ≠ "<init>" then refuse ErrorCode.invalidMethod
  requireFitting m.descriptor args
  let entered := (← get).location type method 0
  invocation s!"new {c.name}{m.descriptor}" entered do
    let object ← constructed c.name m.descriptor args
    return returned (← allocValue type object)

/-! ## Classes -/

/-- The object that stands for a class, made when it is first asked for. -/
def classObject (type : TypeId) : VmCommand ObjectId := do
  let c ← getClass type
  match c.classObject with
  | some id => return id
  | none =>
    let classClass := ((← get).classes.named? ClassName.classClass 0).getD 0
    let id ← alloc classClass (.classObject type)
    modify fun vm =>
      { vm with classes := vm.classes.update type fun c => { c with classObject := some id } }
    return id

def classValue (type : TypeId) : VmCommand InvokeOutcome := do
  return returned (.reference Tag.classObject (← classObject type))

/-- Whether a loader knows the component of an array, given by its signature. -/
def knowsComponent (vm : Vm) (component : String) (loader : ObjectId) : Bool :=
  match signatureToTypeName? component with
  | none => false
  | some element =>
    if component.toList.head? = some 'L' then (vm.classes.named? element loader).isSome else true

/-- The class that a loader finds under a name. The class of an array whose component is known is
made when it is first looked up. -/
def findClass (name : String) (loader : ObjectId) : StateM Vm (Option TypeId) := do
  let vm ← get
  match name.toList with
  | '[' :: component =>
    let component := String.ofList (JavaType.replaceChar '.' '/' component)
    match vm.classes.bySignature? s!"[{component}" with
    | some c => return some c.id
    | none =>
      if vm.knowsComponent component loader then return some (← declareArray component)
      else return none
  | _ => return vm.classes.named? name loader

def textArgument (args : List Value) : VmCommand String := do
  match (← get).stringOf? (arg args 0) with
  | some s => return s
  | none => refuse ErrorCode.typeMismatch

/-- Finds a class by name. -/
def forName (args : List Value) : VmCommand InvokeOutcome := do
  let name ← textArgument args
  match ← findClass name ((arg args 2).objectId?.getD 0) with
  | some type => classValue type
  | none => thrown ClassName.classNotFound

/-- How each helper class is declared. -/
def helperSpec (h : HelperClass) : ClassSpec :=
  let matcher (predicate : String) : ClassSpec :=
    { name := h.name, interfaces := [predicate]
      methods :=
        [("<init>", ((HelperClass.matcherFor? predicate).map (·.2)).getD "", false)] }
  match h with
  | .utils =>
    { name := h.name
      methods := ElementType.all.map fun t =>
        (t.formatMethod, HelperClass.formatDescriptor, true) }
  | .collector =>
    { name := h.name
      interfaces := ["java.util.function.Consumer", "java.util.function.IntConsumer"]
      methods :=
        [("<init>", HelperClass.collectorConstructor, false),
          ("accept", "(Ljava/lang/Object;)V", false), ("accept", "(I)V", false)] }
  | .objectMatcher => matcher "java.util.function.Predicate"
  | .intMatcher => matcher "java.util.function.IntPredicate"
  | .longMatcher => matcher "java.util.function.LongPredicate"
  | .doubleMatcher => matcher "java.util.function.DoublePredicate"

/-- The bytes with which every class file begins. -/
def classFileMagic : List Value := [0xca, 0xfe, 0xba, 0xbe].map fun b => .byte (UInt8.toInt8 b)

/-- Defines a helper class from its class file. -/
def loadHelper (loader : ObjectId) (args : List Value) : VmCommand InvokeOutcome := do
  let name ← textArgument args
  let bytes ← match (arg args 1).objectId?.bind (← get).object? with
    | some (.array _ values) => pure values
    | _ => refuse ErrorCode.typeMismatch
  if ¬classFileMagic.isPrefixOf bytes then thrown "java.lang.ClassFormatError"
  else if (← get).classes.any fun c => c.name == name && c.loader == loader then
    thrown "java.lang.LinkageError"
  else
    match HelperClass.ofName? name with
    | none => thrown "java.lang.ClassFormatError"
    | some h =>
      let type ← define loader (helperSpec h)
      modify fun vm => { vm with defined := vm.defined.set name (vm.timesDefined name + 1) }
      classValue type

/-! ## Methods -/

/-- The signature of the elements of a formatted array. -/
def componentOf : ElementType → String
  | .object => "Ljava/lang/Object;"
  | .int => "I"
  | .long => "J"
  | .double => "D"

/-- An array of the keys of a map and an array of its values, in one array. -/
def formatMap (method : String) (map : Value) : VmCommand InvokeOutcome := do
  let id ← mapArgument map
  match (← getEntry id).object with
  | .map entries =>
    let element := (ElementType.all.find? (·.formatMethod == method)).getD .object
    let values ← materializeAll element (entries.map (·.2))
    let keys ← newArray "I" (entries.map fun e => .int e.1)
    let values ← newArray (componentOf element) values
    return returned (← newArray "Ljava/lang/Object;" [keys, values])
  | _ => refuse ErrorCode.typeMismatch

/-- Runs a method of an object. -/
def runMethod (receiver : ObjectId) (name descriptor : String) (args : List Value) :
    VmCommand InvokeOutcome := do
  let e ← getEntry receiver
  match e.object, name with
  | .string s, "length" => return returned (.int (Int32.ofNat (utf16Length s)))
  | .boxed (.int v), "intValue" => return returned (.int v)
  | .list items, "size" => return returned (.int (Int32.ofNat items.length))
  | .counter n, "get" => return returned (.int n)
  | .counter n, "incrementAndGet" =>
    setObject receiver (.counter (n + 1))
    return returned (.int (n + 1))
  | .optional content, "isPresent" => return returned (.boolean content.isSome)
  | .optional content, "orElse" =>
    match content with
    | none => return returned (arg args 0)
    | some e => return returned (← if descriptor = "(I)I" then pure (unboxed e) else box e)
  | .stream element _, "peek" =>
    let consumer ← argumentId (arg args 0)
    return returned (← allocValue e.type (.stream element (.peek receiver consumer)))
  | .stream element _, "sequential" =>
    return returned (← allocValue e.type (.stream element (.pass receiver)))
  | .stream element _, "parallel" =>
    return returned (← allocValue e.type (.stream element (.pass receiver)))
  | _, _ => refuse ErrorCode.notImplemented

/-- Runs a static method. -/
def runStatic (className name descriptor : String) (args : List Value) : VmCommand InvokeOutcome :=
  if className = ClassName.classClass ∧ name = "forName" then forName args
  else if className = HelperClass.utils.name ∧ descriptor = HelperClass.formatDescriptor then
    formatMap name (arg args 0)
  else refuse ErrorCode.notImplemented

/-- Invokes a method, on a receiver unless it is static. The code that runs is the one that the
receiver's own class has. -/
def invoke (receiver : Option ObjectId) (type : TypeId) (method : MethodId) (args : List Value) :
    VmCommand InvokeOutcome := do
  let c ← getClass type
  let m ← getMethod c method
  if m.isStatic ≠ receiver.isNone then refuse ErrorCode.invalidMethod
  requireFitting m.descriptor args
  let what := s!"{c.name}.{m.name}{m.descriptor}"
  match receiver with
  | none =>
    invocation what ((← get).location type method 0) (runStatic c.name m.name m.descriptor args)
  | some id =>
    let runtime := (← getEntry id).type
    let vm ← get
    if ¬vm.classes.isSubtype runtime type then refuse ErrorCode.invalidMethod
    let (t, code) := (vm.classes.dispatch runtime m.name m.descriptor).getD (type, method)
    invocation what (vm.location t code 0)
      (if m.name = "defineClass" then loadHelper id args
       else runMethod id m.name m.descriptor args)

end Vm

end StreamTrace
