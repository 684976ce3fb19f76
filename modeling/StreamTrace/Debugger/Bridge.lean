import StreamTrace.Debugger.Program
import StreamTrace.Debugger.Storage
import StreamTrace.HelperClass
import StreamTrace.Jvm.MethodSignature

/-!
# The value bridge

Making and reading values in a suspended debuggee: finding and defining classes, creating objects
and arrays, invoking methods, and reading strings and arrays back. Every object that is made or
returned is pinned until the bridge is disposed of. Classes, type names and method lists are asked
for once.
-/

namespace StreamTrace

/-- What a bridge works with: the suspended thread, and a class in whose loader classes are looked
up and defined. -/
structure Bridge where
  thread : ThreadId
  frameClass : TypeId
  classFiles : ClassFiles
  singleThreaded : Bool

/-- What a bridge has learnt, and what it has pinned. -/
structure BridgeState where
  storage : Storage := {}
  loader : Option ObjectId := none
  types : Table String TypeId := {}
  typeNames : Table TypeId String := {}
  methods : Table TypeId (List MethodInfo) := {}
  deriving Inhabited

abbrev BridgeRoutine := Routine TraceError BridgeState

/-- A value of the debugger that can be copied into the debuggee. -/
inductive HostValue where
  | boolean (v : Bool)
  | int (v : Int32)
  | long (v : Int64)
  | double (bits : UInt64)
  | string (s : String)
  deriving Repr, DecidableEq

/-- A refused invocation: wrong arguments for `method`, or the error as it is. -/
def invocationError (method : String) (e : JdwpError) : TraceError :=
  if e.code? = some ErrorCode.typeMismatch then .argumentTypeMismatch method else .jdwp e

/-- How many types a search through supertypes looks at. Type identifiers have 64 bits, so no
hierarchy has more types. -/
def typeSearchBound : Nat := UInt64.size

namespace Bridge

open Routine

def options (b : Bridge) : UInt32 := if b.singleThreaded then invokeSingleThreaded else 0

/-! ## Pins -/

/-- Pins an object under the name of a class. What is no object is left alone. -/
def store (className : String) (v : Value) : BridgeRoutine Unit := do
  match v.objectId? with
  | none => return ()
  | some id =>
    match (← get).storage.admission id with
    | .refused => throw .storageReleased
    | .present => return ()
    | .absent =>
      command (.disableCollection id)
      modify fun s => { s with storage := s.storage.pin className id }

/-- Lets go of these objects, whatever the debuggee answers. -/
def enableAll {ε σ : Type} : List ObjectId → Routine ε σ Unit
  | [] => return ()
  | id :: rest => do
    commandAnyway (.enableCollection id)
    enableAll rest

/-- Releases every pinned object. The answer tells whether this was done now. -/
def dispose {ε : Type} : Routine ε BridgeState Bool := do
  let s ← get
  match s.storage.release with
  | none => return false
  | some (ids, storage) =>
    set { s with storage }
    enableAll ids
    return true

/-! ## Types and methods -/

/-- The methods that a type declares. -/
def methodsOf (type : TypeId) : BridgeRoutine (List MethodInfo) := do
  match (← get).methods.get? type with
  | some methods => return methods
  | none =>
    let methods : List MethodInfo ← command (.typeMethods type)
    modify fun s => { s with methods := s.methods.set type methods }
    return methods

/-- The superclass, if there is one, and the interfaces of a type. For an interface the debuggee
refuses to name a superclass. -/
def supertypes (type : TypeId) : BridgeRoutine (List TypeId) := do
  let superclass : Option TypeId ← do
    match ← answer (.superclass type) with
    | .ok reply => pure reply
    | .error (.vm _) => pure none
    | .error e => throw (.jdwp e)
  let interfaces : List TypeId ← command (.typeInterfaces type)
  return superclass.toList ++ interfaces

/-- Looks at the types of the queue and their supertypes, nearest first and each once, until
`look` finds what it seeks. -/
def searchTypes {α : Type} (look : TypeId → BridgeRoutine (Option α)) :
    (fuel : Nat) → (seen queue : List TypeId) → BridgeRoutine (Option α)
  | 0, _, _ => return none
  | fuel + 1, seen, queue =>
    match queue.dropWhile (· ∈ seen) with
    | [] => return none
    | type :: rest => do
      match ← look type with
      | some a => return some a
      | none =>
        let above ← supertypes type
        searchTypes look fuel (type :: seen) (rest ++ above)

/-- The source name of a type, or its signature when that has none. The signature is taken to be one
that a virtual machine reports (see `JavaType.ofSignature?`). -/
def typeName (type : TypeId) : BridgeRoutine String := do
  match (← get).typeNames.get? type with
  | some name => return name
  | none =>
    let signature : String ← command (.typeSignature type)
    let name := (signatureToTypeName? signature).getD signature
    modify fun s => { s with typeNames := s.typeNames.set type name }
    return name

/-- The method that a type declares or inherits, with the type that declares it. -/
def method (type : TypeId) (name descriptor : String) : BridgeRoutine (TypeId × MethodInfo) := do
  let look (t : TypeId) : BridgeRoutine (Option (TypeId × MethodInfo)) := do
    let methods ← methodsOf t
    return (methods.find? fun m => m.name == name && m.signature == descriptor).map (t, ·)
  match ← searchTypes look typeSearchBound [] [type] with
  | some found => return found
  | none => throw (.methodNotFound name descriptor (← typeName type))

/-- The name of a value's type: of its class, or the keyword of a primitive type. -/
def typeOf (v : Value) : BridgeRoutine String := do
  match v.primitiveName?, v.objectId? with
  | some name, _ => return name
  | none, some id =>
    let type : TypeId ← command (.objectType id)
    typeName type
  | none, none => return if v = .void then "void" else "null"

/-- Whether a value is an object of that class or of a class below it. -/
def isInstanceOf (v : Value) (expected : String) : BridgeRoutine Bool := do
  match v.objectId? with
  | none => return false
  | some id =>
    let type : TypeId ← command (.objectType id)
    let look (t : TypeId) : BridgeRoutine (Option Unit) := do
      return if (← typeName t) = expected then some () else none
    return (← searchTypes look typeSearchBound [] [type]).isSome

def requireInstanceOf (v : Value) (expected : String) : BridgeRoutine Unit := do
  if ← isInstanceOf v expected then return ()
  else throw (.incorrectValueType expected (← typeOf v))

/-! ## Finding and defining classes -/

/-- The loader of the class that the bridge starts from. -/
def classLoader (b : Bridge) : BridgeRoutine ObjectId := do
  match (← get).loader with
  | some loader => return loader
  | none =>
    let loader : ObjectId ← command (.typeLoader b.frameClass)
    modify fun s => { s with loader := some loader }
    return loader

/-- The first of these classes that the loader defined. -/
def loadedBy (loader : ObjectId) : List ClassInfo → BridgeRoutine (Option TypeId)
  | [] => return none
  | c :: rest => do
    let l : ObjectId ← command (.typeLoader c.typeId)
    if l = loader then return some c.typeId else loadedBy loader rest

/-- A class that is loaded already. Of several with the name, that of the bridge's loader goes
first. -/
def alreadyLoaded? (b : Bridge) (className : String) : BridgeRoutine (Option TypeId) := do
  let classes : List ClassInfo ← command (.classesBySignature (typeNameToSignature className))
  let first := classes.head?.map (·.typeId)
  if classes.length ≤ 1 then return first
  else
    let loader ← b.classLoader
    return (← loadedBy loader classes).or first

def ofHost (v : HostValue) : BridgeRoutine Value := do
  match v with
  | .boolean v => return .boolean v
  | .int v => return .int v
  | .long v => return .long v
  | .double bits => return .double bits
  | .string s =>
    let id : ObjectId ← command (.createString s)
    let v := Value.reference Tag.string id
    store ClassName.string v
    return v

def forNameDescriptor : String :=
  "(Ljava/lang/String;ZLjava/lang/ClassLoader;)Ljava/lang/Class;"

def defineClassDescriptor : String := "(Ljava/lang/String;[BII)Ljava/lang/Class;"

/-- The class that the bridge's loader finds, loading it if need be. -/
def classForName (b : Bridge) (className : String) : BridgeRoutine (Option TypeId) := do
  let refuse (reason : String) : TraceError := .valueInstantiation className reason
  let classClass ← do
    match ← b.alreadyLoaded? ClassName.classClass with
    | some type => pure type
    | none => throw (refuse "java.lang.Class is not loaded")
  let (declaring, found) ← method classClass "forName" forNameDescriptor
  let name ← ofHost (.string (lookupName className))
  let loader := Value.reference Tag.classLoader (← b.classLoader)
  let outcome : InvokeOutcome ←
    command (.invokeStatic declaring b.thread found.methodId [name, .boolean true, loader]
      b.options)
  match outcome.exception with
  | some exception =>
    let thrown ← typeOf (.object exception)
    if thrown = ClassName.classNotFound then return none
    else throw (refuse s!"Class.forName threw {thrown}")
  | none =>
    match outcome.value.objectId? with
    | none => throw (refuse "Class.forName returned null")
    | some classObject =>
      let type : TypeId ← command (.reflectedType classObject)
      return some type

/-- Defines a class from its class file in the bridge's loader. Where the class files fail, it fails
alike. -/
def defineClass (b : Bridge) (className : String) : BridgeRoutine Unit := do
  let refuse (reason : String) : TraceError := .valueInstantiation className reason
  let bytes ← do
    match b.classFiles className with
    | .ok (some bytes) => pure bytes
    | .ok none => throw (refuse "no bytecode is registered for this class")
    | .error e => throw e
  let loader ← b.classLoader
  if loader = 0 then throw (refuse "the frame's class has no class loader")
  let arrayType ← do
    match ← b.alreadyLoaded? "byte[]" with
    | some type => pure type
    | none =>
      match ← b.classForName "byte[]" with
      | some type => pure type
      | none => throw (refuse "byte[] is not loaded")
  let values := bytes.map fun v => Value.byte v.toInt8
  let length := Int32.ofNat values.length
  let array : ObjectId ← command (.newArray arrayType length.toInt)
  let bytesValue := Value.reference Tag.array array
  store "byte[]" bytesValue
  command (.setArrayValues array 0 values)
  let name ← ofHost (.string className)
  let loaderType : TypeId ← command (.objectType loader)
  let (declaring, found) ← method loaderType "defineClass" defineClassDescriptor
  let outcome : InvokeOutcome ←
    command (.invokeVirtual loader b.thread declaring found.methodId
      [name, bytesValue, .int 0, .int length] b.options)
  match outcome.exception with
  | some exception =>
    let thrown ← typeOf (.object exception)
    throw (refuse s!"defineClass threw {thrown}")
  | none => return ()

/-- The class of that name: a loaded one, one that its loader finds, or one that is defined
now. -/
def resolveType (b : Bridge) (className : String) : BridgeRoutine TypeId := do
  match (← get).types.get? className with
  | some type => return type
  | none =>
    let type ← do
      match ← b.alreadyLoaded? className with
      | some type => pure type
      | none =>
        match ← b.classForName className with
        | some type => pure type
        | none =>
          b.defineClass className
          match ← b.classForName className with
          | some type => pure type
          | none =>
            throw (.valueInstantiation className "class is still missing after it was defined")
    modify fun s => { s with types := s.types.set className type }
    return type

/-! ## Objects and arrays -/

def newArray (b : Bridge) (arrayType : String) (length : Int32) : BridgeRoutine Value := do
  let type ← b.resolveType arrayType
  let id : ObjectId ← command (.newArray type length.toInt)
  let v := Value.reference Tag.array id
  store arrayType v
  return v

/-- A new object, made by the constructor with that descriptor. For an array type the first
argument is the length. -/
def construct (b : Bridge) (className constructor : String) (args : List Value) :
    BridgeRoutine Value := do
  let called := s!"{className}.<init>{constructor}"
  if endsWithBrackets className then
    match args.head?.bind Value.asInt? with
    | some length => b.newArray className length
    | none => throw (.argumentTypeMismatch called)
  else
    let type ← b.resolveType className
    let (_, found) ← method type "<init>" constructor
    let outcome : InvokeOutcome ←
      commandOr (.newInstance type b.thread found.methodId args b.options) (invocationError called)
    match outcome.exception with
    | some exception =>
      let thrown ← typeOf (.object exception)
      throw (.valueInstantiation className s!"constructor threw {thrown}")
    | none =>
      store className outcome.value
      return outcome.value

/-- A new array of that component type with these elements. -/
def arrayOf (b : Bridge) (component : String) (values : List Value) : BridgeRoutine Value := do
  let array ← b.construct s!"{component}[]" "(I)V" [.int (Int32.ofNat values.length)]
  if values.isEmpty then return array
  else
    commandOr (.setArrayValues (array.objectId?.getD 0) 0 values)
      (invocationError s!"{component}[] store")
    return array

/-- The component type of an array of these values: objects, or the one primitive type of all. -/
def componentOf? (values : List Value) : Option String :=
  if values.all Value.isReference then some ClassName.object
  else
    match values.head?.bind Value.primitiveName? with
    | some name => if values.all (·.primitiveName? == some name) then some name else none
    | none => none

/-- A new array of these values. -/
def array (b : Bridge) (values : List Value) : BridgeRoutine Value :=
  match componentOf? values with
  | some component => b.arrayOf component values
  | none => throw (.tracing "array values must be all references or share one primitive type")

/-! ## Invocations -/

/-- Pins an object under the name of its class. -/
def keep (v : Value) : BridgeRoutine Unit := do
  match v.objectId? with
  | none => return ()
  | some _ =>
    let className ← typeOf v
    store className v

/-- The value that an invocation returned, pinned. -/
def finishInvocation (method : String) (outcome : InvokeOutcome) : BridgeRoutine Value := do
  match outcome.exception with
  | some exception => throw (.remoteException method exception)
  | none =>
    keep outcome.value
    return outcome.value

/-- Invokes a method of an object, found by the object's class. -/
def invoke (b : Bridge) (receiver : Value) (name descriptor : String) (args : List Value) :
    BridgeRoutine Value := do
  match receiver.objectId? with
  | none => throw (.incorrectValueType "object" (← typeOf receiver))
  | some object =>
    let type : TypeId ← command (.objectType object)
    let (declaring, found) ← method type name descriptor
    let outcome : InvokeOutcome ←
      commandOr (.invokeVirtual object b.thread declaring found.methodId args b.options)
        (invocationError s!"{name}{descriptor}")
    finishInvocation name outcome

def invokeStatic (b : Bridge) (className name descriptor : String) (args : List Value) :
    BridgeRoutine Value := do
  let type ← b.resolveType className
  let (declaring, found) ← method type name descriptor
  let outcome : InvokeOutcome ←
    commandOr (.invokeStatic declaring b.thread found.methodId args b.options)
      (invocationError s!"{className}.{name}{descriptor}")
  finishInvocation s!"{className}.{name}" outcome

/-! ## Reading -/

def readString (v : Value) : BridgeRoutine String := do
  match v.objectId? with
  | none => throw (.incorrectValueType ClassName.string "null")
  | some id => command (.stringValue id)

def readArray (v : Value) : BridgeRoutine (List Value) := do
  match v.objectId? with
  | none => throw (.incorrectValueType "array" "null")
  | some id =>
    let length : Int ← command (.arrayLength id)
    if length = 0 then return [] else command (.arrayValues id 0 length)

end Bridge

end StreamTrace
