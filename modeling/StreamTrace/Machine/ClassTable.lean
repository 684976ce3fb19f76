import StreamTrace.Jdwp.Event
import StreamTrace.Jdwp.Error
import StreamTrace.Jvm.MethodSignature
import StreamTrace.Table

/-!
# Loaded classes

The classes of the simulated virtual machine with their methods. `dispatch` finds the code that an
invocation runs, and `isSubtype` follows superclasses and interfaces.
-/

namespace StreamTrace

structure MethodDef where
  id : MethodId
  name : String
  descriptor : String
  isStatic : Bool
  isAbstract : Bool
  deriving Repr, DecidableEq

structure ClassDef where
  id : TypeId
  name : String
  signature : String
  isInterface : Bool := false
  isArray : Bool := false
  superclass : Option TypeId := none
  interfaces : List TypeId := []
  methods : List MethodDef := []
  /-- The loader that defined the class, or 0 for the built-in one. -/
  loader : ObjectId := 0
  /-- The object that stands for the class, once there is one. -/
  classObject : Option ObjectId := none
  locals : Table MethodId (List VariableInfo) := {}
  deriving Repr, DecidableEq

namespace ClassDef

def typeTag (c : ClassDef) : UInt8 :=
  if c.isArray then TypeTag.array
  else if c.isInterface then TypeTag.interface
  else TypeTag.classType

/-- The method declared with that name and descriptor. -/
def method? (c : ClassDef) (name descriptor : String) : Option MethodDef :=
  c.methods.find? fun m => m.name == name && m.descriptor == descriptor

/-- The method with code that is declared with that name and descriptor. -/
def concrete? (c : ClassDef) (name descriptor : String) : Option MethodDef :=
  (c.method? name descriptor).filter (!·.isAbstract)

/-- A class of loader 0 is visible to all loaders, and any other to its own. -/
def visibleTo (c : ClassDef) (loader : ObjectId) : Bool := c.loader == 0 || c.loader == loader

/-- The bits of the modifiers `public` and `static`. -/
def modifierBits (m : MethodDef) : UInt32 := if m.isStatic then staticModifier else 1

def methodInfos (c : ClassDef) : List MethodInfo :=
  c.methods.map fun m =>
    { methodId := m.id, name := m.name, signature := m.descriptor, modifiers := modifierBits m }

def info (c : ClassDef) : ClassInfo :=
  { typeTag := c.typeTag, typeId := c.id, signature := c.signature, status := 7 }

end ClassDef

abbrev ClassTable := List ClassDef

namespace ClassTable

def byId? (cs : ClassTable) (id : TypeId) : Option ClassDef := cs.find? (·.id == id)

/-- The class of that name that a loader sees. -/
def named? (cs : ClassTable) (name : String) (loader : ObjectId) : Option TypeId :=
  (cs.find? fun c => c.name == name && c.visibleTo loader).map (·.id)

def bySignature? (cs : ClassTable) (signature : String) : Option ClassDef :=
  cs.find? (·.signature == signature)

/-- The same table with one class changed. -/
def update (cs : ClassTable) (id : TypeId) (f : ClassDef → ClassDef) : ClassTable :=
  cs.map fun c => if c.id = id then f c else c

/-- The next type to look at: a class, or an interface once no class is left. -/
def pick : (queue interfaces : List TypeId) → Option (TypeId × List TypeId × List TypeId)
  | t :: queue, interfaces => some (t, queue, interfaces)
  | [], t :: interfaces => some (t, [], interfaces)
  | [], [] => none

def unseen (seen ids : List TypeId) : List TypeId := ids.filter fun id => id ∉ seen

/-- Looks for code in the classes of `queue` and above them, and in the interfaces that come up on
the way once no class is left. Each type is looked at once, so `fuel` need not exceed the number
of types. -/
def dispatchFrom (cs : ClassTable) (name descriptor : String) :
    (fuel : Nat) → (seen queue interfaces : List TypeId) → Option (TypeId × MethodId)
  | 0, _, _, _ => none
  | fuel + 1, seen, queue, interfaces =>
    match pick (unseen seen queue) (unseen seen interfaces) with
    | none => none
    | some (current, queue, interfaces) =>
      match cs.byId? current with
      | none => dispatchFrom cs name descriptor fuel (current :: seen) queue interfaces
      | some c =>
        match c.concrete? name descriptor with
        | some m => some (current, m.id)
        | none =>
          dispatchFrom cs name descriptor fuel (current :: seen) (queue ++ c.superclass.toList)
            (interfaces ++ c.interfaces)

/-- The code that an invocation on an object of that class runs. -/
def dispatch (cs : ClassTable) (type : TypeId) (name descriptor : String) :
    Option (TypeId × MethodId) :=
  dispatchFrom cs name descriptor (cs.length + 1) [] [type] []

/-- Looks for `goal` in the types of `queue` and above them. -/
def reaches (cs : ClassTable) (goal : TypeId) : (fuel : Nat) → (seen queue : List TypeId) → Bool
  | 0, _, _ => false
  | fuel + 1, seen, queue =>
    match unseen seen queue with
    | [] => false
    | current :: rest =>
      if current = goal then true
      else
        match cs.byId? current with
        | none => reaches cs goal fuel (current :: seen) rest
        | some c =>
          reaches cs goal fuel (current :: seen) (rest ++ c.superclass.toList ++ c.interfaces)

/-- Whether a type is another one or lies below it. -/
def isSubtype (cs : ClassTable) (type goal : TypeId) : Bool :=
  reaches cs goal (cs.length + 2) [] [type]

end ClassTable

end StreamTrace
