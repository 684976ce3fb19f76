import StreamTrace.Jdwp.Codec
import StreamTrace.Jdwp.Payload

/-!
# Commands in JSON

The arguments and the replies of commands in JSON. Which command is meant is told by its number.
-/

namespace StreamTrace

open Json (ofNat ofList ofOption)

namespace Command

def arguments : Command → List Json
  | classesBySignature s => [.str s]
  | resumeVm => []
  | createString s => [.str s]
  | typeSignature t => [ofNat t]
  | typeLoader t => [ofNat t]
  | typeMethods t => [ofNat t]
  | typeInterfaces t => [ofNat t]
  | superclass t => [ofNat t]
  | invokeStatic t thread m args options =>
    [ofNat t, ofNat thread, ofNat m, ofList Value.toJson args, ofNat options.toNat]
  | newInstance t thread m args options =>
    [ofNat t, ofNat thread, ofNat m, ofList Value.toJson args, ofNat options.toNat]
  | newArray t n => [ofNat t, .int n]
  | reflectedType o => [ofNat o]
  | variableTable t m => [ofNat t, ofNat m]
  | objectType o => [ofNat o]
  | invokeVirtual o thread t m args options =>
    [ofNat o, ofNat thread, ofNat t, ofNat m, ofList Value.toJson args, ofNat options.toNat]
  | disableCollection o => [ofNat o]
  | enableCollection o => [ofNat o]
  | stringValue o => [ofNat o]
  | arrayLength o => [ofNat o]
  | arrayValues o first n => [ofNat o, .int first, .int n]
  | setArrayValues o first values => [ofNat o, .int first, ofList Value.toJson values]
  | resumeThread t => [ofNat t]
  | frames t start n => [ofNat t, .int start, .int n]
  | frameCount t => [ofNat t]
  | forceReturn t v => [ofNat t, v.toJson]
  | slotValues t f slots =>
    [ofNat t, ofNat f, ofList (fun (slot, s) => .arr [ofNat slot, .str s]) slots]
  | setSlots t f values =>
    [ofNat t, ofNat f, ofList (fun (slot, v) => .arr [ofNat slot, Value.toJson v]) values]
  | setRequest kind policy modifiers =>
    [ofNat kind.toNat, ofNat policy.toNat, ofList EventModifier.toJson modifiers]
  | clearRequest kind r => [ofNat kind.toNat, .int r]

/-- A slot with what comes with it. -/
def slotWith? {α : Type} (read : Json → Option α) (j : Json) : Option (Nat × α) := do
  return (← (← j.item? 0).natBelow? 32, ← read (← j.item? 1))

/-- The command of that number with those arguments. -/
def ofArguments? (number : UInt8 × UInt8) (args : List Json) : Option Command := do
  let id (i : Nat) : Option Nat := args[i]?.bind (·.natBelow? 64)
  let int (i : Nat) : Option Int := args[i]?.bind (·.signed? 32)
  let text (i : Nat) : Option String := args[i]?.bind Json.asString?
  let values (i : Nat) : Option (List Value) := args[i]?.bind Value.listOfJson?
  let byte (i : Nat) : Option UInt8 := (args[i]?.bind (·.natBelow? 8)).map UInt8.ofNat
  let word (i : Nat) : Option UInt32 := (args[i]?.bind (·.natBelow? 32)).map UInt32.ofNat
  let items (i : Nat) : Option (List Json) := args[i]?.bind Json.asArray?
  match number with
  | (1, 2) => return classesBySignature (← text 0)
  | (1, 9) => return resumeVm
  | (1, 11) => return createString (← text 0)
  | (2, 1) => return typeSignature (← id 0)
  | (2, 2) => return typeLoader (← id 0)
  | (2, 5) => return typeMethods (← id 0)
  | (2, 10) => return typeInterfaces (← id 0)
  | (3, 1) => return superclass (← id 0)
  | (3, 3) => return invokeStatic (← id 0) (← id 1) (← id 2) (← values 3) (← word 4)
  | (3, 4) => return newInstance (← id 0) (← id 1) (← id 2) (← values 3) (← word 4)
  | (4, 1) => return newArray (← id 0) (← int 1)
  | (17, 1) => return reflectedType (← id 0)
  | (6, 2) => return variableTable (← id 0) (← id 1)
  | (9, 1) => return objectType (← id 0)
  | (9, 6) => return invokeVirtual (← id 0) (← id 1) (← id 2) (← id 3) (← values 4) (← word 5)
  | (9, 7) => return disableCollection (← id 0)
  | (9, 8) => return enableCollection (← id 0)
  | (10, 1) => return stringValue (← id 0)
  | (13, 1) => return arrayLength (← id 0)
  | (13, 2) => return arrayValues (← id 0) (← int 1) (← int 2)
  | (13, 3) => return setArrayValues (← id 0) (← int 1) (← values 2)
  | (11, 3) => return resumeThread (← id 0)
  | (11, 6) => return frames (← id 0) (← int 1) (← int 2)
  | (11, 7) => return frameCount (← id 0)
  | (11, 14) => return forceReturn (← id 0) (← Value.ofJson? (← args[1]?))
  | (16, 1) => return slotValues (← id 0) (← id 1) (← (← items 2).mapM (slotWith? Json.asString?))
  | (16, 2) => return setSlots (← id 0) (← id 1) (← (← items 2).mapM (slotWith? Value.ofJson?))
  | (15, 1) => return setRequest (← byte 0) (← byte 1) (← (← items 2).mapM EventModifier.ofJson?)
  | (15, 2) => return clearRequest (← byte 0) (← int 1)
  | _ => none

/-! ## Replies -/

def replyToJson : (c : Command) → c.Reply → Json
  | classesBySignature _, r => ofList ClassInfo.toJson r
  | resumeVm, _ => .null
  | createString _, r => ofNat r
  | typeSignature _, r => .str r
  | typeLoader _, r => ofNat r
  | typeMethods _, r => ofList MethodInfo.toJson r
  | typeInterfaces _, r => ofList ofNat r
  | superclass _, r => ofOption ofNat r
  | invokeStatic _ _ _ _ _, r => InvokeOutcome.toJson r
  | newInstance _ _ _ _ _, r => InvokeOutcome.toJson r
  | newArray _ _, r => ofNat r
  | reflectedType _, r => ofNat r
  | variableTable _ _, (n, locals) => .arr [ofNat n, ofList VariableInfo.toJson locals]
  | objectType _, r => ofNat r
  | invokeVirtual _ _ _ _ _ _, r => InvokeOutcome.toJson r
  | disableCollection _, _ => .null
  | enableCollection _, _ => .null
  | stringValue _, r => .str r
  | arrayLength _, r => .int r
  | arrayValues _ _ _, r => ofList Value.toJson r
  | setArrayValues _ _ _, _ => .null
  | resumeThread _, _ => .null
  | frames _ _ _, r => ofList FrameInfo.toJson r
  | frameCount _, r => .int r
  | forceReturn _ _, _ => .null
  | slotValues _ _ _, r => ofList Value.toJson r
  | setSlots _ _ _, _ => .null
  | setRequest _ _ _, r => .int r
  | clearRequest _ _, _ => .null

def replyOfJson? : (c : Command) → Json → Option c.Reply
  | classesBySignature _, j => do (← j.asArray?).mapM ClassInfo.ofJson?
  | resumeVm, _ => some ()
  | createString _, j => j.natBelow? 64
  | typeSignature _, j => j.asString?
  | typeLoader _, j => j.natBelow? 64
  | typeMethods _, j => do (← j.asArray?).mapM MethodInfo.ofJson?
  | typeInterfaces _, j => do (← j.asArray?).mapM (·.natBelow? 64)
  | superclass _, j => some (j.natBelow? 64)
  | invokeStatic _ _ _ _ _, j => InvokeOutcome.ofJson? j
  | newInstance _ _ _ _ _, j => InvokeOutcome.ofJson? j
  | newArray _ _, j => j.natBelow? 64
  | reflectedType _, j => j.natBelow? 64
  | variableTable _ _, j => do
    let locals ← (← (← j.item? 1).asArray?).mapM VariableInfo.ofJson?
    return (← (← j.item? 0).natBelow? 32, locals)
  | objectType _, j => j.natBelow? 64
  | invokeVirtual _ _ _ _ _ _, j => InvokeOutcome.ofJson? j
  | disableCollection _, _ => some ()
  | enableCollection _, _ => some ()
  | stringValue _, j => j.asString?
  | arrayLength _, j => j.signed? 32
  | arrayValues _ _ _, j => Value.listOfJson? j
  | setArrayValues _ _ _, _ => some ()
  | resumeThread _, _ => some ()
  | frames _ _ _, j => do (← j.asArray?).mapM FrameInfo.ofJson?
  | frameCount _, j => j.signed? 32
  | forceReturn _ _, _ => some ()
  | slotValues _ _ _, j => Value.listOfJson? j
  | setSlots _ _ _, _ => some ()
  | setRequest _ _ _, j => j.signed? 32
  | clearRequest _ _, _ => some ()

end Command

end StreamTrace
