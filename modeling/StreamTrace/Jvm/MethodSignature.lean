import StreamTrace.Jvm.TypeName

/-!
# Method signatures

A method is identified by its class, its name and the source names of its argument and return
types. Its descriptor spells the types in signatures: `(I)Ljava/lang/String;`. The arguments of a
call lie in numbered slots of its frame, where `long` and `double` take two.
-/

namespace StreamTrace

structure MethodSignature where
  containingClass : String
  name : String
  argumentTypes : List String
  returnType : String
  deriving Repr, DecidableEq, Inhabited

namespace MethodSignature

/-- The argument types up to the closing parenthesis, and what follows it. Every type takes at
least one character, so the length of the text bounds the number of steps. -/
def readArguments : (fuel : Nat) → List Char → Option (List JavaType × List Char)
  | _, ')' :: rest => some ([], rest)
  | 0, _ => none
  | fuel + 1, cs =>
    match JavaType.ofSignature? cs with
    | none => none
    | some (t, rest) => (readArguments fuel rest).map fun (ts, rest) => (t :: ts, rest)

/-- The argument types and the return type of a descriptor. -/
def parseDescriptor : List Char → Option (List JavaType × JavaType)
  | '(' :: cs =>
    match readArguments cs.length cs with
    | none => none
    | some (arguments, rest) =>
      match JavaType.ofSignature? rest with
      | some (result, []) => some (arguments, result)
      | _ => none
  | _ => none

def ofDescriptor? (containingClass name descriptor : String) : Option MethodSignature :=
  (parseDescriptor descriptor.toList).map fun (arguments, result) =>
    { containingClass, name, argumentTypes := arguments.map fun t => String.ofList t.name,
      returnType := String.ofList result.name }

def descriptor (m : MethodSignature) : String :=
  String.ofList ('(' :: (m.argumentTypes.flatMap fun t => (JavaType.ofName t.toList).signature)
    ++ ')' :: (JavaType.ofName m.returnType.toList).signature)

/-- Whether a loaded method with that name and descriptor is this method. -/
def Matches (m : MethodSignature) (name descriptor : String) : Bool :=
  m.name == name && m.descriptor == descriptor

/-- How many slots a value of the type with that signature takes. -/
def slotWidth (signature : String) : Nat := if signature == "J" || signature == "D" then 2 else 1

/-- Consecutive slots from `slot` on, each with the signature of its type. -/
def slotsFrom : (slot : Nat) → List String → List (Nat × String)
  | _, [] => []
  | slot, s :: rest => (slot, s) :: slotsFrom (slot + slotWidth s) rest

/-- The slots of the arguments. In an instance method slot 0 holds the receiver. -/
def argumentSlots (m : MethodSignature) (isStatic : Bool) : List (Nat × String) :=
  slotsFrom (if isStatic then 0 else 1) (m.argumentTypes.map typeNameToSignature)

def display (m : MethodSignature) : String :=
  let arguments := ", ".intercalate m.argumentTypes
  s!"{m.containingClass}.{m.name}({arguments})"

end MethodSignature

/-- What a reader of parameter types stands in: before a type, behind the brackets of an array, or
inside a class name. -/
inductive ParameterState where
  | start | array | className
  deriving Repr, DecidableEq

/-- The first character of every parameter type. -/
def parameterTagsFrom : ParameterState → List Char → List Char
  | _, [] => []
  | .start, c :: rest =>
    if c = ')' then []
    else if c = '[' then c :: parameterTagsFrom .array rest
    else if c = 'L' then c :: parameterTagsFrom .className rest
    else c :: parameterTagsFrom .start rest
  | .array, c :: rest =>
    if c = '[' then parameterTagsFrom .array rest
    else if c = 'L' then parameterTagsFrom .className rest
    else parameterTagsFrom .start rest
  | .className, c :: rest =>
    if c = ';' then parameterTagsFrom .start rest else parameterTagsFrom .className rest

/-- The first character of every parameter type of a method descriptor. -/
def parameterLetters (descriptor : String) : List Char :=
  parameterTagsFrom .start (descriptor.toList.drop 1)

/-- The slots that the arguments take in the frame of an instance method. -/
def frameSlotsFrom : (slot : Nat) → List Char → List Nat
  | _, [] => []
  | slot, t :: rest => slot :: frameSlotsFrom (slot + if t = 'J' ∨ t = 'D' then 2 else 1) rest

def frameSlots (descriptor : String) : List Nat := frameSlotsFrom 1 (parameterLetters descriptor)

end StreamTrace
