/-!
# Java type names

A type has two spellings: its name in Java source (`int`, `java.lang.String`, `int[]`) and its
signature inside the virtual machine (`I`, `Ljava/lang/String;`, `[I`). Both are read into one
`JavaType` and written from it, so converting between them is reading one spelling and writing the
other.
-/

namespace StreamTrace

/-- The types without fields. `void` stands here too: it has a keyword and a one-letter
signature, although no value has it. -/
inductive PrimitiveType where
  | boolean | byte | char | short | int | long | float | double | void
  deriving Repr, DecidableEq

namespace PrimitiveType

def all : List PrimitiveType := [boolean, byte, char, short, int, long, float, double, void]

def keyword : PrimitiveType → String
  | boolean => "boolean"
  | byte => "byte"
  | char => "char"
  | short => "short"
  | int => "int"
  | long => "long"
  | float => "float"
  | double => "double"
  | void => "void"

def letter : PrimitiveType → Char
  | boolean => 'Z'
  | byte => 'B'
  | char => 'C'
  | short => 'S'
  | int => 'I'
  | long => 'J'
  | float => 'F'
  | double => 'D'
  | void => 'V'

def ofKeyword? (name : String) : Option PrimitiveType := all.find? fun p => p.keyword == name

def ofLetter? (c : Char) : Option PrimitiveType := all.find? fun p => p.letter == c

end PrimitiveType

inductive JavaType where
  | primitive (p : PrimitiveType)
  /-- A class by its dotted name. -/
  | named (name : List Char)
  | array (component : JavaType)
  deriving Repr, DecidableEq

namespace JavaType

def replaceChar (old new : Char) (cs : List Char) : List Char :=
  cs.map fun c => if c = old then new else c

/-- The source name of a type. -/
def name : JavaType → List Char
  | primitive p => p.keyword.toList
  | named n => n
  | array t => t.name ++ ['[', ']']

/-- The signature of a type: one letter, `L…;` with slashes for dots, or `[` and the component. -/
def signature : JavaType → List Char
  | primitive p => [p.letter]
  | named n => 'L' :: replaceChar '.' '/' n ++ [';']
  | array t => '[' :: t.signature

/-- A type from its source name written backwards, so that the brackets come first. -/
def ofReversedName : List Char → JavaType
  | ']' :: '[' :: rest => array (ofReversedName rest)
  | cs =>
    match PrimitiveType.ofKeyword? (String.ofList cs.reverse) with
    | some p => primitive p
    | none => named cs.reverse

/-- Every text is the source name of a type: what is neither an array nor a keyword names a
class. -/
def ofName (name : List Char) : JavaType := ofReversedName name.reverse

/-- The type whose signature `cs` begins with, and the rest. A signature begins with a character of
one byte. The debugger takes that for granted: it cuts the text behind the first byte, and where
that is inside a character it breaks off with a fault. Here such a text, which is no signature, is
read as none like the others. -/
def ofSignature? : List Char → Option (JavaType × List Char)
  | [] => none
  | 'L' :: rest =>
    match rest.dropWhile (· ≠ ';') with
    | _ :: rest' => some (named (replaceChar '/' '.' (rest.takeWhile (· ≠ ';'))), rest')
    | [] => none
  | '[' :: rest => (ofSignature? rest).map fun (t, rest) => (array t, rest)
  | c :: rest => (PrimitiveType.ofLetter? c).map fun p => (primitive p, rest)

end JavaType

/-- The signature of a type given by its source name: `int` gives `I`, `int[]` gives `[I`. -/
def typeNameToSignature (name : String) : String :=
  String.ofList (JavaType.ofName name.toList).signature

/-- The source name of the type that has exactly this signature. What `JavaType.ofSignature?` says
about texts that are cut inside a character holds here too. -/
def signatureToTypeName? (signature : String) : Option String :=
  match JavaType.ofSignature? signature.toList with
  | some (t, []) => some (String.ofList t.name)
  | _ => none

def endsWithBrackets (name : String) : Bool :=
  match name.toList.reverse with
  | ']' :: '[' :: _ => true
  | _ => false

/-- The name under which a class is looked up at run time: a class by its own name, an array by
its signature with dots for slashes. -/
def lookupName (name : String) : String :=
  if endsWithBrackets name then
    String.ofList (JavaType.replaceChar '/' '.' (typeNameToSignature name).toList)
  else name

/-- The signature of a class given by name. Signatures and array names stand for themselves. -/
def classNameToSignature (name : String) : String :=
  let cs := name.toList
  if cs.head? = some '[' ∨ (cs.head? = some 'L' ∧ cs.getLast? = some ';') then name
  else String.ofList ('L' :: JavaType.replaceChar '.' '/' cs ++ [';'])

end StreamTrace
