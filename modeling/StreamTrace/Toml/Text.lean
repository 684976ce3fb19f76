import StreamTrace.Toml.Scalar

/-!
# The text of a TOML document

Reading a document: statement by statement, with keys, values and comments. `Toml.ofText?` yields
the tree of tables, or nothing where the text is malformed or its statements contradict each other.
-/

namespace StreamTrace

namespace Toml

/-- Values nest less deep than this, and keys have fewer parts. -/
def depthLimit : Nat := 80

/-! ## Keys -/

def isBareKeyChar (c : Char) : Bool := c.isAlphanum || c = '_' || c = '-'

def readKeyPart (cs : List Char) : Option (String × List Char) :=
  match cs with
  | '"' :: rest => readBasic (rest.length + 1) [] rest
  | '\'' :: rest => readLiteral rest
  | _ =>
    let name := cs.takeWhile isBareKeyChar
    if name.isEmpty then none else some (String.ofList name, cs.drop name.length)

/-- The parts of a key, between points and blanks. -/
def readKeyParts : (fuel : Nat) → Reader (List String)
  | 0, _ => none
  | fuel + 1, cs => do
    let (part, cs) ← readKeyPart (skipSpaces cs)
    match skipSpaces cs with
    | '.' :: rest => do
      let (parts, rest) ← readKeyParts fuel rest
      return (part :: parts, rest)
    | cs => return ([part], cs)

/-- A key: the path before its last part, and that part. -/
def readKey (cs : List Char) : Option ((List String × String) × List Char) := do
  let (parts, cs) ← readKeyParts depthLimit cs
  if parts.length = depthLimit then none
  else return ((parts.dropLast, ← parts.getLast?), cs)

/-! ## Values -/

/-- The text behind a comment, up to the line end. -/
def skipComment : List Char → List Char
  | '#' :: rest => rest.dropWhile isVisible
  | cs => cs

/-- The text behind blanks, comments and line ends. -/
def skipGaps : (fuel : Nat) → List Char → Option (List Char)
  | 0, _ => none
  | fuel + 1, cs =>
    match skipSpaces cs with
    | '#' :: rest => do skipGaps fuel (← newline? (rest.dropWhile isVisible))
    | cs =>
      match newline? cs with
      | some rest => skipGaps fuel rest
      | none => some cs

/-- Skips gaps in a text of any length. -/
def skipAllGaps (cs : List Char) : Option (List Char) := skipGaps (cs.length + 1) cs

mutual

/-- A value in which others nest less than `depth` deep. -/
def readValue : (fuel depth : Nat) → Reader Toml
  | 0, _, _ => none
  | fuel + 1, depth, cs =>
    match cs with
    | '[' :: rest =>
      match depth with
      | 0 => none
      | depth + 1 => do
        match ← skipAllGaps rest with
        | ']' :: rest => return (.array [], rest)
        | rest => readItems fuel depth [] rest
    | '\x7b' :: rest =>
      match depth with
      | 0 => none
      | depth + 1 =>
        match skipSpaces rest with
        | '\x7d' :: rest => some (.table [], rest)
        | rest => readPairs fuel depth [] rest
    | '"' :: _ => (readString cs).map fun (s, rest) => (.string s, rest)
    | '\'' :: _ => (readString cs).map fun (s, rest) => (.string s, rest)
    | _ => readPlain cs

/-- The items of an array from the next one on. A comma may follow the last. -/
def readItems : (fuel depth : Nat) → (acc : List Toml) → Reader Toml
  | 0, _, _, _ => none
  | fuel + 1, depth, acc, cs => do
    let (v, cs) ← readValue fuel depth cs
    match ← skipAllGaps cs with
    | ']' :: rest => return (.array (v :: acc).reverse, rest)
    | ',' :: rest =>
      match ← skipAllGaps rest with
      | ']' :: rest => return (.array (v :: acc).reverse, rest)
      | rest => readItems fuel depth (v :: acc) rest
    | _ => none

/-- The pairs of a table in braces from the next one on. -/
def readPairs : (fuel depth : Nat) → (acc : List (List String × String × Toml)) → Reader Toml
  | 0, _, _, _ => none
  | fuel + 1, depth, acc, cs => do
    let ((path, key), cs) ← readKey cs
    let cs ← skipChar? '=' cs
    let (v, cs) ← readValue fuel depth (skipSpaces cs)
    match skipSpaces cs with
    | '\x7d' :: rest => return (← ofPairs? ((path, key, v) :: acc).reverse, rest)
    | ',' :: rest => readPairs fuel depth ((path, key, v) :: acc) rest
    | _ => none

end

/-! ## Statements -/

/-- What may follow a statement on its line. -/
def skipLineEnd (cs : List Char) : Option (List Char) :=
  match skipComment (skipSpaces cs) with
  | [] => some []
  | cs => newline? cs

def readStatement (cs : List Char) : Option (Statement × List Char) :=
  match cs with
  | '[' :: '[' :: rest => do
    let ((path, key), rest) ← readKey rest
    let rest ← skipChar? ']' (← skipChar? ']' rest)
    return (.itemHeader path key, ← skipLineEnd rest)
  | '[' :: rest => do
    let ((path, key), rest) ← readKey rest
    return (.header path key, ← skipLineEnd (← skipChar? ']' rest))
  | _ => do
    let ((path, key), rest) ← readKey cs
    let rest ← skipChar? '=' rest
    let (v, rest) ← readValue (rest.length + 1) (depthLimit - 1) (skipSpaces rest)
    return (.assign path key v, ← skipLineEnd rest)

/-- The statements of a text. Blank lines and comments separate them. -/
def readStatements : (fuel : Nat) → List Statement → List Char → Option (List Statement)
  | 0, _, _ => none
  | fuel + 1, acc, cs =>
    match skipSpaces cs with
    | [] => some acc.reverse
    | '#' :: rest => do readStatements fuel acc (← skipLineEnd ('#' :: rest))
    | cs =>
      match newline? cs with
      | some rest => readStatements fuel acc rest
      | none => do
        let (statement, rest) ← readStatement cs
        readStatements fuel (statement :: acc) rest

/-- The text without the mark of its encoding. -/
def skipMark : List Char → List Char
  | '\uFEFF' :: rest => rest
  | cs => cs

def ofText? (text : String) : Option Toml := do
  let cs := skipMark text.toList
  ofStatements? (← readStatements (cs.length + 1) [] cs)

end Toml

end StreamTrace
