import StreamTrace.Pattern.Basic
import StreamTrace.Text.Blank
import StreamTrace.Text.Hex
import StreamTrace.Text.Letters

/-!
# Reading patterns

The written form of patterns. `Pattern.read?` takes all of a text and yields nothing where it is
malformed. Counted repetitions are no part of the form, so a brace stands for itself only behind a
backslash or in a set.
-/

namespace StreamTrace

namespace Pattern

/-- Where the reader stands: the rest of the text, whether blanks and comments are skipped, and the
names that groups have so far. -/
structure Reading where
  rest : List Char
  verbose : Bool := false
  names : List String := []

namespace Reading

/-- The text without blanks and comments at its front. A comment takes the rest of its line. -/
def skipComments : (inComment : Bool) → List Char → List Char
  | _, [] => []
  | true, c :: rest => skipComments (c ≠ '\n') rest
  | false, c :: rest =>
    if isBlank c then skipComments false rest
    else if c = '#' then skipComments true rest
    else c :: rest

/-- The reader at the next character that counts. -/
def skip (r : Reading) : Reading :=
  if r.verbose then { r with rest := skipComments false r.rest } else r

/-- The reader at the next character that counts from `rest` on, which must not be the end. -/
def before? (r : Reading) (rest : List Char) : Option Reading :=
  let r := { r with rest }.skip
  if r.rest.isEmpty then none else some r

/-- What comes behind the character at `rest`. Where blanks are skipped, one number sign is skipped
with them, but not the comment that it opens. -/
def peek (r : Reading) (rest : List Char) : Option Char :=
  if r.verbose then
    match trimStart rest with
    | '#' :: comment => (trimStart comment).head?.or rest.head?
    | c :: _ => some c
    | [] => rest.head?
  else rest.head?

end Reading

/-! ## Escapes -/

/-- The number that the next `count` hexadecimal digits spell, behind `acc`. -/
def hexDigits? (r : Reading) : (count : Nat) → (acc : Nat) → Option (Nat × Reading)
  | 0, acc => some (acc, r)
  | count + 1, acc =>
    match r.skip.rest with
    | [] => none
    | c :: rest => do
      let digit ← Hex.digit? c
      hexDigits? { r with rest } count (acc * 16 + digit)

/-- A character by its number in `count` digits. -/
def numbered? (r : Reading) (count : Nat) (byte : Bool) : Option (Atom × Reading) := do
  let (n, r) ← hexDigits? r count 0
  if n.isValidChar then some (.literal { char := Char.ofNat n, byte }, r.skip) else none

/-- The marks that have a meaning of their own somewhere in a pattern. -/
def isMeta (c : Char) : Bool := "\\.+*?()|[]\x7b\x7d^$#&-~".toList.contains c

/-- Which characters a backslash turns into themselves: marks, but no letters, no digits and no
angle brackets. -/
def isEscapable (c : Char) : Bool :=
  isMeta c || (c.toNat < 0x80 && !c.isAlphanum && c ≠ '<' && c ≠ '>')

/-- What a letter or an angle bracket stands for behind a backslash. -/
def escapedAtom? : Char → Option Atom
  | 'a' => some (.literal { char := '\x07' })
  | 'f' => some (.literal { char := '\x0c' })
  | 't' => some (.literal { char := '\t' })
  | 'n' => some (.literal { char := '\n' })
  | 'r' => some (.literal { char := '\r' })
  | 'v' => some (.literal { char := '\x0b' })
  | 'd' => some (.short .digit false)
  | 's' => some (.short .space false)
  | 'w' => some (.short .word false)
  | 'D' => some (.short .digit true)
  | 'S' => some (.short .space true)
  | 'W' => some (.short .word true)
  | 'A' => some (.edge .textStart)
  | 'z' => some (.edge .textEnd)
  | 'b' => some (.edge .word)
  | 'B' => some (.edge .insideWord)
  | '<' => some (.edge .wordStart)
  | '>' => some (.edge .wordEnd)
  | _ => none

/-- What stands behind a backslash. Properties of characters have no form here. -/
def readEscape? (r : Reading) : Option (Atom × Reading) :=
  match r.rest with
  | [] => none
  | 'x' :: rest => numbered? { r with rest } 2 true
  | 'u' :: rest => numbered? { r with rest } 4 false
  | 'U' :: rest => numbered? { r with rest } 8 false
  | c :: rest =>
    if isEscapable c then some (.literal { char := c }, { r with rest })
    else (escapedAtom? c).map (·, { r with rest })

/-! ## Sets -/

/-- One place in a set: an escape, or a character that stands for itself. -/
def readPlace? (r : Reading) : Option (Atom × Reading) :=
  match r.rest with
  | [] => none
  | '\\' :: rest => readEscape? { r with rest }
  | c :: rest => some (.literal { char := c }, { r with rest })

def Atom.literal? : Atom → Option Literal
  | .literal l => some l
  | _ => none

/-- What the atom means in a set; dots and places between characters mean nothing there. -/
def Atom.setItem? : Atom → Option SetItem
  | .literal l => some (.literal l)
  | .short c negated => some (.short c negated)
  | .dot | .edge _ => none

/-- A place in a set or a range from one to another. A dash before the closing bracket or before
another dash makes no range. -/
def readItem? (r : Reading) : Option (SetItem × Reading) := do
  let (first, r) ← readPlace? r
  let r ← r.before? r.rest
  match r.rest with
  | '-' :: rest =>
    if r.peek rest = some ']' ∨ r.peek rest = some '-' then
      return (← first.setItem?, r)
    else
      let r ← r.before? rest
      let (last, r) ← readPlace? r
      let low ← first.literal?
      let high ← last.literal?
      if low.char ≤ high.char then return (.range low high, r) else none
  | _ => return (← first.setItem?, r)

def setNames : List String :=
  ["alnum", "alpha", "ascii", "blank", "cntrl", "digit", "graph", "lower", "print", "punct",
    "space", "upper", "word", "xdigit"]

/-- A class by name, such as `[:alpha:]`, from behind its opening bracket. -/
def readNamed? (cs : List Char) : Option (SetItem × List Char) :=
  match cs with
  | ':' :: cs =>
    let negated := cs.head? = some '^'
    let cs := if negated then cs.drop 1 else cs
    let name := cs.takeWhile (· ≠ ':')
    match cs.drop name.length with
    | ':' :: ']' :: rest =>
      if setNames.contains (String.ofList name) then
        some (.named (String.ofList name) negated, rest)
      else none
    | _ => none
  | _ => none

/-- The dashes at the front of a set, which stand for themselves. -/
def readDashes? : (fuel : Nat) → (count : Nat) → Reading → Option (Nat × Reading)
  | 0, _, _ => none
  | fuel + 1, count, r =>
    match r.rest with
    | '-' :: rest => do readDashes? fuel (count + 1) (← r.before? rest)
    | _ => some (count, r)

/-- Behind an opening bracket: whether the set is negated, and the items that may stand only here,
dashes or a closing bracket. -/
def openSet? (r : Reading) : Option (Bool × List SetItem × Reading) := do
  let r ← r.before? r.rest
  let negated := r.rest.head? = some '^'
  let r ← if negated then r.before? (r.rest.drop 1) else some r
  let (dashes, r) ← readDashes? (r.rest.length + 1) 0 r
  match dashes, r.rest with
  | 0, ']' :: rest => return (negated, [.literal { char := ']' }], ← r.before? rest)
  | _, _ => return (negated, List.replicate dashes (.literal { char := '-' }), r)

/-- The operation that a doubled mark stands for. -/
def operation? : List Char → Option (SetOperation × List Char)
  | '&' :: '&' :: rest => some (.intersection, rest)
  | '-' :: '-' :: rest => some (.difference, rest)
  | '~' :: '~' :: rest => some (.symmetricDifference, rest)
  | _ => none

/-- The left side of a set operation that still waits for its right side. -/
abbrev Pending := Option (SetOperation × SetBody)

/-- Completes the operation with the items read since, which are in reverse order. -/
def complete (left : Pending) (items : List SetItem) : SetBody :=
  match left with
  | none => .union items.reverse
  | some (op, body) => .operation op body (.union items.reverse)

/-- The rest of a set, up to and with its closing bracket. Operations bind from left to right. -/
def readSet? : (fuel : Nat) → (left : Pending) → (items : List SetItem) → Reading →
    Option (SetBody × Reading)
  | 0, _, _, _ => none
  | fuel + 1, left, items, r =>
    let r := r.skip
    match r.rest with
    | [] => none
    | ']' :: rest => some (complete left items, { r with rest })
    | '[' :: rest =>
      match readNamed? rest with
      | some (item, rest) => readSet? fuel left (item :: items) { r with rest }
      | none => do
        let (negated, first, r) ← openSet? { r with rest }
        let (body, r) ← readSet? fuel none first.reverse r
        readSet? fuel left (.set negated body :: items) r
    | cs =>
      match operation? cs with
      | some (op, rest) => readSet? fuel (some (op, complete left items)) [] { r with rest }
      | none => do
        let (item, r) ← readItem? r
        readSet? fuel left (item :: items) r

/-! ## Groups -/

def Flag.ofLetter? : Char → Option Flag
  | 'i' => some .caseless
  | 'm' => some .multiLine
  | 's' => some .dotAll
  | 'U' => some .swapGreed
  | 'u' => some .unicode
  | 'R' => some .carriageReturn
  | 'x' => some .verbose
  | _ => none

/-- Flags up to a colon or a closing parenthesis. Those behind a minus are turned off; no flag and
no minus may come twice, and a flag must follow the minus. -/
def readFlags? : (on : Bool) → (acc : Flags) → List Char → Option (Flags × List Char)
  | _, _, [] => none
  | on, acc, c :: rest =>
    if c = ':' ∨ c = ')' then some (acc.reverse, c :: rest)
    else if c = '-' then
      if on ∧ rest.head? ≠ some ':' ∧ rest.head? ≠ some ')' then readFlags? false acc rest else none
    else do
      let flag ← Flag.ofLetter? c
      if acc.any (·.1 = flag) then none else readFlags? on ((flag, on) :: acc) rest

/-- A name with its closing angle bracket. -/
def readName? (cs : List Char) : Option (String × List Char) :=
  let name := cs.takeWhile (· ≠ '>')
  match name, cs.drop name.length with
  | first :: more, '>' :: rest =>
    let starts := first = '_' ∨ isAlphabetic first
    if starts ∧ more.all (fun c => "_.[]".toList.contains c || isAlphanumeric c) then
      some (String.ofList name, rest)
    else none
  | _, _ => none

/-- How a parenthesis opens: with flags alone, which hold for what follows, or with a group. -/
inductive Opening where
  | flags (fs : Flags)
  | group (fs : Flags)

/-- A group with a name that no other group has. -/
def openNamed? (r : Reading) (cs : List Char) : Option (Opening × Reading) := do
  let (name, rest) ← readName? cs
  if r.names.contains name then none
  else some (.group [], { r with rest, names := name :: r.names })

/-- Behind an opening parenthesis. A look ahead or behind is no part of the form. -/
def readOpening? (r : Reading) : Option (Opening × Reading) :=
  let r := r.skip
  match r.rest with
  | '?' :: '=' :: _ | '?' :: '!' :: _ | '?' :: '<' :: '=' :: _ | '?' :: '<' :: '!' :: _ => none
  | '?' :: 'P' :: '<' :: rest => openNamed? r rest
  | '?' :: '<' :: rest => openNamed? r rest
  | '?' :: rest => do
    match ← readFlags? true [] rest with
    | (fs, ':' :: rest) => return (.group fs, { r with rest })
    | ([], _) => none
    | (fs, rest) => return (.flags fs, { r with rest := rest.drop 1 })
  | rest => some (.group [], { r with rest })

/-! ## Patterns -/

/-- One part alone stands for itself. -/
def ofParts (ps : List Pattern) : Pattern :=
  match ps with
  | [p] => p
  | ps => .sequence ps

/-- The branches and the parts of the last one, all in reverse order. -/
def ofBranches (branches : List Pattern) (parts : List Pattern) : Pattern :=
  match branches with
  | [] => ofParts parts.reverse
  | branches => .choice (ofParts parts.reverse :: branches).reverse

/-- Whether a repetition may follow. -/
def isRepeatable : Pattern → Bool
  | .flags _ => false
  | _ => true

/-- A part that is neither a group nor a set. -/
def readAtom? (r : Reading) : Option (Atom × Reading) :=
  match r.rest with
  | '.' :: rest => some (.dot, { r with rest })
  | '^' :: rest => some (.edge .lineStart, { r with rest })
  | '$' :: rest => some (.edge .lineEnd, { r with rest })
  | _ => readPlace? r

/-- Reads branches up to a closing parenthesis or the end. -/
def readBranches? : (fuel : Nat) → (branches parts : List Pattern) → Reading →
    Option (Pattern × Reading)
  | 0, _, _, _ => none
  | fuel + 1, branches, parts, r =>
    let r := r.skip
    match r.rest with
    | [] => some (ofBranches branches parts, r)
    | c :: rest =>
      match c with
      | ')' => some (ofBranches branches parts, r)
      | '|' => readBranches? fuel (ofParts parts.reverse :: branches) [] { r with rest }
      | '(' => do
        match ← readOpening? { r with rest } with
        | (.flags fs, next) =>
          readBranches? fuel branches (.flags fs :: parts)
            { next with verbose := fs.get .verbose r.verbose }
        | (.group fs, next) =>
          let (p, next) ← readBranches? fuel [] []
            { next with verbose := fs.get .verbose r.verbose }
          match next.rest with
          | ')' :: rest =>
            readBranches? fuel branches (.group fs p :: parts)
              { next with rest, verbose := r.verbose }
          | _ => none
      | '[' => do
        let (negated, first, next) ← openSet? { r with rest }
        let (body, next) ← readSet? (next.rest.length + 1) none first.reverse next
        readBranches? fuel branches (.set negated body :: parts) next
      | '\x7b' => none
      | _ =>
        if c = '?' ∨ c = '*' ∨ c = '+' then
          match parts with
          | p :: parts =>
            if isRepeatable p then
              let rest := if rest.head? = some '?' then rest.drop 1 else rest
              readBranches? fuel branches (.repetition p :: parts) { r with rest }
            else none
          | [] => none
        else do
          let (a, next) ← readAtom? r
          readBranches? fuel branches (.atom a :: parts) next

/-- The pattern that is written as `s`. -/
def read? (s : String) : Option Pattern := do
  let (p, r) ← readBranches? (s.length + 1) [] [] { rest := s.toList }
  if r.rest.isEmpty then some p else none

end Pattern

end StreamTrace
