import StreamTrace.Ieee
import StreamTrace.Text.Hex
import StreamTrace.Toml.Document

/-!
# Scalars of TOML

Reading the values of a TOML document that hold no other values: strings in their four forms,
numbers, truth values, dates and times. A reader takes the rest of the text and yields a value with
the text behind it, or nothing where the text is malformed.
-/

namespace StreamTrace

namespace Toml

/-- Reads from the front of a text. -/
abbrev Reader (α : Type) := List Char → Option (α × List Char)

/-! ## Characters -/

def isSpace (c : Char) : Bool := c = ' ' || c = '\t'

def skipSpaces (cs : List Char) : List Char := cs.dropWhile isSpace

/-- What a comment or a quoted text on one line may hold. -/
def isVisible (c : Char) : Bool := c = '\t' || (0x20 ≤ c.toNat && c.toNat ≠ 0x7F)

/-- The text behind a line end. -/
def newline? : List Char → Option (List Char)
  | '\n' :: rest => some rest
  | '\r' :: '\n' :: rest => some rest
  | _ => none

/-- The value of digits in a base, the first digit being the highest. -/
def digitsIn (base : Nat) (ds : List Char) : Nat :=
  ds.foldl (fun n c => n * base + (Hex.digit? c).getD 0) 0

/-! ## Strings -/

/-- The character of an escape with hexadecimal digits. -/
def numberedChar? (digits : List Char) : Option Char :=
  if digits.all fun c => (Hex.digit? c).isSome then
    let n := digitsIn 16 digits
    if n.isValidChar then some (Char.ofNat n) else none
  else none

def escaped? : Char → Option Char
  | 'b' => some '\x08'
  | 't' => some '\t'
  | 'n' => some '\n'
  | 'f' => some '\x0c'
  | 'r' => some '\r'
  | '"' => some '"'
  | '\\' => some '\\'
  | _ => none

/-- What stands behind a backslash. -/
def readEscape : Reader Char
  | 'u' :: a :: b :: c :: d :: rest => (numberedChar? [a, b, c, d]).map (·, rest)
  | 'U' :: a :: b :: c :: d :: e :: f :: g :: h :: rest =>
    (numberedChar? [a, b, c, d, e, f, g, h]).map (·, rest)
  | c :: rest => (escaped? c).map (·, rest)
  | [] => none

/-- The rest of a text in double quotes. -/
def readBasic : (fuel : Nat) → (acc : List Char) → Reader String
  | 0, _, _ => none
  | _, _, [] => none
  | fuel + 1, acc, c :: rest =>
    if c = '"' then some (String.ofList acc.reverse, rest)
    else if c = '\\' then do
      let (c, rest) ← readEscape rest
      readBasic fuel (c :: acc) rest
    else if isVisible c then readBasic fuel (c :: acc) rest
    else none

/-- The rest of a text in single quotes, which has no escapes. -/
def readLiteral (cs : List Char) : Option (String × List Char) :=
  let body := cs.takeWhile fun c => c ≠ '\'' && isVisible c
  match cs.drop body.length with
  | '\'' :: rest => some (String.ofList body, rest)
  | _ => none

/-- Behind three closing quotes: up to two more belong to the text. -/
def closeLines (quote : Char) (acc : List Char) (cs : List Char) : Option (String × List Char) :=
  let extra := cs.takeWhile (· = quote)
  if extra.length ≤ 2 then some (String.ofList (acc.reverse ++ extra), cs.drop extra.length)
  else none

/-- The text behind blanks and line ends. -/
def skipLines : (fuel : Nat) → List Char → List Char
  | 0, cs => cs
  | fuel + 1, cs =>
    match newline? (skipSpaces cs) with
    | some rest => skipLines fuel rest
    | none => skipSpaces cs

/-- The rest of a text in three double quotes. A backslash at the end of a line joins it with what
follows the blanks of the next ones. -/
def readBasicLines : (fuel : Nat) → (acc : List Char) → Reader String
  | 0, _, _ => none
  | _, _, [] => none
  | _, acc, '"' :: '"' :: '"' :: rest => closeLines '"' acc rest
  | fuel + 1, acc, '\\' :: rest =>
    match newline? (skipSpaces rest) with
    | some below => readBasicLines fuel acc (skipLines below.length below)
    | none => do
      let (c, rest) ← readEscape rest
      readBasicLines fuel (c :: acc) rest
  | fuel + 1, acc, c :: rest =>
    match newline? (c :: rest) with
    | some below => readBasicLines fuel ('\n' :: acc) below
    | none => if isVisible c then readBasicLines fuel (c :: acc) rest else none

/-- The rest of a text in three single quotes. -/
def readLiteralLines : (fuel : Nat) → (acc : List Char) → Reader String
  | 0, _, _ => none
  | _, _, [] => none
  | _, acc, '\'' :: '\'' :: '\'' :: rest => closeLines '\'' acc rest
  | fuel + 1, acc, c :: rest =>
    match newline? (c :: rest) with
    | some below => readLiteralLines fuel ('\n' :: acc) below
    | none => if isVisible c then readLiteralLines fuel (c :: acc) rest else none

/-- The text without a line end at its front. -/
def skipNewline (cs : List Char) : List Char := (newline? cs).getD cs

def readString (cs : List Char) : Option (String × List Char) :=
  match cs with
  | '"' :: '"' :: '"' :: rest => readBasicLines (rest.length + 1) [] (skipNewline rest)
  | '"' :: rest => readBasic (rest.length + 1) [] rest
  | '\'' :: '\'' :: '\'' :: rest => readLiteralLines (rest.length + 1) [] (skipNewline rest)
  | '\'' :: rest => readLiteral rest
  | _ => none

/-! ## Numbers -/

/-- More digits, where single underscores may stand between two. -/
def moreDigits (isDigit : Char → Bool) : (acc : List Char) → Reader (List Char)
  | acc, '_' :: c :: rest => if isDigit c then moreDigits isDigit (c :: acc) rest else none
  | acc, c :: rest =>
    if isDigit c then moreDigits isDigit (c :: acc) rest else some (acc.reverse, c :: rest)
  | acc, [] => some (acc.reverse, [])

/-- One digit or more. -/
def readDigits (isDigit : Char → Bool) : Reader (List Char)
  | c :: rest => if isDigit c then moreDigits isDigit [c] rest else none
  | [] => none

/-- Digits without a leading zero. -/
def readWhole : Reader (List Char)
  | '0' :: rest => some (['0'], rest)
  | cs => readDigits Char.isDigit cs

/-- Whether a minus stands in front. -/
def readSign : List Char → Bool × List Char
  | '-' :: rest => (true, rest)
  | '+' :: rest => (false, rest)
  | cs => (false, cs)

def inRange (n : Int) : Option Toml :=
  if Int64.minValue.toInt ≤ n ∧ n ≤ Int64.maxValue.toInt then some (.integer n) else none

/-- Behind `0x`, `0o` or `0b`. -/
def readInBase (base : Nat) (cs : List Char) : Option (Toml × List Char) := do
  let (ds, rest) ← readDigits (fun c => (Hex.digit? c).any (· < base)) cs
  return (← inRange (digitsIn base ds), rest)

/-- An exponent, if there is one. -/
def readExponent (cs : List Char) : Option (Option Int × List Char) :=
  match cs with
  | c :: rest =>
    if c = 'e' ∨ c = 'E' then do
      let (negative, rest) := readSign rest
      let (ds, rest) ← readDigits Char.isDigit rest
      let n : Int := digitsIn 10 ds
      return (some (if negative then -n else n), rest)
    else some (none, cs)
  | [] => some (none, cs)

/-- The digits behind the point, if there is one. -/
def readFraction (cs : List Char) : Option (Option (List Char) × List Char) :=
  match cs with
  | '.' :: rest => do
    let (ds, rest) ← readDigits Char.isDigit rest
    return (some ds, rest)
  | _ => some (none, cs)

/-- The value of a decimal; one that is too large is refused unless it is negative. -/
def floatOf (negative : Bool) (whole fraction : List Char) (exponent : Int) : Option Toml :=
  let bits := FloatFormat.double.ofDecimal negative (digitsIn 10 (whole ++ fraction))
    (exponent - fraction.length)
  if bits = FloatFormat.double.infinity then none else some (.float (UInt64.ofNat bits))

def infinity (negative : Bool) : Toml :=
  .float (UInt64.ofNat
    (FloatFormat.double.infinity + if negative then FloatFormat.double.signBit else 0))

def notANumber : Toml := .float (UInt64.ofNat FloatFormat.double.quietNaN)

/-- The text behind a word. -/
def word? (word : String) (cs : List Char) : Option (List Char) :=
  if word.toList.isPrefixOf cs then some (cs.drop word.length) else none

def readNumber (cs : List Char) : Option (Toml × List Char) :=
  match cs with
  | '0' :: 'x' :: rest => readInBase 16 rest
  | '0' :: 'o' :: rest => readInBase 8 rest
  | '0' :: 'b' :: rest => readInBase 2 rest
  | _ =>
    let (negative, cs) := readSign cs
    match word? "inf" cs, word? "nan" cs with
    | some rest, _ => some (infinity negative, rest)
    | _, some rest => some (notANumber, rest)
    | _, _ => do
      let (whole, cs) ← readWhole cs
      let (fraction, cs) ← readFraction cs
      let (exponent, cs) ← readExponent cs
      match fraction, exponent with
      | none, none =>
        let n : Int := digitsIn 10 whole
        return (← inRange (if negative then -n else n), cs)
      | _, _ => return (← floatOf negative whole (fraction.getD []) (exponent.getD 0), cs)

/-! ## Dates and times -/

def readPair (low high : Nat) : Reader Nat
  | a :: b :: rest =>
    if a.isDigit ∧ b.isDigit then
      let n := digitsIn 10 [a, b]
      if low ≤ n ∧ n ≤ high then some (n, rest) else none
    else none
  | _ => none

def isLeapYear (year : Nat) : Bool := year % 4 = 0 && (year % 100 ≠ 0 || year % 400 = 0)

def daysIn (year month : Nat) : Nat :=
  if month = 2 then (if isLeapYear year then 29 else 28)
  else if [4, 6, 9, 11].contains month then 30
  else 31

def skipChar? (expected : Char) : List Char → Option (List Char)
  | c :: rest => if c = expected then some rest else none
  | [] => none

/-- The text behind the digits of a fraction of a second, if there are any. -/
def skipSecondFraction : List Char → List Char
  | '.' :: c :: rest => if c.isDigit then rest.dropWhile Char.isDigit else '.' :: c :: rest
  | cs => cs

/-- The text behind a time of day. -/
def time? (cs : List Char) : Option (List Char) := do
  let (_, cs) ← readPair 0 23 cs
  let cs ← skipChar? ':' cs
  let (_, cs) ← readPair 0 59 cs
  let cs ← skipChar? ':' cs
  let (_, cs) ← readPair 0 60 cs
  return skipSecondFraction cs

/-- The text behind a date. -/
def date? (cs : List Char) : Option (List Char) := do
  let (century, cs) ← readPair 0 99 cs
  let (yearInCentury, cs) ← readPair 0 99 cs
  let cs ← skipChar? '-' cs
  let (month, cs) ← readPair 1 12 cs
  let cs ← skipChar? '-' cs
  let (_, cs) ← readPair 1 (daysIn (century * 100 + yearInCentury) month) cs
  return cs

/-- The text behind the distance from universal time, if one is given. -/
def skipOffset (cs : List Char) : Option (List Char) :=
  match cs with
  | c :: rest =>
    if c = 'Z' ∨ c = 'z' then some rest
    else if c = '+' ∨ c = '-' then do
      let (_, rest) ← readPair 0 23 rest
      let rest ← skipChar? ':' rest
      let (_, rest) ← readPair 0 59 rest
      return rest
    else some cs
  | [] => some cs

/-- The text behind a date, a date with a time, or a time. -/
def moment? (cs : List Char) : Option (List Char) :=
  match date? cs with
  | none => time? cs
  | some cs =>
    match cs with
    | c :: rest =>
      if c = 'T' ∨ c = 't' ∨ c = ' ' then
        match time? rest with
        | some rest => skipOffset rest
        | none => some cs
      else some cs
    | [] => some cs

/-! ## Words -/

/-- A value that starts with a letter, a digit or a sign. -/
def readPlain (cs : List Char) : Option (Toml × List Char) :=
  match word? "true" cs, word? "false" cs with
  | some rest, _ => some (.boolean true, rest)
  | _, some rest => some (.boolean false, rest)
  | _, _ =>
    match moment? cs with
    | some rest => some (.moment, rest)
    | none => readNumber cs

end Toml

end StreamTrace
