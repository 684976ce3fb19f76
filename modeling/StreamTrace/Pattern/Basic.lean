/-!
# Patterns

Regular expressions as trees: what stands between the bars, one behind the other, and how often
each may occur. `Pattern.depth` counts how deep the parts of a pattern lie in one another.
-/

namespace StreamTrace

namespace Pattern

/-- What can be turned on and off for the rest of a group. -/
inductive Flag where
  | caseless
  | multiLine
  | dotAll
  | swapGreed
  | unicode
  | carriageReturn
  | verbose
  deriving Repr, DecidableEq

/-- Flags in the order in which they are written, each with whether it is turned on. -/
abbrev Flags := List (Flag × Bool)

/-- What `flag` is after the setting, if it was `before`. -/
def Flags.get (fs : Flags) (flag : Flag) (before : Bool) : Bool :=
  ((fs.find? (·.1 = flag)).map (·.2)).getD before

/-- A character that stands for itself; `byte` if it is written by the two digits of a byte. -/
structure Literal where
  char : Char
  byte : Bool := false
  deriving Repr, DecidableEq

/-- Classes of characters that have a letter. -/
inductive ShortClass where
  | digit
  | space
  | word
  deriving Repr, DecidableEq

/-- Places between characters. -/
inductive Edge where
  | lineStart
  | lineEnd
  | textStart
  | textEnd
  | word
  | insideWord
  | wordStart
  | wordEnd
  deriving Repr, DecidableEq

/-- Whether the place depends on which characters words are made of. -/
def Edge.isOfWord : Edge → Bool
  | .lineStart | .lineEnd | .textStart | .textEnd => false
  | .word | .insideWord | .wordStart | .wordEnd => true

/-- The operations on sets of characters: both, the first alone, and one of them alone. -/
inductive SetOperation where
  | intersection
  | difference
  | symmetricDifference
  deriving Repr, DecidableEq

mutual

/-- What a set in brackets lists. -/
inductive SetItem where
  | literal (l : Literal)
  | range (low high : Literal)
  | short (c : ShortClass) (negated : Bool)
  | named (name : String) (negated : Bool)
  | set (negated : Bool) (body : SetBody)

/-- What stands between the brackets of a set. -/
inductive SetBody where
  | union (items : List SetItem)
  | operation (op : SetOperation) (left right : SetBody)

end

/-- What takes one place in a pattern and has no parts of its own. -/
inductive Atom where
  | literal (l : Literal)
  | dot
  | edge (e : Edge)
  | short (c : ShortClass) (negated : Bool)
  deriving Repr, DecidableEq

end Pattern

inductive Pattern where
  | flags (fs : Pattern.Flags)
  | atom (a : Pattern.Atom)
  | set (negated : Bool) (body : Pattern.SetBody)
  | repetition (p : Pattern)
  | group (fs : Pattern.Flags) (p : Pattern)
  | sequence (ps : List Pattern)
  | choice (ps : List Pattern)

namespace Pattern

/-! ## Depth -/

/-- The depth of parts that lie side by side, from the depth of each: one part alone, or none, adds
nothing. -/
def depthOfParts : List Nat → Nat
  | [] => 0
  | [d] => d
  | ds => 1 + ds.foldl max 0

mutual

def SetItem.depth : SetItem → Nat
  | .literal _ | .range _ _ | .short _ _ | .named _ _ => 0
  | .set _ body => 1 + body.depth

def SetBody.depth : SetBody → Nat
  | .union items => depthOfParts (depthOfItems items)
  | .operation _ left right => 1 + max left.depth right.depth

def depthOfItems : List SetItem → List Nat
  | [] => []
  | i :: items => i.depth :: depthOfItems items

end

mutual

def depth : Pattern → Nat
  | .flags _ | .atom _ => 0
  | .set _ body => 1 + body.depth
  | .repetition p | .group _ p => 1 + p.depth
  | .sequence ps | .choice ps => depthOfParts (depths ps)

def depths : List Pattern → List Nat
  | [] => []
  | p :: ps => p.depth :: depths ps

end

end Pattern

end StreamTrace
