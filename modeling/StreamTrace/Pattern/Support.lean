import StreamTrace.Pattern.Reading

/-!
# Patterns that can be matched

Which patterns have an automaton. Matching goes by bytes and has no tables of characters: while
`unicode` is on, letters of both cases, classes with a letter and the edges of words are out of
reach; while it is off, nothing may match a part of a character.
-/

namespace StreamTrace

namespace Pattern

/-- The flags that decide what a part of a pattern may match. -/
structure Mode where
  caseless : Bool := false
  unicode : Bool := true
  deriving Repr, DecidableEq

def Mode.set (m : Mode) (fs : Flags) : Mode :=
  { caseless := fs.get .caseless m.caseless, unicode := fs.get .unicode m.unicode }

/-- The mode in which text is matched as it stands, character by character. -/
def Mode.isExact (m : Mode) : Bool := m.unicode && !m.caseless

def Literal.isAscii (l : Literal) : Bool := l.char.toNat < 0x80

def Atom.isSupported (m : Mode) : Atom → Bool
  | .literal l => if m.unicode then !m.caseless else !l.byte || l.isAscii
  | .dot => m.unicode
  | .edge e => !m.unicode || !e.isOfWord
  | .short _ negated => !m.unicode && !negated

mutual

def SetItem.isSupported (m : Mode) : SetItem → Bool
  | .literal l => m.isExact || (!m.unicode && l.isAscii)
  | .range low high => m.isExact || (!m.unicode && low.isAscii && high.isAscii)
  | .short _ negated => !m.unicode && !negated
  | .named _ negated => m.isExact || (!m.unicode && !negated)
  | .set negated body => body.isSupported m && (m.unicode || !negated)

def SetBody.isSupported (m : Mode) : SetBody → Bool
  | .union items => areSupported m items
  | .operation _ left right => left.isSupported m && right.isSupported m

def areSupported (m : Mode) : List SetItem → Bool
  | [] => true
  | i :: items => i.isSupported m && areSupported m items

end

mutual

/-- The mode behind the pattern, if all of it is supported. Flags hold up to the end of the group
that they stand in, also in the branches that follow. -/
def modeAfter? (m : Mode) : Pattern → Option Mode
  | .flags fs => some (m.set fs)
  | .atom a => if a.isSupported m then some m else none
  | .set negated body => if (SetItem.set negated body).isSupported m then some m else none
  | .repetition p => modeAfter? m p
  | .group fs p => (modeAfter? (m.set fs) p).map fun _ => m
  | .sequence ps | .choice ps => modeAfterAll? m ps

def modeAfterAll? (m : Mode) : List Pattern → Option Mode
  | [] => some m
  | p :: ps =>
    match modeAfter? m p with
    | some m => modeAfterAll? m ps
    | none => none

end

/-- How deep the parts of a pattern may lie in one another. -/
def depthLimit : Nat := 250

/-- Whether `s` is a pattern that can be matched. -/
def isMatchable (s : String) : Bool :=
  match read? s with
  | some p => p.depth ≤ depthLimit && (modeAfter? {} p).isSome
  | none => false

end Pattern

end StreamTrace
