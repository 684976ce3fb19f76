/-!
# Cuts

Parts of a text between places that are counted in the bytes of its UTF-8 form. A place inside a
character is no place.
-/

namespace StreamTrace

namespace Cut

/-- The text behind its first `n` bytes. -/
def dropBytes? : List Char → (n : Nat) → Option (List Char)
  | cs, 0 => some cs
  | [], _ + 1 => none
  | c :: cs, n + 1 => if c.utf8Size ≤ n + 1 then dropBytes? cs (n + 1 - c.utf8Size) else none

/-- The first `n` bytes of the text. -/
def takeBytes? : List Char → (n : Nat) → Option (List Char)
  | _, 0 => some []
  | [], _ + 1 => none
  | c :: cs, n + 1 =>
    if c.utf8Size ≤ n + 1 then (takeBytes? cs (n + 1 - c.utf8Size)).map (c :: ·) else none

/-- The text from `start` up to `stop`. -/
def between? (cs : List Char) (start stop : Nat) : Option (List Char) := do
  takeBytes? (← dropBytes? cs start) (stop - start)

end Cut

/-- A character and the number of bytes in front of it. -/
structure Placed where
  place : Nat
  char : Char
  deriving Repr, DecidableEq

/-- Each character with its place, where the first one stands at `start`. -/
def placed : (start : Nat) → List Char → List Placed
  | _, [] => []
  | start, c :: cs => ⟨start, c⟩ :: placed (start + c.utf8Size) cs

end StreamTrace
