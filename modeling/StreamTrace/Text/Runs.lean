/-!
# Runs of characters

A set of characters as the closed runs of their numbers, in ascending order and apart from each
other. `Runs.contains` gives up at the first run that starts behind the character.
-/

namespace StreamTrace

abbrev Runs := List (Nat × Nat)

namespace Runs

def contains : Runs → Char → Bool
  | [], _ => false
  | (low, high) :: rest, c => low ≤ c.toNat && (c.toNat ≤ high || contains rest c)

end Runs

end StreamTrace
