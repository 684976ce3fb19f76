import StreamTrace.Text.Runs

/-!
# Blanks

The characters that count as white space, and text without the white space at its ends.
-/

namespace StreamTrace

def blankRuns : Runs :=
  [(0x09, 0x0D), (0x20, 0x20), (0x85, 0x85), (0xA0, 0xA0), (0x1680, 0x1680), (0x2000, 0x200A),
    (0x2028, 0x2029), (0x202F, 0x202F), (0x205F, 0x205F), (0x3000, 0x3000)]

def isBlank (c : Char) : Bool := blankRuns.contains c

def trimStart (cs : List Char) : List Char := cs.dropWhile isBlank

/-- Text without the blanks at both ends. -/
def trimBlanks (s : String) : String :=
  String.ofList (trimStart (trimStart s.toList).reverse).reverse

end StreamTrace
