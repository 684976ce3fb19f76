import StreamTrace.Config.FieldMatch
import StreamTrace.Config.LogLevel
import StreamTrace.Text.Cut

/-!
# Directives

A directive enables a level for a target, for a span or for the events with certain fields; its
written form is `target[span{field=value}]=level`, where each part may be missing.
`Directive.ofText?` reads it, `Directive.text` writes it, and `Directive.specificity` orders
directives by how special they are.
-/

namespace StreamTrace

/-- Enables a level for a target, within a span, and for events with certain fields. -/
structure Directive where
  level : LogLevel
  target : Option String := none
  span : Option String := none
  fields : List FieldMatch := []
  deriving Repr, DecidableEq

namespace Directive

/-! ## Reading

The reader finds the parts in the text without the blanks around it, and the places that it finds
are counted from there. The parts themselves are cut out of the text with those blanks, so that
blanks in front of a directive shift all of its parts. The functions below take that text as `whole`
and what is left to read with its places.
-/

/-- The part of the text from `start` up to `stop`. -/
def part? (whole : List Char) (start stop : Nat) : Option String :=
  (Cut.between? whole start stop).map String.ofList

/-- The level in the text from `start` on; without one it is the highest. -/
def level? (whole : List Char) (start : Nat) : Option LogLevel := do
  let text ← Cut.dropBytes? whole start
  if text.isEmpty then some .trace else LogLevel.ofText? (String.ofList text)

/-- What follows a span: a level or nothing. -/
def behindSpan? (whole : List Char) (d : Directive) : List Placed → Option Directive
  | [] => some d
  | ⟨place, c⟩ :: _ =>
    if c = '=' then (level? whole (place + 1)).map fun level => { d with level } else none

/-- A directive from behind the brace at `place` on, before which its span is known. -/
def ofFields? (whole : List Char) (d : Directive) (place : Nat) (cs : List Placed) :
    Option Directive :=
  match cs.dropWhile (·.char ≠ '\x7d') with
  | closing :: bracket :: rest => do
    let text ← part? whole (place + 1) closing.place
    if text.isEmpty ∨ bracket.char ≠ ']' then none
    else behindSpan? whole { d with fields := [← FieldMatch.ofText? text] } rest
  | _ => none

/-- A directive from behind the bracket at `place` on. -/
def ofSpan? (whole : List Char) (target : Option String) (place : Nat) (cs : List Placed) :
    Option Directive :=
  match cs.dropWhile fun p => p.char ≠ ']' ∧ p.char ≠ '\x7b' with
  | [] => none
  | stop :: rest => do
    let span ← part? whole (place + 1) stop.place
    if stop.char = ']' then behindSpan? whole { level := .trace, target, span := some span } rest
    else
      let span := if span.isEmpty then none else some span
      ofFields? whole { level := .trace, target, span } stop.place rest

/-- What may come first in a directive without a span. -/
def startsTarget (c : Char) : Bool := c = '-' || c = ':' || c = '_' || isAlphanumeric c

/-- A directive that starts with a target or is a level. A word that is no level is a target. -/
def ofTarget? (whole : List Char) (cs : List Placed) : Option Directive :=
  match cs.dropWhile fun p => p.char ≠ '=' ∧ p.char ≠ '[' with
  | [] =>
    match LogLevel.ofText? (String.ofList whole) with
    | some level => some { level }
    | none => some { level := .trace, target := some (String.ofList whole) }
  | stop :: rest => do
    let target ← part? whole 0 stop.place
    if stop.char = '=' then
      return { level := ← level? whole (stop.place + 1), target := some target }
    else ofSpan? whole (some target) stop.place rest

def ofText? (s : String) : Option Directive :=
  match placed 0 (trimBlanks s).toList with
  | [] => none
  | first :: rest =>
    if first.char = '[' then ofSpan? s.toList none first.place rest
    else if startsTarget first.char then ofTarget? s.toList (first :: rest)
    else none

/-! ## Writing -/

/-- The span and the fields in brackets, if there are any. -/
def scopeText (d : Directive) : String :=
  if d.span.isNone ∧ d.fields.isEmpty then ""
  else
    let span := d.span.getD ""
    let fields :=
      if d.fields.isEmpty then ""
      else "\x7b" ++ ",".intercalate (d.fields.map FieldMatch.text) ++ "\x7d"
    s!"[{span}{fields}]"

def text (d : Directive) : String :=
  let target := d.target.getD ""
  let scope := d.scopeText
  let equals := if d.target.isNone ∧ scope.isEmpty then "" else "="
  s!"{target}{scope}{equals}{d.level.name}"

/-! ## Order -/

/-- Whether the directive depends on the span or on fields at run time. -/
def isDynamic (d : Directive) : Bool := d.span.isSome || !d.fields.isEmpty

/-- Whether all of the directive is known before the program runs. -/
def isStatic (d : Directive) : Bool := d.span.isNone && d.fields.all (·.value.isNone)

/-- The number of bytes of a text, where no text at all is smaller than an empty one. -/
def sizeOf? (o : Option String) : Nat := (o.map fun s => s.utf8ByteSize + 1).getD 0

/-- Orders texts that may be missing; none comes first. -/
def compareTexts : Option String → Option String → Ordering
  | none, none => .eq
  | none, some _ => .lt
  | some _, none => .gt
  | some a, some b => compare a b

/-- Orders directives by the length of the target, the presence of a span and the number of fields;
the texts of those that are equally special decide. -/
def specificity (a b : Directive) : Ordering :=
  (compare (sizeOf? a.target) (sizeOf? b.target)).then <|
    (compare a.span.isSome b.span.isSome).then <|
    (compare a.fields.length b.fields.length).then <|
    (compareTexts a.target b.target).then <|
    (compareTexts a.span b.span).then (FieldMatch.compareAll a.fields b.fields)

/-- Puts a directive among others, the most special one first, where it replaces one for the same
events. -/
def insert (d : Directive) : List Directive → List Directive
  | [] => [d]
  | e :: rest =>
    match specificity d e with
    | .gt => d :: e :: rest
    | .lt => e :: insert d rest
    | .eq => d :: rest

end Directive

end StreamTrace
