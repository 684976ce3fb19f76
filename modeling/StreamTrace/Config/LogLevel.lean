import StreamTrace.Decimal.Numeral

/-!
# Log levels

How much is logged, from nothing to everything. A level is written as a name or as a number.
-/

namespace StreamTrace

inductive LogLevel where
  | off
  | error
  | warn
  | info
  | debug
  | trace
  deriving Repr, DecidableEq

namespace LogLevel

def name : LogLevel → String
  | off => "off"
  | error => "error"
  | warn => "warn"
  | info => "info"
  | debug => "debug"
  | trace => "trace"

def all : List LogLevel := [off, error, warn, info, debug, trace]

/-- A level by number or by name, in letters of either case. No text at all is `error`. -/
def ofText? (s : String) : Option LogLevel :=
  if s.isEmpty then some error
  else
    ((Decimal.unsigned64? s.toList).bind (all[·]?)).or
      (all.find? fun l => l.name == String.ofList (s.toList.map Char.toLower))

end LogLevel

end StreamTrace
