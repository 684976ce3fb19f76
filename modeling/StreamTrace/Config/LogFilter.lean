import StreamTrace.Config.Directive
import StreamTrace.Config.Settings

/-!
# Log filters

A log filter is a list of directives, the more special ones first. `LogFilter.ofText?` reads the
directives between commas; `LogFilter.text` writes a filter back.
-/

namespace StreamTrace

/-- The directives that can be decided early and those that cannot, the more special ones first. A
directive with fields but without values is among both. -/
structure LogFilter where
  static : List Directive := []
  dynamic : List Directive := []
  deriving Repr, DecidableEq

namespace LogFilter

def ofDirectives (ds : List Directive) : LogFilter :=
  let dynamic := ds.filter (·.isDynamic)
  let early := ds.filter (!·.isDynamic) ++ dynamic.filter (·.isStatic)
  { static := early.foldl (fun acc d => Directive.insert d acc) []
    dynamic := dynamic.foldl (fun acc d => Directive.insert d acc) [] }

/-- Reads directives between commas, where empty ones are skipped. -/
def ofText? (s : String) : Option LogFilter := do
  let parts := (s.splitOn ",").filter (!·.isEmpty)
  return ofDirectives (← parts.mapM Directive.ofText?)

def text (f : LogFilter) : String := ",".intercalate ((f.static ++ f.dynamic).map Directive.text)

end LogFilter

namespace LoggingSettings

/-- The directives that the level stands for: blanks do not count, nothing is `info`, and the
levels may be written in letters of either case. -/
def directives (s : LoggingSettings) : String :=
  let trimmed := trimBlanks s.level
  let lower := String.ofList (trimmed.toList.map Char.toLower)
  if trimmed.isEmpty then "info"
  else if lower = "warning" then "warn"
  else if ["trace", "debug", "info", "warn", "error"].contains lower then lower
  else trimmed

/-- The filter of the settings alone; `info` if the level is malformed. -/
def ownFilter (s : LoggingSettings) : LogFilter :=
  (LogFilter.ofText? s.directives).getD (LogFilter.ofDirectives [{ level := .info }])

/-- The filter in force. Directives of the environment come on top of the settings; where the two
do not go together they replace them, and malformed ones are ignored. -/
def filter (s : LoggingSettings) (environment : Option String) : LogFilter :=
  match (environment.map trimBlanks).filter (!·.isEmpty) with
  | none => s.ownFilter
  | some extra =>
    ((LogFilter.ofText? s!"{s.directives},{extra}").or (LogFilter.ofText? extra)).getD s.ownFilter

end LoggingSettings

end StreamTrace
