import StreamTrace.Machine.StreamProgram
import StreamTrace.Text.Hex
import StreamTrace.Json

/-!
# Simulated programs in JSON

Reading simulated programs from JSON: the elements of the source, the stages with their lambdas,
and the terminal call. A lambda is a list of cases with the outcome of all other elements.
-/

namespace StreamTrace

def Element.ofJson? : Json → Option Element
  | .null => some .null
  | .bool b => some (.bool b)
  | .str s => some (.str s)
  | .obj [("long", n)] => (n.signed? 64).map fun n => .long (Int64.ofInt n)
  | .obj [("double", bits)] => do
    return .double (UInt64.ofNat (← Hex.number? (← bits.asString?).toList))
  | j => (j.signed? 32).map fun n => .int (Int32.ofInt n)

def LambdaRule.ofJson? : Json → Option LambdaRule
  | .str "same" => some .same
  | .str "exit" => some (.outcome .exitVm)
  | j => do
    match j.member? "value" with
    | some e => return .outcome (.value (← Element.ofJson? e))
    | none =>
      let exception ← j.givenString? "throw"
      match j.member? "caught", j.givenString? "replacedBy" with
      | some e, _ => return .outcome (.raise exception (some (← Element.ofJson? e)))
      | none, some replacement => return .outcome (.raiseReplaced exception replacement)
      | none, none => return .outcome (.raise exception none)

def Lambda.ofJson? (j : Json) : Option Lambda := do
  let cases ← (j.givenItems "cases").mapM fun c => do
    return (← Element.ofJson? (← c.item? 0), ← LambdaRule.ofJson? (← c.item? 1))
  return Lambda.ofCases cases (← LambdaRule.ofJson? (← j.member? "default"))

def ProgramStage.ofJson? (j : Json) : Option ProgramStage := do
  let f : Option Lambda := (j.item? 1).bind Lambda.ofJson?
  match ← (← j.item? 0).asString? with
  | "filter" => return .filter (← f)
  | "map" => return .map (← f)
  | "peek" => return .peek (← f)
  | "mapNull" => return .mapNull
  | "parallel" => return .parallel
  | _ => none

def ProgramTerminal.ofJson? (j : Json) : Option ProgramTerminal := do
  let f : Option Lambda := (j.item? 1).bind Lambda.ofJson?
  match ← (← j.item? 0).asString? with
  | "count" => return .count
  | "anyMatch" => return .anyMatch (← f)
  | "findFirst" => return .findFirst
  | "toList" => return .toList
  | "forEach" => return .forEach (← f)
  | _ => none

namespace StreamProgram

/-- A program over integers or objects, without stages. -/
def sourceOfJson? (j : Json) : Option StreamProgram := do
  let items := j.givenItems "items"
  if j.givenString? "source" = some "ints" then
    return ints (← items.mapM fun e => (e.signed? 32).map Int32.ofInt)
  else return objects (← items.mapM Element.ofJson?)

def ofJson? (j : Json) : Option StreamProgram := do
  let source ← sourceOfJson? j
  let source := match j.givenString? "variable" with
    | some name => source.inVariable name
    | none => source
  let stages ← (j.givenItems "stages").mapM ProgramStage.ofJson?
  let terminal ← match j.given? "terminal" with
    | some t => ProgramTerminal.ofJson? t
    | none => some .count
  let p := { source with stages, terminal }
  return match j.givenNat? "runs" 32 with
    | some n => p.repeated n
    | none => p

end StreamProgram

end StreamTrace
