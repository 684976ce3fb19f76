import StreamTrace.Chain.Basic
import StreamTrace.Json.Record

/-!
# Chains in JSON

The written form of signatures, calls and chains. A terminal call is its call and its result type
in one object; a qualifier names its kind beside its fields.
-/

namespace StreamTrace

open Json (record field fieldOr optionalField listOf)

namespace MethodSignature

def toJson (m : MethodSignature) : Json :=
  .obj [("containingClass", .str m.containingClass), ("name", .str m.name),
    ("argumentTypes", .arr (m.argumentTypes.map .str)), ("returnType", .str m.returnType)]

def ofJson? : Json → Option MethodSignature := record do
  let containingClass ← field "containingClass" Json.asString?
  let name ← field "name" Json.asString?
  let argumentTypes ← field "argumentTypes" (listOf Json.asString?)
  let returnType ← field "returnType" Json.asString?
  return { containingClass, name, argumentTypes, returnType }

end MethodSignature

namespace ElementType

def toJson (t : ElementType) : Json := .str t.typeName

def ofJson? (buffered : Bool) (j : Json) : Option ElementType :=
  (j.variantName? buffered).bind ofTypeName?

end ElementType

namespace TextRange

def toJson (r : TextRange) : Json :=
  .obj [("start", .int r.start.toNat), ("end", .int r.stop.toNat)]

def ofJson? : Json → Option TextRange := record do
  let start ← field "start" Json.unsigned32?
  let stop ← field "end" Json.unsigned32?
  return { start, stop }

end TextRange

namespace StreamCall

def members (c : StreamCall) : List (String × Json) :=
  [("name", .str c.name), ("arguments", .arr (c.arguments.map .str)),
    ("declaringType", .str c.declaringType),
    ("typeBefore", Json.ofOption ElementType.toJson c.typeBefore),
    ("typeAfter", Json.ofOption ElementType.toJson c.typeAfter),
    ("textRange", c.textRange.toJson)]

def toJson (c : StreamCall) : Json := .obj c.members

def fields (buffered : Bool) : Json.FieldReader StreamCall := do
  let name ← field "name" Json.asString?
  let arguments ← field "arguments" (listOf Json.asString?)
  let declaringType ← field "declaringType" Json.asString?
  let typeBefore ← optionalField "typeBefore" (ElementType.ofJson? buffered)
  let typeAfter ← optionalField "typeAfter" (ElementType.ofJson? buffered)
  let textRange ← fieldOr "textRange" {} TextRange.ofJson?
  return { name, arguments, declaringType, typeBefore, typeAfter, textRange }

def ofJson? : Json → Option StreamCall := record (fields false)

end StreamCall

namespace TerminalCall

def toJson (t : TerminalCall) : Json :=
  .obj (t.toStreamCall.members ++ [("resultType", .str t.resultType)])

/-- Only an object holds a terminal call: its two parts share one set of names. -/
def ofJson? : Json → Option TerminalCall
  | .obj members => do
    let (call, _) ← StreamCall.fields true (.named members)
    let resultType ← (Json.find? members "resultType").bind Json.asString?
    return { call with resultType }
  | _ => none

end TerminalCall

namespace Qualifier

def toJson : Qualifier → Json
  | var text name =>
    .obj [("kind", .str "variable"), ("text", .str text), ("variableName", .str name)]
  | call text signature =>
    .obj [("kind", .str "methodCall"), ("text", .str text), ("signature", signature.toJson)]

def ofJson? (j : Json) : Option Qualifier := do
  let (kind, j) ← j.tagged?
  match kind with
  | "variable" =>
    record (do
      let text ← field "text" Json.asString?
      let name ← field "variableName" Json.asString?
      return var text name) j
  | "methodCall" =>
    record (do
      let text ← field "text" Json.asString?
      let signature ← field "signature" MethodSignature.ofJson?
      return call text signature) j
  | _ => none

end Qualifier

namespace StreamChain

def toJson (c : StreamChain) : Json :=
  .obj [("text", .str c.text), ("qualifierExpression", c.qualifier.toJson),
    ("intermediateCalls", .arr (c.intermediate.map StreamCall.toJson)),
    ("terminationCall", c.terminal.toJson)]

def ofJson? : Json → Option StreamChain := record do
  let text ← field "text" Json.asString?
  let qualifier ← field "qualifierExpression" Qualifier.ofJson?
  let intermediate ← field "intermediateCalls" (listOf StreamCall.ofJson?)
  let terminal ← field "terminationCall" TerminalCall.ofJson?
  return { text, qualifier, intermediate, terminal }

end StreamChain

end StreamTrace
