import StreamTrace.Json

/-!
# Records in JSON

A record is written as an object, and is read from an object or from an array of its fields in
their declared order. Unknown members of an object are ignored; an array has to hold exactly the
fields. An enumeration without content is its name, or an object with the name as its only member
and null for the content.
-/

namespace StreamTrace

namespace Json

/-- Where the fields of a record come from: they are found by name or taken one after another. -/
inductive Source where
  | named (members : List (String × Json))
  | listed (items : List Json)

abbrev FieldReader := StateT Source Option

/-- The next field, absent when no member has its name or no item is left. -/
def nextField (name : String) : FieldReader (Option Json) := fun source =>
  match source with
  | .named members => some (find? members name, .named members)
  | .listed [] => some (none, .listed [])
  | .listed (item :: rest) => some (some item, .listed rest)

def field {α : Type} (name : String) (read : Json → Option α) : FieldReader α := do
  match ← nextField name with
  | some j => fun source => (read j).map (·, source)
  | none => failure

/-- A field that is read as `fallback` where it is absent. -/
def fieldOr {α : Type} (name : String) (fallback : α) (read : Json → Option α) :
    FieldReader α := do
  match ← nextField name with
  | some j => fun source => (read j).map (·, source)
  | none => return fallback

/-- Null, or a value. -/
def nullable {α : Type} (read : Json → Option α) : Json → Option (Option α)
  | .null => some none
  | j => (read j).map some

/-- A field that may be null, and that an object may leave out. -/
def optionalField {α : Type} (name : String) (read : Json → Option α) :
    FieldReader (Option α) := fun source =>
  match source with
  | .named _ => fieldOr name none (nullable read) source
  | .listed _ => field name (nullable read) source

/-- The record with those fields. -/
def record {α : Type} (fields : FieldReader α) : Json → Option α
  | .obj members => (fields (.named members)).map (·.1)
  | .arr items =>
    match fields (.listed items) with
    | some (a, .listed []) => some a
    | _ => none
  | _ => none

/-- A list, each item of it read. -/
def listOf {α : Type} (read : Json → Option α) : Json → Option (List α)
  | .arr items => items.mapM read
  | _ => none

/-- The name of a variant without content. Where the value was `buffered`, since the kind or the
other half of the record around it had to be found first, an empty object stands for no content as
well. -/
def variantName? (buffered : Bool) : Json → Option String
  | .str name => some name
  | .obj [(name, .null)] => some name
  | .obj [(name, .obj [])] => if buffered then some name else none
  | _ => none

/-- The variant and the fields of a record whose member `kind` names its variant; in an array the
name comes first. -/
def tagged? : Json → Option (String × Json)
  | .obj members =>
    match find? members "kind" with
    | some (.str kind) => some (kind, .obj members)
    | _ => none
  | .arr (.str kind :: rest) => some (kind, .arr rest)
  | _ => none

def unsigned32? (j : Json) : Option UInt32 := (j.natBelow? 32).map UInt32.ofNat

end Json

end StreamTrace
