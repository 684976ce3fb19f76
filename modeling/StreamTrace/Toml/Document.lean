import StreamTrace.Table

/-!
# TOML documents

A document is a list of statements, which build a tree of tables. A table may be written in several
places, but only in ways that cannot be confused: a header opens each table once, and a dotted key
adds only to tables that dotted keys have made. `Toml.ofStatements?` builds the tree, whose members
stand in the order in which they were written.
-/

namespace StreamTrace

inductive Toml where
  | integer (n : Int)
  | float (bits : UInt64)
  | boolean (b : Bool)
  | string (s : String)
  /-- A date, a time, or both. -/
  | moment
  | array (items : List Toml)
  | table (members : List (String × Toml))
  deriving Repr, Inhabited

namespace Toml

/-! ## Statements -/

inductive Statement where
  /-- `path.key = value`; the path may be empty. -/
  | assign (path : List String) (key : String) (value : Toml)
  /-- `[path.key]` -/
  | header (path : List String) (key : String)
  /-- `[[path.key]]` -/
  | itemHeader (path : List String) (key : String)

/-- How a table came about. -/
inductive Origin where
  /-- By its own header. -/
  | header
  /-- By a dotted key. -/
  | dotted
  /-- By the header of a table inside it. -/
  | implied
  deriving Repr, DecidableEq

/-- A document that is being built. -/
inductive Draft where
  | value (v : Toml)
  | table (origin : Origin) (members : List (String × Draft))
  /-- Tables that were opened one after another under one name, the last one first. -/
  | items (last : List (String × Draft)) (earlier : List (List (String × Draft)))

namespace Draft

abbrev Members := List (String × Draft)

def find? (ms : Members) (key : String) : Option Draft := (ms.find? (·.1 == key)).map (·.2)

/-- Puts a member in the place of the one with the same name, or behind all others. -/
def put (ms : Members) (key : String) (d : Draft) : Members :=
  if ms.any (·.1 == key) then ms.map fun m => if m.1 == key then (key, d) else m
  else ms ++ [(key, d)]

def remove (ms : Members) (key : String) : Members := ms.filter fun m => m.1 != key

/-! ## Assignments -/

/-- Adds a value under a dotted key. The tables on its way may not have a header of their own, and
the table that it is added to must be one of dotted keys. -/
def assign : (path : List String) → (key : String) → Toml → Members → Option Members
  | [], key, v, ms => if (find? ms key).isSome then none else some (put ms key (.value v))
  | k :: rest, key, v, ms => do
    match find? ms k with
    | none => return put ms k (.table .dotted (← assign rest key v []))
    | some (.value _) => none
    | some (.items last earlier) =>
      if rest.isEmpty then none
      else return put ms k (.items (← assign rest key v last) earlier)
    | some (.table origin inner) =>
      if origin = .header ∨ (rest.isEmpty ∧ origin ≠ .dotted) then none
      else return put ms k (.table origin (← assign rest key v inner))

/-! ## Headers -/

/-- Changes the table at the end of a path of headers, and yields what comes out of the change. -/
def within {α : Type} (change : Members → Option (α × Members)) :
    (path : List String) → Members → Option (α × Members)
  | [], ms => change ms
  | k :: rest, ms => do
    match find? ms k with
    | none =>
      let (a, inner) ← within change rest []
      return (a, put ms k (.table .implied inner))
    | some (.value _) => none
    | some (.items last earlier) =>
      let (a, last) ← within change rest last
      return (a, put ms k (.items last earlier))
    | some (.table origin inner) =>
      let (a, inner) ← within change rest inner
      return (a, put ms k (.table origin inner))

/-- Takes out what is known of a table whose header comes now. -/
def openTable (key : String) (ms : Members) : Option (Members × Members) :=
  match find? ms key with
  | none => some ([], ms)
  | some (.table .implied inner) => some (inner, remove ms key)
  | some _ => none

def closeTable (key : String) (body : Members) (ms : Members) : Option (Unit × Members) :=
  if (find? ms key).isSome then none else some ((), put ms key (.table .header body))

/-- Checks that another table may be opened under a name. -/
def openItem (key : String) (ms : Members) : Option (Members × Members) :=
  match find? ms key with
  | none => some ([], ms)
  | some (.items _ _) => some ([], ms)
  | some _ => none

def closeItem (key : String) (body : Members) (ms : Members) : Option (Unit × Members) :=
  match find? ms key with
  | none => some ((), put ms key (.items body []))
  | some (.items last earlier) => some ((), put ms key (.items body (last :: earlier)))
  | some _ => none

/-! ## Finished documents -/

mutual

def finish : Draft → Toml
  | .value v => v
  | .table _ members => .table (finishMembers members)
  | .items last earlier => .array (finishTables earlier ++ [.table (finishMembers last)])

def finishMembers : List (String × Draft) → List (String × Toml)
  | [] => []
  | (key, d) :: rest => (key, finish d) :: finishMembers rest

/-- The tables in the order in which they were opened. -/
def finishTables : List (List (String × Draft)) → List Toml
  | [] => []
  | members :: earlier => finishTables earlier ++ [.table (finishMembers members)]

end

end Draft

/-! ## Building -/

/-- Where the table belongs that statements are added to now. -/
inductive Place where
  | root
  | table (path : List String) (key : String)
  | item (path : List String) (key : String)

structure Builder where
  root : Draft.Members := []
  place : Place := .root
  body : Draft.Members := []

namespace Builder

/-- Puts the present table where it belongs. -/
def close (b : Builder) : Option Draft.Members :=
  match b.place with
  | .root => some b.body
  | .table path key => (Draft.within (Draft.closeTable key b.body) path b.root).map (·.2)
  | .item path key => (Draft.within (Draft.closeItem key b.body) path b.root).map (·.2)

def step (b : Builder) : Statement → Option Builder
  | .assign path key v => do return { b with body := ← Draft.assign path key v b.body }
  | .header path key => do
    let (body, root) ← Draft.within (Draft.openTable key) path (← b.close)
    return { root, place := .table path key, body }
  | .itemHeader path key => do
    let (body, root) ← Draft.within (Draft.openItem key) path (← b.close)
    return { root, place := .item path key, body }

end Builder

/-- The tree that the statements build, if they go together. -/
def ofStatements? (statements : List Statement) : Option Toml := do
  let b ← statements.foldlM Builder.step {}
  return .table (Draft.finishMembers (← b.close))

/-- The table of keys and values in braces. -/
def ofPairs? (pairs : List (List String × String × Toml)) : Option Toml := do
  let ms ← pairs.foldlM (fun ms (path, key, v) => Draft.assign path key v ms) []
  return .table (Draft.finishMembers ms)

end Toml

end StreamTrace
