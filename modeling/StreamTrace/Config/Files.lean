import StreamTrace.Config.Reading
import StreamTrace.HelperClass
import StreamTrace.Text.Utf8

/-!
# Files

What the tracer reads from files: a file of settings, and a directory with the class files of the
helper classes. Files are given as a tree, so that reading them has no effects.
-/

namespace StreamTrace

/-- A file or a directory. -/
inductive FileTree where
  | file (bytes : Bytes)
  | directory (entries : List (String × FileTree))

/-- Why a file cannot be read. -/
inductive FileError where
  | notFound
  /-- A part of the path is a file. -/
  | notADirectory
  | isADirectory
  /-- The file holds no text. -/
  | invalidData
  /-- There cannot be a file of that name. -/
  | invalidName
  deriving Repr, DecidableEq

namespace FileError

def label : FileError → String
  | notFound => "NotFound"
  | notADirectory => "NotADirectory"
  | isADirectory => "IsADirectory"
  | invalidData => "InvalidData"
  | invalidName => "InvalidInput"

def description : FileError → String
  | notFound => "no such file or directory"
  | notADirectory => "not a directory"
  | isADirectory => "is a directory"
  | invalidData => "stream did not contain valid UTF-8"
  | invalidName => "invalid name"

end FileError

namespace FileTree

def empty : FileTree := directory []

/-- The parts of a path; empty parts and points mean the directory itself. -/
def pathParts (path : String) : List String :=
  (path.splitOn "/").filter fun part => part != "" && part != "."

/-- Follows a path down from the root. -/
def find : (parts : List String) → FileTree → Except FileError FileTree
  | [], t => .ok t
  | _ :: _, file _ => .error .notADirectory
  | part :: rest, directory entries =>
    match entries.find? (·.1 == part) with
    | none => .error .notFound
    | some (_, t) => find rest t

/-- The content of the file at a path. -/
def read (t : FileTree) (path : String) : Except FileError Bytes :=
  if path.toList.contains '\x00' then .error .invalidName
  else do
    match ← t.find (pathParts path) with
    | .file bytes => return bytes
    | .directory _ => throw .isADirectory

/-- Puts a file or a directory at a path, with the directories above it. -/
def insert (new : FileTree) : (parts : List String) → FileTree → FileTree
  | [], file bytes => file bytes
  | [], directory entries =>
    match new with
    | file bytes => file bytes
    | directory _ => directory entries
  | _ :: _, file bytes => file bytes
  | part :: rest, directory entries =>
    match entries.find? (·.1 == part) with
    | some (_, t) =>
      directory (entries.map fun e => if e.1 == part then (part, insert new rest t) else e)
    | none => directory (entries ++ [(part, insertNew rest)])
where
  /-- The new entry below directories that do not exist yet. -/
  insertNew : List String → FileTree
    | [] => new
    | part :: rest => directory [(part, insertNew rest)]

/-- The tree of some files and, where there are no bytes, directories. -/
def ofFiles (files : List (String × Option Bytes)) : FileTree :=
  files.foldl (fun t (path, bytes) => insert ((bytes.map file).getD empty) (pathParts path) t) empty

end FileTree

/-! ## Class files -/

/-- Where the file of a class lies in a directory of class files. -/
def classPath (className : String) : String :=
  String.ofList (className.toList.map fun c => if c = '.' then '/' else c) ++ ".class"

/-- Class files below a directory. A path that leads out of it finds nothing. A file that cannot be
read is told by the name of the class. -/
def ClassFiles.ofDirectory (t : FileTree) : ClassFiles := fun className =>
  let path := classPath className
  if path.toList.head? = some '/' then .ok .none
  else
    match t.read path with
    | .ok bytes => .ok (some bytes)
    | .error .notFound => .ok .none
    | .error e =>
      let reason := e.description
      .error (.valueInstantiation className s!"failed to read {path}: {reason}")

/-! ## Settings -/

inductive SettingsFileError where
  | file (e : FileError)
  | settings (e : SettingsError)

/-- The settings in a file, if there is one. -/
def Settings.ofFile (t : Option FileTree) : Except SettingsFileError Settings :=
  match t with
  | none => .error (.file .notFound)
  | some (.directory _) => .error (.file .isADirectory)
  | some (.file bytes) =>
    match Utf8.decode bytes with
    | .error _ => .error (.file .invalidData)
    | .ok text => (Settings.ofText text).mapError .settings

end StreamTrace
