import StreamTrace.Config.Settings
import StreamTrace.Decimal.Shortest
import StreamTrace.Text.Quoted
import StreamTrace.Toml.Text

/-!
# Reading settings

Settings from the text of a TOML document. Every setting has a default, so a document may leave out
any of them, but it may name no other. The members are looked at in the order of the document, and
the first one that does not fit is the error.
-/

namespace StreamTrace

/-- Why a document yields no settings. -/
inductive SettingsError where
  /-- The text is no TOML document. -/
  | malformed
  | unknownField (name : String) (expected : List String)
  | invalidType (found : Toml) (expected : String)
  | outOfRange (n : Int) (expected : String)
  deriving Repr, Inhabited

/-- A value as an error names it. -/
def Toml.description : Toml → String
  | integer n => s!"integer `{n}`"
  | float bits =>
    let text := Decimal.pointed FloatFormat.double bits.toNat
    s!"floating point `{text}`"
  | boolean b => s!"boolean `{b}`"
  | string s =>
    let text := quoted s
    s!"string {text}"
  | moment => "map"
  | array _ => "sequence"
  | table _ => "map"

namespace SettingsError

def message : SettingsError → String
  | malformed => "malformed document"
  | unknownField name expected =>
    let names := ", ".intercalate (expected.map fun n => s!"`{n}`")
    s!"unknown field `{name}`, expected one of {names}"
  | invalidType found expected =>
    let description := found.description
    s!"invalid type: {description}, expected {expected}"
  | outOfRange n expected => s!"invalid value: integer `{n}`, expected {expected}"

/-- The error as it is told to those who cannot go on without settings. -/
def report (e : SettingsError) : String := "failed to parse toml config: " ++ e.message

end SettingsError

namespace Settings

/-! ## Values -/

def text : Toml → Except SettingsError String
  | .string s => .ok s
  | v => .error (.invalidType v "a string")

def path : Toml → Except SettingsError String
  | .string s => .ok s
  | v => .error (.invalidType v "path string")

def flag : Toml → Except SettingsError Bool
  | .boolean b => .ok b
  | v => .error (.invalidType v "a boolean")

/-- A natural number of at most `bits` bits. -/
def natural (bits : Nat) (expected : String) : Toml → Except SettingsError Nat
  | .integer n =>
    if 0 ≤ n ∧ n < Nat.pow 2 bits then .ok n.toNat else .error (.outOfRange n expected)
  | v => .error (.invalidType v expected)

/-! ## Sections -/

/-- A setting of a section: its name, and what reading it does to the section. -/
structure Field (σ : Type) where
  name : String
  read : Toml → σ → Except SettingsError σ

/-- The single member of a date or a time, when it is read as a table. -/
def momentField : String := "$__toml_private_datetime"

/-- Reads the members of a section, one after another. -/
def readMembers {σ : Type} (fields : List (Field σ)) :
    List (String × Toml) → σ → Except SettingsError σ
  | [], s => .ok s
  | (name, v) :: rest, s =>
    match fields.find? (·.name == name) with
    | some field => do readMembers fields rest (← field.read v s)
    | none => .error (.unknownField name (fields.map (·.name)))

/-- Reads the values of a section in the order of its fields. -/
def readInOrder {σ : Type} : List (Field σ × Toml) → σ → Except SettingsError σ
  | [], s => .ok s
  | (field, v) :: rest, s => do readInOrder rest (← field.read v s)

/-- A section is a table, or an array of the values of its first fields. -/
def readSection {σ : Type} (label : String) (fields : List (Field σ)) (v : Toml) (s : σ) :
    Except SettingsError σ :=
  match v with
  | .table members => readMembers fields members s
  | .array items => readInOrder (fields.zip items) s
  | .moment => .error (.unknownField momentField (fields.map (·.name)))
  | v => .error (.invalidType v s!"struct {label}")

def loggingFields : List (Field LoggingSettings) :=
  [⟨"level", fun v s => do return { s with level := ← text v }⟩,
    ⟨"json", fun v s => do return { s with json := ← flag v }⟩,
    ⟨"stderr", fun v s => do return { s with stderr := ← flag v }⟩,
    ⟨"file", fun v s => do return { s with file := some (← path v) }⟩]

def jdwpFields : List (Field JdwpSettings) :=
  [⟨"handshake_timeout_ms", fun v s => do
      return { s with handshakeTimeoutMs := UInt64.ofNat (← natural 64 "u64" v) }⟩,
    ⟨"reply_timeout_ms", fun v s => do
      return { s with replyTimeoutMs := UInt64.ofNat (← natural 64 "u64" v) }⟩,
    ⟨"event_channel_size", fun v s => do
      return { s with eventChannelSize := UInt64.ofNat (← natural 64 "usize" v) }⟩]

def traceFields : List (Field TraceSettings) :=
  [⟨"helper_classes_dir", fun v s => do return { s with helperClassesDir := some (← path v) }⟩,
    ⟨"fail_on_substitution_error", fun v s => do
      return { s with failOnSubstitutionError := ← flag v }⟩,
    ⟨"max_step_attempts", fun v s => do
      return { s with maxStepAttempts := UInt32.ofNat (← natural 32 "u32" v) }⟩,
    ⟨"sequential_source", fun v s => do return { s with sequentialSource := ← flag v }⟩,
    ⟨"invoke_single_threaded", fun v s => do
      return { s with invokeSingleThreaded := ← flag v }⟩]

def fields : List (Field Settings) :=
  [⟨"logging", fun v s => do
      return { s with logging := ← readSection "LoggingConfig" loggingFields v s.logging }⟩,
    ⟨"jdwp", fun v s => do
      return { s with jdwp := ← readSection "JdwpConfig" jdwpFields v s.jdwp }⟩,
    ⟨"trace", fun v s => do
      return { s with trace := ← readSection "TraceConfig" traceFields v s.trace }⟩]

/-- The settings that the text of a document gives. -/
def ofText (text : String) : Except SettingsError Settings :=
  match Toml.ofText? text with
  | none => .error .malformed
  | some document => readSection "StreamDebugConfig" fields document {}

end Settings

end StreamTrace
