import EventStream.Config.Section
import EventStream.Log
import EventStream.Toml.Parser
import EventStream.Json.Encoding

/-
# The layers of the settings

Settings come in three layers: the defaults, the settings file, and environment variables. The
file is merged over the defaults table by table: where both have a table their entries are merged,
elsewhere the file's value stands, and keys that only the file has come after the others. Then each
variable that is set puts its value in its place, read as the kind of value that the place wants; a
text that cannot be read so changes nothing and is reported.
-/

namespace EventStream.Config

/-- The settings that hold without a file. Zero attempts and a cap of zero mean that there is no
limit. -/
def defaults : Table :=
  let policy (attempts : Int) (delay multiplier : Float) (cap : Value) : Value :=
    .table [("max_attempts", .int attempts), ("base_delay", .float delay),
      ("backoff_multiplier", .float multiplier), ("max_delay", cap)]
  [("endpoints", .table [("api_url", .text "http://localhost:8080/api"), ("ws_url", .text ""),
      ("session_ws_url", .text "ws://localhost:8081")]),
    ("auth", .table [("token", .text "")]),
    ("session_channel", policy 5 3.0 1.0 (.int 0)),
    ("skill_sync", policy 0 2.0 1.0 (.int 0)),
    ("output_watch", policy 0 2.0 1.0 (.int 0)),
    ("event_stream", policy 0 1.0 2.0 (.float 30.0)),
    ("transport", .table [("open_timeout", .float 10.0)]),
    ("logging", .table [("level", .text "INFO")])]

mutual

/-- A value of a file over the value at the same place, if there is one. -/
def mergeValue (current : Option Value) : Value → Value
  | .table file =>
    match current with
    | some (.table base) => .table (mergeTable base file)
    | _ => .table file
  | v => v

/-- The entries of a file over a table. -/
def mergeTable (base : Table) : List (Text × Value) → Table
  | [] => base
  | (key, v) :: rest => mergeTable (base.set key (mergeValue (base.get? key) v)) rest

end

/-- How the text of a variable is read. -/
inductive Cast where
  | text
  | double
  | integer
  deriving DecidableEq

/-- The value that a text is read as. -/
def Cast.read : Cast → Text → Except CoercionError Value
  | .text, t => .ok (.text t)
  | .double, t => (Value.text t).toFloat.map .float
  | .integer, t => (Value.text t).toInt.map .int

/-- A variable, and the entry that it overrides. -/
structure Override where
  source : Text
  group : Text
  key : Text
  cast : Cast

/-- The names that lead to the entry of an override. -/
def Override.path (o : Override) : Text := Text.concat [o.group, ".", o.key]

/-- The variables that override settings, in the order in which they are looked at. -/
def overrides : List Override :=
  [⟨"SAC_API_URL", "endpoints", "api_url", .text⟩,
    ⟨"SAC_WS_URL", "endpoints", "ws_url", .text⟩,
    ⟨"SAC_SESSION_WS_URL", "endpoints", "session_ws_url", .text⟩,
    ⟨"SAC_TOKEN", "auth", "token", .text⟩,
    ⟨"SAC_OPEN_TIMEOUT", "transport", "open_timeout", .double⟩,
    ⟨"SAC_LOG_LEVEL", "logging", "level", .text⟩,
    ⟨"SAC_SESSION_MAX_ATTEMPTS", "session_channel", "max_attempts", .integer⟩,
    ⟨"SAC_SESSION_RECONNECT_DELAY", "session_channel", "base_delay", .double⟩,
    ⟨"SAC_WATCH_RECONNECT_DELAY", "skill_sync", "base_delay", .double⟩,
    ⟨"SAC_OUTPUT_RECONNECT_DELAY", "output_watch", "base_delay", .double⟩]

/-- The variables of an environment. -/
abbrev Variables := List (Text × Text)

/-- A value that has no entries to set. -/
structure NotTable where
  kind : Text
  isList : Bool

/-- An entry set where there is no table, as a fault. -/
def NotTable.toFault (e : NotTable) : Fault :=
  .raised .type <|
    if e.isList then "list indices must be integers or slices, not str"
    else Text.concat ["'", e.kind, "' object does not support item assignment"]

/-- Set an entry of a group, which is made if it is missing. -/
def setEntry (data : Table) (group key : Text) (v : Value) : Except NotTable Table :=
  match data.get? group with
  | none => .ok (data.set group (.table [(key, v)]))
  | some (.table t) => .ok (data.set group (.table (Table.set t key v)))
  | some other => .error ⟨other.kindName, match other with | .list _ => true | _ => false⟩

/-- The result of a step, with what the step reported. -/
structure Reported (α : Type) where
  log : List LogRecord
  result : Except Fault α

/-- A step after another one, unless that failed. -/
def Reported.andThen {α β : Type} (r : Reported α) (next : α → Reported β) : Reported β :=
  match r with
  | ⟨log, .error f⟩ => ⟨log, .error f⟩
  | ⟨log, .ok a⟩ =>
    let more := next a
    ⟨log ++ more.log, more.result⟩

/-- A report of the settings. -/
def report (level : LogLevel) (parts : List Text) : LogRecord :=
  ⟨.config, level, Text.concat parts⟩

/-- Apply the override of one variable, if it is set. -/
def Override.apply (o : Override) (vars : Variables) (data : Table) : Reported Table :=
  match vars.lookup o.source with
  | none => ⟨[], .ok data⟩
  | some raw =>
    match o.cast.read raw with
    | .error e =>
      ⟨[report .warning ["Invalid env override ", o.source, "=", Text.quoted raw, " ignored: ",
        e.message]], .ok data⟩
    | .ok v =>
      match setEntry data o.group o.key v with
      | .error e => ⟨[], .error e.toFault⟩
      | .ok data => ⟨[report .info ["Env override: ", o.source, " -> ", o.path]], .ok data⟩

/-- Apply overrides one after another; the first that fails ends it. -/
def applyOverrides (vars : Variables) (data : Table) : List Override → Reported Table
  | [] => ⟨[], .ok data⟩
  | o :: rest =>
    match o.apply vars data with
    | ⟨log, .error f⟩ => ⟨log, .error f⟩
    | ⟨log, .ok data⟩ =>
      let more := applyOverrides vars data rest
      ⟨log ++ more.log, more.result⟩

/-- What stands behind the path of a settings file. -/
abbrev Files := List (Text × List UInt8)

/-- What follows when a settings file cannot be read. -/
def unreadable (path reason : Text) : LogRecord :=
  report .warning ["Failed to read ", path, ": ", reason, "; using fallback defaults"]

/-- The fault of calls that nest too deep, and what they were for. -/
def tooDeep (purpose : Text) : Fault :=
  .raised .recursion (Text.concat ["maximum recursion depth exceeded", purpose])

/-- Read a settings file. One that is missing, or that is not well-formed, counts as empty. Bytes
that are no text, an integer with too many digits, and values that lie too deep are faults. -/
def readFile (files : Files) (path : Text) : Reported Table :=
  match files.lookup path with
  | none => ⟨[report .debug ["No config file at ", path, "; using defaults"]], .ok []⟩
  | some bytes =>
    match Utf8.decode bytes with
    | .error e => ⟨[], .error e.toFault⟩
    | .ok t =>
      match Toml.parse t with
      | .ok table => ⟨[report .info ["Configuration loaded from ", path]], .ok table⟩
      | .error .malformed => ⟨[unreadable path "<parse error>"], .ok []⟩
      | .error (.number e) => ⟨[], .error e.toFault⟩
      | .error .tooDeep => ⟨[], .error (tooDeep "")⟩

/-- Put the three layers together. -/
def build (files : Files) (vars : Variables) (path : Text) : Reported Table :=
  match readFile files path with
  | ⟨log, .error f⟩ => ⟨log, .error f⟩
  | ⟨log, .ok file⟩ =>
    let more := applyOverrides vars (mergeTable defaults file) overrides
    ⟨log ++ more.log, more.result⟩

end EventStream.Config
