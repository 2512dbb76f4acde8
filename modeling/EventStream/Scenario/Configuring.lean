import EventStream.Config.Lock
import EventStream.Config.LogSetup
import EventStream.Config.Shipped
import EventStream.Policy.Configured

/-
# Scripted use of the settings

A script loads settings, changes the environment and the files under them, reloads, and looks
around. One store is current: the one that was loaded last, or the shared one. The shared store is
made on first use and stays until it is forgotten, whatever path later uses name; stores are held
by number, so that reloading the current store is seen through the shared one if they are the same.
-/

namespace EventStream.Scenario

open EventStream.Config

/-- A step of a script about settings. -/
inductive ConfigStep where
  | load (path : Option Text)
  | shared (path : Option Text)
  | reset
  | write (path : Option Text) (content : Option (List UInt8))
  | setVariable (name : Text) (value : Option Text)
  | reload
  | toTable
  | find (path : List Text)
  | entry (path : List Text) (key : Option Text) (default : Value)
  | groupTable (path : List Text)
  | policy (group : Text)
  | setUpLogging (level : Value)

/-- The answer of a step. -/
inductive ConfigAnswer where
  | nothing
  | loaded (path : Text)
  /-- The shared store: how many others were seen before it, and its path. -/
  | shared (index : Nat) (path : Text)
  | changed (changes : List Change)
  | found (f : Found)
  | policy (p : ReconnectPolicy Number)
  | logging (setup : LogSetup)

/-- The state of a script about settings. -/
structure ConfigRun where
  environment : Environment
  stores : List Guarded := []
  sharedStore : Option Nat := none
  current : Option Nat := none
  /-- The shared stores that were seen, in order. -/
  seen : List Nat := []
  logging : LogSetup := {}

namespace ConfigRun

/-- A fault of a script that needs a store before there is one. -/
def noStore : Fault := .raised .lookup "no config"

/-- What a script would answer for a store whose lock is never given back. -/
def stillWaiting : Fault := .raised .runtime "still waiting"

/-- A step's new state, its reports and its answer. -/
abbrev Outcome := ConfigRun × List LogRecord × Except Fault ConfigAnswer

/-- Load a store and hold it under a new number. -/
def hold (r : ConfigRun) (path : Option Text) : ConfigRun × List LogRecord × Except Fault Nat :=
  match Store.load r.environment [] path with
  | ⟨log, .error f⟩ => (r, log, .error f)
  | ⟨log, .ok s⟩ => ({ r with stores := r.stores ++ [⟨s, false⟩] }, log, .ok r.stores.length)

/-- The shared store, which is made if there is none. -/
def share (r : ConfigRun) (path : Option Text) : ConfigRun × List LogRecord × Except Fault Nat :=
  match r.sharedStore with
  | some i => (r, [], .ok i)
  | none =>
    match r.hold path with
    | (r, log, .error f) => (r, log, .error f)
    | (r, log, .ok i) => ({ r with sharedStore := some i }, log, .ok i)

/-- The current store with its lock. -/
def guarded? (r : ConfigRun) : Option (Nat × Guarded) := do
  let i ← r.current
  return (i, ← r.stores[i]?)

/-- The current store. -/
def store? (r : ConfigRun) : Option (Nat × Store) :=
  r.guarded?.map fun (i, g) => (i, g.store)

/-- Answer from the current store. -/
def ask (r : ConfigRun) (f : Store → Except Fault ConfigAnswer) : Outcome :=
  match r.store? with
  | none => (r, [], .error noStore)
  | some (_, s) => (r, [], f s)

/-- The number of a shared store among the ones seen, which it joins if it is new. -/
def number (r : ConfigRun) (i : Nat) : ConfigRun × Nat :=
  match r.seen.findIdx? (· = i) with
  | some k => (r, k)
  | none => ({ r with seen := r.seen ++ [i] }, r.seen.length)

/-- The value of an entry of what was found, or a default. -/
def entryOf (found : Found) (isRoot : Bool) (key : Option Text) (default : Value) :
    Except Fault ConfigAnswer :=
  match found with
  | .group g =>
    if isRoot then
      match g.find "get" with
      | .error e => .error e.toFault
      | .ok inner =>
        .error (.raised .type (Text.concat ["'", inner.toValue.kindName, "' object is not callable"]))
    else
      .ok <| .found <| .value <| match key with
        | some key => g.get key default
        | none => default
  | .value v => .error (LookupError.noNames v.kindName "get").toFault

/-- The path of the settings file that a script writes. -/
def scriptPath : Text := "settings.toml"

/-- Put a file in place, or take it away. -/
def writeFile (e : Environment) (path : Text) (content : Option (List UInt8)) : Environment :=
  let others := e.files.filter (·.1 ≠ path)
  { e with files := match content with
      | none => others
      | some bytes => (path, bytes) :: others }

/-- Set a variable, or unset it. -/
def setVariable (e : Environment) (name : Text) (value : Option Text) : Environment :=
  let others := e.vars.filter (·.1 ≠ name)
  { e with vars := match value with
      | none => others
      | some v => (name, v) :: others }

/-- The name of a level, which is that of the shared settings if none is given. -/
def levelName (r : ConfigRun) : Value → ConfigRun × List LogRecord × Except Fault Text
  | .null =>
    match r.share none with
    | (r, log, .error f) => (r, log, .error f)
    | (r, log, .ok i) =>
      let found : Except Fault Found := match r.stores[i]? with
        | none => .error noStore
        | some g => g.store.find ["logging", "level"]
      (r, log, found.map fun
        | .group g => g.shown
        | .value v => v.toText)
  | v => (r, [], .ok v.toText)

/-- Set up logging with the name of a level. -/
def setUpLogging (r : ConfigRun) (level : Value) : Outcome :=
  match r.levelName level with
  | (r, log, .error f) => (r, log, .error f)
  | (r, log, .ok name) =>
    let (setup, result) := r.logging.configure name
    ({ r with logging := setup }, log, result.map fun _ => .logging setup)

/-- Perform a step. -/
def perform (r : ConfigRun) : ConfigStep → Outcome
  | .load path =>
    match r.hold path with
    | (r, log, .error f) => (r, log, .error f)
    | (r, log, .ok i) =>
      let path := (r.stores[i]?.map (·.store.path)).getD []
      ({ r with current := some i }, log, .ok (.loaded path))
  | .shared path =>
    match r.share path with
    | (r, log, .error f) => (r, log, .error f)
    | (r, log, .ok i) =>
      let (r, k) := r.number i
      let path := (r.stores[i]?.map (·.store.path)).getD []
      ({ r with current := some i }, log, .ok (.shared k path))
  | .reset => ({ r with sharedStore := none }, [], .ok .nothing)
  | .write path content =>
    let path := normalizePath (path.getD scriptPath)
    ({ r with environment := writeFile r.environment path content }, [], .ok .nothing)
  | .setVariable name value =>
    ({ r with environment := setVariable r.environment name value }, [], .ok .nothing)
  | .reload =>
    match r.guarded? with
    | none => (r, [], .error noStore)
    | some (i, g) =>
      match g.reload r.environment [] with
      | none => (r, [], .error stillWaiting)
      | some (g, answer) =>
        ({ r with stores := r.stores.set i g }, answer.log, answer.result.map .changed)
  | .toTable => r.ask fun s => s.toTable.map fun t => .found (.value (.table t))
  | .find path => r.ask fun s => (s.find path).map .found
  | .entry path key default => r.ask fun s => do
    entryOf (← s.find path) path.isEmpty key default
  | .groupTable path => r.ask fun s =>
    if path.isEmpty then s.toTable.map fun t => .found (.value (.table t))
    else do
      match ← s.find path with
      | .group g => .ok (.found (.value (.table g.data)))
      | .value v => .error (LookupError.noNames v.kindName "to_dict").toFault
  | .policy group => r.ask fun s => (s.policy group).map .policy
  | .setUpLogging level => r.setUpLogging level

/-- The run that starts in an environment whose file is the one that the scripts write, beside
the file that ships with the library. -/
def start (standardPath : Text) (content : Option (List UInt8)) (vars : Variables) :
    ConfigRun :=
  let named : Environment := {
    vars := [(Text.ofString "SAC_CONFIG", scriptPath)]
    files := [(standardPath, shippedFile.flatMap Utf8.encodeOne)]
    standardPath }
  let filled := writeFile named scriptPath content
  { environment := vars.foldl (fun e v => setVariable e v.1 (some v.2)) filled }

end ConfigRun

end EventStream.Scenario
