import EventStream.Config.Layers
import EventStream.Value.Nesting

/-
# Loaded settings

A store holds settings that were put together from a file and an environment. Reloading puts them
together again from the same path; if that fails nothing changes, and if it succeeds the answer
lists every value that differs, by the names that lead to it. Only values count, not tables: an
empty table is no value. The new settings are in place before they are compared with the old ones,
and stay there if they lie too deep for that.

The token is never handed out with the settings as a whole.
-/

namespace EventStream.Config

/-- What the settings are put together from. -/
structure Environment where
  vars : Variables := []
  files : Files := []
  /-- The settings file that is used when no other is named. -/
  standardPath : Text := []

/-- The parts of a path between the slashes, less the empty ones and the points. -/
def pathParts (path : Text) : List Text :=
  (Text.split '/' path).filter fun part => !part.isEmpty && part ≠ [.scalar '.']

/-- The slashes in front of an absolute path: exactly two are kept, more count as one. -/
def pathRoot (path : Text) : Text :=
  match (path.takeWhile (· = .scalar '/')).length with
  | 0 => []
  | 2 => "//"
  | _ => "/"

/-- A path without empty parts and points; a point stands for the empty path. -/
def normalizePath (path : Text) : Text :=
  let normal := pathRoot path ++ Text.join [.scalar '/'] (pathParts path)
  if normal.isEmpty then "." else normal

/-- The path of the settings file if none is given: the one that the environment names, otherwise
the standard one. -/
def Environment.defaultPath (e : Environment) : Text :=
  match e.vars.lookup (Text.ofString "SAC_CONFIG") with
  | none | some [] => e.standardPath
  | some path => normalizePath path

/-- Settings that were loaded from a path. -/
structure Store where
  path : Text
  data : Table
  /-- When the settings were put together. -/
  lastLoaded : Text := []

/-- The values of a table by the names that lead to them, each name with the ones before it in
front. A name that occurs twice keeps its place and takes its last value. -/
def flattenInto (flat : Table) (before : Text) : List (Text × Value) → Table
  | [] => flat
  | (key, .table entries) :: rest =>
    flattenInto (flattenInto flat (Text.concat [before, key, "."]) entries) before rest
  | (key, v) :: rest => flattenInto (flat.set (before ++ key) v) before rest

/-- The values of settings by the names that lead to them. -/
def flatten (data : Table) : Table := flattenInto [] [] data

/-- A value before and after a reload. -/
structure Change where
  path : Text
  old : Option Value
  new : Option Value

/-- Whether a place has equal values before and after; an absent value counts as null. -/
def sameAt (old new : Option Value) : Bool := (old.getD .null).same (new.getD .null)

/-- The names of two flat tables. -/
def allNames (before after : Table) : List Text :=
  before.keys ++ after.keys.filter (!before.has ·)

/-- The values that differ between two flat tables, in the order of their names. -/
def changes (before after : Table) : List Change :=
  (Text.sort (allNames before after)).filterMap fun name =>
    let old := before.get? name
    let new := after.get? name
    if sameAt old new then none else some ⟨name, old, new⟩

/-- The values of settings by the names that lead to them, unless their tables lie too deep. -/
def flattened (data : Table) : Except Fault Table :=
  if (Value.table data).depth ≤ callLimit then .ok (flatten data)
  else .error (tooDeep " while calling a Python object")

/-- Whether the values of two flat tables can be compared under every name. -/
def comparable (before after : Table) : Bool :=
  (allNames before after).all fun name =>
    Value.comparable callLimit ((before.get? name).getD .null) ((after.get? name).getD .null)

/-- Report what differs between two flat tables, unless values lie too deep to be compared. -/
def compared (before after : Table) : Reported (List Change) :=
  if comparable before after then
    let cs := changes before after
    ⟨[report .info ["Configuration reloaded: ", Text.ofNat cs.length, " change(s)"]], .ok cs⟩
  else ⟨[], .error (tooDeep " in comparison")⟩

/-- A list of changes as a table. -/
def changesTable (cs : List Change) : Table :=
  cs.map fun c =>
    (c.path, .table [("old", c.old.getD .null), ("new", c.new.getD .null)])

namespace Store

/-- Load the settings of a path, or of the default path. -/
def load (e : Environment) (now : Text) (path : Option Text) : Reported Store :=
  let path := match path with
    | none => e.defaultPath
    | some p => normalizePath p
  let built := build e.files e.vars path
  ⟨built.log, built.result.map fun data => ⟨path, data, now⟩⟩

/-- Put the settings together again and exchange them, and answer the old and the new ones as flat
tables. Once they are exchanged they stay, even if the new ones lie too deep. -/
def exchange (s : Store) (e : Environment) (now : Text) : Store × Reported (Table × Table) :=
  match flattened s.data with
  | .error f => (s, ⟨[], .error f⟩)
  | .ok before =>
    match build e.files e.vars s.path with
    | ⟨log, .error f⟩ => (s, ⟨log, .error f⟩)
    | ⟨log, .ok data⟩ =>
      ({ s with data, lastLoaded := now }, ⟨log, (flattened data).map fun after => (before, after)⟩)

/-- Load the settings again and answer what is different. -/
def reload (s : Store) (e : Environment) (now : Text) :
    List LogRecord × Store × Except Fault (List Change) :=
  let (s, exchanged) := s.exchange e now
  let answer := exchanged.andThen fun (before, after) => compared before after
  (answer.log, s, answer.result)

/-- The settings as a section without a name. -/
def root (s : Store) : Section := ⟨s.data, []⟩

/-- What stands behind names in the settings. -/
def find (s : Store) (path : List Text) : Except Fault Found :=
  ((Found.group s.root).findAll path).mapError LookupError.toFault

/-- The token, if the settings hold one that is not empty. -/
def token? (s : Store) : Except Fault (Option Value) :=
  match s.data.get? "auth" with
  | none => .ok none
  | some (.table t) =>
    match Table.get? t "token" with
    | none => .ok none
    | some v => .ok (if v.isEmpty then none else some v)
  | some v => .error (LookupError.noNames v.kindName "get").toFault

/-- All settings, with the token hidden. -/
def toTable (s : Store) : Except Fault Table :=
  s.token?.map fun
    | none => s.data
    | some _ =>
      match s.data.get? "auth" with
      | some (.table t) => s.data.set "auth" (.table (Table.set t "token" (.text "***")))
      | _ => s.data

end Store

end EventStream.Config
