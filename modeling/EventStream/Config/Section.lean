import EventStream.Fault

/-
# Reading settings by name

Settings are read name by name, from the root down. A name that leads to a table gives a section,
which remembers the names that led there; any other value ends the path, and reading a name of it
is a mistake. Names with an underscore in front are never settings.
-/

namespace EventStream.Config

/-- A table of the settings with the names that led to it, joined by points. -/
structure Section where
  data : Table
  name : Text := []

/-- What stands behind a name. -/
inductive Found where
  | group (s : Section)
  | value (v : Value)

/-- Why nothing stands behind a name. -/
inductive LookupError where
  | reserved (name : Text)
  | unknown (path : Text) (known : List Text)
  | noNames (kind name : Text)

/-- The wording of a failed look-up. -/
def LookupError.message : LookupError → Text
  | .reserved name => name
  | .unknown path known =>
    Text.concat ["No config value '", path, "'. Known keys: ", Text.quotedList (Text.sort known)]
  | .noNames kind name => Text.concat ["'", kind, "' object has no attribute '", name, "'"]

/-- A failed look-up as a fault. -/
def LookupError.toFault (e : LookupError) : Fault := .raised .attribute e.message

namespace Section

/-- The names that lead to an entry of a section. -/
def pathOf (s : Section) (key : Text) : Text :=
  if s.name.isEmpty then key else Text.concat [s.name, ".", key]

/-- What stands behind a name in a section. -/
def find (s : Section) (key : Text) : Except LookupError Found :=
  if key.head? = some (.scalar '_') then .error (.reserved key)
  else match s.data.get? key with
    | none => .error (.unknown (s.pathOf key) s.data.keys)
    | some (.table t) => .ok (.group ⟨t, s.pathOf key⟩)
    | some v => .ok (.value v)

/-- The value of an entry, or a default. -/
def get (s : Section) (key : Text) (default : Value) : Value := (s.data.get? key).getD default

/-- A section as it is shown: its name and its entries. -/
def shown (s : Section) : Text :=
  let name := if s.name.isEmpty then Text.ofString "<root>" else s.name
  Text.concat ["ConfigSection(", name, ": ", (Value.table s.data).shown, ")"]

end Section

namespace Found

/-- What stands behind a further name. -/
def find (f : Found) (key : Text) : Except LookupError Found :=
  match f with
  | .group s => s.find key
  | .value v => .error (.noNames v.kindName key)

/-- What stands behind names one after another. -/
def findAll (f : Found) : List Text → Except LookupError Found
  | [] => .ok f
  | key :: rest => (f.find key).bind fun found => found.findAll rest

/-- What was found as a plain value. -/
def toValue : Found → Value
  | .group s => .table s.data
  | .value v => v

/-- Whether what was found counts as absent where a default may take its place. A section is always
there, even an empty one. -/
def isEmpty : Found → Bool
  | .group _ => false
  | .value v => v.isEmpty

end Found

end EventStream.Config
