import EventStream.Config.Store

/-
# Log levels

An application sets up logging once, with the name of a level. The first set-up installs a handler
and gives the root its level; later ones only change the level of this library. A name that is no
level counts as INFO, except for one name that means a text where a level is wanted, and which is
refused after the handler was installed.
-/

namespace EventStream.Config

/-- The levels by their names. -/
def levelNames : List (Text × Nat) :=
  [("CRITICAL", 50), ("FATAL", 50), ("ERROR", 40), ("WARNING", 30), ("WARN", 30), ("INFO", 20),
    ("DEBUG", 10), ("NOTSET", 0)]

/-- What a name stands for where a level is wanted. -/
inductive LevelName where
  | level (n : Nat)
  | notLevel (shown : Text)

/-- The upper case of the letters that have an ASCII capital. -/
def toUpper (t : Text) : Text :=
  t.map fun
    | .scalar 'ı' => .scalar 'I'
    | .scalar 'ſ' => .scalar 'S'
    | .scalar c => .scalar c.toUpper
    | c => c

/-- What a name stands for. -/
def LevelName.ofText (name : Text) : LevelName :=
  let name := toUpper name
  if name = Text.ofString "BASIC_FORMAT" then
    .notLevel (Text.quoted "%(levelname)s:%(name)s:%(message)s")
  else .level ((levelNames.lookup name).getD 20)

/-- The levels at which records are kept. -/
structure LogSetup where
  rootLevel : Nat := 30
  packageLevel : Nat := 10
  handlers : Nat := 0

/-- The level from which on records of this library are kept; an unset one is that of the root. -/
def LogSetup.effectiveLevel (s : LogSetup) : Nat :=
  if s.packageLevel = 0 then s.rootLevel else s.packageLevel

/-- Set up logging with the name of a level. -/
def LogSetup.configure (s : LogSetup) (name : Text) : LogSetup × Except Fault Unit :=
  let installed := { s with handlers := 1 }
  match LevelName.ofText name with
  | .level n =>
    let root := if s.handlers = 0 then n else s.rootLevel
    ({ installed with rootLevel := root, packageLevel := n }, .ok ())
  | .notLevel shown =>
    (installed, .error (.raised .value (Text.concat ["Unknown level: ", shown])))

end EventStream.Config
