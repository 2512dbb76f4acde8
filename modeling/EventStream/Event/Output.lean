import EventStream.Event.Reading

/-
# Output workspace events

A file appeared in, or vanished from, the output workspace of an agent.
-/

namespace EventStream

/-- What happened to a file. -/
inductive OutputAction where
  | upload
  | delete
  deriving DecidableEq

namespace OutputAction

/-- The word for an action. -/
def word : OutputAction → Text
  | .upload => "upload"
  | .delete => "delete"

/-- The action with a given word. -/
def ofWord? (word : Text) : Option OutputAction :=
  if word = OutputAction.upload.word then some .upload
  else if word = OutputAction.delete.word then some .delete
  else none

end OutputAction

/-- A change of one file. -/
structure OutputEvent where
  action : OutputAction
  path : Text
  name : Text
  size : Int
  deriving DecidableEq

namespace OutputEvent

/-- The size of a file, zero if it is not given. -/
def sizeOf (t : Table) : Except EventError Int :=
  match t.get? "size" with
  | none => .ok 0
  | some v => Table.readInt v

/-- Read an event from a table. The action is looked at before the other fields. -/
def ofTable (t : Table) : Except EventError OutputEvent := do
  let word ← t.requireText "action"
  let action ← match OutputAction.ofWord? word with
    | some action => pure action
    | none => throw (.unknownAction word)
  let path ← t.requireText "path"
  let name ← t.textOrEmpty "name"
  let size ← sizeOf t
  return { action, path, name, size }

/-- Write an event as a table. -/
def toTable (e : OutputEvent) : Table :=
  [("action", .text e.action.word), ("path", .text e.path), ("name", .text e.name),
    ("size", .int e.size)]

end OutputEvent

end EventStream
