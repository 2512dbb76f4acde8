import EventStream.Event.Reading
import EventStream.Value.Identity

/-
# Records of a streamed feed

A streamed feed carries records with a type, an action and any other fields. The other fields are
kept as they are. When a record is written, a field that is called `type` or `action` takes the
place of the value of that name, which can only happen to records that were put together by hand.
-/

namespace EventStream

/-- A record of a streamed feed. -/
structure StreamEvent where
  type : Value
  action : Value := .text []
  fields : Table := []
  deriving DecidableEq

namespace StreamEvent

/-- The value of a field, or a default. -/
def get (e : StreamEvent) (field : Text) (default : Value) : Value :=
  (e.fields.get? field).getD default

/-- Read a record from a table. -/
def ofTable (t : Table) : Except EventError StreamEvent := do
  let type ← t.requireText "type"
  let action ← t.textOrEmpty "action"
  return {
    type := .text type
    action := .text action
    fields := t.filter fun e =>
      e.1 ≠ Text.ofString "type" && e.1 ≠ Text.ofString "action" }

/-- Write a record as a table. -/
def toTable (e : StreamEvent) : Table :=
  e.fields.foldl (fun t f => t.set f.1 f.2) [("type", e.type), ("action", e.action)]

end StreamEvent

end EventStream
