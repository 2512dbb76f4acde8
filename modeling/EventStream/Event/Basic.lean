import EventStream.Event.SkillSync
import EventStream.Event.Output
import EventStream.Event.Stream

/-
# Events

What a subscriber receives: the text of a frame, the table of a JSON frame, or a table read as one
of the platform's three event records.
-/

namespace EventStream

/-- The records into which a table can be read. -/
inductive EventModel where
  | skillSync
  | output
  | stream
  deriving DecidableEq

/-- The name of a record type in messages. -/
def EventModel.name : EventModel → Text
  | .skillSync => "SkillSyncEvent"
  | .output => "OutputEvent"
  | .stream => "StreamEvent"

/-- A decoded frame. -/
inductive Event where
  | text (t : Text)
  | table (t : Table)
  | skillSync (e : SkillSyncEvent)
  | output (e : OutputEvent)
  | stream (e : StreamEvent)
  deriving DecidableEq

/-- Read a table as a record of a given type. -/
def EventModel.read (m : EventModel) (t : Table) : Except EventError Event :=
  match m with
  | .skillSync => (SkillSyncEvent.ofTable t).map .skillSync
  | .output => (OutputEvent.ofTable t).map .output
  | .stream => (StreamEvent.ofTable t).map .stream

end EventStream
