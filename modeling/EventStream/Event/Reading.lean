import EventStream.Value.Coercion

/-
# Reading the fields of a record

Events arrive as tables. A field that the event needs and the table lacks, a value that cannot be
read as the number or the text that is wanted, and an action that the platform does not know are the
three reasons to refuse a record.
-/

namespace EventStream

/-- Why a table is no event. -/
inductive EventError where
  | missing (field : Text)
  | coercion (e : CoercionError)
  | unknownAction (action : Text)

namespace EventError

/-- A refused record as a fault. -/
def toFault : EventError → Fault
  | .missing field => .raised .key (Text.quoted field)
  | .coercion e => e.toFault
  | .unknownAction action =>
    .raised .value (Text.concat ["unknown output action '", action, "'"])

end EventError

namespace Table

/-- The value of a field that must be there. -/
def require (t : Table) (field : Text) : Except EventError Value :=
  match t.get? field with
  | some v => .ok v
  | none => .error (.missing field)

/-- The value of a field as a text. -/
def readText (v : Value) : Except EventError Text := v.asText.mapError .coercion

/-- The text of a field that must be there. -/
def requireText (t : Table) (field : Text) : Except EventError Text :=
  (t.require field).bind readText

/-- The value of a field read as an integer. -/
def readInt (v : Value) : Except EventError Int := v.toInt.mapError .coercion

/-- The integer of a field that must be there. -/
def requireInt (t : Table) (field : Text) : Except EventError Int :=
  (t.require field).bind readInt

/-- The text of a field, empty if the field is absent. -/
def textOrEmpty (t : Table) (field : Text) : Except EventError Text :=
  match t.get? field with
  | some v => readText v
  | none => .ok []

/-- The integer of a field that may be absent or null. -/
def optionalInt (t : Table) (field : Text) : Except EventError (Option Int) :=
  match t.get? field with
  | none | some .null => .ok none
  | some v => (readInt v).map some

end Table

end EventStream
