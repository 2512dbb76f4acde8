import EventStream.Text.Basic

/-
# Records of an event stream body

A streamed body is a sequence of records, each ended by a blank line. A record is a list of lines,
and a line is a comment, which starts with a colon, or a field: a name, and after a colon a value,
from which one leading space is taken. Only `data` fields matter; the payload of a record is the
values of its `data` fields joined by line feeds, and a record without such a field has none.
-/

namespace EventStream.Sse

/-- The line feed. -/
abbrev lineFeed : CodePoint := .scalar '\n'

/-- The carriage return. -/
abbrev carriageReturn : CodePoint := .scalar '\r'

/-- The colon between the name of a field and its value. -/
abbrev colon : CodePoint := .scalar ':'

/-- The space that may follow the colon. -/
abbrev space : CodePoint := .scalar ' '

/-- The name of the fields that carry payload. -/
def dataName : Text := "data"

/-- The value of a line that is a `data` field. A field without a colon has an empty value. -/
def dataValue? (line : Text) : Option Text :=
  let (name, value) := Text.cut colon line
  if name = dataName then
    match value with
    | none => some []
    | some v => some (if v.head? = some space then v.tail else v)
  else none

/-- The payload of a record, if it has a `data` field. A blank line or a comment is no field,
because its name is empty. -/
def payload? (record : Text) : Option Text :=
  match (Text.split lineFeed record).filterMap dataValue? with
  | [] => none
  | values => some (Text.join [lineFeed] values)

end EventStream.Sse
