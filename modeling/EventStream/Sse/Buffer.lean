import EventStream.Sse.Record

/-
# Cutting a streamed body into payloads

Chunks arrive wherever the network cuts the body, so a chunk may end inside a record, inside a
line, or between the two characters of a line end. The buffer keeps the text of the record that is
not finished, with every CRLF already written as a line feed; a carriage return at its very end
stays, because the next chunk may begin with the line feed that belongs to it.

Feeding a chunk appends it, writes the line ends anew, and takes out every finished record.
-/

namespace EventStream.Sse

/-- A text with every CRLF written as a line feed. -/
def normalize : Text → Text
  | .scalar '\r' :: .scalar '\n' :: t => lineFeed :: normalize t
  | c :: t => c :: normalize t
  | [] => []

/-- The records that a text finishes, and the text of the unfinished one. -/
def cutRecords : Text → List Text × Text
  | .scalar '\n' :: .scalar '\n' :: t =>
    let (records, pending) := cutRecords t
    ([] :: records, pending)
  | c :: t =>
    match cutRecords t with
    | ([], pending) => ([], c :: pending)
    | (record :: records, pending) => ((c :: record) :: records, pending)
  | [] => ([], [])

/-- The text of the unfinished record. -/
structure Buffer where
  pending : Text := []
  deriving DecidableEq

/-- Add a chunk: the payloads that it completes, in order, and the buffer afterwards. -/
def Buffer.feed (b : Buffer) (chunk : Text) : List Text × Buffer :=
  let (records, pending) := cutRecords (normalize (b.pending ++ chunk))
  (records.filterMap payload?, ⟨pending⟩)

/-- Add chunk after chunk: all payloads, and the buffer at the end. -/
def Buffer.feedAll (b : Buffer) : List Text → List Text × Buffer
  | [] => ([], b)
  | chunk :: chunks =>
    let (payloads, next) := b.feed chunk
    let (more, last) := next.feedAll chunks
    (payloads ++ more, last)

end EventStream.Sse
