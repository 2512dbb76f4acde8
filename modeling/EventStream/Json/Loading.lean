import EventStream.Json.Parser
import EventStream.Json.Encoding

/-
# Loading of documents

A document is loaded from a text or from bytes. A text must not begin with a byte order mark; bytes
may, and the mark is no part of the document then. Whatever is wrong with a document is raised as a
fault, and so is what is no document at all. The kinds of these faults are not alike: a document
that nests too deep is no mistake of form.
-/

namespace EventStream.Json

/-- The kind of the fault that a document raises. -/
def ParseError.kind : ParseError → FaultKind
  | .grammar .. => .document
  | .number e => e.kind
  | .tooDeep _ => .recursion

/-- A text that is no document as a fault. -/
def ParseError.toFault (document : Text) (e : ParseError) : Fault :=
  .raised e.kind (e.message document)

/-- Bytes that are no text as a fault. -/
def EncodingError.toFault (e : EncodingError) : Fault := .raised .decoding e.message

/-- The byte order mark, read as a code point. -/
def mark : CodePoint := .scalar '\uFEFF'

/-- Load a text. -/
def loadText (document : Text) : Except Fault Value :=
  (parse document).mapError (ParseError.toFault document)

/-- Load a document. -/
def load : Value → Except Fault Value
  | .text document =>
    if document.head? = some mark then
      .error ((ParseError.grammar .textWithoutMark document.length).toFault document)
    else loadText document
  | .bytes b => do loadText (← (decodeBytes b).mapError EncodingError.toFault)
  | v =>
    .error (.raised .type (Text.concat ["the JSON object must be str, bytes or bytearray, not ",
      v.kindName]))

end EventStream.Json
