import EventStream.Event.Basic
import EventStream.Json.Loading
import EventStream.Log

/-
# Decoding of frames

A transport delivers frames of text or bytes; now and then it delivers something that is neither.
A decoder turns a frame into an event or discards it, and a frame that cannot be decoded is never
an error of the subscription: the decoder reports why and goes on. The text decoder takes a text
as it is and reads bytes as strict UTF-8. The JSON decoder reads a document, which has to be a
table, and if it was given a record type, reads the table as that record.

What a decoder calls raises faults. The decoder expects faults of the kinds that it lists and
discards the frame then; a fault of any other kind is let through to whoever decodes.
-/

namespace EventStream

/-- How the frames of a subscription are turned into events. -/
inductive FrameDecoder where
  | text
  | json (model : Option EventModel)
  deriving DecidableEq

namespace FrameDecoder

/-- Why a frame is discarded. -/
inductive Discard where
  /-- A frame that is no text. -/
  | undecodable (f : Fault)
  /-- A frame that is no document. -/
  | malformed (f : Fault)
  /-- A document that is not a table. -/
  | notTable (kind : Text)
  /-- A table that is not the record wanted. -/
  | rejected (model : EventModel) (f : Fault)

/-- The report of a discarded frame. -/
def Discard.message : Discard → Text
  | .undecodable f => Text.concat ["Skipping undecodable frame: ", f.shown]
  | .malformed f => Text.concat ["Skipping malformed frame: ", f.shown]
  | .notTable kind => Text.concat ["Skipping non-object frame (", kind, ")"]
  | .rejected model f => Text.concat ["Skipping frame rejected by ", model.name, ": ", f.shown]

/-- The kinds of faults that are expected of bytes read as text. -/
def expectedOfText : List FaultKind := [.decoding, .type]

/-- The kinds of faults that are expected of a document. -/
def expectedOfDocument : List FaultKind := [.value, .type, .recursion]

/-- The kinds of faults that are expected of a table read as a record. -/
def expectedOfRecord : List FaultKind := [.key, .type, .value, .overflow]

/-- A part of the decoding: its result, or why the frame is discarded. A fault may be let through. -/
abbrev Decoding := ExceptT Discard (Except Fault)

/-- Try something; a fault of a kind that is expected discards the frame. -/
def attempt {α : Type} (expected : List FaultKind) (discard : Fault → Discard) :
    Except Fault α → Decoding α
  | .ok a => pure a
  | .error f => if f.isOneOf expected then throw (discard f) else ExceptT.lift (.error f)

/-- Decode a frame as text. -/
def decodeText : Value → Decoding Text
  | .text t => return t
  | .bytes b =>
    attempt expectedOfText .undecodable ((Utf8.decode b).mapError Utf8.DecodeError.toFault)
  | v =>
    attempt expectedOfText .undecodable <| .error (.raised .type
      (Text.concat ["cannot convert '", v.kindName, "' object to bytes"]))

/-- Decode a frame as a JSON table. -/
def decodeTable (frame : Value) : Decoding Table := do
  match ← attempt expectedOfDocument .malformed (Json.load frame) with
  | .table t => return t
  | v => throw (.notTable v.kindName)

/-- Decode a frame: its event, or why it is discarded, unless a fault is let through. -/
def decode : FrameDecoder → Value → Decoding Event
  | .text, frame => .text <$> decodeText frame
  | .json none, frame => .table <$> decodeTable frame
  | .json (some model), frame => do
    let t ← decodeTable frame
    attempt expectedOfRecord (.rejected model) ((model.read t).mapError EventError.toFault)

/-- The event of a frame, if it is decoded to one. -/
def event? (d : FrameDecoder) (frame : Value) : Option Event :=
  match (d.decode frame).run with
  | .ok (.ok e) => some e
  | _ => none

end FrameDecoder

/-- What a discarded frame leaves in the log. -/
def FrameDecoder.Discard.record (d : FrameDecoder.Discard) : LogRecord :=
  ⟨.decoder, .debug, d.message⟩

end EventStream
