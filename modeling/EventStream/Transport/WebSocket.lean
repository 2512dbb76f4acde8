import EventStream.Transport.Report
import EventStream.Url.Redaction

/-
# A WebSocket connection

Two tasks serve a connection. The reader opens it, reports, and reads frames until there are no
more; the writer takes payloads from the outbox and writes one at a time. Sending only puts a
payload into the outbox, so it never waits, and what was accepted but not written can be taken back:
first the payload that is being written, then the outbox.

The tasks interleave only where they wait, so the state names the place where each of them stands,
and a move is what happens there: something arrives, a write ends, a wait is cancelled, or a report
has been heard. Whoever makes the moves decides their order. The owner may send, take back and close
at any time, also while a report is being heard.

Closing marks the connection as closed and cancels the reader. The mark keeps the reports apart:
nothing is reported once it is set, and each of the last reports sets it first. A write that is
refused ends the connection from the writer's side, and the refused payload is dropped.
-/

namespace EventStream.Transport

/-- How the reader leaves an open connection. -/
inductive WebSocketExit where
  /-- There are no more frames. -/
  | ended (code : Value)
  /-- The connection was closed by its owner while a frame was on its way. -/
  | silent
  | cancelled
  | broken (e : Failure)

/-- Where the reader stands. -/
inductive WebSocketReader where
  | fresh
  /-- It waits for the handshake. -/
  | connecting
  /-- The opening is being heard. -/
  | opening
  /-- It waits for a frame. -/
  | reading
  /-- A frame is being heard. -/
  | hearing
  /-- It waits for the connection to be left. -/
  | leaving (exit : WebSocketExit)
  /-- Its last report is being heard. -/
  | reporting
  | finished

/-- Where the writer stands. -/
inductive WebSocketWriter where
  | absent
  | fresh
  /-- It waits for a payload. -/
  | waiting
  /-- It waits until a payload is written. -/
  | writing (payload : Value)
  /-- Its report of a failed write is being heard. -/
  | reporting
  | finished

/-- A WebSocket connection. -/
structure WebSocket where
  /-- Nothing is reported any more. -/
  closed : Bool := false
  /-- Whether it holds a socket. -/
  attached : Bool := false
  outbox : List Value := []
  /-- The payload that is being written, unless it was taken back. Null is not noted. -/
  inFlight : Option Value := none
  reader : WebSocketReader := .fresh
  writer : WebSocketWriter := .absent
  /-- Whether the reader's wait, or its next one, is to be cancelled. -/
  cancelReader : Bool := false
  /-- Whether the writer's wait is to be cancelled. -/
  cancelWriter : Bool := false

namespace WebSocket

/-- Whether payloads are accepted. -/
def isOpen (w : WebSocket) : Bool := w.attached && !w.closed

/-- Accept a payload, if the connection is open. -/
def send (w : WebSocket) (payload : Value) : WebSocket × Bool :=
  if w.isOpen then ({ w with outbox := w.outbox ++ [payload] }, true) else (w, false)

/-- Take back the accepted payloads that were not written, the oldest first. -/
def unsent (w : WebSocket) : WebSocket × List Value :=
  ({ w with inFlight := none, outbox := [] }, w.inFlight.toList ++ w.outbox)

/-- Close the connection. Nothing is reported from here on. -/
def close (w : WebSocket) : WebSocket :=
  if w.closed then w else { w with closed := true, cancelReader := true }

/-- A closed connection accepts nothing. -/
theorem send_of_closed {w : WebSocket} (h : w.closed = true) (payload : Value) :
    w.send payload = (w, false) := by
  simp [send, isOpen, h]

/-- Whether a report is being heard. -/
def isReporting (w : WebSocket) : Bool :=
  match w.reader, w.writer with
  | .opening, _ | .hearing, _ | .reporting, _ | _, .reporting => true
  | _, _ => false

/-- Something that happens to a connection. -/
inductive Move where
  /-- The reader begins. -/
  | begin
  /-- The handshake is completed. -/
  | accepted
  /-- The handshake fails. -/
  | refused (e : Failure)
  | frame (frame : Value)
  /-- There are no more frames; the code is the one of the closed connection. -/
  | ended (code : Value)
  /-- Reading fails in another way. -/
  | broken (e : Failure)
  /-- The connection was left, or leaving it failed. -/
  | left (failure : Option Failure)
  /-- The reader's wait is cancelled. -/
  | cancelled
  /-- The writer begins. -/
  | writerBegun
  /-- The writer takes a payload from the outbox. -/
  | taken
  /-- The payload is written. -/
  | written
  /-- The socket is closed and takes no payload. -/
  | unwritable
  /-- The socket refuses the payload. -/
  | rejected (e : Failure)
  /-- The writer's wait is cancelled. -/
  | writerCancelled
  /-- The report that was being heard has returned, or failed. -/
  | heard (failure : Option Failure)

/-- A state and what is seen of reaching it. -/
abbrev Step := WebSocket × List Effect

section

variable (url : Text)

/-- The URL as it may be written to the log. -/
def redacted : Text := Url.redact url

/-- A fault of the connection. -/
def faultOf (message : List Text) (status : Value) : Fault :=
  .transport {
    message := Text.concat message
    code := status
    details := [(.text "url", .text (redacted url))] }

/-- The reports of a failure, unless the connection is closed. -/
def fail (w : WebSocket) (f : Fault) : Bool × Step :=
  if w.closed then (false, w, [])
  else (true, { w with closed := true }, [
    say .warning ["WebSocket failed: ", redacted url, ": ", f.shown],
    .report (.failed f)])

/-- The reader ends with a failure. -/
def readerFails (w : WebSocket) (e : Failure) : Step :=
  if e.known then
    match fail url w (faultOf url ["WebSocket connection failed: ", e.fault.shown] e.status) with
    | (true, w, effects) => ({ w with reader := .reporting }, effects)
    | (false, w, effects) => ({ w with reader := .finished }, effects)
  else ({ w with reader := .finished }, [])

/-- The reader ends because it was cancelled. -/
def readerCancelled (w : WebSocket) : Step :=
  ({ w with reader := .finished }, [say .debug ["WebSocket task cancelled: ", redacted url]])

/-- The reader turns to leaving; the socket is let go and the writer cancelled. -/
def leave (w : WebSocket) (exit : WebSocketExit) : Step :=
  ({ w with
      attached := false
      cancelWriter := true
      reader := .leaving exit }, [.leave])

/-- What a fault of the subscriber is to the reader. -/
def heardFailure (f : Fault) : Failure :=
  { fault := f, known := f.label = Text.ofString "OSError" }

/-- How the reader leaves when reading a frame, or the hearing of it, fails. That the connection is
closed is the end of the frames. -/
def exitAfter (e : Failure) : WebSocketExit :=
  match e.closure with
  | some code => .ended code
  | none => .broken e

/-- The connection was left. -/
def conclude (w : WebSocket) : WebSocketExit → Step
  | .ended code =>
    if w.closed then ({ w with reader := .finished }, [])
    else ({ w with closed := true, reader := .reporting }, [
      say .info ["WebSocket closed: ", redacted url, " (code=", code.toText, ")"],
      .report (.closed code)])
  | .silent => ({ w with reader := .finished }, [])
  | .cancelled => readerCancelled url w
  | .broken e => readerFails url w e

/-- What is noted of the payload that is being written. -/
def noted : Value → Option Value
  | .null => none
  | payload => some payload

/-- The socket refuses the payload that is being written, which is dropped. -/
def reject (w : WebSocket) (e : Failure) : Step :=
  let kind := (w.inFlight.getD .null).kindName
  let refused := say .error ["WebSocket send failed: ", redacted url, " (payload type ", kind, ")"]
  let fault := faultOf url ["WebSocket send failed: ", e.fault.label, ": ", e.fault.shown] .null
  match fail url { w with inFlight := none } fault with
  | (true, w, effects) => ({ w with writer := .reporting }, refused :: effects)
  | (false, w, effects) =>
    ({ w with writer := .finished, cancelReader := true }, refused :: effects)

/-- The reader's wait is cancelled; a reader that never began leaves nothing behind. -/
def cancel (w : WebSocket) : Option Step :=
  match w.reader with
  | .fresh => some ({ w with reader := .finished }, [])
  | .connecting | .leaving _ => some (readerCancelled url w)
  | .reading => some (leave w .cancelled)
  | _ => none

/-- The writer's wait is cancelled. A payload that it was writing can still be taken back. -/
def cancelWriting (w : WebSocket) : Option Step :=
  match w.writer with
  | .fresh | .waiting | .writing _ => some ({ w with writer := .finished }, [])
  | _ => none

/-- A report has been heard: the task that made it goes on. -/
def heard (w : WebSocket) (failure : Option Failure) : Option Step :=
  match w.reader, w.writer, failure with
  | .opening, _, none => some ({ w with reader := .reading, writer := .fresh }, [])
  | .opening, _, some e => some ({ w with reader := .leaving (.broken e) }, [.leave])
  | .hearing, _, none => some ({ w with reader := .reading }, [])
  | .hearing, _, some e => some (leave w (exitAfter e))
  | .reporting, _, _ => some ({ w with reader := .finished }, [])
  | _, .reporting, none => some ({ w with writer := .finished, cancelReader := true }, [])
  | _, .reporting, some _ => some ({ w with writer := .finished }, [])
  | _, _, _ => none

/-- The writer makes a move, if it is possible. -/
def write? (w : WebSocket) (m : Move) : Option Step :=
  match m, w.writer with
  | .writerBegun, .fresh => some ({ w with writer := .waiting }, [])
  | .taken, .waiting =>
    match w.outbox with
    | [] => none
    | payload :: rest =>
      some ({ w with outbox := rest, inFlight := noted payload, writer := .writing payload }, [])
  | .written, .writing _ => some ({ w with inFlight := none, writer := .waiting }, [])
  | .unwritable, .writing _ =>
    some ({ w with writer := .finished }, [say .debug ["Writer stopped: connection closed"]])
  | .rejected e, .writing _ => some (reject url w e)
  | _, _ => none

/-- One of the tasks makes a move, if it is possible. The writer is only ever cancelled while it
waits, so there is no other move for it then; the reader may be cancelled while it runs, and goes on
until it waits. -/
def advance? (w : WebSocket) (m : Move) : Option Step :=
  match m, w.reader with
  | .begin, .fresh => some ({ w with reader := .connecting }, [])
  | .accepted, .connecting =>
    if w.closed then some ({ w with reader := .leaving .silent }, [.leave])
    else some ({ w with attached := true, reader := .opening }, [
      say .info ["WebSocket connected: ", redacted url], .report .opened])
  | .refused e, .connecting => some (readerFails url w e)
  | .frame frame, .reading =>
    if w.closed then some (leave w .silent)
    else some ({ w with reader := .hearing }, [.report (.received frame)])
  | .ended code, .reading => some (leave w (.ended code))
  | .broken e, .reading => some (leave w (exitAfter e))
  | .left none, .leaving exit => some (conclude url w exit)
  | .left (some e), .leaving _ => some (readerFails url w e)
  | .cancelled, _ => if w.cancelReader then cancel url { w with cancelReader := false } else none
  | .writerCancelled, _ =>
    if w.cancelWriter then cancelWriting { w with cancelWriter := false } else none
  | m, _ => if w.cancelWriter then none else write? url w m

/-- Make a move, if it is possible. While a report is being heard no task moves. -/
def move? (w : WebSocket) : Move → Option Step
  | .heard failure => heard w failure
  | m => if w.isReporting then none else advance? url w m

end

end WebSocket

end EventStream.Transport
