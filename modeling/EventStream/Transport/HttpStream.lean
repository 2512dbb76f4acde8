import EventStream.Sse.Buffer
import EventStream.Transport.Report
import EventStream.Url.Redaction

/-
# A streamed HTTP response

One task serves a connection: it requests, and when the response is a success it reports, reads the
body as text and reports each payload that a piece of text completes. Any other response is read to
its end and reported as a failure with its status and the beginning of its body. Nothing can be sent
over such a connection.

A client that was made for the connection alone is closed with it, last of all.
-/

namespace EventStream.Transport

/-- How an answered request is left. -/
inductive HttpExit where
  /-- The body has ended. -/
  | ended
  /-- The connection was closed by its owner while a payload was on its way. -/
  | silent
  | cancelled
  | broken (e : Failure)
  /-- The response was no success. -/
  | refused (status : Nat) (body : Text)

/-- Where the task of a connection stands. -/
inductive HttpReader where
  | fresh
  /-- It waits for the head of the response. -/
  | requesting
  /-- It reads the body of a response that is no success. -/
  | refusing (status : Nat)
  /-- The opening is being heard. -/
  | opening
  /-- It waits for a piece of the body. -/
  | reading
  /-- A payload is being heard, and these payloads are next. -/
  | hearing (next : List Text)
  /-- It waits for the response to be left. -/
  | leaving (exit : HttpExit)
  /-- Its last report is being heard. -/
  | reporting
  /-- It waits for its own client to be closed. -/
  | disposing
  | finished

/-- A streamed HTTP response. -/
structure HttpStream where
  /-- Whether its client was made for it alone. -/
  ownsClient : Bool := true
  /-- Nothing is reported any more. -/
  closed : Bool := false
  buffer : Sse.Buffer := {}
  reader : HttpReader := .fresh
  /-- Whether the task's wait, or its next one, is to be cancelled. -/
  cancelReader : Bool := false

namespace HttpStream

/-- How long a client of its own may take to connect, to read, to write and to wait for its turn, in
seconds. A body stays open for any time, so reading has no limit. -/
def timeouts : List (Option Float) := [some 10.0, none, some 10.0, some 10.0]

/-- Nothing can be sent. -/
def send (_ : HttpStream) (_ : Value) : Bool := false

/-- Close the connection. Nothing is reported from here on. -/
def close (h : HttpStream) : HttpStream :=
  if h.closed then h else { h with closed := true, cancelReader := true }

/-- Something that happens to a connection. -/
inductive Move where
  | begin
  /-- The head of the response arrives. -/
  | answered (status : Nat)
  /-- The request fails. -/
  | unanswered (e : Failure)
  /-- The body of a response that is no success was read to its end. -/
  | refused (body : Text)
  /-- A piece of the body arrives. -/
  | piece (text : Text)
  | ended
  /-- Reading the body fails. -/
  | broken (e : Failure)
  /-- The response was left, or leaving it failed. -/
  | left (failure : Option Failure)
  /-- The task's wait is cancelled. -/
  | cancelled
  /-- The report that was being heard has returned, or failed. -/
  | heard (failure : Option Failure)
  /-- The client was closed. -/
  | disposed

/-- A state and what is seen of reaching it. -/
abbrev Step := HttpStream × List Effect

/-- Whether a status is that of a success. -/
def isSuccess (status : Nat) : Bool := 200 ≤ status && status ≤ 299

/-- How much of the body of a refusal is reported. -/
def bodyLimit : Nat := 200

section

variable (url : Text)

/-- The URL as it may be written to the log. -/
def redacted : Text := Url.redact url

/-- The fault of a response that is no success. -/
def refusal (status : Nat) (body : Text) : Fault :=
  .transport {
    message := Text.concat ["Stream rejected with HTTP ", Text.ofNat status]
    code := .int status
    details := [(.text "url", .text (redacted url)), (.text "body", .text (body.take bodyLimit))] }

/-- The fault of a request that failed. -/
def failure (f : Fault) : Fault :=
  .transport {
    message := Text.concat ["Stream failed: ", f.label, ": ", f.shown]
    details := [(.text "url", .text (redacted url))] }

/-- The task is over but for its own client. -/
def finish (h : HttpStream) (effects : List Effect) : Step :=
  if h.ownsClient then ({ h with reader := .disposing }, effects ++ [.dispose])
  else ({ h with reader := .finished }, effects)

/-- The task ends with a fault, which is reported unless the connection is closed. -/
def fail (h : HttpStream) (f : Fault) : Step :=
  if h.closed then finish h []
  else ({ h with closed := true, reader := .reporting }, [
    say .warning ["Stream failed: ", redacted url, ": ", f.shown],
    .report (.failed f)])

/-- The task ends with a failure. -/
def failWith (h : HttpStream) (e : Failure) : Step :=
  match e.fault.transport? with
  | some _ => fail url h e.fault
  | none => if e.known then fail url h (failure url e.fault) else finish h []

/-- The task ends because it was cancelled. -/
def endCancelled (h : HttpStream) : Step :=
  finish h [say .debug ["Stream task cancelled: ", redacted url]]

/-- The task turns to leaving the response. -/
def leave (h : HttpStream) (exit : HttpExit) : Step :=
  ({ h with reader := .leaving exit }, [.leave])

/-- The response was left. -/
def conclude (h : HttpStream) : HttpExit → Step
  | .ended =>
    if h.closed then finish h []
    else ({ h with closed := true, reader := .reporting }, [
      say .info ["Stream ended: ", redacted url], .report (.closed .null)])
  | .silent => finish h []
  | .cancelled => endCancelled url h
  | .broken e => failWith url h e
  | .refused status body => fail url h (refusal url status body)

/-- Report the next payload of a piece, or wait for the next piece. -/
def deliver (h : HttpStream) : List Text → Step
  | [] => ({ h with reader := .reading }, [])
  | payload :: next =>
    if h.closed then leave h .silent
    else ({ h with reader := .hearing next }, [.report (.received (.text payload))])

/-- What a fault of the subscriber is to the task. -/
def heardFailure (f : Fault) : Failure := { fault := f, known := false }

/-- The head of the response has arrived. -/
def answered (h : HttpStream) (status : Nat) : Step :=
  if !isSuccess status then ({ h with reader := .refusing status }, [])
  else if h.closed then leave h .silent
  else ({ h with reader := .opening }, [
    say .info ["Stream connected: ", redacted url], .report .opened])

/-- A piece of the body has arrived. -/
def piece (h : HttpStream) (text : Text) : Step :=
  let (payloads, buffer) := h.buffer.feed text
  deliver { h with buffer } payloads

/-- The task's wait is cancelled; a task that never began leaves nothing behind. -/
def cancel (h : HttpStream) : Option Step :=
  match h.reader with
  | .fresh | .disposing => some ({ h with reader := .finished }, [])
  | .requesting | .leaving _ => some (endCancelled url h)
  | .refusing _ | .reading => some (leave h .cancelled)
  | _ => none

/-- Make a move, if it is possible. -/
def move? (h : HttpStream) (m : Move) : Option Step :=
  match m, h.reader with
  | .begin, .fresh => some ({ h with reader := .requesting }, [])
  | .answered status, .requesting => some (answered url h status)
  | .unanswered e, .requesting => some (failWith url h e)
  | .refused body, .refusing status => some (leave h (.refused status body))
  | .piece text, .reading => some (piece h text)
  | .ended, .reading => some (leave h .ended)
  | .broken e, .refusing _ => some (leave h (.broken e))
  | .broken e, .reading => some (leave h (.broken e))
  | .left none, .leaving exit => some (conclude url h exit)
  | .left (some e), .leaving _ => some (failWith url h e)
  | .cancelled, _ => if h.cancelReader then cancel url { h with cancelReader := false } else none
  | .heard none, .opening => some ({ h with reader := .reading }, [])
  | .heard none, .hearing next => some (deliver h next)
  | .heard none, .reporting => some (finish h [])
  | .heard (some e), .opening => some (leave h (.broken e))
  | .heard (some e), .hearing _ => some (leave h (.broken e))
  | .heard (some _), .reporting => some (finish h [])
  | .disposed, .disposing => some ({ h with reader := .finished }, [])
  | _, _ => none

end

end HttpStream

end EventStream.Transport
