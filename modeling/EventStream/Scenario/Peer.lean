import EventStream.Clock.Timeline
import EventStream.Scenario.Stage
import EventStream.Text.Charset
import EventStream.Transport.HttpStream
import EventStream.Transport.WebSocket

/-
# Connections with scripted peers

The peers of real connections are played by a script: it completes or refuses handshakes, sends
frames, answers requests and sends bodies. What the peer has done waits until the task of the
connection reads it.

The tasks run one at a time, in the order in which they were woken. A task that waits is woken when
what it waits for has come or when its wait is to be cancelled, and it is never woken twice before
it runs; if both have happened by then, the cancellation wins. A task that runs goes on until there
is nothing more for it to read: only then does it wait, and only then is it cancelled if it was to
be while it ran.
-/

namespace EventStream.Scenario

open EventStream.Session (Request)
open EventStream.Transport

/-- Something that waits to be read from a socket. -/
inductive Incoming where
  | frame (frame : Value)
  | close

/-- The peer of a WebSocket connection. -/
structure SocketPeer where
  /-- How the handshake was decided. -/
  handshake : Option (Except Failure Unit) := none
  incoming : List Incoming := []
  closeCode : Value := .null
  /-- Whether the socket takes no more payloads. -/
  gone : Bool := false
  /-- Whether writes are held up before they do anything. -/
  held : Bool := false
  /-- Whether a write is being held up. -/
  blocked : Bool := false

/-- Something that waits to be read from a body. -/
inductive BodyItem where
  | bytes (b : List UInt8)
  | finish
  | failure (e : Failure)

/-- The peer of an HTTP connection. -/
structure HttpPeer where
  /-- How the request was answered: a status with the content type, or not at all. -/
  head : Option (Except Failure (Nat × Text)) := none
  body : List BodyItem := []
  /-- It keeps the bytes of a code point that is not complete yet, or the whole body of a refusal. -/
  reader : Charset.Reader := {}

/-- A connection and its peer. -/
inductive Line where
  | webSocket (w : WebSocket) (p : SocketPeer)
  | http (h : HttpStream) (p : HttpPeer)

/-- What connections are made of. -/
inductive LineKind where
  | webSocket (headers openTimeout : Value)
  | http (headers : Table) (ownsClient : Bool)

/-- A task of a connection, which is given by its place. -/
inductive LineTask where
  | reader (line : Nat)
  | writer (line : Nat)
  deriving DecidableEq

/-- Something that runs next: a task, or what a timer was set for. -/
inductive Wake where
  | task (t : LineTask)
  | timer (id : Nat)
  deriving DecidableEq

/-- The connections, their tasks and the clock. -/
structure Switchboard where
  kind : LineKind
  url : Text
  /-- The connections in the order in which they were made, each with the number by which its
  subscriber knows it and the number by which its peer does. -/
  lines : List (Nat × Option Nat × Line) := []
  /-- What runs next, in order. -/
  ready : List Wake := []
  running : Option LineTask := none
  clock : Timeline Unit := {}
  /-- How many connections have reached their peers. -/
  reached : Nat := 0
  /-- The place of the connection that reached its peer last. -/
  latest : Option Nat := none

/-- How a task goes on after something that it did. -/
inductive Going where
  /-- It goes on at once. -/
  | on
  /-- It waits, or has finished. -/
  | rest
  /-- The subscriber, who knows the connection by number, hears a report. -/
  | report (connection : Nat) (r : Report)

namespace Switchboard

/-- A loop with what was noted and how the running task goes on. -/
abbrev Result := Switchboard × List Entry × Going

/-- The connection at a place. -/
def line? (l : Switchboard) (i : Nat) : Option Line := l.lines[i]?.map (·.2.2)

/-- Wake a task that waits. -/
def wake (l : Switchboard) (t : LineTask) : Switchboard :=
  if l.running = some t || l.ready.contains (.task t) then l
  else { l with ready := l.ready ++ [.task t] }

/-- Wake a task if a condition holds. -/
def wakeIf (l : Switchboard) (condition : Bool) (t : LineTask) : Switchboard :=
  if condition then l.wake t else l

/-- Whether a WebSocket reader is to be woken by the state of its own connection. -/
def readerStirs (w : WebSocket) : Bool :=
  match w.reader with
  | .finished => false
  | .fresh => true
  | _ => w.cancelReader

/-- Whether a WebSocket writer is to be woken by the state of its own connection. -/
def writerStirs (w : WebSocket) : Bool :=
  match w.writer with
  | .absent | .finished => false
  | .fresh => true
  | .waiting => w.cancelWriter || !w.outbox.isEmpty
  | .writing _ | .reporting => w.cancelWriter

/-- Whether the task of an HTTP connection is to be woken by the state of its own connection. -/
def httpStirs (h : HttpStream) : Bool :=
  match h.reader with
  | .finished => false
  | .fresh => true
  | _ => h.cancelReader

/-- Wake the tasks of a connection that its own state wakes. -/
def stir (l : Switchboard) (i : Nat) : Switchboard :=
  match l.line? i with
  | none => l
  | some (.webSocket w _) =>
    (l.wakeIf (writerStirs w) (.writer i)).wakeIf (readerStirs w) (.reader i)
  | some (.http h _) => l.wakeIf (httpStirs h) (.reader i)

/-- Put a connection in place. -/
def set (l : Switchboard) (i : Nat) (line : Line) : Switchboard :=
  stir { l with lines := l.lines.modify i fun (c, n, _) => (c, n, line) } i

/-- Make a connection, which its subscriber knows by number. -/
def add (l : Switchboard) (connection : Nat) : Switchboard :=
  let line : Line := match l.kind with
    | .webSocket .. => .webSocket {} {}
    | .http _ ownsClient => .http { ownsClient } {}
  stir { l with lines := l.lines ++ [(connection, none, line)] } l.lines.length

/-- The connection at a place reaches its peer. -/
def reach (l : Switchboard) (i : Nat) : Switchboard :=
  { l with
      lines := l.lines.modify i fun (c, _, line) => (c, some l.reached, line)
      reached := l.reached + 1
      latest := some i }

/-- The number by which the peer knows a connection. -/
def peerNumber (l : Switchboard) (i : Nat) : Value :=
  match l.lines[i]? with
  | some (_, some n, _) => .int n
  | _ => .null

/-- The number by which the subscriber knows a connection. -/
def connectionAt (l : Switchboard) (i : Nat) : Nat := (l.lines[i]?.map (·.1)).getD 0

/-- How the end of a connection is noted. -/
def leaveMark : Line → Text
  | .webSocket .. => "exit"
  | .http .. => "body_closed"

/-- What was seen of a connection's work, and the report that is to be heard. -/
def noteEffects (l : Switchboard) (i : Nat) (line : Line) (effects : List Effect) : Result :=
  let entries := effects.filterMap fun
    | .record r => some (.record r)
    | .leave => some (.mark (leaveMark line) [l.peerNumber i])
    | .dispose => some (.mark "client_closed" [])
    | .report _ => none
  let going := effects.findSome? fun
    | .report r => some (Going.report (l.connectionAt i) r)
    | _ => none
  (l.set i line, entries, going.getD .on)

/-- Move a WebSocket connection. A move that cannot be made lets the task rest. -/
def moveSocket (l : Switchboard) (i : Nat) (w : WebSocket) (p : SocketPeer) (m : WebSocket.Move) : Result :=
  match w.move? l.url m with
  | none => (l, [], .rest)
  | some (w, effects) => l.noteEffects i (.webSocket w p) effects

/-- Move an HTTP connection. A move that cannot be made lets the task rest. -/
def moveHttp (l : Switchboard) (i : Nat) (h : HttpStream) (p : HttpPeer) (m : HttpStream.Move) : Result :=
  match h.move? l.url m with
  | none => (l, [], .rest)
  | some (h, effects) => l.noteEffects i (.http h p) effects

/-- Note something before what was noted. -/
def noting (entries : List Entry) (r : Result) : Result := (r.1, entries ++ r.2.1, r.2.2)

/-- The values of a header, whatever its case, joined as one. -/
def header (headers : Table) (name : Text) : Value :=
  match headers.filter (fun (k, _) => Text.toLowerAscii k = name) with
  | [] => .null
  | found => .text (Text.join ", " (found.map fun (_, v) => v.toText))

/-- The headers of a request: what is accepted, and the ones that were given. -/
def requestHeaders (given : Table) : Table :=
  given.foldl (fun t (k, v) => Table.set t k v) [("Accept", .text "text/event-stream")]

/-- What a peer sees of a connection that reaches it. -/
def greeting (l : Switchboard) : List Entry :=
  match l.kind with
  | .webSocket headers openTimeout =>
    [.mark "connect" [.int l.reached, .text l.url, headers, openTimeout]]
  | .http headers ownsClient =>
    let headers := requestHeaders headers
    let request := Entry.mark "request" [.int l.reached, .text "GET", .text l.url,
      header headers "accept", header headers "authorization"]
    if ownsClient then [.client HttpStream.timeouts, request] else [request]

/-- The reader of a WebSocket connection runs. -/
def runSocketReader (l : Switchboard) (i : Nat) (w : WebSocket) (p : SocketPeer) (woken : Bool) : Result :=
  if woken && w.cancelReader then l.moveSocket i w p .cancelled
  else match w.reader with
    | .fresh => noting l.greeting ((l.reach i).moveSocket i w p .begin)
    | .connecting =>
      match p.handshake with
      | none => (l, [], .rest)
      | some (.ok ()) => l.moveSocket i w p .accepted
      | some (.error e) => l.moveSocket i w p (.refused e)
    | .reading =>
      match p.incoming with
      | [] => (l, [], .rest)
      | .frame frame :: rest => l.moveSocket i w { p with incoming := rest } (.frame frame)
      | .close :: rest => l.moveSocket i w { p with incoming := rest } (.ended p.closeCode)
    | .leaving _ => l.moveSocket i w p (.left none)
    | _ => (l, [], .rest)

/-- The fault of writing what is neither text nor bytes. -/
def notData : Failure := { fault := .raised .type "data must be str or bytes", known := false }

/-- Write a payload to a socket. -/
def writeSocket (l : Switchboard) (i : Nat) (w : WebSocket) (p : SocketPeer) (payload : Value) : Result :=
  if p.gone then l.moveSocket i w p .unwritable
  else match payload with
    | .text _ | .bytes _ =>
      noting [.mark "wire" [l.peerNumber i, payload]] (l.moveSocket i w p .written)
    | _ => l.moveSocket i w p (.rejected notData)

/-- The writer of a WebSocket connection runs. -/
def runSocketWriter (l : Switchboard) (i : Nat) (w : WebSocket) (p : SocketPeer) (woken : Bool) : Result :=
  if woken && w.cancelWriter then l.moveSocket i w p .writerCancelled
  else match w.writer with
    | .fresh => l.moveSocket i w p .writerBegun
    | .waiting => l.moveSocket i w p .taken
    | .writing payload =>
      if p.blocked && !woken then (l, [], .rest)
      else if p.held && !p.blocked then
        (l.set i (.webSocket w { p with blocked := true }), [], .rest)
      else l.writeSocket i w { p with blocked := false } payload
    | _ => (l, [], .rest)

/-- A body whose byte order nothing tells. -/
def unmarked : Failure :=
  { fault := .raised .value "the body does not start with a byte order mark", known := false }

/-- Read the body of a response that is no success. -/
def readRefusal (l : Switchboard) (i : Nat) (h : HttpStream) (p : HttpPeer) : Result :=
  match p.body with
  | [] => (l, [], .rest)
  | .bytes b :: rest =>
    (l.set i (.http h { p with body := rest, reader := p.reader.keep b }), [], .on)
  | .finish :: rest =>
    match p.reader.rest? with
    | some text => l.moveHttp i h { p with body := rest, reader := {} } (.refused text)
    | none => l.moveHttp i h { p with body := rest } (.broken unmarked)
  | .failure e :: rest => l.moveHttp i h { p with body := rest } (.broken e)

/-- Read a piece of text, unless it is empty. -/
def readPiece (l : Switchboard) (i : Nat) (h : HttpStream) (p : HttpPeer) (text : Text) : Result :=
  if text.isEmpty then (l.set i (.http h p), [], .on) else l.moveHttp i h p (.piece text)

/-- Read the body of a success. What is kept at its end is a last piece of text. -/
def readBody (l : Switchboard) (i : Nat) (h : HttpStream) (p : HttpPeer) : Result :=
  match p.body with
  | [] => (l, [], .rest)
  | .bytes b :: rest =>
    match p.reader.next? b with
    | some (text, reader) => l.readPiece i h { p with body := rest, reader } text
    | none => l.moveHttp i h { p with body := rest } (.broken unmarked)
  | .finish :: rest =>
    if p.reader.kept.isEmpty then l.moveHttp i h { p with body := rest } .ended
    else match p.reader.rest? with
      | some text => l.readPiece i h { p with reader := {} } text
      | none => l.moveHttp i h { p with body := rest } (.broken unmarked)
  | .failure e :: rest => l.moveHttp i h { p with body := rest } (.broken e)

/-- The task of an HTTP connection runs. -/
def runHttp (l : Switchboard) (i : Nat) (h : HttpStream) (p : HttpPeer) (woken : Bool) : Result :=
  if woken && h.cancelReader then l.moveHttp i h p .cancelled
  else match h.reader with
    | .fresh => noting l.greeting ((l.reach i).moveHttp i h p .begin)
    | .requesting =>
      match p.head with
      | none => (l, [], .rest)
      | some (.ok (status, contentType)) =>
        l.moveHttp i h { p with reader := { charset := .ofContentType contentType } } (.answered status)
      | some (.error e) => l.moveHttp i h p (.unanswered e)
    | .refusing _ => l.readRefusal i h p
    | .reading => l.readBody i h p
    | .leaving _ => l.moveHttp i h p (.left none)
    | .disposing => l.moveHttp i h p .disposed
    | _ => (l, [], .rest)

/-- A task runs for one step; it was woken for it, or goes on. -/
def run (l : Switchboard) (t : LineTask) (woken : Bool) : Result :=
  match t with
  | .reader i =>
    match l.line? i with
    | none => (l, [], .rest)
    | some (.webSocket w p) => l.runSocketReader i w p woken
    | some (.http h p) => l.runHttp i h p woken
  | .writer i =>
    match l.line? i with
    | some (.webSocket w p) => l.runSocketWriter i w p woken
    | _ => (l, [], .rest)

/-- The report of a task has been heard. -/
def heard (l : Switchboard) (t : LineTask) (fault : Option Fault) : Result :=
  let i := match t with
    | .reader i => i
    | .writer i => i
  match l.line? i with
  | none => (l, [], .rest)
  | some (.webSocket w p) => l.moveSocket i w p (.heard (fault.map WebSocket.heardFailure))
  | some (.http h p) => l.moveHttp i h p (.heard (fault.map HttpStream.heardFailure))

/-- A task stops running; it is woken at once if it is to be cancelled. -/
def stop (l : Switchboard) (t : LineTask) : Switchboard :=
  let i := match t with
    | .reader i => i
    | .writer i => i
  stir { l with running := none } i

/-- The place of a connection that its subscriber knows by number. -/
def place? (l : Switchboard) (connection : Nat) : Option Nat :=
  l.lines.findIdx? fun (c, _, _) => c = connection

/-- Close the connection at a place. -/
def close (l : Switchboard) (i : Nat) : Switchboard :=
  match l.line? i with
  | none => l
  | some (.webSocket w p) => l.set i (.webSocket w.close p)
  | some (.http h p) => l.set i (.http h.close p)

/-- Offer a payload to the connection at a place. -/
def offer (l : Switchboard) (i : Nat) (payload : Value) : Switchboard × Bool :=
  match l.line? i with
  | some (.webSocket w p) =>
    let (w, accepted) := w.send payload
    (l.set i (.webSocket w p), accepted)
  | some (.http h _) => (l, h.send payload)
  | none => (l, false)

/-- Take back what the connection at a place has not written. -/
def reclaim (l : Switchboard) (i : Nat) : Switchboard × List Value :=
  match l.line? i with
  | some (.webSocket w p) =>
    let (w, payloads) := w.unsent
    (l.set i (.webSocket w p), payloads)
  | _ => (l, [])

/-- Move the timers that are due to what runs next. -/
def collect (l : Switchboard) : Switchboard :=
  let due := l.clock.sorted.filter fun t => !(l.clock.now < t.due)
  { l with
      ready := l.ready ++ due.map fun t => .timer t.id
      clock := due.foldl (fun c t => c.cancel t.id) l.clock }

end Switchboard

end EventStream.Scenario
