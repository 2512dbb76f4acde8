import EventStream.Frame.Decoder
import EventStream.Outbound.Queue
import EventStream.Policy.Basic

/-
# Sessions

A session is one subscription that outlives its connections. It stands in one of five phases: it is
made idle, is connecting while it opens a connection or waits for the next attempt, is connected
while frames flow, and once it is closing or closed it never connects again.

Subscribers register handlers for seven kinds of occurrences. A handler is registered at most once
for a kind, and the handlers of a kind are told in the order in which they were registered.

Connections are told apart by number. Each has the generation in which the session opened it, and
the session listens only to the connection of its current generation; whenever it turns away from
a connection the generation grows, so what an earlier connection still reports is not heard.
-/

namespace EventStream.Session

/-- Where a session stands. -/
inductive Phase where
  | idle
  | connecting
  | connected
  | closing
  | closed
  deriving DecidableEq

/-- The name of a phase. -/
def Phase.label : Phase → Text
  | .idle => "idle"
  | .connecting => "connecting"
  | .connected => "open"
  | .closing => "closing"
  | .closed => "closed"

/-- Whether a session is on its way out, or gone. -/
def Phase.isOver : Phase → Bool
  | .closing | .closed => true
  | _ => false

/-- The kinds of occurrences for which handlers are registered. -/
inductive EventKind where
  | opened
  | message
  | closed
  | failed
  | reconnecting
  | gaveUp
  | phaseChange
  deriving DecidableEq

namespace EventKind

/-- All kinds, in the order in which they are listed. -/
def all : List EventKind :=
  [.opened, .message, .closed, .failed, .reconnecting, .gaveUp, .phaseChange]

/-- The name under which handlers are registered. -/
def name : EventKind → Text
  | .opened => "open"
  | .message => "message"
  | .closed => "close"
  | .failed => "error"
  | .reconnecting => "reconnecting"
  | .gaveUp => "max_attempts_reached"
  | .phaseChange => "state_change"

/-- The kind of a name. -/
def ofName? (name : Text) : Option EventKind := all.find? (·.name = name)

/-- The fault of naming a kind that does not exist. -/
def unknown (name : Text) : Fault :=
  .raised .value (Text.concat ["Unknown event '", name, "'. Available: ",
    Text.quotedList (all.map EventKind.name)])

end EventKind

/-- Something that handlers are told. -/
inductive Occurrence where
  | opened
  | message (event : Event)
  /-- The connection was closed from elsewhere; the code is null if there is none. -/
  | closed (code : Value)
  | failed (fault : Fault)
  /-- A reconnect was scheduled: which one since the last connection, and after how long. -/
  | reconnecting (attempt : Nat) (delay : Number)
  | gaveUp (attempts : Int)
  | phaseChanged (old new : Phase)

/-- The kind of an occurrence. -/
def Occurrence.kind : Occurrence → EventKind
  | .opened => .opened
  | .message _ => .message
  | .closed _ => .closed
  | .failed _ => .failed
  | .reconnecting .. => .reconnecting
  | .gaveUp _ => .gaveUp
  | .phaseChanged .. => .phaseChange

/-- A handler: its identity and how it is shown. -/
structure Handler where
  key : Nat
  label : Text
  deriving DecidableEq

/-- What became of a frame. -/
inductive Decoded where
  | event (e : Event)
  /-- The frame is no event; the records say why. -/
  | nothing (log : List LogRecord)
  | failed (f : Fault)

/-- What a session is made from. -/
structure Setup where
  endpoint : Text
  /-- How the session is called in the log. -/
  name : Text := "session"
  decode : Value → Decoded
  policy : ReconnectPolicy Number := .patient
  /-- Whether messages can be sent at all. -/
  outbound : Bool := true

/-- The decoding of a session by one of the library's decoders. -/
def decodeBy (d : FrameDecoder) (frame : Value) : Decoded :=
  match (d.decode frame).run with
  | .ok (.ok e) => .event e
  | .ok (.error discard) => .nothing [discard.record]
  | .error f => .failed f

/-- The state of a session. -/
structure State where
  phase : Phase := .idle
  /-- The connection that the session holds. -/
  connection : Option Nat := none
  generation : Nat := 0
  /-- Reconnects made since the last successful open. -/
  attempts : Nat := 0
  /-- The timer of the next reconnect. -/
  timer : Option Nat := none
  queue : Outbound.Queue Unit := {}
  registrations : List (EventKind × Handler) := []

namespace State

/-- Whether frames flow. -/
def isConnected (s : State) : Bool := s.phase = .connected

/-- The handlers of a kind, in the order in which they were registered. -/
def handlers (s : State) (k : EventKind) : List Handler :=
  s.registrations.filterMap fun (kind, h) => if kind = k then some h else none

/-- Register a handler, unless it is registered already. -/
def register (s : State) (k : EventKind) (h : Handler) : State :=
  if s.registrations.contains (k, h) then s
  else { s with registrations := s.registrations ++ [(k, h)] }

/-- Remove a handler, if it is registered. -/
def unregister (s : State) (k : EventKind) (h : Handler) : State :=
  { s with registrations := s.registrations.erase (k, h) }

/-- Whether a connection is the one to which the session listens. -/
def listensTo (s : State) (connection : Nat) : Bool := s.generation = connection

/-- Turn away from the connection, which is no longer held. -/
def turnAway (s : State) : State :=
  { s with generation := s.generation + 1, connection := none }

/-- Queue a payload. -/
def enqueue (s : State) (payload : Value) : State :=
  { s with queue := s.queue.enqueue (fun _ => ()) payload }

/-- Put payloads back at the head of the queue. -/
def requeue (s : State) (payloads : List Value) : State :=
  { s with queue := s.queue.requeue (fun _ => ()) payloads }

/-- Drop what is queued. -/
def clearQueue (s : State) : State := { s with queue := s.queue.clear }

end State

/-- A session as it is shown. -/
def shown (setup : Setup) (s : State) : Text :=
  Text.concat ["SubscriptionSession(", Text.quoted setup.name, ", state=", s.phase.label, ")"]

end EventStream.Session
