import EventStream.Session.Activity

/-
# What a connection reports

A connection reports to whoever opened it: once that it is usable, then each frame, and at last,
once, that it was closed or that it failed. A report is a call of the subscriber, and the connection
goes on when the call has returned or raised a fault.

What fails beneath a connection is a failure of its transport. Most failures are of the kinds that
transports are known to raise, and a connection reports them; any other one ends the connection
without a report.
-/

namespace EventStream.Transport

/-- A report of a connection to its subscriber. -/
inductive Report where
  | opened
  | received (frame : Value)
  | closed (code : Value)
  | failed (fault : Fault)

/-- Whether nothing is reported after a report. -/
def Report.isLast : Report → Bool
  | .closed _ | .failed _ => true
  | _ => false

/-- A report as a call of a session, which knows the connection by number. -/
def Report.toCall (connection : Nat) : Report → Session.Call
  | .opened => .opened connection
  | .received frame => .received connection frame
  | .closed code => .closed connection code
  | .failed f => .failed connection f

/-- Something that failed beneath a connection. -/
structure Failure where
  fault : Fault
  /-- The status with which a server answered instead, or null. -/
  status : Value := .null
  /-- Whether it is of a kind that transports are known to raise. -/
  known : Bool := true
  /-- The code of the closed connection, if it says no more than that the connection is closed. -/
  closure : Option Value := none

/-- What is seen of a connection's work. -/
inductive Effect where
  | record (r : LogRecord)
  /-- The subscriber is called, and the connection waits for the end of the call. -/
  | report (r : Report)
  /-- The connection begins to be left. -/
  | leave
  /-- The client that served only this connection begins to be closed. -/
  | dispose

/-- A record about a connection. -/
def say (level : LogLevel) (parts : List Text) : Effect :=
  .record ⟨.transport, level, Text.concat parts⟩

end EventStream.Transport
