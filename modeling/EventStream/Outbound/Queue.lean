import EventStream.Fault
import EventStream.Log

/-
# The outbound queue

Messages that wait for a connection stand in a queue, each with the clock reading at which it was
put there. A queue takes one reading for every message that is added, and one for every batch that
is put back at the head, however many messages the batch holds; the queue counts its readings, so
what a clock shows is a function of that count and the same clock serves a run from end to end.

Draining offers the message at the head and removes it only after it was accepted. It stops at the
first rejection and at the first failure, and in both cases the message that was offered stays at
the head. While a message is offered the queue may grow at its end.
-/

namespace EventStream.Outbound

/-- A message that waits, with the clock reading at which it was queued. -/
structure Message (Stamp : Type) where
  payload : Value
  enqueuedAt : Stamp

/-- The messages that wait, oldest first, and the number of clock readings taken so far. -/
structure Queue (Stamp : Type) where
  messages : List (Message Stamp) := []
  readings : Nat := 0

/-- What a clock shows at each of its readings. -/
abbrev Clock (Stamp : Type) := Nat → Stamp

namespace Queue

variable {Stamp : Type}

/-- The number of messages that wait. -/
def size (q : Queue Stamp) : Nat := q.messages.length

/-- Whether no message waits. -/
def isEmpty (q : Queue Stamp) : Bool := q.messages.isEmpty

/-- The payloads that wait, oldest first. -/
def payloads (q : Queue Stamp) : List Value := q.messages.map (·.payload)

/-- Add a message at the end. -/
def enqueue (clock : Clock Stamp) (q : Queue Stamp) (payload : Value) : Queue Stamp :=
  ⟨q.messages ++ [⟨payload, clock q.readings⟩], q.readings + 1⟩

/-- Put a batch back at the head, in its order and with one reading. -/
def requeue (clock : Clock Stamp) (q : Queue Stamp) (batch : List Value) : Queue Stamp :=
  ⟨batch.map (⟨·, clock q.readings⟩) ++ q.messages, q.readings + 1⟩

/-- Drop every message. -/
def clear (q : Queue Stamp) : Queue Stamp := { q with messages := [] }

/-- The message at the head. -/
def head? (q : Queue Stamp) : Option (Message Stamp) := q.messages.head?

/-- Remove the message at the head. -/
def dropHead (q : Queue Stamp) : Queue Stamp := { q with messages := q.messages.tail }

/-! ## What the operations do to the payloads -/

variable (clock : Clock Stamp) (q : Queue Stamp)

theorem payloads_enqueue (payload : Value) :
    (q.enqueue clock payload).payloads = q.payloads ++ [payload] := by
  simp [enqueue, payloads]

theorem payloads_requeue (batch : List Value) :
    (q.requeue clock batch).payloads = batch ++ q.payloads := by
  simp [requeue, payloads, Function.comp_def]

theorem payloads_dropHead : q.dropHead.payloads = q.payloads.tail := by
  simp [dropHead, payloads]

/-- The payload at the head is the first one. -/
theorem payload_head? : q.head?.map (·.payload) = q.payloads.head? := by
  simp [head?, payloads]

end Queue

/-- The answer to an offered message. The last form adds a message to the queue before it
accepts the one that is offered. -/
inductive SendAnswer where
  | accepted
  | rejected
  | failed (f : Fault)
  | acceptedAfter (payload : Value)

/-- How a drain ended and what it did. -/
structure Drained (Stamp : Type) where
  /-- The payloads that were offered, in order. -/
  offered : List Value
  /-- The number of payloads that were accepted. -/
  count : Nat
  /-- The queue afterwards. -/
  queue : Queue Stamp
  /-- The failure that ended the drain, if one did. -/
  failure : Option Fault

variable {Stamp : Type}

/-- A drain that went on after one more accepted payload. -/
def Drained.after (payload : Value) (d : Drained Stamp) : Drained Stamp :=
  { d with offered := payload :: d.offered, count := d.count + 1 }

/-- Drain a queue through a script of answers, and with acceptance once the script is used up. -/
def Queue.drain (clock : Clock Stamp) (q : Queue Stamp) : List SendAnswer → Drained Stamp
  | [] => ⟨q.payloads, q.size, q.clear, none⟩
  | answer :: script =>
    match q.head? with
    | none => ⟨[], 0, q, none⟩
    | some m =>
      match answer with
      | .accepted => (q.dropHead.drain clock script).after m.payload
      | .acceptedAfter p => (((q.enqueue clock p).dropHead).drain clock script).after m.payload
      | .rejected => ⟨[m.payload], 0, q, none⟩
      | .failed f => ⟨[m.payload], 0, q, some f⟩

/-- The report of a drain that was halted by a rejection. -/
def haltedRecord (sent remaining : Nat) : LogRecord :=
  ⟨.outbound, .debug, Text.concat ["Drain halted after ", Text.ofNat sent, " message(s), ",
    Text.ofNat remaining, " still queued"]⟩

end EventStream.Outbound
