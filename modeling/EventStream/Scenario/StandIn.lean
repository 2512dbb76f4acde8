import EventStream.Clock.Timeline
import EventStream.Scenario.Stage

/-
# Stand-in connections

A stand-in plays a connection without a transport. A script says how each one behaves: whether it
accepts payloads and how many, whether it gives back what it has not sent, which steps are performed
while it is opened and when it has accepted a payload, and whether opening or closing it fails. The
steps make it report: that it is open, a frame, that it has ended. The clock is virtual, and timers
run only when a step moves it.

Stand-ins are addressed by their position, from the first one on or from the last one back.
-/

namespace EventStream.Scenario

open EventStream.Session (Call Request)

/-- A step that moves a stand-in, given by its position, or the clock. -/
inductive StandInAct where
  | opened (position : Int)
  | received (position : Int) (frame : Value)
  | closed (position : Int) (code : Value)
  | failed (position : Int) (fault : Fault)
  | setAccept (position : Int) (accept : Bool)
  | setLimit (position : Int) (limit : Option Int)
  /-- The first payloads that are buffered reach the peer. -/
  | flush (position : Int) (count : Nat)
  | advance (seconds : Float)
  /-- Run the timers up to a time, after so many have run. -/
  | advanceTo (time : Float) (fired : Nat)
  /-- Run the next timer. -/
  | fireNext
  /-- Run the timer that was set last, even if it has run or was cancelled. -/
  | fireStale
  /-- Answer how many timers have run. -/
  | count (fired : Nat)

/-- How a stand-in behaves. -/
structure Opening where
  accept : Bool := true
  limit : Option Int := none
  /-- Whether it gives back what it has not sent. -/
  givesBack : Bool := false
  closeFails : Bool := false
  onAccept : List (Step StandInAct) := []
  during : List (Step StandInAct) := []
  /-- The fault of opening it, if that fails. -/
  fault : Option Fault := none

/-- A stand-in for one connection. -/
structure StandIn where
  connection : Nat
  opening : Opening
  closed : Bool := false
  accepted : Nat := 0
  buffer : List Value := []

namespace StandIn

/-- Whether the next payload is accepted. -/
def accepts (h : StandIn) : Bool :=
  h.opening.accept && !h.closed && h.opening.limit.all ((h.accepted : Int) < ·)

/-- Accept a payload. -/
def take (h : StandIn) (payload : Value) : StandIn :=
  { h with accepted := h.accepted + 1, buffer := h.buffer ++ [payload] }

end StandIn

/-- The stand-ins of a session and its clock. -/
structure StandIns where
  endpoint : Text
  /-- How the connections behave, the last one for all that follow. -/
  openings : List Opening := []
  handles : List StandIn := []
  clock : Timeline Unit := {}

namespace StandIns

/-- The behaviour of the next connection. -/
def nextOpening (w : StandIns) : Opening :=
  match w.openings[w.handles.length]? with
  | some o => o
  | none => w.openings.getLast?.getD {}

/-- The place of a stand-in that is given by its position. -/
def place? (w : StandIns) (position : Int) : Option (Nat × StandIn) :=
  let i := if position < 0 then position + w.handles.length else position
  if i < 0 then none else w.handles[i.toNat]?.map (i.toNat, ·)

/-- The place of the stand-in for a connection. -/
def find? (w : StandIns) (connection : Nat) : Option (Nat × StandIn) := do
  let i ← w.handles.findIdx? (·.connection = connection)
  return (i, ← w.handles[i]?)

/-- Put a stand-in in place. -/
def set (w : StandIns) (i : Nat) (h : StandIn) : StandIns :=
  { w with handles := w.handles.set i h }

/-- The fault of a step that needs a stand-in before there is one. -/
def noHandle : Fault := .raised .lookup "no handle"

/-- The fault of a step that needs a timer before there is one. -/
def noTimer : Fault := .raised .lookup "no timer"

/-- What a stand-in notes. -/
def mark (i : Nat) (what : Text) (values : List Value) : Entry :=
  .mark (Text.concat ["h", Text.ofNat i, ".", what]) values

/-- Open a connection. -/
def dial (w : StandIns) (connection : Nat) : Service StandIns StandInAct :=
  let opening := w.nextOpening
  { peers := { w with handles := w.handles ++ [⟨connection, opening, false, 0, []⟩] }
    entries := [mark w.handles.length "new" [.text w.endpoint]]
    script := opening.during
    reply := match opening.fault with
      | none => .returned
      | some f => .raised f }

/-- Close a connection. -/
def hangUp (w : StandIns) (i : Nat) (h : StandIn) : Service StandIns StandInAct := {
  peers := w.set i { h with closed := true }
  entries := [mark i "close" []]
  reply := if h.opening.closeFails then .raised (.raised .runtime "close failed") else .returned }

/-- Offer a payload to a connection. -/
def offer (w : StandIns) (i : Nat) (h : StandIn) (payload : Value) : Service StandIns StandInAct :=
  let entries := [mark i "send" [payload, .bool h.accepts]]
  if h.accepts then
    { peers := w.set i (h.take payload), entries, script := h.opening.onAccept,
      reply := .accepted true }
  else { peers := w, entries, reply := .accepted false }

/-- Take back what a connection has not sent. -/
def reclaim (w : StandIns) (i : Nat) (h : StandIn) : Service StandIns StandInAct :=
  if h.opening.givesBack then {
    peers := w.set i { h with buffer := [] }
    entries := [mark i "unsent" [.int h.buffer.length]]
    reply := .unsent h.buffer }
  else { peers := w, reply := .unsent [] }

/-- Set a timer. -/
def schedule (w : StandIns) (delay : Number) : Service StandIns StandInAct :=
  match delay.toFloat with
  | .error e => { peers := w, reply := .raised e.toFault }
  | .ok seconds => {
      peers := { w with clock := w.clock.scheduleAt (w.clock.now + seconds) () }
      entries := [.mark "timer" [delay.toValue]]
      reply := .scheduled w.clock.nextId }

/-- Serve a request of the session. -/
def serve (w : StandIns) (q : Request) : Service StandIns StandInAct :=
  let on (connection : Nat) (f : Nat → StandIn → Service StandIns StandInAct) :=
    match w.find? connection with
    | none => { peers := w, reply := .raised noHandle }
    | some (i, h) => f i h
  match q with
  | .dial c => w.dial c
  | .hangUp c => on c w.hangUp
  | .offer c payload => on c (w.offer · · payload)
  | .reclaim c => on c w.reclaim
  | .schedule delay => w.schedule delay
  | .tell .. => { peers := w, reply := .returned }

/-- Cancel a timer. -/
def cancel (w : StandIns) (timer : Nat) : StandIns × List Entry :=
  match w.clock.timers.find? (·.id = timer) with
  | none => (w, [])
  | some t => ({ w with clock := w.clock.cancel timer }, [.mark "timer_cancel" [.float t.due]])

/-- Run a timer at its time. -/
def fire (w : StandIns) (t : Timer Unit) (next : StandInAct) : Play StandIns StandInAct := {
  peers := { w with clock := { w.clock.cancel t.id with now := t.due } }
  call := some .reconnect
  next := some next }

/-- Have the stand-in at a position report. -/
def report (w : StandIns) (position : Int) (call : Nat → Call) : Play StandIns StandInAct :=
  match w.place? position with
  | none => { peers := w, result := .error noHandle }
  | some (_, h) => { peers := w, call := some (call h.connection) }

/-- Change the stand-in at a position. -/
def change (w : StandIns) (position : Int) (f : Nat → StandIn → StandIn × List Entry) :
    Play StandIns StandInAct :=
  match w.place? position with
  | none => { peers := w, result := .error noHandle }
  | some (i, h) =>
    let (h, entries) := f i h
    { peers := w.set i h, entries }

/-- Move a stand-in or the clock. -/
def act (w : StandIns) : StandInAct → Play StandIns StandInAct
  | .opened i => w.report i .opened
  | .received i frame => w.report i (.received · frame)
  | .closed i code => w.report i (.closed · code)
  | .failed i f => w.report i (.failed · f)
  | .setAccept i accept =>
    w.change i fun _ h => ({ h with opening := { h.opening with accept } }, [])
  | .setLimit i limit =>
    w.change i fun _ h => ({ h with opening := { h.opening with limit } }, [])
  | .flush i count =>
    w.change i fun i h => ({ h with buffer := h.buffer.drop count },
      [mark i "wire" [.list (h.buffer.take count)]])
  | .advance seconds => { peers := w, next := some (.advanceTo (w.clock.now + seconds) 0) }
  | .advanceTo time fired =>
    match w.clock.next?.filter (·.due ≤ time) with
    | some t => w.fire t (.advanceTo time (fired + 1))
    | none => {
        peers := { w with clock := { w.clock with now := time } }
        next := some (.count fired) }
  | .fireNext =>
    match w.clock.next? with
    | none => { peers := w, next := some (.count 0) }
    | some t => w.fire t (.count 1)
  | .fireStale =>
    if w.clock.nextId = 0 then { peers := w, result := .error noTimer }
    else { peers := w, call := some .reconnect }
  | .count fired => { peers := w, result := .ok (.int fired) }

/-- The times of the timers that are set, in order. -/
def timers (w : StandIns) : List Float := w.clock.sorted.map (·.due)

instance : Surroundings StandIns StandInAct where
  serve := serve
  cancel := cancel
  act := act

end StandIns

end EventStream.Scenario
