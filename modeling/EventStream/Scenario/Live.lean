import EventStream.Scenario.Peer
import EventStream.Scenario.Subscribing

/-
# Scripted use of real connections

A script moves the peers of real connections and the clock, and after each of its steps everything
runs that can run while the clock stands still, unless the step asks to wait for the next one. Time
passes only by a step that says so; then the timers on the way run one after another, each with
everything that follows from it.

A connection may also be opened without a session. The script then listens to its reports itself,
and sends, takes back and closes as a session would.
-/

namespace EventStream.Scenario

open EventStream.Session (Call Request)
open EventStream.Transport

/-- A step that moves the peers or a connection without a session. -/
inductive LiveAct where
  | handleSend (payload : Value)
  | handleClose
  | handleUnsent
  | handleIsOpen
  | accept
  | refuse (e : Failure)
  | receive (frames : List Value)
  | peerClose (code : Value)
  | peerGone
  | hold
  | release
  | respond (status : Nat) (contentType : Text)
  | chunks (pieces : List (List UInt8))
  | endBody
  | failHttp (e : Failure)
  | advance (seconds : Float)

namespace Switchboard

/-- The fault of a step that needs a connection before there is one. -/
def noConnection : Fault := .raised .lookup "no connection"

/-- The fault of asking a connection for what it does not have. -/
def noAttribute (name : Text) : Fault :=
  .raised .attribute (Text.concat ["'HttpStreamHandle' object has no attribute '", name, "'"])

/-- Serve a request of the session. -/
def serve (l : Switchboard) (q : Request) : Service Switchboard LiveAct :=
  match q with
  | .dial c => { peers := l.add c, reply := .returned }
  | .hangUp c => { peers := ((l.place? c).map l.close).getD l, reply := .returned }
  | .offer c payload =>
    let (l, accepted) := ((l.place? c).map (l.offer · payload)).getD (l, false)
    { peers := l, reply := .accepted accepted }
  | .reclaim c =>
    let (l, payloads) := ((l.place? c).map l.reclaim).getD (l, [])
    { peers := l, reply := .unsent payloads }
  | .schedule delay =>
    match delay.toFloat with
    | .error e => { peers := l, reply := .raised e.toFault }
    | .ok seconds => {
        peers := { l with clock := l.clock.scheduleAt (l.clock.now + seconds) () }
        reply := .scheduled l.clock.nextId }
  | .tell .. => { peers := l, reply := .returned }

/-- Cancel a timer. -/
def cancel (l : Switchboard) (timer : Nat) : Switchboard × List Entry :=
  ({ l with
      clock := l.clock.cancel timer
      ready := l.ready.filter (· ≠ .timer timer) }, [])

/-- Change the peer of the latest WebSocket connection, and wake its reader or its writer. -/
def changeSocket (l : Switchboard) (f : WebSocket → SocketPeer → SocketPeer × Bool × Bool) :
    Play Switchboard LiveAct :=
  match l.latest with
  | none => { peers := l, result := .error noConnection }
  | some i =>
    match l.line? i with
    | some (.webSocket w p) =>
      let (p, reader, writer) := f w p
      let l := l.set i (.webSocket w p)
      { peers := (l.wakeIf reader (.reader i)).wakeIf writer (.writer i) }
    | _ => { peers := l }

/-- Change the peer of the latest HTTP connection, and wake its task. -/
def changeHttp (l : Switchboard) (f : HttpStream → HttpPeer → HttpPeer × Bool) : Play Switchboard LiveAct :=
  match l.latest with
  | none => { peers := l, result := .error noConnection }
  | some i =>
    match l.line? i with
    | some (.http h p) =>
      let (p, wakes) := f h p
      { peers := (l.set i (.http h p)).wakeIf wakes (.reader i) }
    | _ => { peers := l }

/-- Whether a reader waits for its handshake. -/
def awaitsHandshake (w : WebSocket) (p : SocketPeer) : Bool :=
  match w.reader, p.handshake with
  | .connecting, none => !w.cancelReader
  | _, _ => false

/-- Whether a reader waits for a frame. -/
def awaitsFrame (w : WebSocket) : Bool :=
  match w.reader with
  | .reading => true
  | _ => false

/-- Whether a task waits for the head of its response. -/
def awaitsHead (h : HttpStream) (p : HttpPeer) : Bool :=
  match h.reader, p.head with
  | .requesting, none => !h.cancelReader
  | _, _ => false

/-- Whether a task waits for its body. -/
def awaitsBody (h : HttpStream) : Bool :=
  match h.reader with
  | .reading | .refusing _ => true
  | _ => false

/-- Decide the handshake of the latest connection, if it is not decided yet. -/
def decide (l : Switchboard) (handshake : Except Failure Unit) : Play Switchboard LiveAct :=
  l.changeSocket fun w p =>
    if awaitsHandshake w p then ({ p with handshake := some handshake }, true, false)
    else (p, false, false)

/-- Add to what waits to be read from the latest body. -/
def addBody (l : Switchboard) (items : List BodyItem) : Play Switchboard LiveAct :=
  l.changeHttp fun h p => ({ p with body := p.body ++ items }, awaitsBody h)

/-- Answer from the connection that was opened without a session. -/
def ask (l : Switchboard) (name : Text) (f : WebSocket → Value) : Except Fault Value :=
  match l.line? 0 with
  | some (.webSocket w _) => .ok (f w)
  | _ => .error (noAttribute name)

/-- Move the peers, or the connection that was opened without a session. -/
def act (l : Switchboard) : LiveAct → Play Switchboard LiveAct
  | .handleSend payload =>
    let (l, accepted) := l.offer 0 payload
    { peers := l, result := .ok (.bool accepted) }
  | .handleClose => { peers := l.close 0 }
  | .handleUnsent => {
      peers := (l.reclaim 0).1
      result := l.ask "unsent" fun w => .list w.unsent.2 }
  | .handleIsOpen => { peers := l, result := l.ask "is_open" fun w => .bool w.isOpen }
  | .accept => l.decide (.ok ())
  | .refuse e => l.decide (.error e)
  | .receive frames =>
    l.changeSocket fun w p =>
      ({ p with incoming := p.incoming ++ frames.map .frame }, awaitsFrame w, false)
  | .peerClose code =>
    l.changeSocket fun w p =>
      ({ p with closeCode := code, gone := true, incoming := p.incoming ++ [.close] },
        awaitsFrame w, false)
  | .peerGone => l.changeSocket fun _ p => ({ p with gone := true }, false, false)
  | .hold => l.changeSocket fun _ p => ({ p with held := true }, false, false)
  | .release => l.changeSocket fun _ p => ({ p with held := false }, false, p.blocked)
  | .respond status contentType =>
    l.changeHttp fun h p =>
      if awaitsHead h p then ({ p with head := some (.ok (status, contentType)) }, true)
      else (p, false)
  | .chunks pieces => l.addBody (pieces.map .bytes)
  | .endBody => l.addBody [.finish]
  | .failHttp e =>
    l.changeHttp fun h p =>
      if awaitsHead h p then ({ p with head := some (.error e) }, true)
      else ({ p with body := p.body ++ [.failure e] }, awaitsBody h)
  | .advance _ => { peers := l }

instance : Surroundings Switchboard LiveAct where
  serve := serve
  cancel := cancel
  act := act

end Switchboard

/-- A run over real connections. -/
abbrev LiveStage := Stage Switchboard LiveAct

namespace LiveStage

open Stage

/-- Put a loop in place and note entries. -/
def setPeers (s : LiveStage) (l : Switchboard) (entries : List Entry) : LiveStage :=
  Stage.note { s with peers := l } entries

/-- Run a task until it waits or has finished. -/
def runTask (t : LineTask) (s : LiveStage) (r : Switchboard.Result) : (bound : Nat) → LiveStage
  | 0 => s
  | bound + 1 =>
    let s := setPeers s r.1 r.2.1
    match r.2.2 with
    | .rest => { s with peers := s.peers.stop t }
    | .on => runTask t s (s.peers.run t false) bound
    | .report connection report =>
      let (s, result) := s.call (report.toCall connection) depthLimit
      let fault := match result with
        | .ok () => none
        | .error f => some f
      runTask t s (s.peers.heard t fault) bound

/-- Run what was woken. A fault of a timer reaches nobody. -/
def runWake (s : LiveStage) : Wake → LiveStage
  | .task t =>
    let l := { s.peers with running := some t }
    runTask t s (l.run t true) depthLimit
  | .timer _ => (s.call .reconnect depthLimit).1

/-- Run so many of those that run next. -/
def runReady (s : LiveStage) : (count : Nat) → LiveStage
  | 0 => s
  | count + 1 =>
    match s.peers.ready with
    | [] => s
    | w :: rest => runReady (runWake { s with peers := { s.peers with ready := rest } } w) count

/-- Run everything that can run while the clock stands still. -/
def settle (s : LiveStage) : (bound : Nat) → LiveStage
  | 0 => s
  | bound + 1 =>
    let s := { s with peers := s.peers.collect }
    match s.peers.ready with
    | [] => s
    | ready => settle (runReady s ready.length) bound

/-- Set the clock. -/
def setClock (s : LiveStage) (time : Float) : LiveStage :=
  { s with peers := { s.peers with clock := { s.peers.clock with now := time } } }

/-- Let time pass until some time. -/
def advanceTo (time : Float) (s : LiveStage) : (bound : Nat) → LiveStage
  | 0 => s
  | bound + 1 =>
    match s.peers.clock.next?.filter (·.due ≤ time) with
    | none => settle (setClock s time) depthLimit
    | some t => advanceTo time (settle (setClock s t.due) depthLimit) bound

/-- Perform a step of the script, and run what follows from it unless the next step comes first. -/
def perform (s : LiveStage) (step : Step LiveAct) (settles : Bool) :
    LiveStage × Except Fault StepAnswer :=
  match step with
  | .act (.advance seconds) =>
    (advanceTo (s.peers.clock.now + seconds) s depthLimit, .ok (.value .null))
  | step =>
    let (s, answer) := Stage.perform s step depthLimit
    (if settles then settle s depthLimit else s, answer)

/-- The run of a connection without a session. -/
def ofConnection (kind : LineKind) (url : Text) (l : Listener LiveAct) : LiveStage :=
  settle { peers := Switchboard.add { kind, url } 0, subscriber := .listener l } depthLimit

/-- Run what follows from a beginning. -/
def settleBeginning (b : Beginning Switchboard LiveAct) : Beginning Switchboard LiveAct :=
  match b with
  | .begun s => .begun (settle s depthLimit)
  | .failed entries peers f => .failed entries peers f

end LiveStage

/-- The connections of a subscription of the platform. -/
def LineKind.ofCarrier (ownsClient : Bool) : Watch.Carrier → LineKind
  | .webSocket openTimeout => .webSocket .null (.float openTimeout)
  | .httpStream headers => .http headers ownsClient

end EventStream.Scenario
