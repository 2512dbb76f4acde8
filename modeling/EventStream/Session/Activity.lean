import EventStream.Session.Basic
import EventStream.Url.Redaction

/-
# What a session does

Subscribers, connections and timers call a session. A call is worked off in tasks, and a task
either changes the state and leaves further tasks to be done first, or asks something of the
surroundings and waits for the reply, or fails and takes its call with it. While a call waits, the
session may be called again: a handler may stop the session that is telling it something, and a
connection may report before opening it has returned. Every task therefore looks at the state that
it finds, not at the one that its call began with.

The surroundings are asked to tell a handler, to open or close a connection, to offer it a payload,
to take back what it has not sent, and to set a timer. A fault of a handler is reported and goes no
further. A fault of opening a connection counts as a drop of that connection. A fault of closing
the held connection is reported; every other fault leaves the call.
-/

namespace EventStream.Session

/-- How a session is called. Connections call by their number. -/
inductive Call where
  | start
  | stop
  | send (payload : Value)
  | on (event : Text) (handler : Handler)
  | off (event : Text) (handler : Handler)
  | opened (connection : Nat)
  | received (connection : Nat) (frame : Value)
  | closed (connection : Nat) (code : Value)
  | failed (connection : Nat) (fault : Fault)
  /-- The time of a reconnect has come. -/
  | reconnect

/-- What a session asks of its surroundings. -/
inductive Request where
  | tell (handler : Handler) (occurrence : Occurrence)
  | dial (connection : Nat)
  | hangUp (connection : Nat)
  | offer (connection : Nat) (payload : Value)
  | reclaim (connection : Nat)
  | schedule (delay : Number)

/-- What the surroundings answer. -/
inductive Reply where
  | returned
  /-- A payload was accepted or rejected. -/
  | accepted (yes : Bool)
  /-- The payloads that a connection accepted but has not sent. -/
  | unsent (payloads : List Value)
  /-- The number of the timer that was set. -/
  | scheduled (timer : Nat)
  | raised (fault : Fault)

/-- What a call waits for. -/
inductive Await where
  /-- A handler is told, and these handlers are next. -/
  | telling (handler : Handler) (occurrence : Occurrence) (next : List Handler)
  | dialling (connection : Nat)
  /-- The connection is closed that the session held. -/
  | releasing (connection : Nat)
  /-- A connection is closed that was superseded while it was opened. -/
  | discarding (connection : Nat)
  | sending (connection : Nat) (payload : Value)
  /-- The head of the queue is offered, after so many payloads were accepted. -/
  | draining (connection : Nat) (payload : Value) (sent : Nat)
  | reclaiming (connection : Nat)
  | scheduling (attempt : Nat) (delay : Number)

/-- The request that is answered by what a call waits for. -/
def Await.request : Await → Request
  | .telling h o _ => .tell h o
  | .dialling c => .dial c
  | .releasing c => .hangUp c
  | .discarding c => .hangUp c
  | .sending c p => .offer c p
  | .draining c p _ => .offer c p
  | .reclaiming c => .reclaim c
  | .scheduling _ delay => .schedule delay

/-- How a connection ended. -/
inductive Ending where
  | closed (code : Value)
  | failed (fault : Fault)

/-- What is to be done for a call. -/
inductive Task where
  | serve (call : Call)
  | enter (phase : Phase)
  | emit (occurrence : Occurrence)
  /-- Tell handlers one after another. -/
  | notify (occurrence : Occurrence) (handlers : List Handler)
  /-- Give up the connection that is held, if any, and open another one. -/
  | connect
  | dial
  | release
  /-- Make the connected session known. -/
  | announce
  | flush
  | drain (connection : Nat) (sent : Nat)
  | reclaim (connection : Nat)
  /-- Go back to connecting. -/
  | fallBack
  /-- Report how a connection ended. -/
  | conclude (ending : Ending)
  /-- Ask the policy what follows a connection that has ended. -/
  | decide
  | cancelTimer
  /-- Drop what is queued when the session is stopped. -/
  | discardQueue
  | report (record : LogRecord)

/-- What is seen of a session's work. -/
inductive Effect where
  | record (r : LogRecord)
  /-- An occurrence begins to be told. -/
  | emit (occurrence : Occurrence)
  | cancel (timer : Nat)
  | ask (request : Request)
  /-- The call has returned. -/
  | returns
  /-- A fault has left the call. -/
  | raises (fault : Fault)

/-- How a task leaves its call. -/
inductive Outcome where
  | next (tasks : List Task)
  | wait (await : Await)
  | fail (fault : Fault)

/-- One step of work: the state that it leaves, what is seen of it, and how its call goes on. -/
structure Step where
  state : State
  effects : List Effect := []
  outcome : Outcome := .next []

namespace Setup

variable (setup : Setup)

/-- A record of the session, which opens with its name. -/
def say (level : LogLevel) (parts : List Text) : Effect :=
  .record ⟨.session, level, Text.concat ("[" :: setup.name :: "] " :: parts)⟩

/-- The endpoint as it may be written to the log. -/
def redacted : Text := Url.redact setup.endpoint

/-- The fault of sending where nothing can be sent. -/
def receiveOnly : Fault :=
  .receiveOnly (Text.concat ["Session '", setup.name, "' is receive-only"]) []

/-- The fault of a connection that could not be opened. -/
def openFailure (f : Fault) : Fault :=
  match f.transport? with
  | some _ => f
  | none => .transport {
      message := Text.concat ["Could not open transport: ", f.shown]
      details := [(.text "url", .text setup.redacted)] }

/-- The number of reconnects that the policy allows, as it is shown, if it can be written. -/
def limitShown : Except CoercionError Text :=
  match setup.policy.maxAttempts with
  | none => .ok "unlimited"
  | some n => (Value.int n).asText

/-- The report of a scheduled reconnect. A delay that no clock can hold is not reported. -/
def waitReport (attempt : Nat) (delay : Number) (limit : Text) : List Effect :=
  match delay.toFloat with
  | .error _ => []
  | .ok seconds =>
    [setup.say .info ["Reconnecting in ", Decimal.tenths seconds, "s (attempt ",
      Text.ofNat attempt, "/", limit, ")"]]

/-- The report of payloads that were dropped, if there were any. -/
def dropReport (count : Nat) (parts : List Text) : List Effect :=
  if count = 0 then []
  else [setup.say .info ("Dropped " :: Text.ofNat count :: " queued message(s)" :: parts)]

/-- The report of a drain. -/
def flushReport (sent remaining : Nat) : Effect :=
  setup.say .info ["Flushed ", Text.ofNat sent, " queued message(s), ", Text.ofNat remaining,
    " remaining"]

/-- The report of how a connection ended. -/
def endReport : Ending → Effect
  | .closed code => setup.say .info ["Connection closed (code=", code.toText, ")"]
  | .failed f => setup.say .warning ["Connection error: ", f.shown]

/-- The report of a handler that failed. -/
def handlerReport (h : Handler) (o : Occurrence) : Effect :=
  setup.say .error [o.kind.name, " handler <handler ", h.label, "> failed"]

/-- Queue a payload that the connection would not take. -/
def queueRejected (s : State) (payload : Value) : Step := {
  state := s.enqueue payload
  effects := [setup.say .debug ["Transport rejected send; queueing"]] }

/-- Send a payload: what is queued goes first, and what cannot go now is queued. -/
def serveSend (s : State) (payload : Value) : Step :=
  if !setup.outbound then { state := s, outcome := .fail setup.receiveOnly }
  else if s.phase.isOver then
    { state := s, effects := [setup.say .warning ["send() on a closed session dropped"]] }
  else if s.isConnected && s.queue.isEmpty then
    match s.connection with
    | none => setup.queueRejected s payload
    | some c => { state := s, outcome := .wait (.sending c payload) }
  else { state := s.enqueue payload }

/-- Begin to connect; only an idle session does. -/
def serveStart (s : State) : Step :=
  match s.phase with
  | .connecting | .connected => { state := s }
  | .closing | .closed => {
      state := s
      effects := [setup.say .warning
        ["start() on a closed session ignored; create a new one"]] }
  | .idle => {
      state := s
      effects := [setup.say .info ["Starting subscription to ", setup.redacted]]
      outcome := .next [.enter .connecting, .connect] }

/-- Close for good. -/
def serveStop (s : State) : Step :=
  if s.phase = .closed then { state := s }
  else {
    state := s
    outcome := .next [.enter .closing, .cancelTimer, .release, .discardQueue, .enter .closed,
      .report ⟨.session, .info, Text.concat ["[", setup.name, "] Subscription stopped"]⟩] }

/-- Change the registrations of a kind of occurrence. -/
def serveRegistration (s : State) (event : Text) (change : EventKind → State) : Step :=
  match EventKind.ofName? event with
  | none => { state := s, outcome := .fail (EventKind.unknown event) }
  | some k => { state := change k }

/-- A connection reports that it is usable. -/
def serveOpened (s : State) (connection : Nat) : Step :=
  if s.listensTo connection && s.phase = .connecting then
    { state := { s with attempts := 0 }, outcome := .next [.enter .connected, .announce] }
  else { state := s }

/-- A connection reports a frame. -/
def serveFrame (s : State) (connection : Nat) (frame : Value) : Step :=
  if s.listensTo connection && s.isConnected then
    match setup.decode frame with
    | .event e => { state := s, outcome := .next [.emit (.message e)] }
    | .nothing log => { state := s, effects := log.map .record }
    | .failed f => {
        state := s
        effects := [setup.say .debug ["Decoder raised on frame, skipping: ", f.shown]] }
  else { state := s }

/-- A connection reports that it has ended. -/
def serveEnding (s : State) (connection : Nat) (ending : Ending) : Step :=
  if s.listensTo connection then
    { state := s.turnAway
      outcome := .next ((s.connection.map Task.reclaim).toList ++ [.fallBack, .conclude ending]) }
  else { state := s }

/-- The first step of a call. -/
def serve (s : State) : Call → Step
  | .start => setup.serveStart s
  | .stop => setup.serveStop s
  | .send payload => setup.serveSend s payload
  | .on event h => serveRegistration s event (s.register · h)
  | .off event h => serveRegistration s event (s.unregister · h)
  | .opened c => serveOpened s c
  | .received c frame => setup.serveFrame s c frame
  | .closed c code => serveEnding s c (.closed code)
  | .failed c f => serveEnding s c (.failed f)
  | .reconnect => {
      state := { s with timer := none }
      outcome := .next (if s.phase = .connecting then [.connect] else []) }

/-- Move to a phase and make the change known; a session that stands there already stays. -/
def enter (s : State) (phase : Phase) : Step :=
  if s.phase = phase then { state := s }
  else {
    state := { s with phase }
    effects := [setup.say .debug ["State ", s.phase.label, " -> ", phase.label]]
    outcome := .next [.emit (.phaseChanged s.phase phase)] }

/-- Close the held connection, if any, and turn away from it. -/
def release (s : State) : Step := {
  state := s.turnAway
  outcome := match s.connection with
    | none => .next []
    | some c => .wait (.releasing c) }

/-- Make a connected session known: what is queued is sent first. A handler may have stopped the
session meanwhile. -/
def announce (s : State) : Step :=
  if s.isConnected then {
    state := s
    effects := [setup.say .info ["Connected"]]
    outcome := .next [.flush, .emit .opened] }
  else { state := s }

/-- Send what is queued over the connection that is held now. -/
def flush (s : State) : Step :=
  match s.connection with
  | none => { state := s }
  | some c => { state := s, outcome := .next (if s.queue.isEmpty then [] else [.drain c 0]) }

/-- Offer the head of the queue, or end the drain. -/
def drain (s : State) (connection sent : Nat) : Step :=
  match s.queue.head? with
  | none => { state := s, effects := [setup.flushReport sent s.queue.size] }
  | some m => { state := s, outcome := .wait (.draining connection m.payload sent) }

/-- Report how a connection ended. A handler may have stopped the session meanwhile. -/
def conclude (s : State) (ending : Ending) : Step :=
  if s.phase = .connecting then {
    state := s
    effects := [setup.endReport ending]
    outcome := .next [.emit (match ending with
      | .closed code => .closed code
      | .failed f => .failed f), .decide] }
  else { state := s }

/-- Give up: nothing stays queued, and the session is closed. -/
def giveUp (s : State) (attempts : Int) : Step := {
  state := s.clearQueue
  effects := setup.say .error ["Max reconnection attempts reached (", Text.ofInt attempts, ")"]
    :: setup.dropReport s.queue.size []
  outcome := .next [.enter .closed, .emit (.gaveUp attempts)] }

/-- Count a reconnect, report it, and set its timer. A limit that is too long to be written fails
the report when the reconnect is counted already. -/
def retry (s : State) (delay : Number) : Step :=
  let attempt := s.attempts + 1
  let counted := { s with attempts := attempt }
  match setup.limitShown with
  | .error e => { state := counted, outcome := .fail e.toFault }
  | .ok limit => {
      state := counted
      effects := setup.waitReport attempt delay limit
      outcome := .wait (.scheduling attempt delay) }

/-- Follow the policy after a connection has ended. A handler may have stopped the session
meanwhile. -/
def decide (s : State) : Step :=
  if s.phase = .connecting then
    match setup.policy.onDisconnect (s.attempts + 1 : Nat) with
    | .error f => { state := s, outcome := .fail f }
    | .ok (.giveUp attempts) => setup.giveUp s attempts
    | .ok (.retry delay) => setup.retry s delay
  else { state := s }

/-- Do a task. -/
def perform (s : State) : Task → Step
  | .serve call => setup.serve s call
  | .enter phase => setup.enter s phase
  | .emit o => {
      state := s
      effects := [.emit o]
      outcome := .next [.notify o (s.handlers o.kind)] }
  | .notify _ [] => { state := s }
  | .notify o (h :: next) => { state := s, outcome := .wait (.telling h o next) }
  | .connect => { state := { s with timer := none }, outcome := .next [.release, .dial] }
  | .dial => {
      state := { s with generation := s.generation + 1 }
      outcome := .wait (.dialling (s.generation + 1)) }
  | .release => release s
  | .announce => setup.announce s
  | .flush => flush s
  | .drain c sent => setup.drain s c sent
  | .reclaim c => { state := s, outcome := .wait (.reclaiming c) }
  | .fallBack => {
      state := s
      outcome := .next (if s.isConnected then [.enter .connecting] else []) }
  | .conclude ending => setup.conclude s ending
  | .decide => setup.decide s
  | .cancelTimer => {
      state := { s with timer := none }
      effects := (s.timer.map Effect.cancel).toList }
  | .discardQueue => {
      state := s.clearQueue
      effects := setup.dropReport s.queue.size [" on stop"] }
  | .report r => { state := s, effects := [.record r] }

/-- A connection was opened: it is held, unless it was superseded meanwhile. If it reported before
opening it returned, the queue has not been sent yet. -/
def adopt (s : State) (connection : Nat) : Step :=
  if s.listensTo connection then {
    state := { s with connection := some connection }
    outcome := .next (if s.isConnected then [.flush] else []) }
  else { state := s, outcome := .wait (.discarding connection) }

/-- A connection could not be opened, which counts as its end. -/
def dialFailed (s : State) (connection : Nat) (f : Fault) : Step := {
  state := s
  effects := [setup.say .warning ["Could not open transport: ", f.shown]]
  outcome := .next [.serve (.failed connection (setup.openFailure f))] }

/-- The head of the queue was accepted, and leaves it. -/
def drainOn (s : State) (connection sent : Nat) : Step :=
  if s.queue.isEmpty then
    { state := s, outcome := .fail (.raised .index "pop from an empty deque") }
  else {
    state := { s with queue := s.queue.dropHead }
    outcome := .next [.drain connection (sent + 1)] }

/-- The head of the queue was rejected, which ends the drain. -/
def drainHalted (s : State) (sent : Nat) : Step := {
  state := s
  effects := [.record (Outbound.haltedRecord sent s.queue.size),
    setup.flushReport sent s.queue.size] }

/-- Payloads came back from a connection that has ended. -/
def takeBack (s : State) (payloads : List Value) : Step :=
  if payloads.isEmpty then { state := s }
  else {
    state := s.requeue payloads
    effects := [setup.say .info ["Re-queued ", Text.ofNat payloads.length,
      " unsent message(s)"]] }

/-- Go on with what a call waited for. A reply of another form is none. -/
def resume (s : State) : Await → Reply → Option Step
  | .telling _ o next, .returned => some { state := s, outcome := .next [.notify o next] }
  | .telling h o next, .raised _ => some {
      state := s
      effects := [setup.handlerReport h o]
      outcome := .next [.notify o next] }
  | .dialling c, .returned => some (adopt s c)
  | .dialling c, .raised f => some (setup.dialFailed s c f)
  | .releasing _, .returned => some { state := s }
  | .releasing _, .raised _ =>
    some { state := s, effects := [setup.say .error ["Error closing transport"]] }
  | .discarding _, .returned => some { state := s }
  | .sending _ _, .accepted true => some { state := s }
  | .sending _ payload, .accepted false => some (setup.queueRejected s payload)
  | .draining c _ sent, .accepted true => some (drainOn s c sent)
  | .draining _ _ sent, .accepted false => some (setup.drainHalted s sent)
  | .reclaiming _, .unsent payloads => some (setup.takeBack s payloads)
  | .scheduling attempt delay, .scheduled timer => some {
      state := { s with timer := some timer }
      outcome := .next [.emit (.reconnecting attempt delay)] }
  | .discarding _, .raised f
  | .sending _ _, .raised f
  | .draining _ _ _, .raised f
  | .reclaiming _, .raised f
  | .scheduling _ _, .raised f => some { state := s, outcome := .fail f }
  | _, _ => none

end Setup

end EventStream.Session
