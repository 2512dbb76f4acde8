import EventStream.Session.Machine

/-
# Scripted subscriptions

A script plays the parts of everyone around a session: it calls the session as a subscriber does,
its handlers perform further steps of the script when they are told something, and it moves the
peers and the clock. What the peers are is left open: `Surroundings` says how they serve the
requests of a session and how a step of the script moves them, so that the same scripts run over
stand-ins and over the library's own connections.

Everything that happens is noted in one log, in order. Scripts can nest without end, as handlers
perform steps that tell handlers; a bound on the depth ends them.
-/

namespace EventStream.Scenario

open EventStream.Session (Call Effect EventKind Handler Machine Occurrence Phase Reply Request Setup)

/-- Something that a script's run notes. -/
inductive Entry where
  | record (r : LogRecord)
  /-- A handler was told something. -/
  | told (handler : Text) (occurrence : Occurrence)
  /-- Something was seen by a peer or done by it. -/
  | mark (name : Text) (values : List Value)
  /-- A client was made for one connection, with these limits in seconds. -/
  | client (timeouts : List (Option Float))
  /-- A fault reached somebody. -/
  | fault (name : Text) (fault : Fault)

/-- A step of a script. The steps of the last form move the peers and the clock. -/
inductive Step (Act : Type) where
  | start
  | stop
  | send (payload : Value)
  | describe
  | policy
  | raise (message : Text)
  /-- Register the handler of some name, which is made by the first step that mentions it: the
  steps it performs when it is told something, the phase that it waits for, and how often at most
  it performs its steps. -/
  | on (event name : Text) (steps : List (Step Act)) (phase : Option Text) (times : Option Nat)
  | off (event name : Text)
  | act (a : Act)

instance {Act : Type} : Inhabited (Step Act) := ⟨.start⟩

/-- A handler of a script. -/
structure Script (Act : Type) where
  handler : Handler
  steps : List (Step Act)
  phase : Option Text := none
  times : Option Nat := none

/-- How the peers serve a request of the session: the script is performed before the reply is
given, and a fault of the script takes the place of the reply. -/
structure Service (Peers Act : Type) where
  peers : Peers
  entries : List Entry := []
  script : List (Step Act) := []
  reply : Reply

/-- How a step moves the peers: they may call the session and go on with a further step. -/
structure Play (Peers Act : Type) where
  peers : Peers
  entries : List Entry := []
  call : Option Call := none
  next : Option Act := none
  result : Except Fault Value := .ok .null

/-- Peers and a clock around a session. -/
class Surroundings (Peers : Type) (Act : outParam Type) where
  serve : Peers → Request → Service Peers Act
  /-- Cancel a timer. -/
  cancel : Peers → Nat → Peers × List Entry
  act : Peers → Act → Play Peers Act

/-- The steps that a subscriber without a session performs when its connection reports. -/
structure Listener (Act : Type) where
  opened : List (Step Act) := []
  received : List (Step Act) := []
  closed : List (Step Act) := []
  failed : List (Step Act) := []

/-- Who listens to the connections. -/
inductive Subscriber (Act : Type) where
  | session (setup : Setup) (machine : Machine)
  | listener (l : Listener Act)

/-- The state of a script's run. -/
structure Stage (Peers Act : Type) where
  peers : Peers
  subscriber : Subscriber Act
  scripts : List (Script Act) := []
  /-- What was noted, the latest first. -/
  noted : List Entry := []

/-- The answer of a step. -/
inductive StepAnswer where
  | value (v : Value)
  | policy (p : ReconnectPolicy Number)

namespace Stage

variable {Peers Act : Type}

/-- Note entries in the log. -/
def note (s : Stage Peers Act) (entries : List Entry) : Stage Peers Act :=
  { s with noted := entries.reverse ++ s.noted }

/-- The log since it was last taken, and the run with an empty log. -/
def takeLog (s : Stage Peers Act) : List Entry × Stage Peers Act :=
  (s.noted.reverse, { s with noted := [] })

/-- The handler that records the occurrences of a kind. -/
def recorder (k : EventKind) : Handler := ⟨EventKind.all.findIdx (· = k), k.name⟩

/-- The script of a handler. -/
def script? (s : Stage Peers Act) (h : Handler) : Option (Script Act) :=
  s.scripts.find? (·.handler = h)

/-- The handler of a name, which is made if there is none. -/
def mention (s : Stage Peers Act) (name : Text) (steps : List (Step Act)) (phase : Option Text)
    (times : Option Nat) : Stage Peers Act × Handler :=
  match s.scripts.find? (·.handler.label = name) with
  | some script => (s, script.handler)
  | none =>
    let handler : Handler := ⟨EventKind.all.length + s.scripts.length, name⟩
    ({ s with scripts := s.scripts ++ [⟨handler, steps, phase, times⟩] }, handler)

/-- Whether a handler performs its steps when it is told something. -/
def isDue (script : Script Act) (o : Occurrence) : Bool :=
  script.times ≠ some 0 && match script.phase, o with
    | none, _ => true
    | some phase, .phaseChanged _ new => new.label = phase
    | some _, _ => false

/-- One performance less is left to a script. -/
def countDown (s : Stage Peers Act) (h : Handler) : Stage Peers Act :=
  { s with scripts := s.scripts.map fun script =>
      if script.handler = h then { script with times := script.times.map (· - 1) } else script }

/-- Move the session of a run. -/
def setMachine (s : Stage Peers Act) (m : Machine) : Stage Peers Act :=
  match s.subscriber with
  | .session setup _ => { s with subscriber := .session setup m }
  | .listener _ => s

/-- Make a move of the session, if it can be made. -/
def moved (s : Stage Peers Act) (m : Session.Move) : Option (Stage Peers Act × List Effect) :=
  match s.subscriber with
  | .listener _ => none
  | .session setup machine =>
    (machine.move? setup m).map fun (machine, effects) => (s.setMachine machine, effects)

/-- Note what is seen of the session, and cancel the timers that it cancels. -/
def witness [Surroundings Peers Act] (s : Stage Peers Act) : Effect → Stage Peers Act
  | .record r => s.note [.record r]
  | .cancel timer =>
    let (peers, entries) := Surroundings.cancel s.peers timer
    { s with peers }.note entries
  | .emit _ | .ask _ | .returns | .raises _ => s

/-- How a call stands after what was just seen of it. -/
inductive Verdict where
  | working
  | asks (q : Request)
  | returned
  | raised (f : Fault)

/-- The last effect says how the call stands. -/
def Verdict.of (effects : List Effect) : Verdict :=
  match effects.getLast? with
  | some .returns => .returned
  | some (.raises f) => .raised f
  | some (.ask q) => .asks q
  | _ => .working

/-- What a listener notes, and what it performs, when a connection reports. -/
def Listener.hear (l : Listener Act) : Call → List Entry × List (Step Act)
  | .opened _ => ([.mark "on_open" []], l.opened)
  | .received _ frame => ([.mark "on_frame" [frame]], l.received)
  | .closed _ code => ([.mark "on_close" [code]], l.closed)
  | .failed _ f => ([.fault "on_error" f], l.failed)
  | _ => ([], [])

/-- The fault of nesting without end. -/
def tooDeep : Fault := .raised .recursion "maximum recursion depth exceeded"

/-- What is known of the session: how it is shown, or its policy. -/
def ask (s : Stage Peers Act) (f : Setup → Session.State → StepAnswer) : Except Fault StepAnswer :=
  match s.subscriber with
  | .session setup m => .ok (f setup m.state)
  | .listener _ => .ok (.value .null)

variable [Surroundings Peers Act]

mutual

/-- Perform steps one after another until one raises a fault. -/
def performAll (s : Stage Peers Act) (steps : List (Step Act)) :
    (depth : Nat) → Stage Peers Act × Except Fault Unit
  | 0 => (s, .error tooDeep)
  | depth + 1 =>
    match steps with
    | [] => (s, .ok ())
    | step :: rest =>
      match perform s step depth with
      | (s, .error f) => (s, .error f)
      | (s, .ok _) => performAll s rest depth

/-- Perform a step. -/
def perform (s : Stage Peers Act) (step : Step Act) :
    (depth : Nat) → Stage Peers Act × Except Fault StepAnswer
  | 0 => (s, .error tooDeep)
  | depth + 1 =>
    match step with
    | .start => callAnswered s .start depth
    | .stop => callAnswered s .stop depth
    | .send payload => callAnswered s (.send payload) depth
    | .describe => (s, s.ask fun setup state => .value (.text (Session.shown setup state)))
    | .policy => (s, s.ask fun setup _ => .policy setup.policy)
    | .raise message => (s, .error (.raised .runtime message))
    | .on event name steps phase times =>
      let (s, h) := s.mention name steps phase times
      callAnswered s (.on event h) depth
    | .off event name =>
      let (s, h) := s.mention name [] none none
      callAnswered s (.off event h) depth
    | .act a => play s a depth

/-- Move the peers until they go on no further. -/
def play (s : Stage Peers Act) (a : Act) :
    (depth : Nat) → Stage Peers Act × Except Fault StepAnswer
  | 0 => (s, .error tooDeep)
  | depth + 1 =>
    let p := Surroundings.act s.peers a
    let s := { s with peers := p.peers }.note p.entries
    let (s, called) : Stage Peers Act × Except Fault Unit := match p.call with
      | none => (s, .ok ())
      | some c => call s c depth
    match called, p.next with
    | .error f, _ => (s, .error f)
    | .ok (), none => (s, p.result.map .value)
    | .ok (), some a => play s a depth

/-- Call the session as a step does. -/
def callAnswered (s : Stage Peers Act) (c : Call) :
    (depth : Nat) → Stage Peers Act × Except Fault StepAnswer
  | 0 => (s, .error tooDeep)
  | depth + 1 =>
    let (s, result) := call s c depth
    (s, result.map fun _ => .value .null)

/-- Call whoever listens, and see the call through. -/
def call (s : Stage Peers Act) (c : Call) : (depth : Nat) → Stage Peers Act × Except Fault Unit
  | 0 => (s, .error tooDeep)
  | depth + 1 =>
    match s.subscriber with
    | .listener l =>
      let (entries, steps) := Listener.hear l c
      performAll (s.note entries) steps depth
    | .session _ m =>
      match m.call? c with
      | none => (s, .error tooDeep)
      | some m => follow (s.setMachine m) [] depth

/-- Go on with the session after what was just seen of it, until the call has ended. -/
def follow (s : Stage Peers Act) (effects : List Effect) :
    (depth : Nat) → Stage Peers Act × Except Fault Unit
  | 0 => (s, .error tooDeep)
  | depth + 1 =>
    let s := effects.foldl witness s
    match Verdict.of effects with
    | .returned => (s, .ok ())
    | .raised f => (s, .error f)
    | .working =>
      match s.moved .work with
      | none => (s, .error tooDeep)
      | some (s, effects) => follow s effects depth
    | .asks q =>
      let (s, reply) := answer s q depth
      match s.moved (.reply reply) with
      | none => (s, .error tooDeep)
      | some (s, effects) => follow s effects depth

/-- Answer a request of the session. -/
def answer (s : Stage Peers Act) (q : Request) : (depth : Nat) → Stage Peers Act × Reply
  | 0 => (s, .raised tooDeep)
  | depth + 1 =>
    match q with
    | .tell h o =>
      let s := s.note [.told h.label o]
      match s.script? h with
      | none => (s, .returned)
      | some script =>
        if isDue script o then answerBy (s.countDown h) script.steps .returned depth
        else (s, .returned)
    | q =>
      let served := Surroundings.serve s.peers q
      let s := { s with peers := served.peers }.note served.entries
      answerBy s served.script served.reply depth

/-- Perform steps before a reply is given. -/
def answerBy (s : Stage Peers Act) (steps : List (Step Act)) (reply : Reply) :
    (depth : Nat) → Stage Peers Act × Reply
  | 0 => (s, .raised tooDeep)
  | depth + 1 =>
    match performAll s steps depth with
    | (s, .ok ()) => (s, reply)
    | (s, .error f) => (s, .raised f)

end

/-- How deep scripts may nest. -/
def depthLimit : Nat := 1000000

end Stage

end EventStream.Scenario
