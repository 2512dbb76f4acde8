import EventStream.Session.Activity

/-
# A session at work

A session at work is its state and the calls in progress, the innermost first. It moves in three
ways. A call may come whenever the innermost call waits, or when there is none; the innermost call
does its next task; or it goes on after a reply to what it waits for. Nothing else changes a
session, so its runs are the sequences of such moves, and whoever moves it plays the part of the
subscribers, the connections and the clock.
-/

namespace EventStream.Session

/-- A call in progress. -/
structure Activation where
  call : Call
  /-- What the call waits for, if it waits. -/
  awaiting : Option Await := none
  tasks : List Task

/-- A session at work. -/
structure Machine where
  state : State := {}
  /-- The calls in progress, the innermost first. -/
  stack : List Activation := []

/-- A move of a session at work. -/
inductive Move where
  | call (call : Call)
  | work
  | reply (reply : Reply)

namespace Machine

/-- Whether no call is in progress. -/
def atRest (m : Machine) : Bool := m.stack.isEmpty

/-- What the innermost call waits for. -/
def awaiting? (m : Machine) : Option Await := m.stack.head?.bind (·.awaiting)

/-- Whether a call may come. -/
def accepts (m : Machine) : Bool := m.atRest || m.awaiting?.isSome

/-- Take a step of the innermost call, which has these tasks left. -/
def take (a : Activation) (tasks : List Task) (below : List Activation) (step : Step) :
    Machine × List Effect :=
  match step.outcome with
  | .next first =>
    (⟨step.state, { a with awaiting := none, tasks := first ++ tasks } :: below⟩, step.effects)
  | .wait await =>
    (⟨step.state, { a with awaiting := some await, tasks } :: below⟩,
      step.effects ++ [.ask await.request])
  | .fail f => (⟨step.state, below⟩, step.effects ++ [.raises f])

/-- Do the next task of the innermost call, which returns if there is none. -/
def work? (setup : Setup) (m : Machine) : Option (Machine × List Effect) :=
  match m.stack with
  | ⟨call, none, task :: tasks⟩ :: below =>
    some (take ⟨call, none, tasks⟩ tasks below (setup.perform m.state task))
  | ⟨_, none, []⟩ :: below => some (⟨m.state, below⟩, [.returns])
  | _ => none

/-- Go on after a reply. -/
def reply? (setup : Setup) (m : Machine) (reply : Reply) : Option (Machine × List Effect) :=
  match m.stack with
  | ⟨call, some await, tasks⟩ :: below =>
    (setup.resume m.state await reply).map (take ⟨call, none, tasks⟩ tasks below)
  | _ => none

/-- Begin a call. -/
def call? (m : Machine) (call : Call) : Option Machine :=
  if m.accepts then some ⟨m.state, ⟨call, none, [.serve call]⟩ :: m.stack⟩ else none

/-- Make a move, if it is possible. -/
def move? (setup : Setup) (m : Machine) : Move → Option (Machine × List Effect)
  | .call call => (m.call? call).map (·, [])
  | .work => m.work? setup
  | .reply reply => m.reply? setup reply

end Machine

end EventStream.Session
