import EventStream.Scenario.Configuring
import EventStream.Scenario.Stage
import EventStream.Watch

/-
# Beginning a subscription

A script's run begins with a subscription: a session that is made as it is, or one of those that the
platform offers, made from the settings. The subscriber's handler of a subscription that connects
at once is registered before it starts. Recorders come after it and before every handler of the
script's steps, so what they note is what the other handlers find.

If a subscription cannot be begun the run has no session, but what was noted until then stays.
-/

namespace EventStream.Scenario

open EventStream.Session (EventKind Setup)

/-- The settings of a script's environment. -/
def ConfigRun.settings (r : ConfigRun) : List Entry × Except Fault Config.Store :=
  let (r, log, held) := r.hold none
  (log.map .record, held.bind fun i =>
    match r.stores[i]? with
    | none => .error ConfigRun.noStore
    | some g => .ok g.store)

namespace Stage

variable {Peers Act : Type}

/-- The run of a session that nobody has called yet. -/
def ofSetup (peers : Peers) (setup : Setup) : Stage Peers Act :=
  { peers, subscriber := .session setup {} }

variable [Surroundings Peers Act]

/-- Register recorders for kinds of occurrences. -/
def record (s : Stage Peers Act) (kinds : List EventKind) : Stage Peers Act :=
  kinds.foldl (fun s k => (s.call (.on k.name (recorder k)) depthLimit).1) s

/-- Register the subscriber's handler, which performs steps, and start. -/
def subscribe (s : Stage Peers Act) (steps : List (Step Act)) :
    Stage Peers Act × Except Fault Unit :=
  let handle : Step Act := .on EventKind.message.name "event" steps none none
  s.performAll [handle, .start] depthLimit

end Stage

/-- What a script subscribes to. -/
inductive Target (Act : Type) where
  | session (setup : Setup)
  /-- A subscription of the platform, with the steps of the subscriber's handler. -/
  | watch (w : Watch) (environment : ConfigRun) (steps : List (Step Act))

/-- How a subscription began. If it could not be begun, what was noted and the peers, if there were
any by then, are what is left. -/
inductive Beginning (Peers Act : Type) where
  | begun (s : Stage Peers Act)
  | failed (entries : List Entry) (peers : Option Peers) (f : Fault)

variable {Peers Act α : Type} [Surroundings Peers Act]

/-- Begin a subscription over peers, which are made from its setup and its carrier. -/
def Target.begin (t : Target Act) (given : α) (carrier : Config.Store → Watch → Except Fault α)
    (peers : Setup → α → Peers) (kinds : List EventKind) : Beginning Peers Act :=
  match t with
  | .session setup => .begun ((Stage.ofSetup (peers setup given) setup).record kinds)
  | .watch w environment steps =>
    match environment.settings with
    | (entries, .error f) => .failed entries none f
    | (entries, .ok store) =>
      match w.plan store (carrier store w) with
      | .error f => .failed entries none f
      | .ok (setup, a) =>
        let s := (Stage.ofSetup (peers setup a) setup).note entries
        if w.startsAtOnce then
          match s.subscribe steps with
          | (s, .error f) => .failed s.takeLog.1 (some s.peers) f
          | (s, .ok ()) => .begun (s.record kinds)
        else .begun (s.record kinds)

end EventStream.Scenario
