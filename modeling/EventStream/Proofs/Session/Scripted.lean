import EventStream.Proofs.Session.Calls
import EventStream.Proofs.Session.Delivery
import EventStream.Proofs.Session.Streaks

/-
# Surroundings that follow a script

Handlers often do the same thing whenever they are told the same: they make some calls and then
return or raise. A connection often decides whether to accept a payload by what it has accepted so
far. Surroundings of this kind leave nothing open: `Staging.turn?` says which turn comes next, and
so a session has one run in them. What a handler does may depend on everything that handlers were
told so far, and what is left of its script is read off from the chronicle.

A run is described by its scenes. A scene is what counts of a session and of what was seen of it:
the state but for the stamps in the queue, the payloads that wait and those that the connection
accepted, what handlers were told, and what occurred. The lemmas of this file say what each part of
a run makes of a scene, from a single call of a handler to a round of handlers and to a drain.
-/

namespace EventStream.Session

/-! ## What was told and taken -/

/-- The handler that is told something, with what it is told. -/
def Request.tell? : Request → Option (Handler × Occurrence)
  | .tell h o => some (h, o)
  | _ => none

namespace Chronicle

/-- What handlers were told, in order. -/
def tells (past : Chronicle) : List (Handler × Occurrence) := past.requests.filterMap Request.tell?

/-- The payloads that a connection accepted, oldest first. -/
def taken (n : Nat) : Chronicle → List Value
  | [] => []
  | e :: past => taken n past ++ (e.accepted?.toList.filter (·.1 = n)).map Prod.snd

/-- The calls that came since a call began to wait, where so many calls are in progress. -/
def made (depth : Nat) : Chronicle → Nat
  | [] => 0
  | e :: past =>
    if depth < e.before.stack.length then made depth past
    else if e.before.stack.length = depth ∧ e.turn.call?.isSome then made depth past + 1
    else 0

variable (past : Chronicle) (e : Entry) {n depth : Nat}

@[simp] theorem tells_cons :
    tells (e :: past) = tells past ++ e.asked.filterMap Request.tell? := by
  simp [tells, requests]

theorem taken_of_silent (silent : e.accepted? = none) : taken n (e :: past) = taken n past := by
  simp [taken, silent]

theorem made_above (above : depth < e.before.stack.length) :
    made depth (e :: past) = made depth past := by
  simp [made, above]

theorem made_called (level : e.before.stack.length = depth) (calls : e.turn.call?.isSome) :
    made depth (e :: past) = made depth past + 1 := by
  simp [made, level, calls]

theorem made_began (level : e.before.stack.length = depth) (acts : e.turn.call? = none) :
    made depth (e :: past) = 0 := by
  simp [made, level, acts]

end Chronicle

/-! ## Scripts -/

/-- What handlers and connections do. -/
structure Script where
  /-- The calls that a handler makes, when this is what handlers were told, to the latest of whom
  it was told. -/
  calls : List (Handler × Occurrence) → List Call
  /-- The fault with which the handler ends, if it does not return. -/
  fault? : List (Handler × Occurrence) → Option Fault
  /-- Whether a connection accepts a payload after it has accepted these. -/
  accepts : List Value → Value → Bool

/-- The calls of handlers that neither stop a session nor report for a connection. -/
def Call.isPlain : Call → Bool
  | .start | .send _ | .on .. | .off .. => true
  | _ => false

namespace Script

variable (script : Script)

/-- Handlers that are told this make plain calls only. -/
def IsPlain (o : Occurrence) : Prop :=
  ∀ told h, ∀ call ∈ script.calls (told ++ [(h, o)]), call.isPlain

/-- How a handler ends. -/
def answer (told : List (Handler × Occurrence)) : Reply :=
  match script.fault? told with
  | none => .returned
  | some f => .raised f

end Script

/-- A session, and surroundings that follow a script. -/
structure Staging where
  setup : Setup
  script : Script
  /-- The calls that come while a connection is opened. -/
  during : Nat → List Call := fun _ => []
  /-- The calls in progress that are left alone. -/
  depth : Nat

namespace Staging

section

variable (g : Staging)

/-- The next turn. A handler makes its calls one after the other and ends, and the calls that come
while a connection is opened come before opening it returns. -/
def turn? (c : Course) : Option Turn :=
  match c.now.stack with
  | [] => none
  | ⟨_, none, _⟩ :: _ => some .work
  | ⟨_, some a, _⟩ :: below =>
    let made := c.past.made (below.length + 1)
    match a with
    | .telling .. => some <|
      match (g.script.calls c.past.tells)[made]? with
      | some call => .call call
      | none => .reply (g.script.answer c.past.tells)
    | .dialling n => some <|
      match (g.during n)[made]? with
      | some call => .call call
      | none => .reply .returned
    | .sending n p | .draining n p _ =>
      some (.reply (.accepted (g.script.accepts (c.past.taken n) p)))
    | _ => none

/-- The next turn of a run that goes on as long as there are other calls in progress than those that
are left alone. -/
def Next (c d : Course) : Prop :=
  g.depth < c.now.stack.length ∧ ∃ turn, g.turn? c = some turn ∧ c.take? g.setup turn = some d

/-- Any number of turns of such a run. -/
def Plays : Course → Course → Prop := Relation.ReflTransGen g.Next

/-- A run to its end. -/
def Finishes (c d : Course) : Prop := g.Plays c d ∧ d.now.stack.length ≤ g.depth

end

/-- There is one run only. -/
theorem Finishes.unique {g : Staging} {c d e : Course} (one : g.Finishes c d)
    (other : g.Finishes c e) : d = e := by
  obtain ⟨plays, back⟩ := one
  induction plays using Relation.ReflTransGen.head_induction_on with
  | refl =>
      rcases other.1.cases_head with same | ⟨b, next, -⟩
      · exact same
      · exact absurd next.1 (Nat.not_lt.mpr back)
  | head next _ ih =>
      rcases other.1.cases_head with rfl | ⟨b, next', rest⟩
      · exact absurd next.1 (Nat.not_lt.mpr other.2)
      · obtain ⟨-, turn, comes, taken⟩ := next
        obtain ⟨-, turn', comes', taken'⟩ := next'
        obtain rfl := Option.some.inj (comes.symm.trans comes')
        obtain rfl := Option.some.inj (taken.symm.trans taken')
        exact ih ⟨rest, other.2⟩

end Staging

/-! ## Scenes -/

/-- What counts of a session and of what was seen of it. -/
structure Scene where
  /-- The state without what is queued. -/
  state : State
  queued : List Value
  /-- The payloads that the connection accepted. -/
  taken : List Value
  tells : List (Handler × Occurrence)
  told : List Occurrence

/-- The scene to which a course led. -/
def Course.scene (n : Nat) (c : Course) : Scene where
  state := { c.now.state with queue := {} }
  queued := c.now.state.queue.payloads
  taken := c.past.taken n
  tells := c.past.tells
  told := c.past.told

namespace Scene

variable (setup : Setup) (script : Script)

/-- A payload is sent in a connected session: the connection takes it if nothing waits and it
accepts it, and otherwise it is queued. -/
def send (p : Value) (u : Scene) : Scene :=
  if setup.outbound = false then u
  else if u.queued = [] ∧ u.state.connection.isSome ∧ script.accepts u.taken p then
    { u with taken := u.taken ++ [p] }
  else { u with queued := u.queued ++ [p] }

/-- A plain call is served in a connected session. -/
def serve (u : Scene) : Call → Scene
  | .send p => u.send setup script p
  | .on event h =>
    match EventKind.ofName? event with
    | some k => { u with state := u.state.register k h }
    | none => u
  | .off event h =>
    match EventKind.ofName? event with
    | some k => { u with state := u.state.unregister k h }
    | none => u
  | _ => u

/-- A handler is told something, and makes its calls. -/
def tell (o : Occurrence) (u : Scene) (h : Handler) : Scene :=
  (script.calls (u.tells ++ [(h, o)])).foldl (serve setup script)
    { u with tells := u.tells ++ [(h, o)] }

/-- An occurrence is told to the handlers that are registered for it. -/
def emit (o : Occurrence) (u : Scene) : Scene :=
  (u.state.handlers o.kind).foldl (tell setup script o) { u with told := u.told ++ [o] }

/-- Payloads are offered to a connection until it rejects one: those that it has taken then, and
those that still wait. -/
def drained (accepts : List Value → Value → Bool) :
    List Value → List Value → List Value × List Value
  | taken, [] => (taken, [])
  | taken, p :: queued =>
    if accepts taken p then drained accepts (taken ++ [p]) queued else (taken, p :: queued)

/-- What is queued is offered to the connection that is held. -/
def flush (u : Scene) : Scene :=
  if u.state.connection.isSome then
    { u with
      taken := (drained script.accepts u.taken u.queued).1
      queued := (drained script.accepts u.taken u.queued).2 }
  else u

/-- The session is connected, and holds no other connection than this one. -/
structure Connected (n : Nat) (u : Scene) : Prop where
  phase : u.state.phase = .connected
  held : ∀ m, u.state.connection = some m → m = n

/-- Two scenes differ in their states at most in what is registered. -/
def Alike (u v : Scene) : Prop := ∃ registrations, v.state = { u.state with registrations }

theorem Alike.trans {u v w : Scene} (first : u.Alike v) (second : v.Alike w) : u.Alike w := by
  obtain ⟨r, first⟩ := first
  obtain ⟨r', second⟩ := second
  exact ⟨r', by rw [second, first]⟩

theorem Alike.connected {n : Nat} {u v : Scene} (alike : u.Alike v) (connected : u.Connected n) :
    v.Connected n := by
  obtain ⟨r, same⟩ := alike
  constructor <;> rw [same]
  · exact connected.phase
  · exact connected.held

variable {setup script} (u : Scene)

/-- Plain calls leave everything about the connection as it is. -/
theorem alike_serve (call : Call) : u.Alike (u.serve setup script call) := by
  refine ⟨(u.serve setup script call).state.registrations, ?_⟩
  cases call with
  | send p =>
      simp only [serve, send]
      split
      · rfl
      · split <;> rfl
  | on event h =>
      simp only [serve]
      split
      · exact State.register_eq _ _ _
      · rfl
  | off event h =>
      simp only [serve]
      split <;> rfl
  | _ => rfl

theorem alike_tell (o : Occurrence) (h : Handler) : u.Alike (u.tell setup script o h) := by
  have serves (calls : List Call) (v : Scene) (alike : u.Alike v) :
      u.Alike (calls.foldl (serve setup script) v) := by
    induction calls generalizing v with
    | nil => exact alike
    | cons call calls ih => exact ih _ (alike.trans (alike_serve v call))
  exact serves _ _ ⟨_, rfl⟩

theorem alike_emit (o : Occurrence) : u.Alike (u.emit setup script o) := by
  have rounds (handlers : List Handler) (v : Scene) (alike : u.Alike v) :
      u.Alike (handlers.foldl (tell setup script o) v) := by
    induction handlers generalizing v with
    | nil => exact alike
    | cons h handlers ih => exact ih _ (alike.trans (alike_tell v o h))
  exact rounds _ _ ⟨_, rfl⟩

theorem serve_tells (call : Call) : (u.serve setup script call).tells = u.tells := by
  cases call with
  | send p =>
      simp only [serve, send]
      split
      · rfl
      · split <;> rfl
  | on event h | off event h =>
      simp only [serve]
      split <;> rfl
  | _ => rfl

end Scene

/-! ## Parts of a run -/

namespace Staging

section

variable {g : Staging} {n floor : Nat} {c d : Course} {call : Call} {rest : List Task}
  {stack below : List Activation}

/-- A course goes on as the scripts say. What waits below this many calls in progress has not been
called meanwhile. -/
structure Goes (g : Staging) (floor : Nat) (c d : Course) : Prop where
  plays : g.Plays c d
  made : ∀ k ≤ floor, d.past.made k = c.past.made k

theorem Goes.trans {e : Course} (first : g.Goes floor c d)
    (second : g.Goes floor d e) : g.Goes floor c e :=
  ⟨first.plays.trans second.plays, fun k low => (second.made k low).trans (first.made k low)⟩

theorem Goes.lower {lower : Nat} (goes : g.Goes floor c d)
    (below : lower ≤ floor) : g.Goes lower c d :=
  ⟨goes.plays, fun k low => goes.made k (Nat.le_trans low below)⟩

/-- A turn that brings a cue at which there is a step can be taken. -/
theorem take_of_step {setup : Setup} {s : State} {cue : Cue} {step : Step} (past : Chronicle)
    (taken : cue.step? setup s = some step) (call : Call) (rest : List Task)
    (below : List Activation) :
    Course.take? setup ⟨past, s, cue.activation call rest :: below⟩ cue.turn =
      some ⟨⟨⟨s, cue.activation call rest :: below⟩, cue.turn,
          (Machine.take ⟨call, none, rest⟩ rest below step).2⟩ :: past,
        (Machine.take ⟨call, none, rest⟩ rest below step).1⟩ := by
  cases cue with
  | task t =>
      obtain rfl := Option.some.inj taken
      rfl
  | answer a r =>
      have resumed : setup.resume s a r = some step := taken
      simp [Course.take?, Turn.move, Cue.turn, Cue.activation, Machine.move?, Machine.reply?,
        resumed]

variable (g)

/-- The innermost call takes a step. -/
theorem goes_of_step (cue : Cue) {step : Step}
    (stands : c.now.stack = cue.activation call rest :: below)
    (deep : g.depth ≤ below.length) (comes : g.turn? c = some cue.turn)
    (taken : cue.step? g.setup c.now.state = some step) :
    ∃ d, g.Goes below.length c d ∧
      d.now = ⟨step.state, step.outcome.stack call rest below⟩ ∧
      d.past.made (below.length + 1) = 0 ∧
      d.scene n = {
        state := { step.state with queue := {} }
        queued := step.state.queue.payloads
        taken := c.past.taken n ++ (cue.accepts?.toList.filter (·.1 = n)).map Prod.snd
        tells := c.past.tells ++ step.outcome.asked.filterMap Request.tell?
        told := c.past.told ++ cue.emits } := by
  obtain ⟨past, s, stack⟩ := c
  obtain rfl : stack = cue.activation call rest :: below := stands
  obtain ⟨leaves, seen⟩ := Course.seen_of_take cue call rest below taken
  have takes := take_of_step past taken call rest below
  rw [leaves] at takes
  refine ⟨_, ⟨.single ⟨Nat.lt_succ_of_le deep, cue.turn, comes, takes⟩, fun k low => ?_⟩, rfl, ?_,
    ?_⟩
  · exact Chronicle.made_above _ _ (Nat.lt_succ_of_le low)
  · exact Chronicle.made_began _ _ rfl cue.call_turn
  · simp [Course.scene, Chronicle.taken, Entry.asked, seen.asked, seen.told, accepted_acted]

variable {g} in
theorem turn_of_working {tasks : List Task} (stands : c.now.stack = ⟨call, none, tasks⟩ :: below) :
    g.turn? c = some .work := by
  simp [turn?, stands]

/-- The innermost call does its next task. -/
theorem goes_of_task {t : Task} {after : State} {effects : List Effect} {outcome : Outcome}
    (stands : c.now.stack = ⟨call, none, t :: rest⟩ :: below) (deep : g.depth ≤ below.length)
    (performs : g.setup.perform c.now.state t = ⟨after, effects, outcome⟩) :
    ∃ d, g.Goes below.length c d ∧
      d.now = ⟨after, outcome.stack call rest below⟩ ∧ d.past.made (below.length + 1) = 0 ∧
      d.scene n = {
        state := { after with queue := {} }
        queued := after.queue.payloads
        taken := c.past.taken n
        tells := c.past.tells ++ outcome.asked.filterMap Request.tell?
        told := c.past.told ++ Cue.emits (.task t) } := by
  obtain ⟨d, goes, leaves, made, scene⟩ := g.goes_of_step (n := n) (.task t) stands deep
    (turn_of_working stands) (congrArg some performs)
  refine ⟨d, goes, leaves, made, scene.trans ?_⟩
  simp [Cue.accepts?]

/-- A call that has nothing left to do returns. -/
theorem goes_of_return (stands : c.now.stack = ⟨call, none, []⟩ :: below)
    (deep : g.depth ≤ below.length) :
    ∃ d, g.Goes below.length c d ∧ d.now = ⟨c.now.state, below⟩ ∧
      d.scene n = c.scene n := by
  obtain ⟨past, s, stack⟩ := c
  obtain rfl : stack = ⟨call, none, []⟩ :: below := stands
  refine ⟨⟨⟨⟨s, ⟨call, none, []⟩ :: below⟩, .work, [.returns]⟩ :: past, s, below⟩,
    ⟨.single ⟨Nat.lt_succ_of_le deep, .work, rfl, rfl⟩, fun k low => ?_⟩, rfl, ?_⟩
  · exact Chronicle.made_above _ _ (Nat.lt_succ_of_le low)
  · simp [Course.scene, Chronicle.taken_of_silent]

/-- A call whose only task leads to nothing else is over. -/
theorem goes_of_last {t : Task} {after : State} {effects : List Effect}
    (stands : c.now.stack = ⟨call, none, [t]⟩ :: below) (deep : g.depth ≤ below.length)
    (performs : g.setup.perform c.now.state t = ⟨after, effects, .next []⟩)
    (silent : Cue.emits (.task t) = []) :
    ∃ d, g.Goes below.length c d ∧ d.now = ⟨after, below⟩ ∧
      d.scene n = { c.scene n with
        state := { after with queue := {} }
        queued := after.queue.payloads } := by
  obtain ⟨b, first, leaves, -, scene⟩ := g.goes_of_task (n := n) stands deep performs
  obtain ⟨d, second, back, same⟩ :=
    g.goes_of_return (n := n) (congrArg Machine.stack leaves) deep
  refine ⟨d, first.trans second, by rw [back, leaves], same.trans (scene.trans ?_)⟩
  simp [silent, Outcome.asked, Course.scene]

/-- A call that comes changes nothing that counts. -/
theorem scene_of_call {m : Machine} {came : Call} {past : Chronicle} {s : State} :
    Course.scene n ⟨⟨m, .call came, []⟩ :: past, s, stack⟩ = Course.scene n ⟨past, s, below⟩ := by
  have silent : Entry.accepted? ⟨m, .call came, []⟩ = none := Entry.accepted_call rfl
  simp [Course.scene, Chronicle.taken_of_silent _ _ silent]

/-- A call comes while the innermost call waits. -/
theorem goes_of_call {a : Await} (stands : c.now.stack = ⟨call, some a, rest⟩ :: below)
    (deep : g.depth ≤ below.length) {came : Call} (comes : g.turn? c = some (.call came)) :
    ∃ d, g.Goes below.length c d ∧
      d.now = ⟨c.now.state, ⟨came, none, [.serve came]⟩ :: c.now.stack⟩ ∧
      d.past.made (below.length + 1) = c.past.made (below.length + 1) + 1 ∧
      d.scene n = c.scene n := by
  obtain ⟨past, s, stack⟩ := c
  obtain rfl : stack = ⟨call, some a, rest⟩ :: below := stands
  refine ⟨_, ⟨.single ⟨Nat.lt_succ_of_le deep, .call came, comes,
    Course.take_of_accepts rfl came⟩, fun k low => ?_⟩, rfl, ?_, scene_of_call⟩
  · exact Chronicle.made_above _ _ (Nat.lt_succ_of_le low)
  · exact Chronicle.made_called _ _ rfl rfl

theorem payloads_eq_nil {q : Outbound.Queue Unit} : q.payloads = [] ↔ q.isEmpty := by
  simp [Outbound.Queue.payloads, Outbound.Queue.isEmpty]

/-- A connection accepts a payload, or the payload is queued. -/
theorem goes_of_offer {p : Value} (stands : c.now.stack = ⟨call, some (.sending n p), []⟩ :: stack)
    (deep : g.depth ≤ stack.length) :
    ∃ d, g.Goes stack.length c d ∧ d.now.stack = stack ∧
      d.scene n = if g.script.accepts (c.scene n).taken p then
        { c.scene n with taken := (c.scene n).taken ++ [p] }
      else { c.scene n with queued := (c.scene n).queued ++ [p] } := by
  have answers : g.turn? c =
      some (.reply (.accepted (g.script.accepts (c.past.taken n) p))) := by
    simp [turn?, stands]
  cases accepts : g.script.accepts (c.past.taken n) p with
  | true =>
      obtain ⟨b, first, leaves, -, scene⟩ := g.goes_of_step (n := n)
        (.answer (.sending n p) (.accepted true)) stands deep (accepts ▸ answers) rfl
      obtain ⟨d, second, back, same⟩ :=
        g.goes_of_return (n := n) (congrArg Machine.stack leaves) deep
      refine ⟨d, first.trans second, by rw [back], same.trans (scene.trans ?_)⟩
      simp [accepts, Outcome.asked, Cue.emits, Cue.accepts?, Course.scene]
  | false =>
      obtain ⟨b, first, leaves, -, scene⟩ := g.goes_of_step (n := n)
        (.answer (.sending n p) (.accepted false)) stands deep (accepts ▸ answers) rfl
      obtain ⟨d, second, back, same⟩ :=
        g.goes_of_return (n := n) (congrArg Machine.stack leaves) deep
      refine ⟨d, first.trans second, by rw [back], same.trans (scene.trans ?_)⟩
      simp [accepts, Outcome.asked, Cue.emits, Cue.accepts?, Course.scene, Setup.queueRejected,
        State.enqueue, Outbound.Queue.payloads_enqueue]

/-- A call that a fault leaves is over, and changes nothing. -/
theorem goes_of_fault {served : Call} {f : Fault}
    (stands : c.now.stack = ⟨call, none, [.serve served]⟩ :: stack) (deep : g.depth ≤ stack.length)
    (performs : g.setup.perform c.now.state (.serve served) = ⟨c.now.state, [], .fail f⟩) :
    ∃ d, g.Goes stack.length c d ∧ d.now.stack = stack ∧ d.scene n = c.scene n := by
  obtain ⟨d, goes, leaves, -, scene⟩ := g.goes_of_task (n := n) stands deep performs
  refine ⟨d, goes, by rw [leaves]; rfl, scene.trans ?_⟩
  simp [Outcome.asked, Cue.emits, Course.scene]

/-- A payload is queued if others wait, or if no connection is held. -/
theorem goes_of_queueing {p : Value} (connected : (c.scene n).Connected n)
    (stands : c.now.stack = ⟨.send p, none, [.serve (.send p)]⟩ :: stack)
    (deep : g.depth ≤ stack.length) (outbound : g.setup.outbound = true)
    (held : (c.now.state.queue.isEmpty && c.now.state.connection.isSome) = false) :
    ∃ d, g.Goes stack.length c d ∧ d.now.stack = stack ∧
      d.scene n = (c.scene n).send g.setup g.script p := by
  have phase : c.now.state.phase = .connected := connected.phase
  have running : c.now.state.phase.isOver = false := by rw [phase]; rfl
  obtain ⟨effects, performs⟩ : ∃ effects, g.setup.perform c.now.state (.serve (.send p)) =
      ⟨c.now.state.enqueue p, effects, .next []⟩ := by
    cases empty : c.now.state.queue.isEmpty <;> cases connection : c.now.state.connection <;>
      simp_all [Setup.perform, Setup.serve, Setup.serveSend, State.isConnected,
        Setup.queueRejected]
  obtain ⟨d, goes, leaves, scene⟩ := g.goes_of_last (n := n) stands deep performs rfl
  refine ⟨d, goes, by rw [leaves], scene.trans ?_⟩
  have other : ¬ ((c.scene n).queued = [] ∧ (c.scene n).state.connection.isSome ∧
      g.script.accepts (c.scene n).taken p) := by
    rintro ⟨empty, some, -⟩
    have empty : c.now.state.queue.isEmpty = true := payloads_eq_nil.mp empty
    have some : c.now.state.connection.isSome = true := some
    simp [empty, some] at held
  rw [Scene.send, if_neg (by simp [outbound]), if_neg other]
  simp [Course.scene, State.enqueue, Outbound.Queue.payloads_enqueue]

/-- A payload is offered if nothing waits before it and a connection is held. -/
theorem goes_of_sending {p : Value} (connected : (c.scene n).Connected n)
    (stands : c.now.stack = ⟨.send p, none, [.serve (.send p)]⟩ :: stack)
    (deep : g.depth ≤ stack.length) (outbound : g.setup.outbound = true)
    (empty : c.now.state.queue.isEmpty = true) (holds : c.now.state.connection.isSome = true) :
    ∃ d, g.Goes stack.length c d ∧ d.now.stack = stack ∧
      d.scene n = (c.scene n).send g.setup g.script p := by
  have phase : c.now.state.phase = .connected := connected.phase
  obtain ⟨m, connection⟩ := Option.isSome_iff_exists.mp holds
  obtain rfl : m = n := connected.held m connection
  have performs : g.setup.perform c.now.state (.serve (.send p)) =
      ⟨c.now.state, [], .wait (.sending m p)⟩ := by
    simp [Setup.perform, Setup.serve, Setup.serveSend, outbound, State.isConnected, phase,
      Phase.isOver, empty, connection]
  obtain ⟨b, first, waits, -, offered⟩ := g.goes_of_task (n := m) stands deep performs
  obtain ⟨d, second, back, answered⟩ := g.goes_of_offer (congrArg Machine.stack waits) deep
  refine ⟨d, first.trans second, back, answered.trans ?_⟩
  have same : b.scene m = c.scene m := offered.trans <| by
    simp [Outcome.asked, Await.request, Request.tell?, Cue.emits, Course.scene]
  have waiting : (c.scene m).queued = [] := payloads_eq_nil.mpr empty
  have ready : (c.scene m).state.connection.isSome = true := holds
  rw [same]
  simp [Scene.send, outbound, waiting, ready]

/-- A payload is sent. -/
theorem goes_of_send {p : Value} (connected : (c.scene n).Connected n)
    (stands : c.now.stack = ⟨.send p, none, [.serve (.send p)]⟩ :: stack)
    (deep : g.depth ≤ stack.length) :
    ∃ d, g.Goes stack.length c d ∧ d.now.stack = stack ∧
      d.scene n = (c.scene n).send g.setup g.script p := by
  cases outbound : g.setup.outbound with
  | false =>
      rw [Scene.send, if_pos outbound]
      refine g.goes_of_fault (f := g.setup.receiveOnly) stands deep ?_
      simp [Setup.perform, Setup.serve, Setup.serveSend, outbound]
  | true =>
      cases held : c.now.state.queue.isEmpty && c.now.state.connection.isSome with
      | false => exact g.goes_of_queueing connected stands deep outbound held
      | true =>
          obtain ⟨empty, holds⟩ := (Bool.and_eq_true_iff).mp held
          exact g.goes_of_sending connected stands deep outbound empty holds

/-- A handler is registered or removed, unless the kind of occurrence is not known. -/
theorem goes_of_registration {event : Text} (change : EventKind → State)
    (stands : c.now.stack = ⟨call, none, [.serve call]⟩ :: stack) (deep : g.depth ≤ stack.length)
    (registers : g.setup.serve c.now.state call =
      Setup.serveRegistration c.now.state event change)
    (kept : ∀ k, (change k).queue = c.now.state.queue) :
    ∃ d, g.Goes stack.length c d ∧ d.now.stack = stack ∧
      d.scene n = match EventKind.ofName? event with
        | some k => { c.scene n with state := { change k with queue := {} } }
        | none => c.scene n := by
  cases known : EventKind.ofName? event with
  | none =>
      refine g.goes_of_fault (f := EventKind.unknown event) stands deep ?_
      simp [Setup.perform, registers, Setup.serveRegistration, known]
  | some k =>
      have performs : g.setup.perform c.now.state (.serve call) = ⟨change k, [], .next []⟩ := by
        simp [Setup.perform, registers, Setup.serveRegistration, known]
      obtain ⟨d, goes, leaves, scene⟩ := g.goes_of_last (n := n) stands deep performs rfl
      refine ⟨d, goes, by rw [leaves], scene.trans ?_⟩
      simp [kept, Course.scene]

/-- A plain call is served. -/
theorem goes_of_plain (plain : call.isPlain) (connected : (c.scene n).Connected n)
    (stands : c.now.stack = ⟨call, none, [.serve call]⟩ :: stack) (deep : g.depth ≤ stack.length) :
    ∃ d, g.Goes stack.length c d ∧ d.now.stack = stack ∧
      d.scene n = (c.scene n).serve g.setup g.script call := by
  have phase : c.now.state.phase = .connected := connected.phase
  cases call with
  | start =>
      have performs : g.setup.perform c.now.state (.serve .start) =
          ⟨c.now.state, [], .next []⟩ := by
        simp [Setup.perform, Setup.serve, Setup.serveStart, phase]
      obtain ⟨d, goes, leaves, scene⟩ := g.goes_of_last (n := n) stands deep performs rfl
      exact ⟨d, goes, by rw [leaves], scene⟩
  | send p => exact g.goes_of_send connected stands deep
  | on event h =>
      obtain ⟨d, goes, leaves, scene⟩ := g.goes_of_registration (n := n)
        (c.now.state.register · h) stands deep rfl
        fun k => by unfold State.register; split <;> rfl
      refine ⟨d, goes, leaves, scene.trans ?_⟩
      simp only [Scene.serve]
      split
      · simp only [Course.scene, State.register]
        split <;> simp_all
      · rfl
  | off event h =>
      exact g.goes_of_registration (c.now.state.unregister · h) stands deep rfl fun _ => rfl
  | _ => contradiction

/-- A handler makes the next of its calls. -/
theorem goes_of_next_call {h : Handler} {o : Occurrence} {next : List Handler} {came : Call}
    (plain : came.isPlain) (connected : (c.scene n).Connected n)
    (stands : c.now.stack = ⟨call, some (.telling h o next), rest⟩ :: below)
    (deep : g.depth ≤ below.length)
    (due : (g.script.calls c.past.tells)[c.past.made (below.length + 1)]? = some came) :
    ∃ d, g.Goes below.length c d ∧ d.now.stack = c.now.stack ∧
      d.past.made (below.length + 1) = c.past.made (below.length + 1) + 1 ∧
      d.scene n = (c.scene n).serve g.setup g.script came := by
  have comes : g.turn? c = some (.call came) := by
    simp [turn?, stands, due]
  obtain ⟨b, first, calls, counts, same⟩ := g.goes_of_call (n := n) stands deep comes
  have level : c.now.stack.length = below.length + 1 := by simp [stands]
  obtain ⟨d, second, back, scene⟩ := g.goes_of_plain plain (same ▸ connected)
    (congrArg Machine.stack calls) (by omega)
  refine ⟨d, first.trans (second.lower (by omega)), back, ?_, same ▸ scene⟩
  rw [second.made _ (Nat.le_of_eq level.symm), counts]

/-- However a handler ends, the next one is told. -/
theorem resume_answer (s : State) (h : Handler) (o : Occurrence) (next : List Handler)
    (told : List (Handler × Occurrence)) :
    ∃ effects, g.setup.resume s (.telling h o next) (g.script.answer told) =
      some ⟨s, effects, .next [.notify o next]⟩ := by
  unfold Script.answer
  split <;> exact ⟨_, rfl⟩

/-- A handler makes the calls that are left of its script, and ends. -/
theorem goes_of_telling {h : Handler} {o : Occurrence} {next : List Handler}
    (deep : g.depth ≤ below.length) (todo : List Call) (plain : ∀ came ∈ todo, came.isPlain) :
    ∀ {c : Course}, (c.scene n).Connected n →
      c.now.stack = ⟨call, some (.telling h o next), rest⟩ :: below →
      (g.script.calls c.past.tells).drop (c.past.made (below.length + 1)) = todo →
      ∃ d, g.Goes below.length c d ∧
        d.now.stack = ⟨call, none, .notify o next :: rest⟩ :: below ∧
        d.scene n = todo.foldl (Scene.serve g.setup g.script) (c.scene n) := by
  induction todo with
  | nil =>
      intro c connected stands due
      have none : (g.script.calls c.past.tells)[c.past.made (below.length + 1)]? = none := by
        rw [← List.head?_drop, due]; rfl
      have ends : g.turn? c = some (.reply (g.script.answer c.past.tells)) := by
        simp [turn?, stands, none]
      obtain ⟨effects, resumes⟩ := g.resume_answer c.now.state h o next c.past.tells
      obtain ⟨d, goes, leaves, -, scene⟩ := g.goes_of_step (n := n)
        (.answer (.telling h o next) (g.script.answer c.past.tells)) stands deep ends resumes
      refine ⟨d, goes, by rw [leaves]; rfl, scene.trans ?_⟩
      simp [Outcome.asked, Cue.emits, Cue.accepts?, Course.scene]
  | cons came todo ih =>
      intro c connected stands due
      have first : (g.script.calls c.past.tells)[c.past.made (below.length + 1)]? = some came := by
        rw [← List.head?_drop, due]; rfl
      obtain ⟨b, goes, waits, counts, scene⟩ :=
        g.goes_of_next_call (plain came List.mem_cons_self) connected stands deep first
      have later : (g.script.calls b.past.tells).drop (b.past.made (below.length + 1)) = todo := by
        have same : b.past.tells = c.past.tells :=
          (congrArg Scene.tells scene).trans ((c.scene n).serve_tells came)
        rw [same, counts, ← List.tail_drop, due]; rfl
      obtain ⟨d, rest, stands, ended⟩ :=
        ih (fun call left => plain call (.tail _ left))
          (scene ▸ ((c.scene n).alike_serve came).connected connected) (waits.trans stands) later
      exact ⟨d, goes.trans rest, stands, ended.trans (by rw [scene]; rfl)⟩

/-- Handlers are told one after the other. -/
theorem goes_of_notify {o : Occurrence} (plain : g.script.IsPlain o) (deep : g.depth ≤ below.length)
    (handlers : List Handler) : ∀ {c : Course}, (c.scene n).Connected n →
      c.now.stack = ⟨call, none, .notify o handlers :: rest⟩ :: below →
      ∃ d, g.Goes below.length c d ∧
        d.now.stack = ⟨call, none, rest⟩ :: below ∧
        d.scene n = handlers.foldl (Scene.tell g.setup g.script o) (c.scene n) := by
  induction handlers with
  | nil =>
      intro c connected stands
      obtain ⟨d, goes, leaves, -, scene⟩ := g.goes_of_task (n := n) stands deep
        (rfl : g.setup.perform c.now.state (.notify o []) = ⟨c.now.state, [], .next []⟩)
      refine ⟨d, goes, by rw [leaves]; rfl, scene.trans ?_⟩
      simp [Outcome.asked, Cue.emits, Course.scene]
  | cons h next ih =>
      intro c connected stands
      obtain ⟨b, first, waits, made, scene⟩ := g.goes_of_task (n := n) stands deep
        (rfl : g.setup.perform c.now.state (.notify o (h :: next)) =
          ⟨c.now.state, [], .wait (.telling h o next)⟩)
      have told : b.scene n = { c.scene n with tells := c.past.tells ++ [(h, o)] } :=
        scene.trans (by simp [Outcome.asked, Await.request, Request.tell?, Cue.emits, Course.scene])
      have tells : b.past.tells = c.past.tells ++ [(h, o)] := congrArg Scene.tells told
      have still : (b.scene n).Connected n := by
        rw [told]
        exact ⟨connected.phase, connected.held⟩
      obtain ⟨e, second, ended, scene⟩ := g.goes_of_telling deep
        (g.script.calls (c.past.tells ++ [(h, o)])) (plain _ h) still
        (congrArg Machine.stack waits) (by rw [made, tells, List.drop_zero])
      have tell : e.scene n = (c.scene n).tell g.setup g.script o h :=
        scene.trans (by rw [told]; rfl)
      obtain ⟨d, third, stands, scene⟩ :=
        ih (tell ▸ ((c.scene n).alike_tell o h).connected connected) ended
      exact ⟨d, (first.trans second).trans third, stands, scene.trans (by rw [tell]; rfl)⟩

/-- An occurrence is told to its handlers. -/
theorem goes_of_emit {o : Occurrence} (plain : g.script.IsPlain o)
    (connected : (c.scene n).Connected n)
    (stands : c.now.stack = ⟨call, none, .emit o :: rest⟩ :: below)
    (deep : g.depth ≤ below.length) :
    ∃ d, g.Goes below.length c d ∧
      d.now.stack = ⟨call, none, rest⟩ :: below ∧
      d.scene n = (c.scene n).emit g.setup g.script o := by
  obtain ⟨b, first, leaves, -, scene⟩ := g.goes_of_task (n := n) stands deep
    (rfl : g.setup.perform c.now.state (.emit o) =
      ⟨c.now.state, [.emit o], .next [.notify o (c.now.state.handlers o.kind)]⟩)
  have begun : b.scene n = { c.scene n with told := c.past.told ++ [o] } :=
    scene.trans (by simp [Outcome.asked, Cue.emits, Course.scene])
  have still : (b.scene n).Connected n := by
    rw [begun]
    exact ⟨connected.phase, connected.held⟩
  obtain ⟨d, second, stands, scene⟩ := g.goes_of_notify plain deep
    (c.now.state.handlers o.kind) still (congrArg Machine.stack leaves)
  exact ⟨d, first.trans second, stands, scene.trans (by rw [begun]; rfl)⟩

/-- The head of the queue is offered. If the connection accepts it, it leaves the queue and the
drain goes on, and otherwise the drain is over. -/
theorem goes_of_head {p : Value} {queued : List Value} {sent : Nat}
    (waiting : c.now.state.queue.payloads = p :: queued)
    (stands : c.now.stack = ⟨call, none, .drain n sent :: rest⟩ :: below)
    (deep : g.depth ≤ below.length) :
    ∃ d, g.Goes below.length c d ∧
      if g.script.accepts (c.scene n).taken p then
        d.now.stack = ⟨call, none, .drain n (sent + 1) :: rest⟩ :: below ∧
          d.scene n = { c.scene n with taken := (c.scene n).taken ++ [p], queued }
      else d.now.stack = ⟨call, none, rest⟩ :: below ∧ d.scene n = c.scene n := by
  obtain ⟨m, head, rfl⟩ : ∃ m, c.now.state.queue.head? = some m ∧ m.payload = p := by
    simpa [waiting] using c.now.state.queue.payload_head?
  have performs : g.setup.perform c.now.state (.drain n sent) =
      ⟨c.now.state, [], .wait (.draining n m.payload sent)⟩ := by
    simp [Setup.perform, Setup.drain, head]
  obtain ⟨b, first, waits, -, scene⟩ := g.goes_of_task (n := n) stands deep performs
  have offered : b.scene n = c.scene n := scene.trans <| by
    simp [Outcome.asked, Await.request, Request.tell?, Cue.emits, Course.scene]
  have stays : b.now.stack = ⟨call, some (.draining n m.payload sent), rest⟩ :: below :=
    congrArg Machine.stack waits
  have answers : g.turn? b =
      some (.reply (.accepted (g.script.accepts (b.scene n).taken m.payload))) := by
    simp [turn?, stays, Course.scene]
  have filled : b.now.state.queue.payloads = m.payload :: queued := by rw [waits]; exact waiting
  rw [← offered]
  cases accepts : g.script.accepts (b.scene n).taken m.payload with
  | true =>
      have some : b.now.state.queue.isEmpty = false := by
        rw [← Bool.not_eq_true, ← payloads_eq_nil, filled]
        exact List.cons_ne_nil _ _
      have goesOn : g.setup.resume b.now.state (.draining n m.payload sent) (.accepted true) =
          Option.some ⟨{ b.now.state with queue := b.now.state.queue.dropHead }, [],
            .next [.drain n (sent + 1)]⟩ := by
        simp [Setup.resume, Setup.drainOn, some]
      obtain ⟨d, second, leaves, -, scene⟩ := g.goes_of_step (n := n)
        (.answer (.draining n m.payload sent) (.accepted true)) stays deep (accepts ▸ answers)
        goesOn
      refine ⟨d, first.trans second, ?_⟩
      rw [if_pos rfl]
      refine ⟨by rw [leaves]; rfl, scene.trans ?_⟩
      simp [Outcome.asked, Cue.emits, Cue.accepts?, Course.scene, filled,
        Outbound.Queue.payloads_dropHead]
  | false =>
      obtain ⟨d, second, leaves, -, scene⟩ := g.goes_of_step (n := n)
        (.answer (.draining n m.payload sent) (.accepted false)) stays deep (accepts ▸ answers) rfl
      refine ⟨d, first.trans second, ?_⟩
      rw [if_neg Bool.false_ne_true]
      refine ⟨by rw [leaves]; rfl, scene.trans ?_⟩
      simp [Outcome.asked, Cue.emits, Cue.accepts?, Course.scene, Setup.drainHalted]

/-- The queue is drained. -/
theorem goes_of_drain (deep : g.depth ≤ below.length) (queued : List Value) :
    ∀ {c : Course} {sent : Nat}, c.now.state.queue.payloads = queued →
      c.now.stack = ⟨call, none, .drain n sent :: rest⟩ :: below →
      ∃ d, g.Goes below.length c d ∧
        d.now.stack = ⟨call, none, rest⟩ :: below ∧
        d.scene n = { c.scene n with
          taken := (Scene.drained g.script.accepts (c.scene n).taken queued).1
          queued := (Scene.drained g.script.accepts (c.scene n).taken queued).2 } := by
  induction queued with
  | nil =>
      intro c sent waiting stands
      have performs : g.setup.perform c.now.state (.drain n sent) =
          ⟨c.now.state, [g.setup.flushReport sent c.now.state.queue.size], .next []⟩ := by
        have empty : c.now.state.queue.head? = none := by
          simpa [waiting] using c.now.state.queue.payload_head?
        simp [Setup.perform, Setup.drain, empty]
      obtain ⟨d, goes, leaves, -, scene⟩ := g.goes_of_task (n := n) stands deep performs
      refine ⟨d, goes, by rw [leaves]; rfl, scene.trans ?_⟩
      simp [Scene.drained, Outcome.asked, Cue.emits, Course.scene, waiting]
  | cons p queued ih =>
      intro c sent waiting stands
      obtain ⟨b, first, offered⟩ := g.goes_of_head waiting stands deep
      rw [Scene.drained]
      split at offered
      case isTrue accepts =>
        obtain ⟨goesOn, scene⟩ := offered
        obtain ⟨d, second, back, ended⟩ := ih (congrArg Scene.queued scene) goesOn
        refine ⟨d, first.trans second, back, ended.trans ?_⟩
        rw [scene, if_pos accepts]
      case isFalse rejects =>
        refine ⟨b, first, offered.1, offered.2.trans ?_⟩
        rw [if_neg rejects, ← waiting]
        rfl

/-- What is queued is offered to the connection that is held, if there is one. -/
theorem goes_of_flush (held : ∀ m, c.now.state.connection = some m → m = n)
    (stands : c.now.stack = ⟨call, none, .flush :: rest⟩ :: below) (deep : g.depth ≤ below.length) :
    ∃ d, g.Goes below.length c d ∧
      d.now.stack = ⟨call, none, rest⟩ :: below ∧ d.scene n = (c.scene n).flush g.script := by
  cases connection : c.now.state.connection with
  | none =>
      have performs : g.setup.perform c.now.state .flush = ⟨c.now.state, [], .next []⟩ := by
        simp [Setup.perform, Setup.flush, connection]
      obtain ⟨d, goes, leaves, -, scene⟩ := g.goes_of_task (n := n) stands deep performs
      refine ⟨d, goes, by rw [leaves]; rfl, scene.trans ?_⟩
      simp [Scene.flush, Outcome.asked, Cue.emits, Course.scene, connection]
  | some m =>
      obtain rfl : m = n := held m connection
      have performs : g.setup.perform c.now.state .flush = ⟨c.now.state, [],
          .next (if c.now.state.queue.isEmpty then [] else [.drain m 0])⟩ := by
        simp [Setup.perform, Setup.flush, connection]
      obtain ⟨b, first, leaves, -, scene⟩ := g.goes_of_task (n := m) stands deep performs
      have same : b.scene m = c.scene m := scene.trans <| by
        simp [Outcome.asked, Cue.emits, Course.scene]
      have some : (c.scene m).state.connection.isSome = true := by
        simp [Course.scene, connection]
      rw [Scene.flush, if_pos some, ← same]
      cases empty : c.now.state.queue.isEmpty with
      | true =>
          refine ⟨b, first, by rw [leaves, empty]; rfl, ?_⟩
          have nothing : (b.scene m).queued = [] := by rw [same]; exact payloads_eq_nil.mpr empty
          rw [nothing, Scene.drained, ← nothing]
      | false =>
          obtain ⟨d, second, back, ended⟩ :=
            g.goes_of_drain deep _ rfl (by rw [leaves, empty]; rfl)
          exact ⟨d, first.trans second, back, ended⟩

end

end Staging

end EventStream.Session
