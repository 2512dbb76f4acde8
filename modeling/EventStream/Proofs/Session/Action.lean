import EventStream.Proofs.Session.Course
import Mathlib.Data.List.Basic

/-
# What one step of a session can do

A call goes on at a cue: its next task, or the answer to what it waits for. `Acts` lists what every
cue leads to, with the condition under which it does, and `acts_of_step` says that the list is
complete. `Course.Advance` lifts the list to courses: a call begins, a call returns, or the
innermost call acts. Invariants of a session are proved against these two relations, so that the
definitions of the tasks are opened here and nowhere else.

Two families of outcomes are gathered, because most invariants treat each of them as one case: cues
that change nothing and lead to nothing (`Lapses`), and cues at which a fault leaves the call and
the state is as it was (`Faults`). Only the report of a reconnect fails after a change.
-/

namespace EventStream.Session

/-- What a call goes on with. -/
inductive Cue where
  | task (task : Task)
  | answer (await : Await) (reply : Reply)

namespace Cue

/-- The step at a cue, if there is one. -/
def step? (setup : Setup) (s : State) : Cue → Option Step
  | .task t => some (setup.perform s t)
  | .answer a r => setup.resume s a r

/-- The turn that brings a cue. -/
def turn : Cue → Turn
  | .task _ => .work
  | .answer _ r => .reply r

/-- A call that stands at a cue, with what is to be done after it. -/
def activation (call : Call) (rest : List Task) : Cue → Activation
  | .task t => ⟨call, none, t :: rest⟩
  | .answer a _ => ⟨call, some a, rest⟩

/-- The timers that a cue cancels. -/
def cancels (s : State) : Cue → List Nat
  | .task .cancelTimer => s.timer.toList
  | _ => []

/-- The timers that a cue sets. -/
def sets : Cue → List Nat
  | .task _ => []
  | .answer _ r => r.timer?.toList

/-- The occurrences that begin to be told at a cue. -/
def emits : Cue → List Occurrence
  | .task (.emit o) => [o]
  | _ => []

/-- What is seen at a cue, whatever comes of it. -/
def shows (s : State) (cue : Cue) : List Effect :=
  cue.emits.map .emit ++ (cue.cancels s).map .cancel

end Cue

namespace Outcome

/-- What an outcome asks for. -/
def asked : Outcome → List Request
  | .wait a => [a.request]
  | _ => []

/-- What is seen of an outcome. -/
def shows : Outcome → List Effect
  | .next _ => []
  | .wait a => [.ask a.request]
  | .fail f => [.raises f]

/-- The tasks that an outcome adds. -/
def tasks : Outcome → List Task
  | .next first => first
  | _ => []

/-- What a call waits for after an outcome. -/
def await? : Outcome → Option Await
  | .wait a => some a
  | _ => none

/-- The calls in progress after an outcome of the innermost call. -/
def stack (call : Call) (rest : List Task) (below : List Activation) : Outcome → List Activation
  | .next first => ⟨call, none, first ++ rest⟩ :: below
  | .wait a => ⟨call, some a, rest⟩ :: below
  | .fail _ => below

end Outcome

theorem Outcome.mem_stack {outcome : Outcome} {call : Call} {rest : List Task}
    {below : List Activation} {a : Activation} (among : a ∈ outcome.stack call rest below) :
    a ∈ below ∨ a.tasks = outcome.tasks ++ rest ∧ a.awaiting = outcome.await? := by
  cases outcome with
  | next | wait =>
      rcases List.mem_cons.mp among with rfl | deeper
      · exact .inr ⟨rfl, rfl⟩
      · exact .inl deeper
  | fail => exact .inl among

/-- What is left after a cue is to be done by the call that stands at it. -/
theorem Cue.mem_activation (cue : Cue) {call : Call} {rest : List Task} {t : Task}
    (left : t ∈ rest) : t ∈ (cue.activation call rest).tasks := by
  cases cue with
  | task u => exact List.mem_cons_of_mem u left
  | answer => exact left

/-- What is to be done after an outcome it added, or it was to be done before. -/
theorem Outcome.mem_tasks {outcome : Outcome} (cue : Cue) {call : Call} {rest : List Task}
    {below : List Activation} {a : Activation} {t : Task}
    (among : a ∈ outcome.stack call rest below) (pending : t ∈ a.tasks) :
    t ∈ outcome.tasks ∨ ∃ b ∈ cue.activation call rest :: below, t ∈ b.tasks := by
  rcases Outcome.mem_stack among with deeper | ⟨tasks, -⟩
  · exact .inr ⟨a, List.mem_cons_of_mem _ deeper, pending⟩
  · rw [tasks] at pending
    exact (List.mem_append.mp pending).imp_right fun later =>
      ⟨_, List.mem_cons_self, cue.mem_activation later⟩

/-- The tasks of closing a session for good. -/
def Setup.stopping (setup : Setup) : List Task :=
  [.enter .closing, .cancelTimer, .release, .discardQueue, .enter .closed,
    .report ⟨.session, .info, Text.concat ["[", setup.name, "] Subscription stopped"]⟩]

/-- The occurrence that reports how a connection ended. -/
def Ending.occurrence : Ending → Occurrence
  | .closed code => .closed code
  | .failed f => .failed f

/-- The cues that change nothing and lead to nothing. -/
inductive Lapses (setup : Setup) (s : State) : Cue → Prop
  | start : s.phase ≠ .idle → Lapses setup s (.task (.serve .start))
  | stop : s.phase = .closed → Lapses setup s (.task (.serve .stop))
  | send (p) : s.phase.isOver → Lapses setup s (.task (.serve (.send p)))
  | opened (n) : ¬ (s.generation = n ∧ s.phase = .connecting) →
      Lapses setup s (.task (.serve (.opened n)))
  | received (n frame) :
      (s.generation = n → s.phase = .connected → (setup.decode frame).event? = none) →
      Lapses setup s (.task (.serve (.received n frame)))
  | ending {call n e} : call.ending? = some (n, e) → s.generation ≠ n →
      Lapses setup s (.task (.serve call))
  | enter : Lapses setup s (.task (.enter s.phase))
  | notify (o) : Lapses setup s (.task (.notify o []))
  | announce : s.phase ≠ .connected → Lapses setup s (.task .announce)
  | flush : s.connection = none ∨ s.queue.isEmpty → Lapses setup s (.task .flush)
  | drain (n sent) : s.queue.head? = none → Lapses setup s (.task (.drain n sent))
  | fallBack : s.phase ≠ .connected → Lapses setup s (.task .fallBack)
  | conclude (e) : s.phase ≠ .connecting → Lapses setup s (.task (.conclude e))
  | decide : s.phase ≠ .connecting → Lapses setup s (.task .decide)
  | report (r) : Lapses setup s (.task (.report r))
  | released (n) {r : Reply} : r.timer? = none → Lapses setup s (.answer (.releasing n) r)
  | discarded (n) : Lapses setup s (.answer (.discarding n) .returned)
  | sent (n p) : Lapses setup s (.answer (.sending n p) (.accepted true))
  | halted (n p sent) : Lapses setup s (.answer (.draining n p sent) (.accepted false))
  | nothingBack (n) : Lapses setup s (.answer (.reclaiming n) (.unsent []))

/-- The cues at which a fault leaves the call, and nothing changes. -/
inductive Faults (setup : Setup) (s : State) : Cue → Fault → Prop
  | receiveOnly (p) : setup.outbound = false →
      Faults setup s (.task (.serve (.send p))) setup.receiveOnly
  | on {event} (h) : EventKind.ofName? event = none →
      Faults setup s (.task (.serve (.on event h))) (EventKind.unknown event)
  | off {event} (h) : EventKind.ofName? event = none →
      Faults setup s (.task (.serve (.off event h))) (EventKind.unknown event)
  | policy {f} : s.phase = .connecting →
      setup.policy.onDisconnect (s.attempts + 1 : Nat) = .error f →
      Faults setup s (.task .decide) f
  | emptied (n p sent) : s.queue.isEmpty →
      Faults setup s (.answer (.draining n p sent) (.accepted true))
        (.raised .index "pop from an empty deque")
  | discarding (n f) : Faults setup s (.answer (.discarding n) (.raised f)) f
  | sending (n p f) : Faults setup s (.answer (.sending n p) (.raised f)) f
  | draining (n p sent f) : Faults setup s (.answer (.draining n p sent) (.raised f)) f
  | reclaiming (n f) : Faults setup s (.answer (.reclaiming n) (.raised f)) f
  | scheduling (k d f) : Faults setup s (.answer (.scheduling k d) (.raised f)) f

/-- The cues that queue a payload: one that cannot go now, or one that was rejected. -/
inductive Queues (s : State) (p : Value) : Cue → Prop
  | send : s.phase.isOver = false →
      s.phase ≠ .connected ∨ s.queue.isEmpty = false ∨ s.connection = none →
      Queues s p (.task (.serve (.send p)))
  | rejected (n) : Queues s p (.answer (.sending n p) (.accepted false))

/-- Registering a handler changes the registrations only. -/
theorem State.register_eq (s : State) (k : EventKind) (h : Handler) :
    s.register k h = { s with registrations := (s.register k h).registrations } := by
  unfold State.register
  split <;> rfl

/-- What a cue leads to: the state afterwards, and how the call goes on. -/
inductive Acts (setup : Setup) (s : State) : Cue → State → Outcome → Prop
  | lapse {cue} : Lapses setup s cue → Acts setup s cue s (.next [])
  | fault {cue f} : Faults setup s cue f → Acts setup s cue s (.fail f)
  | queue {cue p} : Queues s p cue → Acts setup s cue (s.enqueue p) (.next [])
  | register {event k} (h) : EventKind.ofName? event = some k →
      Acts setup s (.task (.serve (.on event h)))
        { s with registrations := (s.register k h).registrations } (.next [])
  | unregister {event k} (h) : EventKind.ofName? event = some k →
      Acts setup s (.task (.serve (.off event h))) (s.unregister k h) (.next [])
  | start : s.phase = .idle →
      Acts setup s (.task (.serve .start)) s (.next [.enter .connecting, .connect])
  | stop : s.phase ≠ .closed → Acts setup s (.task (.serve .stop)) s (.next setup.stopping)
  | send (p) {n} : s.phase = .connected → s.queue.isEmpty → s.connection = some n →
      Acts setup s (.task (.serve (.send p))) s (.wait (.sending n p))
  | opened : s.phase = .connecting →
      Acts setup s (.task (.serve (.opened s.generation))) { s with attempts := 0 }
        (.next [.enter .connected, .announce])
  | received (frame) {e} : s.phase = .connected → setup.decode frame = .event e →
      Acts setup s (.task (.serve (.received s.generation frame))) s (.next [.emit (.message e)])
  | ended {call e} : call.ending? = some (s.generation, e) →
      Acts setup s (.task (.serve call)) s.turnAway
        (.next ((s.connection.map Task.reclaim).toList ++ [.fallBack, .conclude e]))
  | reconnect :
      Acts setup s (.task (.serve .reconnect)) { s with timer := none }
        (.next (if s.phase = .connecting then [.connect] else []))
  | enter {p} : s.phase ≠ p →
      Acts setup s (.task (.enter p)) { s with phase := p }
        (.next [.emit (.phaseChanged s.phase p)])
  | emit (o) : Acts setup s (.task (.emit o)) s (.next [.notify o (s.handlers o.kind)])
  | notify (o h next) :
      Acts setup s (.task (.notify o (h :: next))) s (.wait (.telling h o next))
  | told (h o next) {r : Reply} : r.timer? = none →
      Acts setup s (.answer (.telling h o next) r) s (.next [.notify o next])
  | connect :
      Acts setup s (.task .connect) { s with timer := none } (.next [.release, .dial])
  | dial :
      Acts setup s (.task .dial) { s with generation := s.generation + 1 }
        (.wait (.dialling (s.generation + 1)))
  | turnAway : s.connection = none → Acts setup s (.task .release) s.turnAway (.next [])
  | release {n} : s.connection = some n →
      Acts setup s (.task .release) s.turnAway (.wait (.releasing n))
  | announce : s.phase = .connected →
      Acts setup s (.task .announce) s (.next [.flush, .emit .opened])
  | flush {n} : s.connection = some n → s.queue.isEmpty = false →
      Acts setup s (.task .flush) s (.next [.drain n 0])
  | drain (n sent) {m} : s.queue.head? = some m →
      Acts setup s (.task (.drain n sent)) s (.wait (.draining n m.payload sent))
  | reclaim (n) : Acts setup s (.task (.reclaim n)) s (.wait (.reclaiming n))
  | fallBack : s.phase = .connected →
      Acts setup s (.task .fallBack) s (.next [.enter .connecting])
  | conclude (e) : s.phase = .connecting →
      Acts setup s (.task (.conclude e)) s (.next [.emit e.occurrence, .decide])
  | giveUp {k} : s.phase = .connecting →
      setup.policy.onDisconnect (s.attempts + 1 : Nat) = .ok (.giveUp k) →
      Acts setup s (.task .decide) s.clearQueue (.next [.enter .closed, .emit (.gaveUp k)])
  | retry {d limit} : s.phase = .connecting →
      setup.policy.onDisconnect (s.attempts + 1 : Nat) = .ok (.retry d) →
      setup.limitShown = .ok limit →
      Acts setup s (.task .decide) { s with attempts := s.attempts + 1 }
        (.wait (.scheduling (s.attempts + 1) d))
  | unreported {d e} : s.phase = .connecting →
      setup.policy.onDisconnect (s.attempts + 1 : Nat) = .ok (.retry d) →
      setup.limitShown = .error e →
      Acts setup s (.task .decide) { s with attempts := s.attempts + 1 } (.fail e.toFault)
  | cancelTimer : Acts setup s (.task .cancelTimer) { s with timer := none } (.next [])
  | discardQueue : Acts setup s (.task .discardQueue) s.clearQueue (.next [])
  | adopt :
      Acts setup s (.answer (.dialling s.generation) .returned)
        { s with connection := some s.generation }
        (.next (if s.isConnected then [.flush] else []))
  | discard {n} : s.generation ≠ n →
      Acts setup s (.answer (.dialling n) .returned) s (.wait (.discarding n))
  | dialFailed (n f) :
      Acts setup s (.answer (.dialling n) (.raised f)) s
        (.next [.serve (.failed n (setup.openFailure f))])
  | drained (n p sent) : s.queue.isEmpty = false →
      Acts setup s (.answer (.draining n p sent) (.accepted true))
        { s with queue := s.queue.dropHead } (.next [.drain n (sent + 1)])
  | takeBack (n) {ps} : ps ≠ [] →
      Acts setup s (.answer (.reclaiming n) (.unsent ps)) (s.requeue ps) (.next [])
  | scheduled (k d t) :
      Acts setup s (.answer (.scheduling k d) (.scheduled t)) { s with timer := some t }
        (.next [.emit (.reconnecting k d)])

/-! ## The list is complete -/

section

variable {setup : Setup} {s : State}

theorem acts_serveSend (p : Value) :
    Acts setup s (.task (.serve (.send p))) (setup.serveSend s p).state
      (setup.serveSend s p).outcome := by
  unfold Setup.serveSend
  split
  case isTrue closed => exact .fault (.receiveOnly p (by simpa using closed))
  case isFalse =>
    split
    case isTrue gone => exact .lapse (.send p gone)
    case isFalse gone =>
      have running : s.phase.isOver = false := by simpa using gone
      split
      case isTrue ready =>
        obtain ⟨connected, empty⟩ : s.phase = .connected ∧ s.queue.isEmpty = true := by
          simpa [State.isConnected] using ready
        split
        case h_1 absent => exact .queue (.send running (.inr (.inr absent)))
        case h_2 n present => exact .send p connected empty present
      case isFalse unready =>
        refine .queue (.send running ?_)
        by_cases connected : s.phase = .connected
        · exact .inr (.inl (by simpa [State.isConnected, connected] using unready))
        · exact .inl connected

theorem acts_serve (call : Call) :
    Acts setup s (.task (.serve call)) (setup.serve s call).state (setup.serve s call).outcome := by
  have ends (n : Nat) (e : Ending) (known : call.ending? = some (n, e)) :
      Acts setup s (.task (.serve call)) (Setup.serveEnding s n e).state
        (Setup.serveEnding s n e).outcome := by
    unfold Setup.serveEnding
    split
    case isTrue heard =>
      obtain rfl : s.generation = n := by simpa [State.listensTo] using heard
      exact .ended known
    case isFalse unheard =>
      exact .lapse (.ending known (by simpa [State.listensTo] using unheard))
  cases call with
  | start =>
      simp only [Setup.serve, Setup.serveStart]
      split
      case h_1 connecting => exact .lapse (.start (by simp [connecting]))
      case h_2 connected => exact .lapse (.start (by simp [connected]))
      case h_3 closing => exact .lapse (.start (by simp [closing]))
      case h_4 closed => exact .lapse (.start (by simp [closed]))
      case h_5 idle => exact .start idle
  | stop =>
      simp only [Setup.serve, Setup.serveStop]
      split
      case isTrue closed => exact .lapse (.stop closed)
      case isFalse running => exact .stop running
  | send p => exact acts_serveSend p
  | on event h =>
      simp only [Setup.serve, Setup.serveRegistration]
      split
      case h_1 unknown => exact .fault (.on h unknown)
      case h_2 k known =>
        rw [State.register_eq]
        exact .register h known
  | off event h =>
      simp only [Setup.serve, Setup.serveRegistration]
      split
      case h_1 unknown => exact .fault (.off h unknown)
      case h_2 k known => exact .unregister h known
  | opened n =>
      simp only [Setup.serve, Setup.serveOpened]
      split
      case isTrue heard =>
        obtain ⟨rfl, connecting⟩ : s.generation = n ∧ s.phase = .connecting := by
          simpa [State.listensTo] using heard
        exact .opened connecting
      case isFalse unheard => exact .lapse (.opened n (by simpa [State.listensTo] using unheard))
  | received n frame =>
      simp only [Setup.serve, Setup.serveFrame]
      split
      case isTrue heard =>
        obtain ⟨rfl, connected⟩ : s.generation = n ∧ s.phase = .connected := by
          simpa [State.listensTo, State.isConnected] using heard
        split
        case h_1 e decoded => exact .received frame connected decoded
        case h_2 decoded =>
          exact .lapse (.received _ frame fun _ _ => by rw [decoded]; rfl)
        case h_3 decoded =>
          exact .lapse (.received _ frame fun _ _ => by rw [decoded]; rfl)
      case isFalse unheard =>
        refine .lapse (.received n frame fun current connected => absurd ?_ unheard)
        simp [State.listensTo, State.isConnected, current, connected]
  | closed n code => exact ends n (.closed code) rfl
  | failed n f => exact ends n (.failed f) rfl
  | reconnect => exact .reconnect

theorem acts_perform (t : Task) :
    Acts setup s (.task t) (setup.perform s t).state (setup.perform s t).outcome := by
  cases t with
  | serve call => exact acts_serve call
  | enter p =>
      simp only [Setup.perform, Setup.enter]
      split
      case isTrue same => subst same; exact .lapse .enter
      case isFalse other => exact .enter other
  | emit o => exact .emit o
  | notify o handlers =>
      cases handlers with
      | nil => exact .lapse (.notify o)
      | cons h next => exact .notify o h next
  | connect => exact .connect
  | dial => exact .dial
  | release =>
      simp only [Setup.perform, Setup.release]
      split
      case h_1 absent => exact .turnAway absent
      case h_2 n held => exact .release held
  | announce =>
      simp only [Setup.perform, Setup.announce]
      split
      case isTrue connected => exact .announce (by simpa [State.isConnected] using connected)
      case isFalse other => exact .lapse (.announce (by simpa [State.isConnected] using other))
  | flush =>
      simp only [Setup.perform, Setup.flush]
      split
      case h_1 absent => exact .lapse (.flush (.inl absent))
      case h_2 n held =>
        by_cases empty : s.queue.isEmpty
        · simpa [empty] using Acts.lapse (.flush (.inr empty))
        · simpa [empty] using Acts.flush held (by simpa using empty)
  | drain n sent =>
      simp only [Setup.perform, Setup.drain]
      split
      case h_1 empty => exact .lapse (.drain n sent empty)
      case h_2 m head => exact .drain n sent head
  | reclaim n => exact .reclaim n
  | fallBack =>
      by_cases connected : s.phase = .connected
      · simpa [Setup.perform, State.isConnected, connected] using Acts.fallBack connected
      · simpa [Setup.perform, State.isConnected, connected] using Acts.lapse (.fallBack connected)
  | conclude e =>
      simp only [Setup.perform, Setup.conclude]
      split
      case isTrue connecting => cases e <;> exact .conclude _ connecting
      case isFalse other => exact .lapse (.conclude e other)
  | decide =>
      simp only [Setup.perform, Setup.decide]
      split
      case isTrue connecting =>
        split
        case h_1 f refused => exact .fault (.policy connecting refused)
        case h_2 k givenUp => exact .giveUp connecting givenUp
        case h_3 d retried =>
          unfold Setup.retry
          split
          case h_1 e long => exact .unreported connecting retried long
          case h_2 limit shown => exact .retry connecting retried shown
      case isFalse other => exact .lapse (.decide other)
  | cancelTimer => exact .cancelTimer
  | discardQueue => exact .discardQueue
  | report r => exact .lapse (.report r)

theorem acts_adopt (n : Nat) :
    Acts setup s (.answer (.dialling n) .returned) (Setup.adopt s n).state
      (Setup.adopt s n).outcome := by
  unfold Setup.adopt
  split
  case isTrue heard =>
    obtain rfl : s.generation = n := by simpa [State.listensTo] using heard
    exact .adopt
  case isFalse unheard => exact .discard (by simpa [State.listensTo] using unheard)

theorem acts_drainOn (n sent : Nat) (p : Value) :
    Acts setup s (.answer (.draining n p sent) (.accepted true)) (Setup.drainOn s n sent).state
      (Setup.drainOn s n sent).outcome := by
  unfold Setup.drainOn
  split
  case isTrue empty => exact .fault (.emptied n p sent empty)
  case isFalse waiting => exact .drained n p sent (by simpa using waiting)

theorem acts_takeBack (n : Nat) (ps : List Value) :
    Acts setup s (.answer (.reclaiming n) (.unsent ps)) (setup.takeBack s ps).state
      (setup.takeBack s ps).outcome := by
  cases ps with
  | nil => exact .lapse (.nothingBack n)
  | cons p rest => exact .takeBack n (List.cons_ne_nil p rest)

/-- The list of what a cue can lead to is complete. -/
theorem acts_of_step {cue : Cue} {step : Step} (taken : cue.step? setup s = some step) :
    Acts setup s cue step.state step.outcome := by
  cases cue with
  | task t =>
      obtain rfl : setup.perform s t = step := by simpa [Cue.step?] using taken
      exact acts_perform t
  | answer a r =>
      simp only [Cue.step?] at taken
      unfold Setup.resume at taken
      split at taken <;> first
        | contradiction
        | obtain rfl := Option.some.inj taken
      case h_1 h o next => exact .told h o next rfl
      case h_2 h o next f => exact .told h o next rfl
      case h_3 n => exact acts_adopt n
      case h_4 n f => exact .dialFailed n f
      case h_5 n => exact .lapse (.released n rfl)
      case h_6 n f => exact .lapse (.released n rfl)
      case h_7 n => exact .lapse (.discarded n)
      case h_8 n p => exact .lapse (.sent n p)
      case h_9 n p => exact .queue (.rejected n)
      case h_10 n p sent => exact acts_drainOn n sent p
      case h_11 n p sent => exact .lapse (.halted n p sent)
      case h_12 n ps => exact acts_takeBack n ps
      case h_13 k d t => exact .scheduled k d t
      case h_14 n f => exact .fault (.discarding n f)
      case h_15 n p f => exact .fault (.sending n p f)
      case h_16 n p sent f => exact .fault (.draining n p sent f)
      case h_17 n f => exact .fault (.reclaiming n f)
      case h_18 k d f => exact .fault (.scheduling k d f)

/-! ## Where tasks come from -/

/-- How a task comes to be added to a call: the cue at which it is added, and what is found there.
Of the tasks that are not listed nothing is said. -/
def Task.Origin (setup : Setup) (s : State) (cue : Cue) (after : State) : Task → Prop
  | .serve call => ∃ n f, call = .failed n (setup.openFailure f) ∧
      cue = .answer (.dialling n) (.raised f) ∧ after = s
  | .enter .connected =>
      cue = .task (.serve (.opened s.generation)) ∧ after.generation = s.generation
  | .enter .closing => cue = .task (.serve .stop) ∧ after = s
  | .connect => cue = .task (.serve .start) ∧ s.phase = .idle ∨
      cue = .task (.serve .reconnect) ∧ s.phase = .connecting
  | .dial => cue = .task .connect
  | .drain n _ => after.connection = s.connection ∧
      (s.connection = some n ∨ ∃ p k, cue = .answer (.draining n p k) (.accepted true))
  | .reclaim n => s.connection = some n ∧ ∃ call, cue = .task (.serve call)
  | _ => True

theorem Acts.origin {cue : Cue} {after : State} {outcome : Outcome}
    (acts : Acts setup s cue after outcome) :
    ∀ t ∈ outcome.tasks, t.Origin setup s cue after := by
  cases acts with
  | ended => cases held : s.connection <;> simp [Outcome.tasks, Task.Origin, held]
  | reconnect =>
      rw [Outcome.tasks]
      split
      case isTrue connecting => simp [Task.Origin, connecting]
      case isFalse => simp
  | adopt =>
      rw [Outcome.tasks]
      split <;> simp [Task.Origin]
  | dialFailed n f => simp [Outcome.tasks, Task.Origin]
  | flush held => simp [Outcome.tasks, Task.Origin, held]
  | start idle => simp [Outcome.tasks, Task.Origin, idle]
  | _ => simp [Outcome.tasks, Setup.stopping, Task.Origin]

/-! ## What is seen of a step -/

/-- Effects that are records and nothing else. -/
def OnlyRecords (effects : List Effect) : Prop := ∀ e ∈ effects, ∃ r, e = .record r

theorem onlyRecords_nil : OnlyRecords [] := by
  intro e present
  simp at present

theorem onlyRecords_say (level : LogLevel) (parts : List Text) :
    OnlyRecords [setup.say level parts] := by
  intro e present
  exact ⟨_, List.mem_singleton.mp present⟩

theorem onlyRecords_append {first second : List Effect} (former : OnlyRecords first)
    (latter : OnlyRecords second) : OnlyRecords (first ++ second) := by
  intro e present
  rcases List.mem_append.mp present with present | present
  · exact former e present
  · exact latter e present

theorem onlyRecords_dropReport (count : Nat) (parts : List Text) :
    OnlyRecords (setup.dropReport count parts) := by
  unfold Setup.dropReport
  split
  · exact onlyRecords_nil
  · exact onlyRecords_say _ _

theorem onlyRecords_waitReport (attempt : Nat) (delay : Number) (limit : Text) :
    OnlyRecords (setup.waitReport attempt delay limit) := by
  unfold Setup.waitReport
  split
  · exact onlyRecords_nil
  · exact onlyRecords_say _ _

theorem onlyRecords_serve (call : Call) : OnlyRecords (setup.serve s call).effects := by
  cases call <;>
    simp only [Setup.serve, Setup.serveStart, Setup.serveStop, Setup.serveSend,
      Setup.serveRegistration, Setup.serveOpened, Setup.serveFrame, Setup.serveEnding,
      Setup.queueRejected] <;>
    repeat' split
  all_goals first
    | exact onlyRecords_nil
    | exact onlyRecords_say _ _
    | (intro e present
       obtain ⟨r, -, rfl⟩ := List.mem_map.mp present
       exact ⟨r, rfl⟩)

theorem onlyRecords_perform (t : Task) (quiet : Cue.emits (.task t) = [])
    (kept : Cue.cancels s (.task t) = []) : OnlyRecords (setup.perform s t).effects := by
  cases t with
  | serve call => exact onlyRecords_serve call
  | emit o => simp [Cue.emits] at quiet
  | cancelTimer =>
      have unset : s.timer = none := by simpa [Cue.cancels] using kept
      simpa [Setup.perform, unset] using onlyRecords_nil
  | enter p =>
      simp only [Setup.perform, Setup.enter]
      split
      · exact onlyRecords_nil
      · exact onlyRecords_say _ _
  | notify o handlers => cases handlers <;> exact onlyRecords_nil
  | connect => exact onlyRecords_nil
  | dial => exact onlyRecords_nil
  | release => exact onlyRecords_nil
  | announce =>
      simp only [Setup.perform, Setup.announce]
      split
      · exact onlyRecords_say _ _
      · exact onlyRecords_nil
  | flush =>
      simp only [Setup.perform, Setup.flush]
      split <;> exact onlyRecords_nil
  | drain n sent =>
      simp only [Setup.perform, Setup.drain]
      split
      · exact onlyRecords_say _ _
      · exact onlyRecords_nil
  | reclaim n => exact onlyRecords_nil
  | fallBack => exact onlyRecords_nil
  | conclude e =>
      simp only [Setup.perform, Setup.conclude]
      split
      · cases e <;> exact onlyRecords_say _ _
      · exact onlyRecords_nil
  | decide =>
      simp only [Setup.perform, Setup.decide]
      split
      · split
        · exact onlyRecords_nil
        · exact onlyRecords_append (onlyRecords_say _ _) (onlyRecords_dropReport _ _)
        · unfold Setup.retry
          split
          · exact onlyRecords_nil
          · exact onlyRecords_waitReport _ _ _
      · exact onlyRecords_nil
  | discardQueue => exact onlyRecords_dropReport _ _
  | report r =>
      intro e present
      exact ⟨r, List.mem_singleton.mp present⟩

theorem onlyRecords_resume {a : Await} {r : Reply} {step : Step}
    (taken : setup.resume s a r = some step) : OnlyRecords step.effects := by
  unfold Setup.resume at taken
  split at taken <;> first
    | contradiction
    | obtain rfl := Option.some.inj taken
  case h_3 => unfold Setup.adopt; split <;> exact onlyRecords_nil
  case h_10 => unfold Setup.drainOn; split <;> exact onlyRecords_nil
  case h_11 =>
    have halted (r : LogRecord) : OnlyRecords [.record r] :=
      fun e present => ⟨r, List.mem_singleton.mp present⟩
    exact onlyRecords_append (halted _) (onlyRecords_say _ _)
  case h_12 =>
    unfold Setup.takeBack
    split
    · exact onlyRecords_nil
    · exact onlyRecords_say _ _
  all_goals first
    | exact onlyRecords_nil
    | exact onlyRecords_say _ _

/-- What is seen of a call that goes on at a cue, records apart: what the cue shows, and then what
comes of it. -/
structure Seen (s : State) (cue : Cue) (outcome : Outcome) (effects : List Effect) : Prop where
  shown : effects.filter (!·.isRecord) = cue.shows s ++ outcome.shows

namespace Seen

variable {s : State} {cue : Cue} {outcome : Outcome} {effects : List Effect}

theorem filterMap_eq (seen : Seen s cue outcome effects) {α : Type} {f : Effect → Option α}
    (unseen : ∀ r, f (.record r) = none) :
    effects.filterMap f = cue.emits.filterMap (f <| .emit ·) ++
      (cue.cancels s).filterMap (f <| .cancel ·) ++ outcome.shows.filterMap f := by
  have shown : (effects.filter (!·.isRecord)).filterMap f = effects.filterMap f := by
    rw [List.filterMap_filter]
    congr 1
    funext e
    cases e <;> simp [Effect.isRecord, unseen]
  rw [← shown, seen.shown]
  simp [Cue.shows, List.filterMap_map]

theorem asked (seen : Seen s cue outcome effects) :
    effects.filterMap Effect.request? = outcome.asked := by
  rw [seen.filterMap_eq fun _ => rfl]
  cases outcome <;> simp [Outcome.shows, Outcome.asked, Effect.request?]

theorem cancelled (seen : Seen s cue outcome effects) :
    effects.filterMap Effect.cancelled? = cue.cancels s := by
  rw [seen.filterMap_eq fun _ => rfl]
  cases outcome <;> simp [Outcome.shows, Effect.cancelled?, List.filterMap_cons]

theorem emitted (seen : Seen s cue outcome effects) :
    effects.filterMap Effect.occurrence? = cue.emits := by
  rw [seen.filterMap_eq fun _ => rfl]
  cases outcome <;> simp [Outcome.shows, Effect.occurrence?]

theorem dialled (seen : Seen s cue outcome effects) (m : Machine) (past : Chronicle) :
    Chronicle.dialled (⟨m, cue.turn, effects⟩ :: past) =
      past.dialled ++ outcome.asked.filterMap Request.dial? := by
  simp [Entry.asked, seen.asked]

theorem hungUp (seen : Seen s cue outcome effects) (m : Machine) (past : Chronicle) :
    Chronicle.hungUp (⟨m, cue.turn, effects⟩ :: past) =
      past.hungUp ++ outcome.asked.filterMap Request.hangUp? := by
  simp [Entry.asked, seen.asked]

theorem pending (seen : Seen s cue outcome effects) (m : Machine) (past : Chronicle) :
    Chronicle.pending (⟨m, cue.turn, effects⟩ :: past) =
      past.pending.filter (· ∉ cue.cancels s) ++ cue.sets := by
  cases cue <;> simp [Chronicle.pending, Entry.timers, Entry.cancelled, seen.cancelled, Cue.turn,
    Cue.sets]

end Seen

theorem shown_of_onlyRecords {effects : List Effect} (records : OnlyRecords effects) :
    effects.filter (!·.isRecord) = [] := by
  rw [List.filter_eq_nil_iff]
  intro e present
  obtain ⟨r, rfl⟩ := records e present
  simp [Effect.isRecord]

theorem seen_of_onlyRecords {cue : Cue} {effects : List Effect} (records : OnlyRecords effects)
    (quiet : cue.emits = []) (kept : cue.cancels s = []) : Seen s cue (.next []) effects := by
  constructor
  simp [shown_of_onlyRecords records, Cue.shows, Outcome.shows, quiet, kept]

/-- Apart from what its outcome asks for, a step shows at most an occurrence or a timer that is
cancelled. -/
theorem seen_of_step {cue : Cue} {step : Step} (taken : cue.step? setup s = some step) :
    Seen s cue (.next []) step.effects := by
  cases cue with
  | answer a r => exact seen_of_onlyRecords (onlyRecords_resume taken) rfl rfl
  | task t =>
      obtain rfl : setup.perform s t = step := by simpa [Cue.step?] using taken
      by_cases quiet : Cue.emits (.task t) = []
      · by_cases kept : Cue.cancels s (.task t) = []
        · exact seen_of_onlyRecords (onlyRecords_perform t quiet kept) quiet kept
        · cases t <;> simp only [Cue.cancels, not_true_eq_false] at kept
          constructor
          cases timer : s.timer <;>
            simp [Setup.perform, Cue.shows, Cue.emits, Cue.cancels, Outcome.shows, timer,
              Effect.isRecord]
      · cases t <;> simp only [Cue.emits, not_true_eq_false] at quiet
        constructor
        simp [Setup.perform, Cue.shows, Cue.emits, Cue.cancels, Outcome.shows, Effect.isRecord]

end

/-! ## Courses -/

namespace Course

variable (setup : Setup) (allowed : Surroundings)

/-- How a course goes on: a call begins, a call returns, or the innermost call acts. -/
inductive Advance : Course → Course → Prop
  | called {past s stack turn call} : allowed ⟨past, s, stack⟩ turn → turn.call? = some call →
      (∀ a ∈ stack.head?, a.awaiting.isSome) →
      Advance ⟨past, s, stack⟩
        ⟨⟨⟨s, stack⟩, turn, []⟩ :: past, s, ⟨call, none, [.serve call]⟩ :: stack⟩
  | returned {past s call below} :
      Advance ⟨past, s, ⟨call, none, []⟩ :: below⟩
        ⟨⟨⟨s, ⟨call, none, []⟩ :: below⟩, .work, [.returns]⟩ :: past, s, below⟩
  | acted {past s cue call rest below after outcome effects} :
      allowed ⟨past, s, cue.activation call rest :: below⟩ cue.turn →
      Acts setup s cue after outcome → Seen s cue outcome effects →
      Advance ⟨past, s, cue.activation call rest :: below⟩
        ⟨⟨⟨s, cue.activation call rest :: below⟩, cue.turn, effects⟩ :: past, after,
          outcome.stack call rest below⟩

variable {setup allowed}

/-- What is seen of a step that the innermost call takes, and the machine that it leaves. -/
theorem seen_of_take {s : State} (cue : Cue) (call : Call) (rest : List Task)
    (below : List Activation) {step : Step} (taken : cue.step? setup s = some step) :
    (Machine.take ⟨call, none, rest⟩ rest below step).1 =
        ⟨step.state, step.outcome.stack call rest below⟩ ∧
      Seen s cue step.outcome (Machine.take ⟨call, none, rest⟩ rest below step).2 := by
  have seen := seen_of_step taken
  obtain ⟨after, effects, outcome⟩ := step
  cases outcome with
  | next first => exact ⟨rfl, ⟨seen.shown⟩⟩
  | wait | fail =>
      refine ⟨rfl, ⟨?_⟩⟩
      have shown : effects.filter (!·.isRecord) = cue.shows s := by
        simpa [Outcome.shows] using seen.shown
      rw [Machine.take, List.filter_append, shown]
      rfl

theorem advance_of_take {past : Chronicle} {s : State} (cue : Cue) {call : Call}
    {rest : List Task} {below : List Activation} {step : Step}
    (permitted : allowed ⟨past, s, cue.activation call rest :: below⟩ cue.turn)
    (taken : cue.step? setup s = some step) :
    Advance setup allowed ⟨past, s, cue.activation call rest :: below⟩
      ⟨⟨⟨s, cue.activation call rest :: below⟩, cue.turn,
          (Machine.take ⟨call, none, rest⟩ rest below step).2⟩ :: past,
        (Machine.take ⟨call, none, rest⟩ rest below step).1⟩ := by
  obtain ⟨leaves, seen⟩ := seen_of_take cue call rest below taken
  rw [leaves]
  exact .acted permitted (acts_of_step taken) seen

/-- Every turn is one of the three ways. -/
theorem advance_of_next {c d : Course} (next : Next setup allowed c d) :
    Advance setup allowed c d := by
  obtain ⟨turn, permitted, taken⟩ := next
  obtain ⟨past, s, stack⟩ := c
  have begins {call : Call} (begun : turn.call? = some call)
      (moved : (Machine.call? ⟨s, stack⟩ call).map
        (fun m => Course.mk (⟨⟨s, stack⟩, turn, []⟩ :: past) m) = some d) :
      Advance setup allowed ⟨past, s, stack⟩ d := by
    unfold Machine.call? at moved
    split at moved
    case isFalse => contradiction
    case isTrue accepts =>
      obtain rfl := Option.some.inj moved
      refine .called permitted begun fun a top => ?_
      cases stack with
      | nil => contradiction
      | cons b below =>
          obtain rfl : b = a := by simpa using top
          simpa [Machine.accepts, Machine.atRest, Machine.awaiting?] using accepts
  cases turn with
  | call call =>
      apply begins rfl
      simpa [take?, Machine.move?, Turn.move, Function.comp_def] using taken
  | fire t =>
      apply begins rfl
      simpa [take?, Machine.move?, Turn.move, Function.comp_def] using taken
  | work =>
      simp only [take?, Turn.move, Machine.move?, Machine.work?] at taken
      split at taken
      case h_1 _ call task rest below =>
        obtain rfl := Option.some.inj taken
        exact advance_of_take (.task task) permitted rfl
      case h_2 =>
        obtain rfl := Option.some.inj taken
        exact .returned
      case h_3 => contradiction
  | reply r =>
      simp only [take?, Turn.move, Machine.move?, Machine.reply?] at taken
      split at taken
      case h_1 _ call a rest below =>
        simp only [Option.map_map, Option.map_eq_some_iff] at taken
        obtain ⟨step, resumed, rfl⟩ := taken
        exact advance_of_take (.answer a r) permitted resumed
      case h_2 => contradiction

/-- What holds of a new session and is kept when a call begins, when one returns and when one acts
holds of every course. -/
theorem Reached.induction {P : Chronicle → State → List Activation → Prop} {c : Course}
    (reached : Reached setup allowed c) (start : P [] {} [])
    (called : ∀ {past s stack turn call}, Reached setup allowed ⟨past, s, stack⟩ →
      P past s stack → allowed ⟨past, s, stack⟩ turn → turn.call? = some call →
      (∀ a ∈ stack.head?, a.awaiting.isSome) →
      P (⟨⟨s, stack⟩, turn, []⟩ :: past) s (⟨call, none, [.serve call]⟩ :: stack))
    (returned : ∀ {past s call below}, Reached setup allowed ⟨past, s, ⟨call, none, []⟩ :: below⟩ →
      P past s (⟨call, none, []⟩ :: below) →
      P (⟨⟨s, ⟨call, none, []⟩ :: below⟩, .work, [.returns]⟩ :: past) s below)
    (acted : ∀ {past s cue call rest below after outcome effects},
      Reached setup allowed ⟨past, s, cue.activation call rest :: below⟩ →
      P past s (cue.activation call rest :: below) →
      allowed ⟨past, s, cue.activation call rest :: below⟩ cue.turn →
      Acts setup s cue after outcome → Seen s cue outcome effects →
      P (⟨⟨s, cue.activation call rest :: below⟩, cue.turn, effects⟩ :: past) after
        (outcome.stack call rest below)) :
    P c.past c.now.state c.now.stack := by
  induction reached with
  | refl => exact start
  | tail sofar next ih =>
      cases advance_of_next next with
      | called permitted begun free => exact called sofar ih permitted begun free
      | returned => exact returned sofar ih
      | acted permitted acts seen => exact acted sofar ih permitted acts seen

end Course

end EventStream.Session
