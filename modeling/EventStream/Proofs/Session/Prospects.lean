import EventStream.Proofs.Session.Lifecycle
import EventStream.Proofs.Session.Numbering
import EventStream.Proofs.Session.Plans

/-
# The prospects of a session

A session comes to a connection in steps: it decides to connect, dials, is connected to what it
dialled, turns away when that ends, asks its policy, sets a timer, and connects again when the
timer fires. Each of these steps is a prospect of a connection, and so is the connection that was
dialled last, while the session listens to it. However calls are nested, there is one prospect at
most, so nothing is dialled while a connection is held and no timer is set beside one.

This is so if what reports is a connection that was dialled, and timers fire once and not after
they were cancelled. Openers, handlers and connections may do what they like.
-/

namespace EventStream.Session

variable {setup : Setup} {allowed : Surroundings}

/-! ## Idle sessions -/

/-- A session that was not started has nothing, and serves one call after the other. -/
structure Unstarted (past : Chronicle) (s : State) (stack : List Activation) : Prop where
  unheld : s.connection = none
  unset : s.timer = none
  undialled : past.dialled = []
  untimed : past.pending = []
  serving : ∀ a ∈ stack, stack = [a] ∧ a.awaiting = none ∧ (a.tasks = [] ∨
    (∃ call, a.tasks = [.serve call] ∧ call.reporter? = none ∧ call ≠ .reconnect) ∨
      ∃ p rest, a.tasks = .enter p :: rest ∧ p ≠ .idle ∧ (p = .connecting → rest = [.connect]))

/-- What an idle session does for a call leaves it as it is, until it starts or stops. -/
theorem unstarted_of_acts {past : Chronicle} {s after : State} {served call : Call}
    {outcome : Outcome} {effects : List Effect} {m : Machine}
    (acts : Acts setup s (.task (.serve served)) after outcome)
    (seen : Seen s (.task (.serve served)) outcome effects) (idle : s.phase = .idle)
    (own : served.reporter? = none) (other : served ≠ .reconnect)
    (unstarted : Unstarted past s [⟨call, none, [.serve served]⟩]) :
    Unstarted (⟨m, .work, effects⟩ :: past) after (outcome.stack call [] []) := by
  obtain ⟨unheld, unset, undialled, untimed, -⟩ := unstarted
  have dialled := seen.dialled m past
  have pending := seen.pending m past
  simp only [Cue.turn, Cue.cancels, Cue.sets, undialled, untimed, List.filter_nil,
    List.nil_append] at dialled pending
  cases acts with
  | lapse | fault | queue | register | unregister =>
      exact ⟨unheld, unset, dialled, pending, by simp [Outcome.stack]⟩
  | start | stop =>
      refine ⟨unheld, unset, dialled, pending, fun a among => ?_⟩
      obtain rfl := List.mem_singleton.mp among
      exact ⟨rfl, rfl, .inr (.inr ⟨_, _, rfl, by simp, by simp⟩)⟩
  | send _ connected | received _ connected | opened connected =>
      rw [idle] at connected
      contradiction
  | ended known => cases served <;> contradiction
  | reconnect => contradiction

/-- What reports is a connection that was dialled, and timers fire once and in time. -/
structure Sane (allowed : Surroundings) : Prop where
  genuine : ∀ c turn, allowed c turn → Surroundings.Genuine c turn
  timely : ∀ c turn, allowed c turn → Surroundings.Timely c turn

theorem unstarted_of_reached {c : Course} (reached : c.Reached setup allowed)
    (sane : Sane allowed) : c.phase = .idle → Unstarted c.past c.now.state c.now.stack := by
  refine reached.induction
    (P := fun past s stack => s.phase = .idle → Unstarted past s stack)
    ?start ?called ?returned ?acted
  case start => exact fun _ => ⟨rfl, rfl, rfl, rfl, by simp⟩
  case called =>
    intro past s stack turn call _ ih permitted begun free idle
    obtain ⟨unheld, unset, undialled, untimed, serving⟩ := ih idle
    -- Nothing is in progress, for what is in progress works, and is not to be called.
    obtain rfl : stack = [] := by
      cases stack with
      | nil => rfl
      | cons a below =>
          obtain ⟨-, working, -⟩ := serving a List.mem_cons_self
          simpa [working] using free a rfl
    have own : call.reporter? = none := by
      rw [Option.eq_none_iff_forall_ne_some]
      intro n reports
      have dialled := sane.genuine _ _ permitted call n begun reports
      simp [undialled] at dialled
    have timely := sane.timely _ _ permitted
    have other : call ≠ .reconnect := by
      rintro rfl
      cases turn with
      | fire t => simp [Surroundings.Timely, untimed] at timely
      | call served =>
          obtain rfl : served = .reconnect := by simpa [Turn.call?] using begun
          exact timely
      | _ => contradiction
    refine ⟨unheld, unset, by simpa using undialled, ?_, ?_⟩
    · cases turn with
      | fire t => simp [Surroundings.Timely, untimed] at timely
      | call served => simpa using untimed
      | _ => contradiction
    · intro a among
      obtain rfl := List.mem_singleton.mp among
      exact ⟨rfl, rfl, .inr (.inl ⟨call, rfl, own, other⟩)⟩
  case returned =>
    intro past s call below _ ih idle
    obtain ⟨unheld, unset, undialled, untimed, serving⟩ := ih idle
    obtain ⟨alone, -⟩ := serving _ List.mem_cons_self
    obtain rfl : below = [] := by simpa using alone
    exact ⟨unheld, unset, by simpa using undialled, by simpa using untimed, by simp⟩
  case acted =>
    intro past s cue call rest below after outcome effects before ih _ acts seen idle
    have was : s.phase = .idle := by
      rcases acts.passage (orderlyStack_of_reached before) with same | passage
      · rw [← same, idle]
      · cases phase : s.phase <;> rw [phase, idle] at passage <;> cases passage
    have unstarted := ih was
    obtain ⟨alone, working, tasks⟩ := unstarted.serving _ List.mem_cons_self
    obtain rfl : below = [] := by simpa using alone
    cases cue with
    | answer => contradiction
    | task t =>
        rcases tasks with none | ⟨served, serves, own, other⟩ | ⟨p, later, enters, other, -⟩
        · simp [Cue.activation] at none
        · obtain ⟨rfl, rfl⟩ : t = .serve served ∧ rest = [] := by
            simpa [Cue.activation] using serves
          exact unstarted_of_acts acts seen was own other unstarted
        · obtain ⟨rfl, rfl⟩ : t = .enter p ∧ rest = later := by
            simpa [Cue.activation] using enters
          cases acts with
          | enter => exact absurd idle other
          | lapse lapses =>
              cases lapses
              exact absurd was other
          | fault faults => cases faults
          | queue queues => cases queues

/-! ## One prospect at most -/

/-- The prospects that a task holds. -/
def Task.prospects : Task → Nat
  | .connect | .dial | .conclude _ | .decide | .serve .reconnect => 1
  | _ => 0

/-- The prospects that a wait holds. -/
def Await.prospects : Await → Nat
  | .scheduling .. => 1
  | _ => 0

/-- The prospects of some tasks. -/
def ahead : List Task → Nat
  | [] => 0
  | t :: tasks => t.prospects + ahead tasks

@[simp] theorem ahead_nil : ahead [] = 0 := rfl

@[simp] theorem ahead_cons (t : Task) (tasks : List Task) :
    ahead (t :: tasks) = t.prospects + ahead tasks := rfl

@[simp] theorem ahead_append (first rest : List Task) :
    ahead (first ++ rest) = ahead first + ahead rest := by
  induction first with
  | nil => simp
  | cons t tasks ih => rw [List.cons_append, ahead_cons, ih, ahead_cons, Nat.add_assoc]

/-- The prospects of a call. -/
def Activation.prospects (a : Activation) : Nat := a.awaiting.elim 0 Await.prospects + ahead a.tasks

/-- The prospects of the calls in progress. -/
def underway : List Activation → Nat
  | [] => 0
  | a :: below => a.prospects + underway below

@[simp] theorem underway_nil : underway [] = 0 := rfl

@[simp] theorem underway_cons (a : Activation) (below : List Activation) :
    underway (a :: below) = a.prospects + underway below := rfl

/-- One if the session listens to a connection that was dialled. -/
def live (past : Chronicle) (s : State) : Nat := if s.generation ∈ past.dialled then 1 else 0

/-- All prospects of a connection. -/
def prospects (past : Chronicle) (s : State) (stack : List Activation) : Nat :=
  live past s + past.pending.length + underway stack

/-- The prospects of what a call goes on with. -/
def Cue.prospects : Cue → Nat
  | .task t => t.prospects
  | .answer a _ => a.prospects

/-- The prospects of what comes of it. -/
def Outcome.prospects : Outcome → Nat
  | .next first => ahead first
  | .wait a => a.prospects
  | .fail _ => 0

theorem prospects_activation (cue : Cue) (call : Call) (rest : List Task) :
    (cue.activation call rest).prospects = cue.prospects + ahead rest := by
  cases cue <;> simp [Cue.activation, Activation.prospects, Cue.prospects]

theorem underway_stack_le (outcome : Outcome) (call : Call) (rest : List Task)
    (below : List Activation) :
    underway (outcome.stack call rest below) ≤ outcome.prospects + ahead rest + underway below := by
  cases outcome with
  | fail => exact Nat.le_add_left _ _
  | _ => simp [Outcome.stack, Outcome.prospects, Activation.prospects]

section

variable {past : Chronicle} {s after : State} {cue : Cue} {outcome : Outcome}
  {effects : List Effect} {m : Machine}

theorem live_le_one (past : Chronicle) (s : State) : live past s ≤ 1 := by
  unfold live
  split <;> omega

/-- Whether a session listens to a connection depends on the number of the connection only. -/
theorem live_of_seen (seen : Seen s cue outcome effects) (m : Machine) (past : Chronicle)
    (silent : outcome.asked.filterMap Request.dial? = [])
    (same : after.generation = s.generation) :
    live (⟨m, cue.turn, effects⟩ :: past) after = live past s := by
  simp only [live, seen.dialled, silent, same, List.append_nil]

/-- A session that turns away listens to no connection. -/
theorem live_of_turnAway (seen : Seen s cue outcome effects)
    (silent : outcome.asked.filterMap Request.dial? = [])
    (bounded : ∀ n ∈ past.dialled, n ≤ s.generation) :
    live (⟨m, cue.turn, effects⟩ :: past) s.turnAway = 0 := by
  have fresh : s.generation + 1 ∉ past.dialled :=
    fun known => Nat.not_succ_le_self _ (bounded _ known)
  simp [live, State.turnAway, seen.dialled, silent, fresh]

theorem length_pending_le (seen : Seen s cue outcome effects) (m : Machine)
    (past : Chronicle) :
    (Chronicle.pending (⟨m, cue.turn, effects⟩ :: past)).length ≤
      past.pending.length + cue.sets.length := by
  rw [seen.pending, List.length_append]
  exact Nat.add_le_add_right (List.length_filter_le _ _) _

/-- A step trades prospects, and starts with one only if it starts an idle session. -/
theorem prospects_of_acts (acts : Acts setup s cue after outcome)
    (seen : Seen s cue outcome effects) (bounded : ∀ n ∈ past.dialled, n ≤ s.generation)
    (heard : ∀ call n, cue = .task (.serve call) → call.reporter? = some n → n ∈ past.dialled)
    (running : cue = .task (.serve .start) → s.phase ≠ .idle) :
    live (⟨m, cue.turn, effects⟩ :: past) after +
        (Chronicle.pending (⟨m, cue.turn, effects⟩ :: past)).length + outcome.prospects ≤
      live past s + past.pending.length + cue.prospects := by
  have pending := length_pending_le seen m past
  have same (silent : outcome.asked.filterMap Request.dial? = [])
      (generation : after.generation = s.generation) :=
    live_of_seen seen m past silent generation
  cases acts with
  | start idle => exact absurd idle (running rfl)
  | lapse lapses =>
      have same := same rfl rfl
      have unset : cue.sets = [] := by cases lapses <;> simp_all [Cue.sets, Reply.timer?]
      simp only [unset, List.length_nil] at pending
      simp only [Outcome.prospects, ahead_nil]
      omega
  | fault faults =>
      have same := same rfl rfl
      have unset : cue.sets = [] := by cases faults <;> rfl
      simp only [unset, List.length_nil] at pending
      simp only [Outcome.prospects]
      omega
  | queue queues =>
      have same := same rfl rfl
      have unset : cue.sets = [] := by cases queues <;> rfl
      simp only [unset, List.length_nil] at pending
      simp only [Outcome.prospects, ahead_nil]
      omega
  | @ended _ e known =>
      have known : s.generation ∈ past.dialled := heard _ _ rfl (Call.reporter_of_ending known)
      have lost := live_of_turnAway (m := m) seen rfl bounded
      have was : live past s = 1 := by simp [live, known]
      have next :
          ahead ((s.connection.map Task.reclaim).toList ++ [.fallBack, .conclude e]) = 1 := by
        cases s.connection <;> rfl
      simp only [Outcome.prospects, next, Cue.sets, List.length_nil] at pending ⊢
      omega
  | turnAway | release =>
      have lost := live_of_turnAway (m := m) seen rfl bounded
      simp only [Outcome.prospects, Await.prospects, ahead_nil, Cue.sets,
        List.length_nil] at pending ⊢
      omega
  | dial =>
      have one :=
        live_le_one (⟨m, .work, effects⟩ :: past) { s with generation := s.generation + 1 }
      simp only [Outcome.prospects, Await.prospects, Cue.prospects, Task.prospects, Cue.sets,
        List.length_nil, Cue.turn] at pending ⊢
      omega
  | told _ _ _ unset =>
      have same := same rfl rfl
      simp only [Cue.sets, unset, Option.toList_none, List.length_nil] at pending
      simp only [Outcome.prospects, ahead_cons, Task.prospects, ahead_nil]
      omega
  | reconnect | adopt =>
      have same := same rfl rfl
      simp only [Cue.sets, List.length_nil, Reply.timer?, Option.toList_none] at pending
      simp only [Outcome.prospects, Cue.prospects, Task.prospects, Await.prospects]
      split <;> simp only [ahead_cons, ahead_nil, Task.prospects] <;> omega
  | _ =>
      have same := same rfl rfl
      simp only [Cue.sets, Reply.timer?, Option.toList_none, Option.toList_some, List.length_cons,
        List.length_nil] at pending
      simp only [Outcome.prospects, Cue.prospects, Await.prospects, ahead_cons, ahead_nil,
        Task.prospects, Setup.stopping]
      omega

end

/-- A timer that fires hands its prospect to the call that it brings. -/
theorem prospects_called {past : Chronicle} {s : State} {stack : List Activation} {turn : Turn}
    {call : Call} {m : Machine} (timely : Surroundings.Timely ⟨past, s, stack⟩ turn)
    (begun : turn.call? = some call) :
    prospects (⟨m, turn, []⟩ :: past) s (⟨call, none, [.serve call]⟩ :: stack) =
      prospects past s stack := by
  have same : live (⟨m, turn, []⟩ :: past) s = live past s := by simp [live]
  cases turn with
  | call served =>
      obtain rfl : served = call := by simpa [Turn.call?] using begun
      have none : Task.prospects (.serve served) = 0 := by
        cases served <;> first | rfl | exact timely.elim
      simp [prospects, same, Activation.prospects, none]
  | fire t =>
      obtain rfl : Call.reconnect = call := by simpa [Turn.call?] using begun
      have due : 0 < past.pending.length := List.length_pos_of_mem timely
      simp only [prospects, same, Chronicle.pending_fired, List.length_erase_of_mem timely,
        underway_cons, Activation.prospects, Option.elim_none, ahead_cons, ahead_nil,
        Task.prospects]
      omega
  | _ => contradiction

/-- An idle session has no prospects, and starts with one. -/
theorem prospects_start {past : Chronicle} {s after : State} {call : Call} {rest : List Task}
    {below : List Activation} {outcome : Outcome} {effects : List Effect} {m : Machine}
    (unstarted : Unstarted past s ((Cue.task (.serve .start)).activation call rest :: below))
    (idle : s.phase = .idle) (acts : Acts setup s (.task (.serve .start)) after outcome)
    (seen : Seen s (.task (.serve .start)) outcome effects) :
    prospects (⟨m, .work, effects⟩ :: past) after (outcome.stack call rest below) = 1 := by
  obtain ⟨-, -, undialled, untimed, serving⟩ := unstarted
  obtain ⟨alone, -, tasks⟩ := serving _ List.mem_cons_self
  obtain rfl : below = [] := by simpa using alone
  obtain rfl : rest = [] := by
    rcases tasks with none | ⟨served, serves, -⟩ | ⟨p, later, enters, -⟩
    · simp [Cue.activation] at none
    · simpa [Cue.activation] using (List.cons.inj serves).2
    · simp [Cue.activation] at enters
  have dialled := seen.dialled m past
  have pending := seen.pending m past
  simp only [Cue.turn, Cue.cancels, Cue.sets, undialled, untimed, List.filter_nil,
    List.nil_append] at dialled pending
  cases acts with
  | start =>
      simp [prospects, live, dialled, pending, Outcome.asked, Outcome.stack, Activation.prospects,
        Task.prospects]
  | lapse lapses => cases lapses <;> contradiction
  | fault faults => cases faults
  | queue queues => cases queues
  | ended known => contradiction

/-- A step of a session that it does not start adds no prospect. -/
theorem prospects_stack_le {past : Chronicle} {s after : State} {cue : Cue} {call : Call}
    {rest : List Task} {below : List Activation} {outcome : Outcome} {effects : List Effect}
    {m : Machine}
    (before : Course.Reached setup allowed ⟨past, s, cue.activation call rest :: below⟩)
    (sane : Sane allowed) (acts : Acts setup s cue after outcome)
    (seen : Seen s cue outcome effects) (running : cue = .task (.serve .start) → s.phase ≠ .idle) :
    prospects (⟨m, cue.turn, effects⟩ :: past) after (outcome.stack call rest below) ≤
      prospects past s (cue.activation call rest :: below) := by
  have bounded : ∀ n ∈ past.dialled, n ≤ s.generation := (numbered_of_reached before).bounded
  have traded := prospects_of_acts (m := m) acts seen bounded
    (fun call n serves reports => heard_of_reached before sane.genuine _ List.mem_cons_self
      call n (by simp [serves, Cue.activation]) reports) running
  have later := underway_stack_le outcome call rest below
  simp only [prospects, underway_cons, prospects_activation]
  omega

/-- A session has one prospect of a connection at most. -/
theorem prospects_le_one {c : Course} (reached : c.Reached setup allowed) (sane : Sane allowed) :
    prospects c.past c.now.state c.now.stack ≤ 1 := by
  refine reached.induction (P := fun past s stack => prospects past s stack ≤ 1)
    ?start ?called ?returned ?acted
  case start => decide
  case called =>
    intro past s stack turn call _ ih permitted begun _
    exact Nat.le_trans (Nat.le_of_eq (prospects_called (sane.timely _ _ permitted) begun)) ih
  case returned =>
    intro past s call below _ ih
    simpa [prospects, live, Activation.prospects] using ih
  case acted =>
    intro past s cue call rest below after outcome effects before ih _ acts seen
    by_cases starts : cue = .task (.serve .start) ∧ s.phase = .idle
    · obtain ⟨rfl, idle⟩ := starts
      have unstarted := unstarted_of_reached before sane idle
      exact Nat.le_of_eq (prospects_start unstarted idle acts seen)
    · exact Nat.le_trans (prospects_stack_le before sane acts seen
        fun start idle => starts ⟨start, idle⟩) ih

/-- When a call goes on with a prospect there is no other: no connection is listened to, no timer is
to fire, and the calls that wait have none. -/
theorem alone_of_prospect {past : Chronicle} {s : State} {cue : Cue} {call : Call}
    {rest : List Task} {below : List Activation}
    (one : prospects past s (cue.activation call rest :: below) ≤ 1) (holds : cue.prospects = 1) :
    s.generation ∉ past.dialled ∧ past.pending = [] ∧ underway below = 0 := by
  simp only [prospects, underway_cons, prospects_activation, holds] at one
  refine ⟨fun known => ?_, List.eq_nil_of_length_eq_zero (by omega), by omega⟩
  simp only [live, if_pos known] at one
  omega

/-- A call that gives its prospect up has given up the only one. -/
theorem prospects_forgone {past : Chronicle} {s after : State} {cue : Cue} {call : Call}
    {rest : List Task} {below : List Activation} {outcome : Outcome} {effects : List Effect}
    (seen : Seen s cue outcome effects) (m : Machine)
    (most : prospects past s (cue.activation call rest :: below) ≤ 1) (held : cue.prospects = 1)
    (given : outcome.prospects = 0) (silent : outcome.asked.filterMap Request.dial? = [])
    (unset : cue.sets = []) (same : after.generation = s.generation) :
    prospects (⟨m, cue.turn, effects⟩ :: past) after (outcome.stack call rest below) = 0 := by
  have listening := live_of_seen seen m past silent same
  have pending := length_pending_le seen m past
  have calls := underway_stack_le outcome call rest below
  rw [unset, List.length_nil] at pending
  simp only [prospects, underway_cons, prospects_activation] at most ⊢
  omega

/-! ## Sessions that open -/

/-- A session is about to be connected only to a connection that was dialled. -/
theorem live_of_opening {c : Course} (reached : c.Reached setup allowed) (sane : Sane allowed)
    {later : List Task} : front c.now.stack = .enter .connected :: later →
      live c.past c.now.state = 1 := by
  refine reached.induction
    (P := fun past s stack => front stack = .enter .connected :: later → live past s = 1)
    ?start ?called ?returned ?acted
  case start => simp [front]
  case called => simp
  case returned =>
    intro past s call below before _ stands
    have waits : front below = [] := (planned_of_reached before).front_below
    rw [waits] at stands
    contradiction
  case acted =>
    intro past s cue call rest below after outcome effects before _ _ acts seen stands
    obtain ⟨first, rfl, -⟩ := (planned_of_reached before).added rfl stands
    obtain ⟨rfl, same⟩ := acts.origin _ List.mem_cons_self
    have known : s.generation ∈ past.dialled :=
      heard_of_reached before sane.genuine _ List.mem_cons_self _ _ List.mem_cons_self rfl
    rw [live_of_seen seen _ past rfl same]
    simp [live, known]

/-- A connected session has dialled. -/
theorem dialled_of_connected {c : Course} (reached : c.Reached setup allowed)
    (sane : Sane allowed) : c.phase = .connected → c.past.dialled ≠ [] := by
  refine reached.induction (P := fun past s _ => s.phase = .connected → past.dialled ≠ [])
    ?start ?called ?returned ?acted
  case start => simp
  case called =>
    intro past s stack turn call _ ih _ _ _ connected
    simpa using ih connected
  case returned =>
    intro past s call below _ ih connected
    simpa using ih connected
  case acted =>
    intro past s cue call rest below after outcome effects before ih _ acts seen connected
    rw [seen.dialled]
    refine List.append_ne_nil_of_left_ne_nil ?_ _
    rcases acts.phase with same | ⟨p, other, rfl, rfl, rfl⟩
    · exact ih (same ▸ connected)
    · obtain rfl := connected
      have listening : live past s = 1 := live_of_opening before sane rfl
      intro none
      simp [live, none] at listening

/-! ## Reconnects that cannot be reported -/

/-- The policy has a limit of reconnects that has too many digits to be written. -/
def Setup.Unwritable (setup : Setup) : Prop :=
  ∃ limit, setup.policy.maxAttempts = some limit ∧
    Numeral.digitLimit < (Nat.toDigits 10 limit.natAbs).length

theorem limitShown_eq_error_iff {e : CoercionError} :
    setup.limitShown = .error e ↔ e = .textOfLong ∧ setup.Unwritable := by
  unfold Setup.limitShown Setup.Unwritable
  cases setup.policy.maxAttempts with
  | none => simp
  | some limit =>
      by_cases short : (Nat.toDigits 10 limit.natAbs).length ≤ Numeral.digitLimit
      · simp [Value.asText, Value.isWritable, short, Nat.not_lt.mpr short]
      · simp [Value.asText, Value.isWritable, short, Nat.lt_of_not_le short, eq_comm]

/-- A reconnect is counted, and fails to be reported before its timer is set. -/
structure Entry.Unreported (setup : Setup) (e : Entry) : Prop where
  decides : e.task? = some .decide
  connecting : e.before.state.phase = .connecting
  retries : ∃ d, setup.policy.onDisconnect (e.before.state.attempts + 1 : Nat) = .ok (.retry d)
  unwritten : setup.Unwritable

/-- Some reconnect failed to be reported. -/
def Chronicle.Unreported (setup : Setup) (past : Chronicle) : Prop := ∃ e ∈ past, e.Unreported setup

section

variable {past : Chronicle} {s after : State} {cue : Cue} {call : Call} {rest : List Task}
  {below : List Activation} {outcome : Outcome} {effects : List Effect}

theorem unreported_cons {e : Entry} :
    Chronicle.Unreported setup (e :: past) ↔ e.Unreported setup ∨ past.Unreported setup :=
  List.exists_mem_cons_iff _ _ _

theorem Chronicle.Unreported.cons (unreported : past.Unreported setup) (e : Entry) :
    Chronicle.Unreported setup (e :: past) :=
  unreported_cons.mpr (.inr unreported)

/-- A turn in which no task is done is about no reconnect. -/
theorem unreported_of_undone {e : Entry} (undone : e.task? = none)
    (unreported : Chronicle.Unreported setup (e :: past)) : past.Unreported setup := by
  refine (unreported_cons.mp unreported).resolve_left fun now => ?_
  simpa [undone] using now.decides

theorem task_acted : Entry.task? ⟨⟨s, cue.activation call rest :: below⟩, cue.turn, effects⟩ =
    match cue with
    | .task t => some t
    | .answer .. => none := by
  cases cue <;> rfl

/-- A step that fails to report a reconnect has counted it. -/
theorem Acts.counted (acts : Acts setup s cue after outcome)
    (unreported : Entry.Unreported setup
      ⟨⟨s, cue.activation call rest :: below⟩, cue.turn, effects⟩) :
    cue = .task .decide ∧ after = { s with attempts := s.attempts + 1 } ∧
      outcome = .fail CoercionError.textOfLong.toFault := by
  obtain ⟨decides, connecting, ⟨d, retries⟩, unwritten⟩ := unreported
  rw [task_acted] at decides
  cases cue with
  | answer => contradiction
  | task t =>
      obtain rfl : t = .decide := Option.some.inj decides
      cases acts with
      | unreported _ _ long =>
          obtain ⟨rfl, -⟩ := limitShown_eq_error_iff.mp long
          exact ⟨rfl, rfl, rfl⟩
      | retry _ _ shown =>
          exact absurd (shown.symm.trans (limitShown_eq_error_iff.mpr ⟨rfl, unwritten⟩)) (by simp)
      | giveUp _ givenUp => exact absurd (givenUp.symm.trans retries) (by simp)
      | fault faults =>
          cases faults with
          | policy _ refused => exact absurd (refused.symm.trans retries) (by simp)
      | lapse lapses =>
          cases lapses with
          | decide other => exact absurd connecting other
      | queue queues => cases queues

/-- The session counts the reconnect, and the fault leaves the call. -/
theorem take_of_unreported {d : Number} (connecting : s.phase = .connecting)
    (decided : setup.policy.onDisconnect (s.attempts + 1 : Nat) = .ok (.retry d))
    (unwritten : setup.Unwritable) :
    Course.take? setup ⟨past, s, ⟨call, none, .decide :: rest⟩ :: below⟩ .work =
      some ⟨⟨⟨s, ⟨call, none, .decide :: rest⟩ :: below⟩, .work,
          [.raises CoercionError.textOfLong.toFault]⟩ :: past,
        { s with attempts := s.attempts + 1 }, below⟩ := by
  have long := limitShown_eq_error_iff.mpr ⟨rfl, unwritten⟩
  have fails : setup.perform s .decide = {
      state := { s with attempts := s.attempts + 1 }
      outcome := .fail CoercionError.textOfLong.toFault } := by
    simp only [Setup.perform, Setup.decide, connecting, if_true, decided, Setup.retry, long]
  simp [Course.take?, Turn.move, Machine.move?, Machine.work?, fails, Machine.take]

end

/-- A session that failed to report a reconnect has no prospects any more, and goes on connecting
unless it is on its way out. -/
theorem hopeless_of_unreported {c : Course} (reached : c.Reached setup allowed)
    (sane : Sane allowed) : c.past.Unreported setup →
      prospects c.past c.now.state c.now.stack = 0 ∧ (c.phase = .connecting ∨ c.phase.isOver) := by
  refine reached.induction (P := fun past s stack => past.Unreported setup →
    prospects past s stack = 0 ∧ (s.phase = .connecting ∨ s.phase.isOver))
    ?start ?called ?returned ?acted
  case start =>
    rintro ⟨e, among, -⟩
    contradiction
  case called =>
    intro past s stack turn call _ ih permitted begun _ unreported
    rw [prospects_called (sane.timely _ _ permitted) begun]
    exact ih (unreported_of_undone (Entry.task_call begun) unreported)
  case returned =>
    intro past s call below _ ih unreported
    obtain ⟨none, phase⟩ := ih (unreported_of_undone rfl unreported)
    exact ⟨by simpa [prospects, live, Activation.prospects] using none, phase⟩
  case acted =>
    intro past s cue call rest below after outcome effects before ih _ acts seen unreported
    rcases unreported_cons.mp unreported with now | earlier
    · have connecting : s.phase = .connecting := now.connecting
      obtain ⟨rfl, rfl, rfl⟩ := acts.counted now
      exact ⟨prospects_forgone seen _ (prospects_le_one before sane) rfl rfl rfl rfl rfl,
        .inl connecting⟩
    · obtain ⟨none, phase⟩ := ih earlier
      have running : cue = .task (.serve .start) → s.phase ≠ .idle := by
        rintro - idle
        simp [idle, Phase.isOver] at phase
      refine ⟨Nat.le_zero.mp (none ▸ prospects_stack_le before sane acts seen running), ?_⟩
      rcases acts.phase with same | ⟨p, other, rfl, rfl, rfl⟩
      · exact same ▸ phase
      · cases p with
        | idle =>
            exact (cue_precedes ((planned_of_reached before).planned _ List.mem_cons_self)).elim
        | connecting => exact .inl rfl
        | connected =>
            -- Being connected takes a connection that is listened to, and that would be a prospect.
            have listening : live past s = 1 := live_of_opening before sane rfl
            simp [prospects, listening] at none
        | closing | closed => exact .inr rfl

end EventStream.Session
