import EventStream.Proofs.Session.Stopping

/-
# Closed sessions are silent

A closed session answers calls, late reports and late timers by doing nothing. What could still
move it is a connection that it holds, for payloads that such a connection gives back are queued.
But a closed session at rest holds a connection only if it was stopped while it started, and then
it has never sent anything.
-/

namespace EventStream.Session

variable {setup : Setup} {allowed : Surroundings}

/-! ## Sessions that never sent -/

/-- The waits in which a payload is offered. -/
def Await.offers : Await → Bool
  | .sending .. | .draining .. => true
  | _ => false

/-- The tasks by which queued payloads are sent. -/
def Task.sends : Task → Bool
  | .flush | .drain .. => true
  | _ => false

/-- A call that is not sending. -/
def Activation.Mute (a : Activation) : Prop :=
  (∀ w, a.awaiting = some w → w.offers = false) ∧ ∀ t ∈ a.tasks, t.sends = false

/-- Nothing was accepted, and nothing is being sent. -/
structure Unsent (past : Chronicle) (stack : List Activation) : Prop where
  accepted : past.accepted = []
  mute : ∀ a ∈ stack, a.Mute

section

variable {past : Chronicle} {s after : State} {cue : Cue} {call : Call} {rest : List Task}
  {below : List Activation} {outcome : Outcome} {effects : List Effect}

/-- What was accepted is what a connection took that was offered it. -/
theorem accepted_eq_nil (mute : (cue.activation call rest).Mute) :
    Entry.accepted? ⟨⟨s, cue.activation call rest :: below⟩, cue.turn, effects⟩ = none := by
  cases cue with
  | task => rfl
  | answer a r =>
      have silent : a.offers = false := mute.1 a rfl
      cases a <;> first | rfl | contradiction

/-- A session that is not connected does not begin to send. -/
theorem unsent_of_acts (acts : Acts setup s cue after outcome) (other : s.phase ≠ .connected)
    (unsent : Unsent past (cue.activation call rest :: below)) :
    Unsent (⟨⟨s, cue.activation call rest :: below⟩, cue.turn, effects⟩ :: past)
      (outcome.stack call rest below) := by
  obtain ⟨accepted, mute⟩ := unsent
  have top := mute _ List.mem_cons_self
  refine ⟨by simp [accepted_eq_nil top, accepted], fun a among => ?_⟩
  rcases Outcome.mem_stack among with among | ⟨tasks, waits⟩
  · exact mute a (.tail _ among)
  have later : ∀ t ∈ rest, t.sends = false := fun t left => top.2 t (cue.mem_activation left)
  suffices calm : (∀ w, outcome.await? = some w → w.offers = false) ∧
      ∀ t ∈ outcome.tasks, t.sends = false by
    refine ⟨fun w stands => calm.1 w (waits ▸ stands), fun t due => ?_⟩
    rw [tasks] at due
    exact (List.mem_append.mp due).elim (calm.2 t) (later t)
  cases acts with
  | send _ connected | announce connected => exact absurd connected other
  | flush | drain => exact absurd (top.2 _ List.mem_cons_self) (by simp [Task.sends])
  | drained => exact absurd (top.1 _ rfl) (by simp [Await.offers])
  | adopt =>
      have unconnected : s.isConnected = false := by simpa [State.isConnected] using other
      simp [Outcome.await?, Outcome.tasks, unconnected]
  | ended => cases held : s.connection <;> simp [Outcome.await?, Outcome.tasks, Task.sends]
  | reconnect =>
      simp only [Outcome.await?, Outcome.tasks]
      split <;> simp [Task.sends]
  | _ => simp [Outcome.await?, Outcome.tasks, Setup.stopping, Await.offers, Task.sends]

end

theorem unsent_called {past : Chronicle} {s : State} {stack : List Activation} {turn : Turn}
    {call : Call} (unsent : Unsent past stack) (begun : turn.call? = some call) :
    Unsent (⟨⟨s, stack⟩, turn, []⟩ :: past) (⟨call, none, [.serve call]⟩ :: stack) := by
  obtain ⟨accepted, mute⟩ := unsent
  refine ⟨by simp [Entry.accepted_call begun, accepted], List.forall_mem_cons.mpr ⟨?_, mute⟩⟩
  exact ⟨by simp, by simp [Task.sends]⟩

theorem unsent_returned {past : Chronicle} {s : State} {call : Call} {below : List Activation}
    (unsent : Unsent past (⟨call, none, []⟩ :: below)) :
    Unsent (⟨⟨s, ⟨call, none, []⟩ :: below⟩, .work, [.returns]⟩ :: past) below := by
  obtain ⟨accepted, mute⟩ := unsent
  exact ⟨by simp [Entry.accepted?, Machine.awaiting?, accepted],
    fun a among => mute a (.tail _ among)⟩

/-- A session that has not dialled has not sent. -/
theorem unsent_of_undialled {c : Course} (reached : c.Reached setup allowed)
    (sane : Sane allowed) : c.past.dialled = [] → Unsent c.past c.now.stack := by
  refine reached.induction (P := fun past _ stack => past.dialled = [] → Unsent past stack)
    ?start ?called ?returned ?acted
  case start => exact fun _ => ⟨rfl, by simp⟩
  case called =>
    intro past s stack turn call _ ih _ begun _ none
    exact unsent_called (ih (by simpa using none)) begun
  case returned =>
    intro past s call below _ ih none
    exact unsent_returned (ih (by simpa using none))
  case acted =>
    intro past s cue call rest below after outcome effects before ih _ acts seen none
    rw [seen.dialled] at none
    have none : past.dialled = [] := (List.append_eq_nil_iff.mp none).1
    exact unsent_of_acts acts (fun connected => dialled_of_connected before sane connected none)
      (ih none)

/-- A session that was stopped while it started is on its way out, or is about to be. -/
theorem leaving_of_stoppedWhileStarting {c : Course} (reached : c.Reached setup allowed) :
    c.past.StoppedWhileStarting → c.phase.isOver ∨ c.phase = .connecting ∧
      (front c.now.stack = [.serve .stop] ∨
        ∃ later, front c.now.stack = .enter .closing :: later) := by
  refine reached.induction (P := fun past s stack => past.StoppedWhileStarting →
    s.phase.isOver ∨ s.phase = .connecting ∧
      (front stack = [.serve .stop] ∨ ∃ later, front stack = .enter .closing :: later))
    ?start ?called ?returned ?acted
  case start => exact fun never => never.elim
  case called =>
    intro past s stack turn call _ ih _ begun free stopped
    rcases stopped with stopped | ⟨stops, connecting, -⟩
    · apply (ih stopped).imp_right
      rintro ⟨-, stands⟩
      simp [front_of_waiting free] at stands
    · obtain rfl : turn = .call .stop := stops
      obtain rfl : .stop = call := Option.some.inj begun
      exact .inr ⟨connecting, .inl rfl⟩
  case returned =>
    intro past s call below _ ih stopped
    rcases stopped with stopped | ⟨stops, -⟩
    · apply (ih stopped).imp_right
      rintro ⟨-, stands⟩
      simp at stands
    · contradiction
  case acted =>
    intro past s cue call rest below after outcome effects before ih _ acts _ stopped
    have planned : Planned (cue.activation call rest :: below) := planned_of_reached before
    have precedes := cue_precedes (planned.planned _ List.mem_cons_self)
    have stopped : past.StoppedWhileStarting := stoppedWhileStarting_acted stopped
    rcases ih stopped with gone | ⟨connecting, serves | ⟨later, enters⟩⟩
    · rcases acts.passage (orderlyStack_of_reached before) with same | passage
      · exact .inl (same ▸ gone)
      · exact .inl (passage.isOver gone)
    · cases cue with
      | answer => contradiction
      | task t =>
          obtain ⟨rfl, rfl⟩ := List.cons.inj serves
          cases acts with
          | stop => exact .inr ⟨connecting, .inr ⟨_, rfl⟩⟩
          | ended ends => contradiction
          | fault faults => cases faults
          | queue queues => cases queues
          | lapse lapses =>
              cases lapses with
              | stop closed => simp [connecting] at closed
              | ending ends => contradiction
    · cases cue with
      | answer => contradiction
      | task t =>
          obtain ⟨rfl, rfl⟩ := List.cons.inj enters
          exact .inl (by rw [acts.entered]; rfl)

/-- A session that was stopped while it started never sends. -/
theorem unsent_of_stoppedWhileStarting {c : Course} (reached : c.Reached setup allowed)
    (sane : Sane allowed) : c.past.StoppedWhileStarting → Unsent c.past c.now.stack := by
  refine reached.induction (P := fun past _ stack => past.StoppedWhileStarting →
    Unsent past stack) ?start ?called ?returned ?acted
  case start => exact fun never => never.elim
  case called =>
    intro past s stack turn call before ih _ begun _ stopped
    rcases stopped with stopped | ⟨-, -, none⟩
    · exact unsent_called (ih stopped) begun
    · exact unsent_called (unsent_of_undialled before sane none) begun
  case returned =>
    intro past s call below _ ih stopped
    exact unsent_returned (ih (stopped.resolve_right (by simp)))
  case acted =>
    intro past s cue call rest below after outcome effects before ih _ acts _ stopped
    have stopped : past.StoppedWhileStarting := stoppedWhileStarting_acted stopped
    refine unsent_of_acts acts (fun connected => ?_) (ih stopped)
    rcases leaving_of_stoppedWhileStarting before stopped with gone | ⟨connecting, -⟩
    · simp [Course.phase, connected, Phase.isOver] at gone
    · exact absurd (connecting.symm.trans connected) (by simp)

/-- A closed session at rest that holds a connection has never sent. -/
theorem accepted_of_held {c : Course} (reached : c.Reached setup allowed) (sane : Sane allowed)
    (closed : c.phase = .closed) (rest : c.now.atRest) {n : Nat}
    (held : c.now.state.connection = some n) : c.past.accepted = [] := by
  have none : c.now.stack = [] := by simpa [Machine.atRest] using rest
  have known : c.now.state.generation ∈ c.past.dialled :=
    current_of_reached reached sane n held ▸ (numbered_of_reached reached).held n held
  have gone : c.phase.isOver := by rw [closed]; rfl
  have settled : ¬ Owes .release c.now.stack := by
    rintro ⟨a, among, -⟩
    simp [none] at among
  have stopped := (owes_release reached sane gone known).resolve_left settled
  exact (unsent_of_stoppedWhileStarting reached sane stopped).accepted

/-! ## Sessions that are closed -/

/-- Nothing is told in a turn, nothing is dialled or offered, and no timer is set. -/
structure Entry.Silent (e : Entry) : Prop where
  untold : e.effects.filterMap Effect.occurrence? = []
  undialled : e.asked.filterMap Request.dial? = []
  unoffered : e.asked.filterMap Request.offer? = []
  unset : e.asked.filterMap Request.delay? = []

/-- The tasks that a closed session may come to. -/
def Task.isIdle : Task → Bool
  | .serve _ | .reclaim _ | .fallBack | .conclude _ => true
  | _ => false

/-- What is left of a course that went on after the session was closed: its phase and its queue are
what they were, every later turn was silent, and payloads can come back only from connections that
took none. -/
structure Still (c d : Course) : Prop where
  closed : d.phase = .closed
  queued : d.now.state.queue = c.now.state.queue
  accepted : d.past.accepted = c.past.accepted
  silent : ∃ later, d.past = later ++ c.past ∧ ∀ e ∈ later, e.Silent
  held : ∀ n, d.now.state.connection = some n → c.past.accepted = []
  idle : ∀ a ∈ d.now.stack, ∀ t ∈ a.tasks, t.isIdle ∧ ∀ n, t = .reclaim n → c.past.accepted = []
  waits : ∀ a ∈ d.now.stack, ∀ w, a.awaiting = some w →
    (∃ n, w = .reclaiming n) ∧ c.past.accepted = []

theorem silent_call (m : Machine) (turn : Turn) : Entry.Silent ⟨m, turn, []⟩ := ⟨rfl, rfl, rfl, rfl⟩

theorem silent_return (m : Machine) : Entry.Silent ⟨m, .work, [.returns]⟩ := ⟨rfl, rfl, rfl, rfl⟩

/-- A closed session at rest is still. -/
theorem Still.refl {c : Course} (reached : c.Reached setup allowed) (sane : Sane allowed)
    (closed : c.phase = .closed) (rest : c.now.atRest) : Still c c := by
  have none : c.now.stack = [] := by simpa [Machine.atRest] using rest
  exact {
    closed
    queued := rfl
    accepted := rfl
    silent := ⟨[], rfl, by simp⟩
    held := fun _ held => accepted_of_held reached sane closed rest held
    idle := by simp [none]
    waits := by simp [none] }

/-- What a closed session does at a cue: it takes payloads back from a connection that it held, and
changes nothing else that matters. -/
theorem Acts.still {s after : State} {cue : Cue} {outcome : Outcome}
    (acts : Acts setup s cue after outcome) (closed : s.phase = .closed)
    (idle : ∀ t, cue = .task t → t.isIdle)
    (waits : ∀ w r, cue = .answer w r → ∃ n, w = .reclaiming n)
    (empty : ∀ n ps, cue = .answer (.reclaiming n) (.unsent ps) → ps = []) :
    after.phase = .closed ∧ after.queue = s.queue ∧
      (after.connection = s.connection ∨ after.connection = none) ∧ cue.emits = [] ∧
      (∀ t ∈ outcome.tasks, t.isIdle ∧ ∀ n, t = .reclaim n → s.connection = some n) ∧
      ∀ w, outcome.await? = some w → ∃ n, w = .reclaiming n ∧ cue = .task (.reclaim n) := by
  have unlike {p : Phase} (stands : s.phase = p) (other : p ≠ .closed) : False :=
    other (stands.symm.trans closed)
  have calm : cue.emits = [] := by
    cases cue with
    | answer => rfl
    | task t => cases t <;> first | rfl | exact absurd (idle _ rfl) (by simp [Task.isIdle])
  cases acts with
  | lapse | fault | register | unregister =>
      exact ⟨closed, rfl, .inl rfl, calm, by simp [Outcome.tasks], by simp [Outcome.await?]⟩
  | queue queues =>
      cases queues with
      | send running => simp [closed, Phase.isOver] at running
      | rejected => exact absurd (waits _ _ rfl) (by simp)
  | stop running => exact absurd closed running
  | start stands | send _ stands | opened stands | received _ stands | announce stands
  | fallBack stands | conclude _ stands | giveUp stands | retry stands =>
      exact (unlike stands (by simp)).elim
  | ended =>
      refine ⟨closed, rfl, .inr rfl, calm, ?_, by simp [Outcome.await?]⟩
      cases held : s.connection <;> simp [Outcome.tasks, Task.isIdle]
  | reconnect =>
      exact ⟨closed, rfl, .inl rfl, calm, by simp [Outcome.tasks, closed],
        by simp [Outcome.await?]⟩
  | reclaim n =>
      exact ⟨closed, rfl, .inl rfl, calm, by simp [Outcome.tasks], by simp [Outcome.await?]⟩
  | takeBack n some => exact absurd (empty _ _ rfl) some
  | told | adopt | discard | dialFailed | drained | scheduled =>
      exact absurd (waits _ _ rfl) (by simp)
  | _ => exact absurd (idle _ rfl) (by simp [Task.isIdle])

/-- What a closed session does for a call leaves it still. -/
theorem Still.acted {c : Course} {past : Chronicle} {s after : State} {cue : Cue} {call : Call}
    {rest : List Task} {below : List Activation} {outcome : Outcome} {effects : List Effect}
    (still : Still c ⟨past, s, cue.activation call rest :: below⟩)
    (honest : Surroundings.Honest ⟨past, s, cue.activation call rest :: below⟩ cue.turn)
    (acts : Acts setup s cue after outcome) (seen : Seen s cue outcome effects) :
    Still c ⟨⟨⟨s, cue.activation call rest :: below⟩, cue.turn, effects⟩ :: past, after,
      outcome.stack call rest below⟩ := by
  obtain ⟨closed, queued, accepted, ⟨later, split, silent⟩, held, idle, waits⟩ := still
  have mine := idle _ List.mem_cons_self
  have mute : (cue.activation call rest).Mute := by
    refine ⟨fun w stands => ?_, fun t due => ?_⟩
    · obtain ⟨⟨n, rfl⟩, -⟩ := waits _ List.mem_cons_self w stands
      rfl
    · have calm := (mine t due).1
      cases t <;> first | rfl | contradiction
  obtain ⟨closed', queued', connection, untold, tasks, awaits⟩ := acts.still closed
    (fun t works => (mine t (by simp [works, Cue.activation])).1)
    (fun w r answers => (waits _ List.mem_cons_self w (by simp [answers, Cue.activation])).1)
    (fun n ps answers => by
      subst answers
      have none : past.accepted = [] :=
        accepted.trans (waits _ List.mem_cons_self (.reclaiming n) rfl).2
      rw [List.eq_nil_iff_forall_not_mem]
      intro p back
      have took := honest n ps rfl rfl p back
      simp [none] at took)
  have asked : outcome.asked.filterMap Request.dial? = [] ∧
      outcome.asked.filterMap Request.offer? = [] ∧
      outcome.asked.filterMap Request.delay? = [] := by
    cases outcome with
    | wait w =>
        obtain ⟨n, rfl, -⟩ := awaits w rfl
        exact ⟨rfl, rfl, rfl⟩
    | _ => exact ⟨rfl, rfl, rfl⟩
  rw [← seen.asked] at asked
  have calm : Entry.Silent ⟨⟨s, cue.activation call rest :: below⟩, cue.turn, effects⟩ :=
    ⟨seen.emitted.trans untold, asked.1, asked.2.1, asked.2.2⟩
  refine ⟨closed', queued'.trans queued, ?_, ⟨_ :: later, congrArg (List.cons _) split,
    List.forall_mem_cons.mpr ⟨calm, silent⟩⟩, fun n holds => ?_, fun a among t due => ?_,
    fun a among w stands => ?_⟩
  · simpa [accepted_eq_nil mute] using accepted
  · rcases connection with same | none
    · exact held n (same.symm.trans holds)
    · exact absurd (none.symm.trans holds) (by simp)
  · rcases Outcome.mem_stack among with among | ⟨same, -⟩
    · exact idle a (.tail _ among) t due
    · rcases List.mem_append.mp (same ▸ due) with adds | later
      · exact ⟨(tasks t adds).1, fun n same => held n ((tasks t adds).2 n same)⟩
      · exact mine t (cue.mem_activation later)
  · rcases Outcome.mem_stack among with among | ⟨-, same⟩
    · exact waits a (.tail _ among) w stands
    · obtain ⟨n, rfl, rfl⟩ := awaits w (same.symm.trans stands)
      exact ⟨⟨n, rfl⟩, (mine (.reclaim n) List.mem_cons_self).2 n rfl⟩

/-- A closed session stays still, whatever comes. -/
theorem Still.next {c d e : Course} (still : Still c d)
    (next : Course.Next setup Surroundings.Honest d e) : Still c e := by
  obtain ⟨closed, queued, accepted, ⟨later, split, silent⟩, held, idle, waits⟩ := still
  cases Course.advance_of_next next with
  | called _ begun _ =>
      refine ⟨closed, queued, ?_, ⟨_ :: later, congrArg (List.cons _) split,
        List.forall_mem_cons.mpr ⟨silent_call _ _, silent⟩⟩, held, ?_, ?_⟩
      · simpa [Entry.accepted_call begun] using accepted
      · exact List.forall_mem_cons.mpr ⟨by simp [Task.isIdle], idle⟩
      · exact List.forall_mem_cons.mpr ⟨by simp, waits⟩
  | returned =>
      refine ⟨closed, queued, ?_, ⟨_ :: later, congrArg (List.cons _) split,
        List.forall_mem_cons.mpr ⟨silent_return _, silent⟩⟩, held,
        fun a among => idle a (.tail _ among), fun a among => waits a (.tail _ among)⟩
      simpa [Entry.accepted?, Machine.awaiting?] using accepted
  | acted honest acts seen =>
      exact Still.acted ⟨closed, queued, accepted, ⟨later, split, silent⟩, held, idle, waits⟩
        honest acts seen

/-- What can be said of the life of a session. Its phase changes by passages only, so a closed
session stays closed; and a session that is closed, while no call is in progress, shows nothing
any more and keeps its queue, whatever calls, reports and timers come in whatever order. -/
theorem passage_and_silence (setup : Setup) :
    (∀ c d, Course.Reached setup Surroundings.Free c →
      Course.Next setup Surroundings.Free c d →
        d.phase = c.phase ∨ Passage c.phase d.phase ∧ c.phase ≠ .closed) ∧
    ∀ c d, Course.Reached setup (fun c turn => Surroundings.Genuine c turn ∧
        Surroundings.Timely c turn ∧ Surroundings.Honest c turn) c →
      c.phase = .closed → c.now.atRest →
        Course.Leads setup Surroundings.Honest c d →
          d.phase = .closed ∧ d.now.state.queue = c.now.state.queue ∧
            ∃ later, d.past = later ++ c.past ∧ ∀ e ∈ later, e.Silent := by
  refine ⟨fun c d reached next => ?_, fun c d reached closed rest leads => ?_⟩
  · refine (passage_of_next reached next).imp_right fun passage => ⟨passage, fun closed => ?_⟩
    rw [closed] at passage
    exact not_passage_closed _ passage
  · have still : Still c d := by
      induction leads with
      | refl => exact .refl reached ⟨fun _ _ permitted => permitted.1,
          fun _ _ permitted => permitted.2.1⟩ closed rest
      | tail _ next still => exact still.next next
    exact ⟨still.closed, still.queued, still.silent⟩

/-- A session that was connected and stopped. -/
def hungUp : Course := Course.plays .plain {} [.call .start, .reply .returned,
  .call (.opened 2), .call .stop, .reply .returned]

/-- What came after the session was stopped: a payload, the end of its connection, a timer that it
never set, and another start. -/
def latecomers : List Turn := [.call (.send .null), .call (.closed 2 .null), .fire 7, .call .start]

theorem silence_hungUp : hungUp.phase = .closed ∧ hungUp.now.atRest = true ∧
    (hungUp.plays .plain latecomers).phase = .closed ∧
    ∃ later, (hungUp.plays .plain latecomers).past = later ++ hungUp.past ∧
      ∀ e ∈ later, e.Silent := by
  have silence := (passage_and_silence .plain).2 hungUp (hungUp.plays .plain latecomers)
    (Course.leads_plays (fun c => by simp) ?permits) rfl rfl
    (Course.leads_plays (fun c => by simp) ?later)
  · exact ⟨rfl, rfl, silence.1, silence.2.2⟩
  case permits =>
    refine ⟨⟨by simp [Call.reporter?], trivial, by simp⟩, by simp [Surroundings.Honest],
      ⟨?opened, trivial, by simp⟩, ⟨by simp [Call.reporter?], trivial, by simp⟩,
      by simp [Surroundings.Honest], trivial⟩
    rintro _ _ ⟨⟩ ⟨⟩
    decide
  case later => simp [latecomers, Course.Permits, Surroundings.Honest]

end EventStream.Session
