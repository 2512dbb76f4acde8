import EventStream.Proofs.Session.Stopping

/-
# What a closed session holds

A closed session at rest holds no connection, has no timer and nothing queued, and every connection
that was opened was closed or had ended; it never dials again. This is so exactly if the session
was not stopped while it started: then it dials after it was closed.

Sending, taking payloads back and setting a timer are answered before the session is called again.
-/

namespace EventStream.Session

variable {setup : Setup} {allowed : Surroundings}

/-! ## What is met at once -/

/-- The waits in which a session is not called: for what a connection takes or gives back, and for
a timer. -/
def Await.isPrompt : Await → Bool
  | .sending .. | .draining .. | .reclaiming _ | .scheduling .. => true
  | _ => false

/-- Surroundings that answer these waits before they call the session. -/
abbrev Attentive (allowed : Surroundings) : Prop :=
  ∀ c turn, allowed c turn → Surroundings.Quiet (fun a => a.isPrompt) c turn

/-- A payload is sent by a connected session, and a timer is set by one that connects. -/
theorem running_of_awaited {c : Course} (reached : c.Reached setup allowed)
    (quiet : Attentive allowed) {w : Await} : awaited c.now.stack = some w →
      (∃ n p, w = .sending n p) ∨ (∃ k d, w = .scheduling k d) → c.phase.isOver = false := by
  refine reached.induction (P := fun _ s stack => awaited stack = some w →
    (∃ n p, w = .sending n p) ∨ (∃ k d, w = .scheduling k d) → s.phase.isOver = false)
    ?start ?called ?returned ?acted
  case start => exact fun waits => by contradiction
  case called => exact fun _ _ _ _ _ waits => by contradiction
  case returned =>
    intro past s call below before _ waits either
    have prompt : w.isPrompt := by rcases either with ⟨n, p, rfl⟩ | ⟨k, d, rfl⟩ <;> rfl
    exact absurd waits (not_awaited_below (uninterrupted_of_reached before quiet) prompt)
  case acted =>
    intro past s cue call rest below after outcome effects before _ _ acts _ waits either
    have prompt : w.isPrompt := by rcases either with ⟨n, p, rfl⟩ | ⟨k, d, rfl⟩ <;> rfl
    obtain rfl := awaited_of_acts (uninterrupted_of_reached before quiet) prompt waits
    rcases either with ⟨n, p, rfl⟩ | ⟨k, d, rfl⟩
    · cases acts with
      | send _ connected => simp [connected, Phase.isOver]
    · cases acts with
      | retry connecting => simp [connecting, Phase.isOver]

/-! ## What a session on its way out still has -/

/-- A session that is on its way out, and has a timer, is going to cancel it. -/
theorem owes_cancelTimer {c : Course} (reached : c.Reached setup allowed) (sane : Sane allowed)
    (quiet : Attentive allowed) :
    c.phase.isOver → c.past.pending = [] ∨ Owes .cancelTimer c.now.stack := by
  refine reached.induction
    (P := fun past s stack => s.phase.isOver → past.pending = [] ∨ Owes .cancelTimer stack)
    ?start ?called ?returned ?acted
  case start => simp [Phase.isOver]
  case called =>
    intro past s stack turn call _ ih _ begun _ gone
    refine (ih gone).imp (fun empty => ?_) (Owes.called _)
    cases turn with
    | work | reply => contradiction
    | _ => simp [empty]
  case returned =>
    intro past s call below _ ih gone
    exact (ih gone).imp (fun empty => by simpa using empty) Owes.returned
  case acted =>
    intro past s cue call rest below after outcome effects before ih _ acts seen gone
    have planned : Planned (cue.activation call rest :: below) := planned_of_reached before
    rw [seen.pending]
    by_cases was : s.phase.isOver
    · have unset : cue.sets = [] := by
        rcases acts.timer with ⟨-, -, unset, -⟩ | ⟨-, -, unset, -⟩ | ⟨-, rfl⟩ | ⟨k, d, t, -, rfl⟩
        · exact unset
        · exact unset
        · rfl
        · have running := running_of_awaited before quiet rfl (.inr ⟨k, d, rfl⟩)
          exact absurd was (Bool.eq_false_iff.mp running)
      rw [unset, List.append_nil]
      by_cases cancels : cue = .task .cancelTimer
      · subst cancels
        refine .inl (List.filter_eq_nil_iff.mpr fun t waits => ?_)
        have set : s.timer = some t := (timed_of_reached before sane).set t waits
        simp [Cue.cancels, set]
      · refine (ih was).imp (fun empty => ?_) (owes_of_acts acts planned cancels (.inl rfl))
        rw [empty, List.filter_nil]
    · rcases owes_of_leaving before sane acts was gone with owes | ⟨rfl, -, -, zero, -⟩
      · exact .inr (owes _ (by simp))
      · have empty : past.pending = [] :=
          List.eq_nil_of_length_eq_zero (by simp only [prospects] at zero; omega)
        simp [empty, Cue.sets]

/-- A stop that is to close the connection is to drop the queue after that. -/
theorem Owes.discardQueue {stack : List Activation} (planned : Planned stack)
    (owes : Owes .release stack) : Owes .discardQueue stack := by
  obtain ⟨a, among, releases, closes⟩ := owes
  refine ⟨a, among, ?_, closes⟩
  have later {rest : List Task} (left : Left rest) (closes : .enter .closed ∈ rest) :
      .discardQueue ∈ rest ∨ .release ∉ rest ∧ ∃ r, rest = [.enter .closed, .report r] := by
    cases left.finishing closes <;> simp
  have mine := planned.planned a among
  rcases a with ⟨call, _ | w, _ | ⟨t, rest⟩⟩
  · simp at closes
  · have precedes : t.Precedes rest := mine
    rcases List.mem_cons.mp closes with rfl | closes
    · rcases precedes with ⟨k, rfl⟩ | ⟨r, rfl⟩ <;> simp at releases
    · rcases later precedes.left closes with due | ⟨none, r, rfl⟩
      · exact List.mem_cons_of_mem t due
      · obtain rfl := (List.mem_cons.mp releases).resolve_right none
        rcases precedes with same | ⟨r, same⟩ <;> simp at same
  · simp at closes
  · have precedes : w.Precedes (t :: rest) := mine
    exact (later precedes.left closes).resolve_right fun none => none.1 releases

/-- A session that takes payloads back on its way out is going to drop them, unless it was stopped
while it started. -/
theorem owes_of_reclaims {c : Course} (reached : c.Reached setup allowed) (sane : Sane allowed)
    (quiet : Attentive allowed) {n : Nat} : c.phase.isOver → Reclaims n c.now.stack →
      Owes .discardQueue c.now.stack ∨ c.past.StoppedWhileStarting := by
  refine reached.induction (P := fun past s stack => s.phase.isOver → Reclaims n stack →
    Owes .discardQueue stack ∨ past.StoppedWhileStarting) ?start ?called ?returned ?acted
  case start => simp [Phase.isOver]
  case called =>
    intro past s stack turn call _ _ _ _ _ _ reclaims
    rcases reclaims with ⟨later, stands⟩ | waits
    · simp at stands
    · contradiction
  case returned =>
    intro past s call below before _ _ reclaims
    rcases reclaims with ⟨later, stands⟩ | waits
    · have idle : front below = [] := (planned_of_reached before).front_below
      simp [idle] at stands
    · exact absurd waits (not_awaited_below (uninterrupted_of_reached before quiet) rfl)
  case acted =>
    intro past s cue call rest below after outcome effects before ih _ acts _ gone reclaims
    have planned : Planned (cue.activation call rest :: below) := planned_of_reached before
    rcases reclaims with ⟨later, stands⟩ | waits
    · obtain ⟨first, rfl, -⟩ := planned.added rfl stands
      obtain ⟨held, call, rfl⟩ := acts.origin _ List.mem_cons_self
      have was : s.phase.isOver := by
        rcases acts.phase with same | ⟨p, -, enters, -⟩
        · exact same ▸ gone
        · simp at enters
      have known : s.generation ∈ past.dialled :=
        current_of_reached before sane n held ▸ (numbered_of_reached before).held n held
      refine (owes_release before sane was known).imp (fun owes => ?_) Or.inl
      exact owes_of_acts acts planned (by simp) (.inr (.inr (.inl rfl))) (owes.discardQueue planned)
    · obtain rfl := awaited_of_acts (uninterrupted_of_reached before quiet) rfl waits
      cases acts with
      | reclaim =>
          refine (ih gone (.inl ⟨rest, rfl⟩)).imp (fun owes => ?_) Or.inl
          have acts : Acts setup s (.task (.reclaim n)) s (.wait (.reclaiming n)) := .reclaim n
          exact owes_of_acts acts planned (by simp) (.inr (.inr (.inl rfl))) owes

/-- What a step does to the queue of a session on its way out: it queues nothing, unless payloads
come back. -/
theorem Acts.emptied {s after : State} {cue : Cue} {outcome : Outcome}
    (acts : Acts setup s cue after outcome) (gone : s.phase.isOver)
    (empty : s.queue.payloads = []) :
    after.queue.payloads = [] ∨ (∃ n p r, cue = .answer (.sending n p) r) ∨
      ∃ n r, cue = .answer (.reclaiming n) r := by
  cases acts with
  | queue queues =>
      cases queues with
      | send running => simp [gone] at running
      | rejected n => exact .inr (.inl ⟨n, _, _, rfl⟩)
  | takeBack n => exact .inr (.inr ⟨n, _, rfl⟩)
  | drained => exact .inl (by simp [Outbound.Queue.payloads_dropHead, empty])
  | giveUp | discardQueue => exact .inl rfl
  | _ => exact .inl empty

theorem Acts.dropped {s after : State} {outcome : Outcome}
    (acts : Acts setup s (.task .discardQueue) after outcome) : after = s.clearQueue := by
  cases acts with
  | discardQueue => rfl
  | lapse lapses => cases lapses
  | fault faults => cases faults
  | queue queues => cases queues

/-- A session that is on its way out, and has something queued, is going to drop it, unless it was
stopped while it started. -/
theorem owes_discardQueue {c : Course} (reached : c.Reached setup allowed) (sane : Sane allowed)
    (quiet : Attentive allowed) : c.phase.isOver → c.now.state.queue.payloads = [] ∨
      Owes .discardQueue c.now.stack ∨ c.past.StoppedWhileStarting := by
  refine reached.induction (P := fun past s stack => s.phase.isOver → s.queue.payloads = [] ∨
    Owes .discardQueue stack ∨ past.StoppedWhileStarting) ?start ?called ?returned ?acted
  case start => simp [Phase.isOver]
  case called =>
    intro past s stack turn call _ ih _ _ _ gone
    exact (ih gone).imp_right fun left => left.imp (Owes.called _) Or.inl
  case returned =>
    intro past s call below _ ih gone
    exact (ih gone).imp_right fun left => left.imp Owes.returned Or.inl
  case acted =>
    intro past s cue call rest below after outcome effects before ih _ acts _ gone
    have planned : Planned (cue.activation call rest :: below) := planned_of_reached before
    by_cases was : s.phase.isOver
    · by_cases drops : cue = .task .discardQueue
      · subst drops
        exact .inl (by rw [acts.dropped]; rfl)
      · have onward (owes : Owes .discardQueue (cue.activation call rest :: below)) :=
          owes_of_acts acts planned drops (.inr (.inr (.inl rfl))) owes
        rcases ih was with empty | owes | stopped
        · rcases acts.emptied was empty with empty | ⟨n, p, r, rfl⟩ | ⟨n, r, rfl⟩
          · exact .inl empty
          · have running := running_of_awaited before quiet rfl (.inl ⟨n, p, rfl⟩)
            exact absurd was (Bool.eq_false_iff.mp running)
          · have owed := owes_of_reclaims before sane quiet (n := n) was (.inr rfl)
            exact .inr (owed.imp onward Or.inl)
        · exact .inr (.inl (onward owes))
        · exact .inr (.inr (Or.inl stopped))
    · rcases owes_of_leaving before sane acts was gone with owes | ⟨rfl, rfl, -, -, empty⟩
      · exact .inr (.inl (owes _ (by simp)))
      · exact .inl empty

/-! ## Sessions that dial when they are closed -/

namespace Chronicle

/-- A connection was dialled when the session was closed. -/
def DialledClosed (past : Chronicle) : Prop :=
  ∃ e ∈ past, e.before.state.phase = .closed ∧ e.asked.filterMap Request.dial? ≠ []

theorem DialledClosed.onward {past : Chronicle} {e : Entry} (dialled : past.DialledClosed) :
    DialledClosed (e :: past) := by
  obtain ⟨f, among, closed, dials⟩ := dialled
  exact ⟨f, .tail _ among, closed, dials⟩

end Chronicle

theorem stoppedWhileStarting_of_dialledClosed {c : Course} (reached : c.Reached setup allowed)
    (sane : Sane allowed) : c.past.DialledClosed → c.past.StoppedWhileStarting := by
  refine reached.induction (P := fun past _ _ => past.DialledClosed → past.StoppedWhileStarting)
    ?start ?called ?returned ?acted
  case start => rintro ⟨e, among, -⟩; simp at among
  case called =>
    rintro past s stack turn call _ ih _ _ _ ⟨e, among, closed, dials⟩
    rcases List.mem_cons.mp among with rfl | among
    · simp at dials
    · exact Or.inl (ih ⟨e, among, closed, dials⟩)
  case returned =>
    rintro past s call below _ ih ⟨e, among, closed, dials⟩
    rcases List.mem_cons.mp among with rfl | among
    · simp at dials
    · exact Or.inl (ih ⟨e, among, closed, dials⟩)
  case acted =>
    rintro past s cue call rest below after outcome effects before ih _ acts seen
      ⟨e, among, closed, dials⟩
    rcases List.mem_cons.mp among with rfl | among
    · obtain ⟨n, dials⟩ := List.exists_mem_of_ne_nil _ dials
      rw [Entry.asked, seen.asked] at dials
      obtain rfl := mem_dials_iff.mp dials
      obtain ⟨rfl, -⟩ := acts.dials
      have gone : s.phase.isOver := by rw [show s.phase = .closed from closed]; rfl
      exact Or.inl (stoppedWhileStarting_of_connecting before sane gone _ List.mem_cons_self
        (.inr List.mem_cons_self))
    · exact Or.inl (ih ⟨e, among, closed, dials⟩)

/-- The outermost call is about to connect. -/
def Starting (stack : List Activation) : Prop := ∃ a, stack.getLast? = some a ∧ a.Connecting

section

variable {s after : State} {cue : Cue} {call : Call} {rest : List Task}
  {below : List Activation} {outcome : Outcome}

theorem getLast?_stack (others : below ≠ []) :
    (outcome.stack call rest below).getLast? = below.getLast? := by
  cases below with
  | nil => contradiction
  | cons a later => cases outcome <;> rfl

/-- The call that is about to connect goes on to do so, until it dials. -/
theorem starting_of_acts (acts : Acts setup s cue after outcome)
    (planned : Planned (cue.activation call rest :: below))
    (starting : Starting (cue.activation call rest :: below)) :
    Starting (outcome.stack call rest below) ∨ cue = .task .dial ∧ below = [] := by
  obtain ⟨a, last, connecting⟩ := starting
  by_cases alone : below = []
  · subst alone
    obtain rfl : cue.activation call rest = a := by simpa using last
    have precedes := cue_precedes (planned.planned _ List.mem_cons_self)
    have stage : cue = .task .dial ∨ cue = .task .connect ∨ .connect ∈ rest ∨ .dial ∈ rest := by
      cases cue with
      | answer => exact .inr (.inr connecting)
      | task t =>
          rcases connecting with connects | dials
          · rcases List.mem_cons.mp connects with rfl | left
            · exact .inr (.inl rfl)
            · exact .inr (.inr (.inl left))
          · rcases List.mem_cons.mp dials with rfl | left
            · exact .inl rfl
            · exact .inr (.inr (.inr left))
    rcases stage with rfl | rfl | left
    · exact .inr ⟨rfl, rfl⟩
    · cases acts with
      | connect => exact .inl ⟨_, rfl, .inr (by simp)⟩
      | lapse lapses => cases lapses
      | fault faults => cases faults
      | queue queues => cases queues
    · cases outcome with
      | next first =>
          exact .inl ⟨_, rfl, left.imp (List.mem_append_right first) (List.mem_append_right first)⟩
      | wait => exact .inl ⟨_, rfl, left⟩
      | fail => rcases acts.rest_of_fail precedes with rfl | rfl | ⟨e, rfl⟩ <;> simp at left
  · refine .inl ⟨a, ?_, connecting⟩
    rw [getLast?_stack alone, ← last]
    cases below with
    | nil => contradiction
    | cons => rfl

end

theorem Starting.called {stack : List Activation} (a : Activation) (starting : Starting stack) :
    Starting (a :: stack) := by
  obtain ⟨b, last, connecting⟩ := starting
  cases stack with
  | nil => contradiction
  | cons => exact ⟨b, last, connecting⟩

theorem Starting.returned {call : Call} {below : List Activation}
    (starting : Starting (⟨call, none, []⟩ :: below)) : Starting below := by
  obtain ⟨b, last, connecting⟩ := starting
  cases below with
  | nil =>
      obtain rfl := Option.some.inj last
      simp [Activation.Connecting] at connecting
  | cons => exact ⟨b, last, connecting⟩

/-- A session that is connecting and has not dialled is about to. -/
theorem starting_of_undialled {c : Course} (reached : c.Reached setup allowed)
    (sane : Sane allowed) : c.phase = .connecting → c.past.dialled = [] → Starting c.now.stack := by
  refine reached.induction
    (P := fun past s stack => s.phase = .connecting → past.dialled = [] → Starting stack)
    ?start ?called ?returned ?acted
  case start => simp
  case called =>
    intro past s stack turn call _ ih _ _ _ connecting none
    exact (ih connecting (by simpa using none)).called _
  case returned =>
    intro past s call below _ ih connecting none
    exact (ih connecting (by simpa using none)).returned
  case acted =>
    intro past s cue call rest below after outcome effects before ih _ acts seen connecting none
    have planned : Planned (cue.activation call rest :: below) := planned_of_reached before
    rw [seen.dialled] at none
    obtain ⟨undialled, silent⟩ := List.append_eq_nil_iff.mp none
    rcases acts.phase with same | ⟨p, other, rfl, rfl, rfl⟩
    · apply (starting_of_acts acts planned (ih (same ▸ connecting) undialled)).resolve_right
      rintro ⟨rfl, -⟩
      simp [acts.dialling, Outcome.asked, Await.request, Request.dial?] at silent
    · obtain rfl : p = .connecting := connecting
      have passage := ((orderlyStack_of_reached before).1.enter other).1
      cases phase : s.phase with
      | idle =>
          obtain ⟨alone, -, tasks⟩ := (unstarted_of_reached before sane phase).serving _
            List.mem_cons_self
          obtain rfl : below = [] := by simpa using alone
          rcases tasks with idle | ⟨served, serves, -⟩ | ⟨p, later, enters, -, connects⟩
          · simp [Cue.activation] at idle
          · simp [Cue.activation] at serves
          · obtain ⟨same, rfl⟩ := List.cons.inj enters
            obtain rfl := Task.enter.inj same
            exact ⟨_, rfl, .inl (by simp [connects rfl])⟩
      | connected => exact absurd undialled (dialled_of_connected before sane phase)
      | connecting => exact absurd phase other
      | _ =>
          rw [show Course.phase ⟨past, s, _⟩ = _ from phase] at passage
          cases passage

/-- A session that was stopped while it started dials when it is closed. -/
theorem dialledClosed_of_stoppedWhileStarting {c : Course} (reached : c.Reached setup allowed)
    (sane : Sane allowed) : c.past.StoppedWhileStarting → c.past.DialledClosed ∨
      Starting c.now.stack ∧ (c.phase = .closed ∨ Halting c.now.stack) := by
  refine reached.induction (P := fun past s stack => past.StoppedWhileStarting →
    past.DialledClosed ∨ Starting stack ∧ (s.phase = .closed ∨ Halting stack))
    ?start ?called ?returned ?acted
  case start => exact fun never => never.elim
  case called =>
    intro past s stack turn call before ih _ begun _ stopped
    rcases stopped with stopped | ⟨stops, connecting, none⟩
    · rcases ih stopped with dialled | ⟨starting, closes⟩
      · exact .inl dialled.onward
      · exact .inr ⟨starting.called _, closes.imp_right (Halting.called _)⟩
    · obtain rfl : turn = .call .stop := stops
      obtain rfl : .stop = call := Option.some.inj begun
      exact .inr ⟨(starting_of_undialled before sane connecting none).called _,
        .inr ⟨_, List.mem_cons_self, .inl List.mem_cons_self⟩⟩
  case returned =>
    intro past s call below _ ih stopped
    rcases ih (stopped.resolve_right (by simp)) with dialled | ⟨starting, closes⟩
    · exact .inl dialled.onward
    · exact .inr ⟨starting.returned, closes.imp_right Halting.returned⟩
  case acted =>
    intro past s cue call rest below after outcome effects before ih _ acts seen stopped
    have planned : Planned (cue.activation call rest :: below) := planned_of_reached before
    have precedes := cue_precedes (planned.planned _ List.mem_cons_self)
    have stopped : past.StoppedWhileStarting := stoppedWhileStarting_acted stopped
    rcases ih stopped with dialled | ⟨starting, closes⟩
    · exact .inl dialled.onward
    rcases starting_of_acts acts planned starting with starting | ⟨rfl, rfl⟩
    · refine .inr ⟨starting, ?_⟩
      rcases closes with closed | halting
      · exact .inl (acts.stays_closed (orderlyStack_of_reached before) closed)
      · exact (halting_of_acts acts planned halting).symm
    · -- The call that dials is the only one, and it is not the one that stops the session.
      obtain rfl := precedes
      have closed : s.phase = .closed := by
        apply closes.resolve_right
        rintro ⟨a, among, due⟩
        obtain rfl := List.mem_singleton.mp among
        simp [Cue.activation] at due
      refine .inl ⟨_, List.mem_cons_self, closed, ?_⟩
      rw [Entry.asked, seen.asked]
      simp [acts.dialling, Outcome.asked, Await.request, Request.dial?]

/-! ## Rest -/

/-- The session has nothing any more: no connection, no timer, nothing queued; every connection
that was opened was closed or had ended, and none was dialled when the session was closed. -/
structure Course.HoldsNothing (c : Course) : Prop where
  unheld : c.now.state.connection = none
  accounted : ∀ n ∈ c.past.established, n ∈ c.past.hungUp ∨ n ∈ c.past.ended
  unset : c.now.state.timer = none
  untimed : c.past.pending = []
  emptied : c.now.state.queue.payloads = []
  undialled : ¬ c.past.DialledClosed

/-- When no call is in progress, a closed session holds nothing, exactly if it was not stopped
while it started. -/
theorem holdsNothing_iff {c : Course}
    (reached : c.Reached setup fun d turn => Surroundings.Genuine d turn ∧
      Surroundings.Timely d turn ∧ Surroundings.Quiet (fun a => a.isPrompt) d turn)
    (closed : c.phase = .closed) (rest : c.now.atRest) :
    c.HoldsNothing ↔ ¬ c.past.StoppedWhileStarting := by
  have sane : Sane fun d turn => Surroundings.Genuine d turn ∧ Surroundings.Timely d turn ∧
      Surroundings.Quiet (fun a => a.isPrompt) d turn :=
    ⟨fun _ _ permitted => permitted.1, fun _ _ permitted => permitted.2.1⟩
  have quiet : Attentive fun d turn => Surroundings.Genuine d turn ∧ Surroundings.Timely d turn ∧
      Surroundings.Quiet (fun a => a.isPrompt) d turn := fun _ _ permitted => permitted.2.2
  have none : c.now.stack = [] := by simpa [Machine.atRest] using rest
  have gone : c.phase.isOver := by rw [closed]; rfl
  have settled (t : Task) : ¬ Owes t c.now.stack := by
    rintro ⟨a, among, -⟩
    simp [none] at among
  constructor
  · intro nothing stopped
    rcases dialledClosed_of_stoppedWhileStarting reached sane stopped with dialled | ⟨starting, -⟩
    · exact nothing.undialled dialled
    · obtain ⟨a, last, -⟩ := starting
      simp [none] at last
  · intro regular
    have unheld : c.now.state.connection = Option.none := by
      rw [Option.eq_none_iff_forall_ne_some]
      intro n held
      have known : c.now.state.generation ∈ c.past.dialled :=
        current_of_reached reached sane n held ▸ (numbered_of_reached reached).held n held
      exact (owes_release reached sane gone known).elim (settled _) regular
    have untimed := (owes_cancelTimer reached sane quiet gone).resolve_right (settled _)
    refine ⟨unheld, fun n opened => ?_, ?_, untimed, ?_, fun dialled => ?_⟩
    · exact (accounted_of_reached reached sane n opened).resolve_left (by simp [unheld])
    · rw [Option.eq_none_iff_forall_ne_some]
      intro t set
      have due := ((timed_of_reached reached sane).due t set).resolve_right (by simp [none, front])
      simp [untimed] at due
    · apply (owes_discardQueue reached sane quiet gone).resolve_right
      exact fun either => either.elim (settled _) regular
    · exact regular (stoppedWhileStarting_of_dialledClosed reached sane dialled)

/-- A session that was stopped by a handler that was told that it starts. -/
def stoppedEarly : Course := Course.plays .plain {} [.call (.on "state_change" ⟨0, "watcher"⟩),
  .call .start, .call .stop, .reply .returned, .reply .returned, .reply .returned,
  .reply .returned]

theorem not_holdsNothing_stoppedEarly : stoppedEarly.phase = .closed ∧
    stoppedEarly.now.state.connection = some 3 ∧ ¬ stoppedEarly.HoldsNothing := by
  have stopped : stoppedEarly.past.StoppedWhileStarting := by
    repeat first
      | exact Or.inr ⟨rfl, rfl, rfl⟩
      | refine Or.inl ?_
  have regular := @holdsNothing_iff .plain stoppedEarly
    (Course.leads_plays (fun c => by simp) ?permits) rfl rfl
  · exact ⟨rfl, rfl, fun nothing => regular.mp nothing stopped⟩
  case permits =>
    refine ⟨⟨by simp [Call.reporter?], trivial, ?on⟩, ⟨by simp [Call.reporter?], trivial, ?start⟩,
      ⟨by simp [Call.reporter?], trivial, ?stop⟩, by simp [Course.Permits]⟩
    case on => intro a waits; cases waits
    case start => intro a waits; cases waits
    case stop => intro a waits prompt; cases waits; contradiction

end EventStream.Session
