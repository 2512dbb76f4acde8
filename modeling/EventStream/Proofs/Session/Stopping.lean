import EventStream.Proofs.Session.Custody

/-
# Sessions on their way out

A session is stopped in steps: it is on its way out, its timer is cancelled, its connection is
closed, its queue is dropped, and it is closed. No step of a stop is ever lost, so what is not done
yet is owed by a call in progress, and when no call is in progress nothing is owed.

There is one gap. A session that starts makes its first phase known before it dials, and does not
look again whether it was stopped meanwhile. A session that is stopped right then is closed, and
then dials; what it dialled is held, and nobody closes it. This is the only gap: a session on its
way out that is about to connect, or still listens to a connection that it is not going to close,
was stopped while it started.
-/

namespace EventStream.Session

variable {setup : Setup} {allowed : Surroundings}

/-! ## What a stop owes -/

/-- The last steps of a stop. -/
inductive Finishing : List Task → Prop
  | cancelTimer (r) :
      Finishing [.cancelTimer, .release, .discardQueue, .enter .closed, .report r]
  | release (r) : Finishing [.release, .discardQueue, .enter .closed, .report r]
  | discardQueue (r) : Finishing [.discardQueue, .enter .closed, .report r]
  | closed (r) : Finishing [.enter .closed, .report r]

/-- What is left of a call that will close the session is the rest of a stop. -/
theorem Left.finishing {rest : List Task} (left : Left rest) (closes : .enter .closed ∈ rest) :
    Finishing rest := by
  cases left with
  | told follows =>
      cases follows <;> simp at closes
      exact .cancelTimer _
  | dial | fallBack => simp at closes
  | release r => exact .release r
  | discardQueue r => exact .discardQueue r
  | closed r => exact .closed r

/-- A call that a fault leaves has at most reports left to make. -/
theorem Acts.rest_of_fail {s after : State} {cue : Cue} {f : Fault} {rest : List Task}
    (acts : Acts setup s cue after (.fail f)) (precedes : cue.Precedes rest) :
    rest = [] ∨ rest = [.emit .opened] ∨ ∃ e, rest = [.fallBack, .conclude e] := by
  cases acts with
  | unreported => exact .inl precedes
  | fault faults =>
      cases faults with
      | emptied | draining => exact precedes.imp_right .inl
      | reclaiming => exact .inr (.inr precedes)
      | _ => exact .inl precedes

/-- A step of a stop is still to be done by some call. -/
def Owes (t : Task) (stack : List Activation) : Prop :=
  ∃ a ∈ stack, t ∈ a.tasks ∧ .enter .closed ∈ a.tasks

/-- Some call is going to close the session. -/
def Halting (stack : List Activation) : Prop :=
  ∃ a ∈ stack, .serve .stop ∈ a.tasks ∨ .enter .closed ∈ a.tasks

section

variable {s after : State} {cue : Cue} {call : Call} {rest : List Task}
  {below : List Activation} {outcome : Outcome} {t : Task}

theorem Owes.called {stack : List Activation} (a : Activation) (owes : Owes t stack) :
    Owes t (a :: stack) := by
  obtain ⟨b, among, due⟩ := owes
  exact ⟨b, List.mem_cons_of_mem a among, due⟩

/-- A call that has returned owes nothing. -/
theorem Owes.returned (owes : Owes t (⟨call, none, []⟩ :: below)) : Owes t below := by
  obtain ⟨a, among, due, closes⟩ := owes
  refine ⟨a, (List.mem_cons.mp among).resolve_left ?_, due, closes⟩
  rintro rfl
  simp at due

/-- A step of a stop is owed until it is done. -/
theorem owes_of_acts (acts : Acts setup s cue after outcome)
    (planned : Planned (cue.activation call rest :: below)) (other : cue ≠ .task t)
    (stops : t = .cancelTimer ∨ t = .release ∨ t = .discardQueue ∨ t = .enter .closed)
    (owes : Owes t (cue.activation call rest :: below)) :
    Owes t (outcome.stack call rest below) := by
  have precedes := cue_precedes (planned.planned _ List.mem_cons_self)
  obtain ⟨a, among, due, closes⟩ := owes
  rcases List.mem_cons.mp among with rfl | among
  · have mine : t ∈ rest ∧ .enter .closed ∈ rest := by
      cases cue with
      | answer => exact ⟨due, closes⟩
      | task u =>
          have left : t ∈ rest := (List.mem_cons.mp due).resolve_left fun same => other (same ▸ rfl)
          refine ⟨left, (List.mem_cons.mp closes).resolve_left ?_⟩
          rintro rfl
          rcases precedes with ⟨k, rfl⟩ | ⟨r, rfl⟩ <;> simp at left <;> simp [left] at stops
    cases outcome with
    | fail f => rcases acts.rest_of_fail precedes with rfl | rfl | ⟨e, rfl⟩ <;> simp at mine
    | next first =>
        exact ⟨_, List.mem_cons_self, List.mem_append_right _ mine.1,
          List.mem_append_right _ mine.2⟩
    | wait => exact ⟨_, List.mem_cons_self, mine⟩
  · refine ⟨a, ?_, due, closes⟩
    cases outcome with
    | fail => exact among
    | _ => exact List.mem_cons_of_mem _ among

/-- A call that is going to close the session does so. -/
theorem halting_of_acts (acts : Acts setup s cue after outcome)
    (planned : Planned (cue.activation call rest :: below))
    (halting : Halting (cue.activation call rest :: below)) :
    Halting (outcome.stack call rest below) ∨ after.phase = .closed := by
  have precedes := cue_precedes (planned.planned _ List.mem_cons_self)
  obtain ⟨a, among, closes⟩ := halting
  rcases List.mem_cons.mp among with rfl | among
  · have stage : cue = .task (.serve .stop) ∨ cue = .task (.enter .closed) ∨
        .enter .closed ∈ rest := by
      cases cue with
      | answer => exact .inr (.inr (closes.resolve_left fun stops =>
          absurd (precedes.left.isLate _ stops) (by simp [Task.isLate])))
      | task t =>
          rcases closes with stops | closes
          · rcases List.mem_cons.mp stops with rfl | left
            · exact .inl rfl
            · exact absurd (precedes.left.isLate _ left) (by simp [Task.isLate])
          · rcases List.mem_cons.mp closes with rfl | left
            · exact .inr (.inl rfl)
            · exact .inr (.inr left)
    rcases stage with rfl | rfl | left
    · cases acts with
      | stop => exact .inl ⟨_, List.mem_cons_self, .inr (by simp [Setup.stopping])⟩
      | ended ends => contradiction
      | fault faults => cases faults
      | queue queues => cases queues
      | lapse lapses =>
          cases lapses with
          | stop closed => exact .inr closed
          | ending ends => contradiction
    · exact .inr acts.entered
    · cases outcome with
      | next first => exact .inl ⟨_, List.mem_cons_self, .inr (List.mem_append_right first left)⟩
      | wait => exact .inl ⟨_, List.mem_cons_self, .inr left⟩
      | fail => rcases acts.rest_of_fail precedes with rfl | rfl | ⟨e, rfl⟩ <;> simp at left
  · refine .inl ⟨a, ?_, closes⟩
    cases outcome with
    | fail => exact among
    | _ => exact List.mem_cons_of_mem _ among

end

theorem Halting.called {stack : List Activation} (a : Activation) (halting : Halting stack) :
    Halting (a :: stack) := by
  obtain ⟨b, among, closes⟩ := halting
  exact ⟨b, List.mem_cons_of_mem a among, closes⟩

theorem Halting.returned {call : Call} {below : List Activation}
    (halting : Halting (⟨call, none, []⟩ :: below)) : Halting below := by
  obtain ⟨a, among, closes⟩ := halting
  refine ⟨a, (List.mem_cons.mp among).resolve_left ?_, closes⟩
  rintro rfl
  simp at closes

/-- A session that is on its way out is going to be closed. -/
theorem halting_of_closing {c : Course} (reached : c.Reached setup allowed) :
    c.phase = .closing → Halting c.now.stack := by
  refine reached.induction (P := fun _ s stack => s.phase = .closing → Halting stack)
    ?start ?called ?returned ?acted
  case start => simp
  case called => exact fun _ ih _ _ _ closing => (ih closing).called _
  case returned => exact fun _ ih closing => (ih closing).returned
  case acted =>
    intro past s cue call rest below after outcome effects before ih _ acts _ closing
    have planned : Planned (cue.activation call rest :: below) := planned_of_reached before
    rcases acts.phase with same | ⟨p, other, rfl, rfl, rfl⟩
    · refine (halting_of_acts acts planned (ih (same ▸ closing))).resolve_right fun closed => ?_
      simp [closing] at closed
    · obtain rfl : p = .closing := closing
      obtain ⟨r, rfl⟩ := cue_precedes (planned.planned _ List.mem_cons_self)
      exact ⟨_, List.mem_cons_self, .inr (by simp)⟩

/-! ## Sessions that are stopped while they start -/

namespace Chronicle

/-- A session was stopped when it was connecting and had not dialled yet: its handlers were being
told that it starts. -/
def StoppedWhileStarting : Chronicle → Prop
  | [] => False
  | e :: past => StoppedWhileStarting past ∨
      e.turn = .call .stop ∧ e.before.state.phase = .connecting ∧ dialled past = []

end Chronicle

/-- A session is stopped by a call, not by a call that goes on. -/
theorem stoppedWhileStarting_acted {past : Chronicle} {cue : Cue} {m : Machine}
    {effects : List Effect}
    (stopped : Chronicle.StoppedWhileStarting (⟨m, cue.turn, effects⟩ :: past)) :
    past.StoppedWhileStarting := by
  rcases stopped with stopped | ⟨stops, -⟩
  · exact stopped
  · cases cue <;> contradiction

/-- A session that is about to be stopped while it starts was told so just now. -/
theorem stoppedWhileStarting_of_stop {c : Course} (reached : c.Reached setup allowed) :
    (front c.now.stack = [.serve .stop] ∨ ∃ later, front c.now.stack = .enter .closing :: later) →
      c.phase = .connecting → c.past.dialled = [] → c.past.StoppedWhileStarting := by
  refine reached.induction (P := fun past s stack =>
    (front stack = [.serve .stop] ∨ ∃ later, front stack = .enter .closing :: later) →
      s.phase = .connecting → past.dialled = [] → past.StoppedWhileStarting)
    ?start ?called ?returned ?acted
  case start => simp
  case called =>
    intro past s stack turn call _ _ _ begun _ stops connecting none
    obtain rfl : call = .stop := by simpa using stops
    refine Or.inr ⟨?_, connecting, by simpa using none⟩
    cases turn <;> simp_all [Turn.call?]
  case returned =>
    intro past s call below before _ stops
    have waits : front below = [] := (planned_of_reached before).front_below
    simp [waits] at stops
  case acted =>
    intro past s cue call rest below after outcome effects before ih _ acts seen stops connecting
      none
    have planned : Planned (cue.activation call rest :: below) := planned_of_reached before
    have precedes := cue_precedes (planned.planned _ List.mem_cons_self)
    rw [seen.dialled] at none
    rcases stops with serves | ⟨later, enters⟩
    · obtain ⟨first, rfl, -⟩ := planned.added rfl serves
      obtain ⟨n, f, fails, -⟩ := acts.origin _ List.mem_cons_self
      contradiction
    · obtain ⟨first, rfl, -⟩ := planned.added rfl enters
      obtain ⟨rfl, rfl⟩ := acts.origin _ List.mem_cons_self
      obtain rfl := precedes
      exact Or.inl (ih (.inl rfl) connecting (List.append_eq_nil_iff.mp none).1)

theorem Acts.givingUp {s after : State} {cue : Cue} {outcome : Outcome} {first : List Task}
    (acts : Acts setup s cue after outcome) (enters : outcome.tasks = .enter .closed :: first) :
    cue = .task .decide ∧ after = s.clearQueue ∧ ∃ k, first = [.emit (.gaveUp k)] := by
  cases acts with
  | giveUp => exact ⟨rfl, rfl, _, (List.cons.inj enters).2.symm⟩
  | ended => cases held : s.connection <;> simp [Outcome.tasks, held] at enters
  | reconnect | adopt =>
      simp only [Outcome.tasks] at enters
      split at enters <;> simp at enters
  | _ => simp [Outcome.tasks, Setup.stopping] at enters

/-- A session that gives up has no prospects left, and nothing is queued. -/
theorem none_of_givingUp {c : Course} (reached : c.Reached setup allowed) (sane : Sane allowed)
    {later : List Task} : front c.now.stack = .enter .closed :: later → c.phase.isOver = false →
      prospects c.past c.now.state c.now.stack = 0 ∧ c.now.state.queue.payloads = [] := by
  refine reached.induction (P := fun past s stack => front stack = .enter .closed :: later →
    s.phase.isOver = false → prospects past s stack = 0 ∧ s.queue.payloads = [])
    ?start ?called ?returned ?acted
  case start => simp [front]
  case called => simp
  case returned =>
    intro past s call below before _ enters
    have waits : front below = [] := (planned_of_reached before).front_below
    simp [waits] at enters
  case acted =>
    intro past s cue call rest below after outcome effects before ih _ acts seen enters running
    have planned : Planned (cue.activation call rest :: below) := planned_of_reached before
    have precedes := cue_precedes (planned.planned _ List.mem_cons_self)
    have orderly : OrderlyStack s.phase (cue.activation call rest :: below) :=
      orderlyStack_of_reached before
    cases outcome with
    | wait => contradiction
    | fail =>
        have waits : front below = [] := planned.front_below
        simp [Outcome.stack, waits] at enters
    | next first =>
        have stands : first ++ rest = .enter .closed :: later := enters
        cases first with
        | nil =>
            -- The rest of a stop is met only by a session that is on its way out.
            obtain rfl : rest = .enter .closed :: later := stands
            have other (p : Phase) : cue ≠ .task (.enter p) := by
              rintro rfl
              cases p <;> simp [Cue.Precedes, Task.Precedes] at precedes
            have gone := over_of_finishing orderly List.mem_cons_self other
            rcases acts.phase with same | ⟨p, -, enters, -⟩
            · rw [← same, running] at gone
              contradiction
            · exact absurd enters (other p)
        | cons u first =>
            obtain ⟨rfl, -⟩ := List.cons.inj stands
            obtain ⟨rfl, rfl, k, rfl⟩ := acts.givingUp rfl
            obtain rfl := precedes
            exact ⟨prospects_forgone seen _ (prospects_le_one before sane) rfl rfl rfl rfl rfl, rfl⟩

/-- A call that is about to connect. -/
def Activation.Connecting (a : Activation) : Prop := .connect ∈ a.tasks ∨ .dial ∈ a.tasks

/-- Only a session that starts, or goes on connecting, comes to connect. -/
theorem Acts.connects {s after : State} {cue : Cue} {outcome : Outcome}
    (acts : Acts setup s cue after outcome)
    (adds : .connect ∈ outcome.tasks ∨ .dial ∈ outcome.tasks) :
    s.phase.isOver = false ∨ cue = .task .connect := by
  rcases adds with connects | dials
  · rcases acts.origin _ connects with ⟨-, idle⟩ | ⟨-, connecting⟩
    · exact .inl (by rw [idle]; rfl)
    · exact .inl (by rw [connecting]; rfl)
  · exact .inr (acts.origin _ dials)

theorem prospects_of_connecting {a : Activation} (connecting : a.Connecting) : 1 ≤ a.prospects := by
  rcases connecting with connects | dials
  · exact prospects_pos connects rfl
  · exact prospects_pos dials rfl

/-- A call that waits, and connects as soon as it goes on, starts the session. -/
theorem undialled_of_connecting {c : Course} (reached : c.Reached setup allowed)
    (sane : Sane allowed) {a : Activation} (among : a ∈ c.now.stack) (waits : a.awaiting.isSome)
    (connecting : a.Connecting) : c.past.dialled = [] := by
  rcases connecting with connects | dials
  · apply (undialled_of_connect reached sane a among connects).resolve_left
    rintro ⟨works, -⟩
    simp [works] at waits
  · simp [working_of_dial reached sane a among dials] at waits

/-- A session that is about to leave while a call is about to connect was stopped while it
started. -/
theorem stoppedWhileStarting_of_leaving {past : Chronicle} {s : State} {p : Phase} {call : Call}
    {rest : List Task} {below : List Activation}
    (before : Course.Reached setup allowed
      ⟨past, s, (Cue.task (.enter p)).activation call rest :: below⟩)
    (sane : Sane allowed) (running : s.phase.isOver = false) (leaves : p.isOver = true)
    {b : Activation} (among : b ∈ (Cue.task (.enter p)).activation call rest :: below)
    (connecting : b.Connecting) : past.StoppedWhileStarting := by
  have planned : Planned ((Cue.task (.enter p)).activation call rest :: below) :=
    planned_of_reached before
  have precedes := cue_precedes (planned.planned _ List.mem_cons_self)
  rcases List.mem_cons.mp among with rfl | deeper
  · -- The call that stops the session, or gives up, is not the one that connects.
    cases p with
    | closing =>
        obtain ⟨r, rfl⟩ := precedes
        simp [Activation.Connecting, Cue.activation] at connecting
    | closed =>
        rcases precedes with ⟨k, rfl⟩ | ⟨r, rfl⟩ <;>
          simp [Activation.Connecting, Cue.activation] at connecting
    | _ => contradiction
  · have none : past.dialled = [] := undialled_of_connecting before sane
      among (planned.waiting b deeper) connecting
    cases p with
    | closing =>
        refine stoppedWhileStarting_of_stop before (.inr ⟨rest, rfl⟩) ?_ none
        cases phase : s.phase with
        | connecting => exact phase
        | idle =>
            have alone := ((unstarted_of_reached before sane phase).serving _
              List.mem_cons_self).1
            obtain rfl : below = [] := by simpa using alone
            contradiction
        | connected => exact absurd none (dialled_of_connected before sane phase)
        | _ => simp [phase, Phase.isOver] at running
    | closed =>
        have mine := prospects_of_connecting connecting
        have theirs := le_underway deeper
        have zero : prospects past s _ = 0 := (none_of_givingUp before sane rfl running).1
        simp only [prospects, underway_cons] at zero
        omega
    | _ => contradiction

/-- A session that is on its way out, and yet about to connect, was stopped while it started. -/
theorem stoppedWhileStarting_of_connecting {c : Course} (reached : c.Reached setup allowed)
    (sane : Sane allowed) : c.phase.isOver → ∀ a ∈ c.now.stack, a.Connecting →
      c.past.StoppedWhileStarting := by
  refine reached.induction (P := fun past s stack => s.phase.isOver → ∀ a ∈ stack, a.Connecting →
    past.StoppedWhileStarting) ?start ?called ?returned ?acted
  case start => simp
  case called =>
    intro past s stack turn call _ ih _ _ _ gone a among connecting
    rcases List.mem_cons.mp among with rfl | among
    · simp [Activation.Connecting] at connecting
    · exact Or.inl (ih gone a among connecting)
  case returned =>
    intro past s call below _ ih gone a among connecting
    exact Or.inl (ih gone a (.tail _ among) connecting)
  case acted =>
    intro past s cue call rest below after outcome effects before ih _ acts seen gone a among
      connecting
    apply Or.inl
    have earlier : (.connect ∈ outcome.tasks ∨ .dial ∈ outcome.tasks) ∨
        ∃ b ∈ cue.activation call rest :: below, b.Connecting := by
      rcases connecting with connects | dials
      · rcases Outcome.mem_tasks cue among connects with adds | ⟨b, among, connects⟩
        · exact .inl (.inl adds)
        · exact .inr ⟨b, among, .inl connects⟩
      · rcases Outcome.mem_tasks cue among dials with adds | ⟨b, among, dials⟩
        · exact .inl (.inr adds)
        · exact .inr ⟨b, among, .inr dials⟩
    by_cases was : s.phase.isOver
    · rcases earlier with adds | ⟨b, among, connecting⟩
      · rcases acts.connects adds with running | rfl
        · simp [running] at was
        · exact ih was _ List.mem_cons_self (.inl List.mem_cons_self)
      · exact ih was b among connecting
    · rcases acts.phase with same | ⟨p, other, rfl, rfl, rfl⟩
      · exact absurd (same ▸ gone) was
      obtain ⟨b, among, connecting⟩ := earlier.resolve_left (by simp [Outcome.tasks])
      exact stoppedWhileStarting_of_leaving before sane (by simpa using was) gone among connecting

/-- A session comes to be on its way out in two ways: it is stopped, and then every step of the stop
is owed; or it gives up, and then it has no prospects left and nothing is queued. -/
theorem owes_of_leaving {past : Chronicle} {s after : State} {cue : Cue} {call : Call}
    {rest : List Task} {below : List Activation} {outcome : Outcome}
    (before : Course.Reached setup allowed ⟨past, s, cue.activation call rest :: below⟩)
    (sane : Sane allowed) (acts : Acts setup s cue after outcome) (running : ¬ s.phase.isOver)
    (gone : after.phase.isOver) :
    (∀ t ∈ [.cancelTimer, .release, .discardQueue], Owes t (outcome.stack call rest below)) ∨
      cue = .task (.enter .closed) ∧ after = { s with phase := .closed } ∧ outcome.asked = [] ∧
        prospects past s (cue.activation call rest :: below) = 0 ∧ s.queue.payloads = [] := by
  have planned : Planned (cue.activation call rest :: below) := planned_of_reached before
  have precedes := cue_precedes (planned.planned _ List.mem_cons_self)
  rcases acts.phase with same | ⟨p, other, rfl, rfl, rfl⟩
  · exact absurd (same ▸ gone) running
  cases p with
  | closing =>
      obtain ⟨r, rfl⟩ := precedes
      refine .inl fun t due => ⟨_, List.mem_cons_self, ?_, by simp⟩
      simp only [List.mem_cons, List.not_mem_nil, or_false] at due
      rcases due with rfl | rfl | rfl <;> simp
  | closed =>
      exact .inr ⟨rfl, rfl, rfl, none_of_givingUp before sane rfl (Bool.eq_false_iff.mpr running)⟩
  | _ => contradiction

/-- A session that is on its way out, and listens to a connection, is going to close it, unless it
was stopped while it started. -/
theorem owes_release {c : Course} (reached : c.Reached setup allowed) (sane : Sane allowed) :
    c.phase.isOver → c.now.state.generation ∈ c.past.dialled →
      Owes .release c.now.stack ∨ c.past.StoppedWhileStarting := by
  refine reached.induction (P := fun past s stack => s.phase.isOver →
    s.generation ∈ past.dialled → Owes .release stack ∨ past.StoppedWhileStarting)
    ?start ?called ?returned ?acted
  case start => simp [Phase.isOver]
  case called =>
    intro past s stack turn call _ ih _ _ _ gone known
    exact (ih gone (by simpa using known)).imp (Owes.called _) Or.inl
  case returned =>
    intro past s call below _ ih gone known
    exact (ih gone (by simpa using known)).imp Owes.returned Or.inl
  case acted =>
    intro past s cue call rest below after outcome effects before ih _ acts seen gone known
    have planned : Planned (cue.activation call rest :: below) := planned_of_reached before
    have bounded : ∀ n ∈ past.dialled, n ≤ s.generation := (numbered_of_reached before).bounded
    by_cases was : s.phase.isOver
    · rcases acts.still_known seen bounded known with rfl | ⟨same, known⟩
      · exact .inr (Or.inl (stoppedWhileStarting_of_connecting before sane was _ List.mem_cons_self
          (.inr List.mem_cons_self)))
      · refine (ih was known).imp (owes_of_acts acts planned ?_ (.inr (.inl rfl))) Or.inl
        rintro rfl
        rw [acts.releases] at same
        exact Nat.succ_ne_self _ same
    · rw [seen.dialled] at known
      rcases owes_of_leaving before sane acts was gone with owes | ⟨rfl, rfl, silent, zero, -⟩
      · exact .inl (owes _ (by simp))
      · have known : s.generation ∈ past.dialled := by simpa [silent] using known
        simp [prospects, live, known] at zero

end EventStream.Session
