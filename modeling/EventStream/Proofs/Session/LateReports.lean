import EventStream.Proofs.Session.Stopping

/-
# Late reports are not heard

A connection may report at any time, also long after the session has turned away from it: when the
next one is being opened, when that one is usable, and when the session is closed. Each connection
has a number, numbers only grow, and the session listens to the last one it gave out. So a report of
a connection that was left is served in three turns that change nothing and show nothing, and a
course into which such reports are put goes on as it would have without them. This is a statement
about two courses, `late_reports_unheard`, and it holds wherever the reports are put.

A session leaves a connection when it hears of its end, and when it is stopped. There is one
exception: a session that was stopped while it started dials when it is closed, and a stop that
comes later finds it closed and does nothing. The connection that it dialled is still listened to.
-/

namespace EventStream.Session

variable {setup : Setup} {allowed : Surroundings}

/-! ## Connections that were left -/

namespace Entry

variable (e : Entry)

/-- The connection whose end is served in a turn, if one is. -/
def parted? : Option Nat :=
  match e.before.stack, e.turn with
  | ⟨_, none, .serve call :: _⟩ :: _, .work => call.ending?.map Prod.fst
  | _, _ => none

/-- A stop returns in a turn. -/
def StopReturns : Prop := e.turn = .work ∧ ∃ below, e.before.stack = ⟨.stop, none, []⟩ :: below

end Entry

namespace Chronicle

variable (past : Chronicle)

/-- The connections whose end was served. -/
def parted : List Nat := past.filterMap Entry.parted?

/-- A stop has returned. -/
def Stopped : Prop := ∃ e ∈ past, e.StopReturns

end Chronicle

@[simp] theorem parted_cons (past : Chronicle) (e : Entry) :
    Chronicle.parted (e :: past) = e.parted?.toList ++ past.parted := by
  cases heard : e.parted? <;> simp [Chronicle.parted, heard]

theorem parted_called {m : Machine} {turn : Turn} {call : Call}
    (begun : turn.call? = some call) : Entry.parted? ⟨m, turn, []⟩ = none := by
  unfold Entry.parted?
  cases turn <;> first | contradiction | split <;> first | contradiction | rfl

theorem parted_acted {s : State} {cue : Cue} {call : Call} {rest : List Task}
    {below : List Activation} {effects : List Effect} {n : Nat} :
    Entry.parted? ⟨⟨s, cue.activation call rest :: below⟩, cue.turn, effects⟩ = some n ↔
      ∃ served e, cue = .task (.serve served) ∧ served.ending? = some (n, e) := by
  cases cue with
  | task t => cases t <;> simp [Entry.parted?, Cue.activation, Cue.turn]
  | answer => simp [Entry.parted?, Cue.activation]

/-- When the end of a connection is served, the session listens to a later one. -/
theorem Acts.parts {s after : State} {served : Call} {outcome : Outcome} {n : Nat} {e : Ending}
    (acts : Acts setup s (.task (.serve served)) after outcome)
    (ends : served.ending? = some (n, e)) (known : n ≤ s.generation) : n < after.generation := by
  cases acts with
  | ended same =>
      obtain ⟨rfl, -⟩ := Prod.mk.inj (Option.some.inj (ends.symm.trans same))
      exact Nat.lt_succ_self _
  | lapse lapses =>
      cases lapses with
      | ending same other =>
          obtain ⟨rfl, -⟩ := Prod.mk.inj (Option.some.inj (ends.symm.trans same))
          exact Nat.lt_of_le_of_ne known (Ne.symm other)
      | _ => contradiction
  | fault faults => cases faults <;> contradiction
  | queue queues => cases queues; contradiction
  | _ => contradiction

/-- The session listens to a later connection than any whose end was served. -/
theorem left_of_parted {c : Course} (reached : c.Reached setup allowed)
    (genuine : ∀ c turn, allowed c turn → Surroundings.Genuine c turn) :
    ∀ n ∈ c.past.parted, n < c.now.state.generation := by
  refine reached.induction (P := fun past s _ => ∀ n ∈ past.parted, n < s.generation)
    ?start ?called ?returned ?acted
  case start => simp [Chronicle.parted]
  case called =>
    intro past s stack turn call _ ih _ begun _
    simpa [parted_called begun] using ih
  case returned =>
    intro past s call below _ ih
    simpa [Entry.parted?] using ih
  case acted =>
    intro past s cue call rest below after outcome effects before ih _ acts _ n among
    rw [parted_cons, List.mem_append, Option.mem_toList, parted_acted] at among
    rcases among with ⟨served, e, rfl, ends⟩ | among
    · have known : n ∈ past.dialled := heard_of_reached before genuine _ List.mem_cons_self served
        n List.mem_cons_self (Call.reporter_of_ending ends)
      exact acts.parts ends ((numbered_of_reached before).bounded n known)
    · exact Nat.lt_of_lt_of_le (ih n among) acts.generation_le

/-! ## Stops that have returned -/

theorem stack_eq_append (outcome : Outcome) (call : Call) (rest : List Task)
    (below : List Activation) :
    outcome.stack call rest below = outcome.stack call rest [] ++ below := by
  cases outcome <;> rfl

/-- A call that stops the session closes it before it returns. -/
theorem halting_of_stop {c : Course} (reached : c.Reached setup allowed) :
    ∀ a ∈ c.now.stack, a.call = .stop → Halting [a] ∨ c.phase = .closed := by
  refine reached.induction (P := fun _ s stack =>
    ∀ a ∈ stack, a.call = .stop → Halting [a] ∨ s.phase = .closed)
    ?start ?called ?returned ?acted
  case start => simp
  case called =>
    intro past s stack turn call _ ih _ _ _ a among stops
    rcases List.mem_cons.mp among with rfl | among
    · obtain rfl : call = .stop := stops
      exact .inl ⟨_, List.mem_cons_self, .inl List.mem_cons_self⟩
    · exact ih a among stops
  case returned => exact fun _ ih a among => ih a (.tail _ among)
  case acted =>
    intro past s cue call rest below after outcome effects before ih _ acts _ a among stops
    have planned : Planned (cue.activation call rest :: below) := planned_of_reached before
    have stays := acts.stays_closed (orderlyStack_of_reached before)
    rw [stack_eq_append, List.mem_append] at among
    rcases among with among | among
    · -- The call that acts: what it does about closing the session does not hang on the others.
      have alone : Planned [cue.activation call rest] :=
        ⟨fun b single => planned.planned b (by simp_all), by simp⟩
      have same : (cue.activation call rest).call = .stop := by
        cases outcome <;> cases cue <;> simp_all [Outcome.stack, Cue.activation]
      rcases ih _ List.mem_cons_self same with halting | closed
      · rcases halting_of_acts acts alone halting with ⟨b, single, closes⟩ | closed
        · obtain rfl : b = a := by cases outcome <;> simp_all [Outcome.stack]
          exact .inl ⟨b, List.mem_cons_self, closes⟩
        · exact .inr closed
      · exact .inr (stays closed)
    · exact (ih a (.tail _ among) stops).imp_right stays

/-- A session is closed when a stop has returned. -/
theorem closed_of_stopped {c : Course} (reached : c.Reached setup allowed) :
    c.past.Stopped → c.phase = .closed := by
  refine reached.induction (P := fun past s _ => past.Stopped → s.phase = .closed)
    ?start ?called ?returned ?acted
  case start =>
    rintro ⟨e, among, -⟩
    simp at among
  case called =>
    rintro past s stack turn call _ ih _ begun _ ⟨e, among, returns, stands⟩
    rcases List.mem_cons.mp among with rfl | among
    · obtain rfl : turn = .work := returns
      contradiction
    · exact ih ⟨e, among, returns, stands⟩
  case returned =>
    rintro past s call below before ih ⟨e, among, returns, stands⟩
    rcases List.mem_cons.mp among with rfl | among
    · obtain ⟨others, stands⟩ := stands
      obtain ⟨rfl, rfl⟩ : call = .stop ∧ below = others := by simpa using stands
      apply (halting_of_stop before _ List.mem_cons_self rfl).resolve_left
      rintro ⟨a, among, closes⟩
      obtain rfl := List.mem_singleton.mp among
      simp at closes
    · exact ih ⟨e, among, returns, stands⟩
  case acted =>
    rintro past s cue call rest below after outcome effects before ih _ acts _
      ⟨e, among, returns, stands⟩
    rcases List.mem_cons.mp among with rfl | among
    · obtain ⟨others, stands⟩ := stands
      cases cue <;> simp [Cue.activation] at stands
    · exact acts.stays_closed (orderlyStack_of_reached before) (ih ⟨e, among, returns, stands⟩)

/-- A call that is going to close the session and need not turn away from the connection any more.
-/
def Activation.TurnedAway (a : Activation) : Prop :=
  .enter .closed ∈ a.tasks ∧ .release ∉ a.tasks

/-- A step that adds the closing of the session, and not the release of its connection before it,
gives up. -/
theorem Acts.closing {s after : State} {cue : Cue} {outcome : Outcome}
    (acts : Acts setup s cue after outcome) (closes : .enter .closed ∈ outcome.tasks)
    (kept : .release ∉ outcome.tasks) : cue = .task .decide := by
  cases acts with
  | giveUp => rfl
  | stop => simp [Outcome.tasks, Setup.stopping] at kept
  | ended => cases held : s.connection <;> simp [Outcome.tasks, held] at closes
  | reconnect | adopt =>
      simp only [Outcome.tasks] at closes
      split at closes <;> simp at closes
  | _ => simp [Outcome.tasks] at closes

/-- Once a call has turned away from the connection in order to close the session, the session
listens to none that was dialled, unless it was stopped while it started. -/
theorem turnedAway_of_reached {c : Course} (reached : c.Reached setup allowed)
    (sane : Sane allowed) : ∀ a ∈ c.now.stack, a.TurnedAway →
      c.now.state.generation ∈ c.past.dialled → c.past.StoppedWhileStarting := by
  refine reached.induction (P := fun past s stack => ∀ a ∈ stack, a.TurnedAway →
    s.generation ∈ past.dialled → past.StoppedWhileStarting) ?start ?called ?returned ?acted
  case start => simp
  case called =>
    rintro past s stack turn call _ ih _ _ _ a among ⟨closes, gone⟩ known
    rcases List.mem_cons.mp among with rfl | among
    · simp at closes
    · exact .inl (ih a among ⟨closes, gone⟩ (by simpa using known))
  case returned =>
    intro past s call below _ ih a among turned known
    exact .inl (ih a (.tail _ among) turned (by simpa using known))
  case acted =>
    rintro past s cue call rest below after outcome effects before ih _ acts seen a among
      ⟨closes, gone⟩ known
    have planned : Planned (cue.activation call rest :: below) := planned_of_reached before
    have precedes := cue_precedes (planned.planned _ List.mem_cons_self)
    have orderly : OrderlyStack s.phase (cue.activation call rest :: below) :=
      orderlyStack_of_reached before
    rcases acts.still_known seen (numbered_of_reached before).bounded known with
      rfl | ⟨same, known⟩
    · -- The call that dials does not close the session: it is another one, and it waits.
      obtain rfl := precedes
      have deeper : a ∈ below := by
        refine (Outcome.mem_stack among).resolve_right fun mine => ?_
        simp [mine.1, acts.dialling, Outcome.tasks] at closes
      exact .inl (stoppedWhileStarting_of_connecting before sane
        (orderly.2 a deeper .closed closes).2 _ List.mem_cons_self (.inr List.mem_cons_self))
    · rcases Outcome.mem_stack among with among | ⟨tasks, -⟩
      · exact .inl (ih a (.tail _ among) ⟨closes, gone⟩ known)
      · rw [tasks, List.mem_append] at closes gone
        rcases closes with adds | left
        · obtain rfl := acts.closing adds fun releases => gone (.inl releases)
          -- Giving up is the only prospect, so the session listens to no connection.
          have most : prospects past s _ ≤ 1 := prospects_le_one before sane
          exact absurd known (alone_of_prospect most rfl).1
        · refine .inl (ih _ List.mem_cons_self ⟨cue.mem_activation left, fun releases => ?_⟩ known)
          cases cue with
          | answer => exact gone (.inr releases)
          | task t =>
              obtain rfl := (List.mem_cons.mp releases).resolve_right fun later => gone (.inr later)
              rw [acts.releases] at same
              exact absurd same (Nat.succ_ne_self _)

/-- A closed session listens to no connection that was dialled, unless it was stopped while it
started. -/
theorem stoppedWhileStarting_of_listening {c : Course} (reached : c.Reached setup allowed)
    (sane : Sane allowed) : c.phase = .closed → c.now.state.generation ∈ c.past.dialled →
      c.past.StoppedWhileStarting := by
  refine reached.induction (P := fun past s _ => s.phase = .closed →
    s.generation ∈ past.dialled → past.StoppedWhileStarting) ?start ?called ?returned ?acted
  case start => simp
  case called =>
    intro past s stack turn call _ ih _ _ _ closed known
    exact .inl (ih closed (by simpa using known))
  case returned =>
    intro past s call below _ ih closed known
    exact .inl (ih closed (by simpa using known))
  case acted =>
    intro past s cue call rest below after outcome effects before ih _ acts seen closed known
    have precedes := cue_precedes ((planned_of_reached before).planned _ List.mem_cons_self)
    apply Or.inl
    rcases acts.still_known seen (numbered_of_reached before).bounded known with
      rfl | ⟨-, listened⟩
    · have same : after = { s with generation := s.generation + 1 } := by
        obtain rfl := acts.dialling
        exact acts.dials.2.2
      have gone : s.phase.isOver := by simpa [same, Phase.isOver] using congrArg Phase.isOver closed
      exact stoppedWhileStarting_of_connecting before sane gone _ List.mem_cons_self
        (.inr List.mem_cons_self)
    · rcases acts.phase with same | ⟨p, -, rfl, rfl, -⟩
      · exact ih (same ▸ closed) listened
      · obtain rfl : p = .closed := closed
        refine turnedAway_of_reached before sane _ List.mem_cons_self
          ⟨List.mem_cons_self, ?_⟩ listened
        rcases precedes with ⟨k, rfl⟩ | ⟨r, rfl⟩ <;> simp [Cue.activation]

/-! ## Turns that are put into a course -/

namespace Course

/-- Take turns one after the other, if they are possible. -/
def run? (setup : Setup) (c : Course) (turns : List Turn) : Option Course :=
  turns.foldlM (take? setup) c

/-- The turns in which a report is served that is not heard. -/
def reporting (call : Call) : List Turn := [.call call, .work, .work]

/-- The latter turns are the former, and reports of a connection between them wherever a call may
come. -/
inductive Interspersed (setup : Setup) (n : Nat) : Course → List Turn → List Turn → Prop
  | done {c} : Interspersed setup n c [] []
  | turn {c d turn turns later} : c.take? setup turn = some d →
      Interspersed setup n d turns later → Interspersed setup n c (turn :: turns) (turn :: later)
  | report {c call turns later} : c.now.accepts → call.reporter? = some n →
      Interspersed setup n c turns later →
      Interspersed setup n c turns (reporting call ++ later)

end Course

/-- Whether a turn shows something besides the return of a call. -/
def Effect.isShown : Effect → Bool
  | .returns => false
  | _ => true

/-- What was seen of a session, in order, apart from the return of calls. -/
def Chronicle.seen : Chronicle → List Effect
  | [] => []
  | e :: past => seen past ++ e.effects.filter Effect.isShown

/-- A report that is not heard changes nothing, and nothing is seen of it. -/
theorem serve_unheard {s : State} {call : Call} {n : Nat} (reports : call.reporter? = some n)
    (other : s.generation ≠ n) : setup.serve s call = { state := s } := by
  have deaf : s.listensTo n = false := by simpa [State.listensTo] using other
  cases call <;> simp only [Call.reporter?, Option.some.injEq, reduceCtorEq] at reports
  all_goals
    subst reports
    simp [Setup.serve, Setup.serveOpened, Setup.serveFrame, Setup.serveEnding, deaf]

/-- A call that changes nothing and leads to nothing is over after three turns. -/
theorem run_inert {c : Course} {call : Call} {effects : List Effect} (accepts : c.now.accepts)
    (inert : setup.serve c.now.state call = { state := c.now.state, effects }) :
    ∃ m served, c.run? setup (Course.reporting call) =
      some ⟨⟨served, .work, [.returns]⟩ :: ⟨m, .work, effects⟩ :: ⟨c.now, .call call, []⟩ :: c.past,
        c.now⟩ := by
  obtain ⟨past, s, stack⟩ := c
  let called : Course :=
    ⟨⟨⟨s, stack⟩, .call call, []⟩ :: past, s, ⟨call, none, [.serve call]⟩ :: stack⟩
  let served : Course :=
    ⟨⟨called.now, .work, effects⟩ :: called.past, s, ⟨call, none, []⟩ :: stack⟩
  have calls : Course.take? setup ⟨past, s, stack⟩ (.call call) = some called :=
    Course.take_of_accepts accepts call
  have performs : setup.perform s (.serve call) = { state := s, effects } := inert
  have serves : called.take? setup .work = some served := by
    simp [Course.take?, Turn.move, Machine.move?, Machine.work?, performs, Machine.take, called,
      served]
  have returns : served.take? setup .work =
      some ⟨⟨served.now, .work, [.returns]⟩ :: served.past, s, stack⟩ := rfl
  refine ⟨called.now, served.now, ?_⟩
  simp [Course.run?, Course.reporting, calls, serves, returns, served, called]

/-- A report that is not heard leaves the machine as it was. -/
theorem run_reporting {c : Course} {call : Call} {n : Nat} (accepts : c.now.accepts)
    (reports : call.reporter? = some n) (other : c.now.state.generation ≠ n) :
    ∃ d, c.run? setup (Course.reporting call) = some d ∧ d.now = c.now ∧
      d.past.seen = c.past.seen := by
  obtain ⟨m, served, ran⟩ := run_inert accepts (@serve_unheard setup _ _ _ reports other)
  exact ⟨_, ran, rfl, by simp [Chronicle.seen, Effect.isShown]⟩

/-- What a turn leads to, and what it shows, depends on the machine that it meets. -/
theorem take_alike {c d c' : Course} {turn : Turn} (taken : c.take? setup turn = some d)
    (same : c'.now = c.now) (alike : c'.past.seen = c.past.seen) :
    ∃ d', c'.take? setup turn = some d' ∧ d'.now = d.now ∧ d'.past.seen = d.past.seen := by
  obtain ⟨⟨m, effects⟩, moved, rfl⟩ := Option.map_eq_some_iff.mp taken
  refine ⟨⟨⟨c'.now, turn, effects⟩ :: c'.past, m⟩, ?_, rfl, ?_⟩
  · simp [Course.take?, same, moved]
  · simp [Chronicle.seen, alike]

theorem generation_le_of_take {c d : Course} {turn : Turn} (taken : c.take? setup turn = some d) :
    c.now.state.generation ≤ d.now.state.generation := by
  have next : Course.Next setup Surroundings.Free c d := ⟨turn, trivial, taken⟩
  cases Course.advance_of_next next with
  | called | returned => exact Nat.le_refl _
  | acted _ acts _ => exact acts.generation_le

/-- Reports of a connection that the session has left are not heard, from two machines alike. -/
theorem run_interspersed {n : Nat} {c c' d : Course} {turns later : List Turn}
    (interspersed : Course.Interspersed setup n c turns later)
    (left : n < c.now.state.generation) (ran : c.run? setup turns = some d)
    (same : c'.now = c.now) (alike : c'.past.seen = c.past.seen) :
    ∃ d', c'.run? setup later = some d' ∧ d'.now = d.now ∧ d'.past.seen = d.past.seen := by
  induction interspersed generalizing c' with
  | done =>
      obtain rfl := Option.some.inj ran
      exact ⟨c', rfl, same, alike⟩
  | turn taken _ ih =>
      obtain ⟨e, taken', same', alike'⟩ := take_alike taken same alike
      have ran' := ran
      simp only [Course.run?, List.foldlM_cons, taken, Option.bind_eq_bind,
        Option.bind_some] at ran'
      obtain ⟨d', ran'', both⟩ :=
        ih (Nat.lt_of_lt_of_le left (generation_le_of_take taken)) ran' same' alike'
      exact ⟨d', by simpa [Course.run?, taken'] using ran'', both⟩
  | report accepts reports _ ih =>
      obtain ⟨e, served, same', alike'⟩ := @run_reporting setup c' _ _ (same ▸ accepts) reports
        (same ▸ Nat.ne_of_gt left)
      obtain ⟨d', ran', both⟩ := ih left ran (same'.trans same) (alike'.trans alike)
      refine ⟨d', ?_, both⟩
      simp only [Course.run?, List.foldlM_append] at served ran' ⊢
      simpa [served] using ran'

/-- A session listens to a later connection than one that it has left: its end was served, or it
was dialled and a stop has returned. The exception are sessions that were stopped while they
started. -/
theorem left_of_over {c : Course} {n : Nat} (reached : c.Reached setup allowed)
    (sane : Sane allowed) (gone : n ∈ c.past.parted ∨
      n ∈ c.past.dialled ∧ c.past.Stopped ∧ ¬ c.past.StoppedWhileStarting) :
    n < c.now.state.generation := by
  rcases gone with parted | ⟨dialled, stopped, regular⟩
  · exact left_of_parted reached sane.genuine n parted
  · refine Nat.lt_of_le_of_ne ((numbered_of_reached reached).bounded n dialled) ?_
    rintro rfl
    exact regular (stoppedWhileStarting_of_listening reached sane
      (closed_of_stopped reached stopped) dialled)

/-- Late reports change nothing. Once the end of a connection was served, or a stop has returned
that found it dialled, its further reports may come wherever a call may: the course goes on to the
same machine, and the same is seen of it. Only a session that was stopped while it started still
hears the connection that it dialled when it was closed already. -/
theorem late_reports_unheard {c d : Course} {n : Nat} {turns later : List Turn}
    (reached : c.Reached setup fun d turn => Surroundings.Genuine d turn ∧
      Surroundings.Timely d turn)
    (gone : n ∈ c.past.parted ∨
      n ∈ c.past.dialled ∧ c.past.Stopped ∧ ¬ c.past.StoppedWhileStarting)
    (interspersed : Course.Interspersed setup n c turns later)
    (ran : c.run? setup turns = some d) :
    ∃ d', c.run? setup later = some d' ∧ d'.now = d.now ∧ d'.past.seen = d.past.seen := by
  have sane : Sane fun d turn => Surroundings.Genuine d turn ∧ Surroundings.Timely d turn :=
    ⟨fun _ _ allowed => allowed.1, fun _ _ allowed => allowed.2⟩
  exact run_interspersed interspersed (left_of_over reached sane gone) ran rfl rfl

/-- A session that was connected, lost its connection, and waits for the next attempt. -/
def dropped : Course := Course.plays .plain {} [.call .start, .reply .returned,
  .call (.opened 2), .call (.closed 2 .null), .reply (.unsent []), .reply (.scheduled 7)]

/-- The session connects again. -/
def redialling : List Turn := [.fire 7, .work, .work, .work, .work, .reply .returned, .work]

/-- The same, while the first connection still reports: when no call is in progress, when the next
connection is being opened, and when that one is held. -/
def disturbedRedialling : List Turn := Course.reporting (.opened 2) ++
  .fire 7 :: .work :: .work :: .work :: .work :: (Course.reporting (.closed 2 .null) ++
    .reply .returned :: .work :: (Course.reporting (.received 2 .null) ++ []))

theorem late_reports_unheard_dropped : dropped.past.parted = [2] ∧
    ∃ d d', dropped.run? .plain redialling = some d ∧
      dropped.run? .plain disturbedRedialling = some d' ∧
      d.now.state.connection = some 5 ∧ d'.now = d.now ∧ d'.past.seen = d.past.seen := by
  have interspersed : Course.Interspersed .plain 2 dropped redialling disturbedRedialling :=
    .report rfl rfl <| .turn rfl <| .turn rfl <| .turn rfl <| .turn rfl <| .turn rfl <|
      .report rfl rfl <| .turn rfl <| .turn rfl <| .report rfl rfl .done
  have unheard := fun d => @late_reports_unheard .plain dropped d 2 redialling disturbedRedialling
    (Course.leads_plays (fun c => by simp) ?permits) (.inl (by decide)) interspersed
  · obtain ⟨d', ran, same, alike⟩ := unheard _ rfl
    exact ⟨rfl, _, d', rfl, ran, rfl, same, alike⟩
  case permits =>
    refine ⟨⟨by simp [Call.reporter?], trivial⟩, by simp, ⟨?opened, trivial⟩, ⟨?closed, trivial⟩,
      by simp, by simp, trivial⟩
    case opened => rintro _ _ ⟨⟩ ⟨⟩; decide
    case closed => rintro _ _ ⟨⟩ ⟨⟩; decide

/-- The exception: a session that was stopped while it started, and is stopped again, still hears
that its connection has ended, and lets go of it. -/
example :
    let again := Course.plays .plain {} [.call (.on "state_change" ⟨0, "watcher"⟩), .call .start,
      .call .stop, .reply .returned, .reply .returned, .reply .returned, .reply .returned,
      .call .stop]
    again.now.state.connection = some 3 ∧
      (again.plays .plain [.call (.closed 3 .null), .reply (.unsent [])]).now.state.connection =
        none :=
  ⟨rfl, rfl⟩

end EventStream.Session
