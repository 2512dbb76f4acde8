import EventStream.Proofs.Session.Custody

/-
# A session that runs is connected or on its way

As long as its policy decides and neither taking back payloads nor setting a timer raises, a
session that connects, or is connected, loses its one prospect of a connection in one way only: it
fails to write the limit of its policy when it reports a reconnect, after the reconnect is counted
and before the timer is set. Unless that has happened a session is never stuck: when no call is in
progress it holds the connection that it dialled last, or the timer is to fire at which it dials
again. Handlers and openers may raise and call the session as they like, and so may the connections
to which it sends.
-/

namespace EventStream.Session

/-- The waits of a call on which a later connection depends. -/
def Await.isVital : Await → Bool
  | .reclaiming _ | .scheduling .. => true
  | _ => false

/-- A call that is about to go back to connecting. -/
def Activation.Falling (a : Activation) : Prop :=
  .fallBack ∈ a.tasks ∨ a.awaiting = none ∧ ∃ rest, a.tasks = .enter .connecting :: rest

/-- A session that connects or is connected has a prospect, unless it has just given up or failed to
report a reconnect; and while it is connected the prospects of its calls are those of a connection
that it lost. -/
structure Continued (setup : Setup) (past : Chronicle) (s : State) (stack : List Activation) :
    Prop where
  kept : ¬ past.Unreported setup → s.phase = .connecting ∨ s.phase = .connected →
    1 ≤ prospects past s stack ∨ ∃ later, front stack = .enter .closed :: later
  untimed : s.phase = .connected → past.pending = []
  falling : s.phase = .connected → ∀ a ∈ stack, a.prospects = 0 ∨ a.Falling

variable {setup : Setup} {allowed : Surroundings}

section

variable {past : Chronicle} {s after : State} {cue : Cue} {call : Call} {rest : List Task}
  {below : List Activation} {outcome : Outcome} {effects : List Effect} {m : Machine}

/-- The calls of a connected session go on falling, or without prospects. -/
theorem falling_of_acts (acts : Acts setup s cue after outcome) (connected : s.phase = .connected)
    (still : after.phase = .connected) (precedes : cue.Precedes rest)
    (falling : ∀ a ∈ cue.activation call rest :: below, a.prospects = 0 ∨ a.Falling) :
    ∀ a ∈ outcome.stack call rest below, a.prospects = 0 ∨ a.Falling := by
  have others : ∀ a ∈ below, a.prospects = 0 ∨ a.Falling := fun a among => falling a (.tail _ among)
  have top := falling _ List.mem_cons_self
  rw [prospects_activation] at top
  -- A step that adds no prospect leaves the call as it was, unless it falls just now.
  have onward (calm : outcome.prospects = 0) (other : cue ≠ .task .fallBack)
      (standing : cue ≠ .task (.enter .connecting)) :
      ∀ a ∈ outcome.stack call rest below, a.prospects = 0 ∨ a.Falling := by
    have mine : ahead rest = 0 ∨ .fallBack ∈ rest := by
      rcases top with none | falls | ⟨works, later, enters⟩
      · exact .inl (by omega)
      · cases cue with
        | task t =>
            refine .inr ((List.mem_cons.mp falls).resolve_left ?_)
            rintro rfl
            exact other rfl
        | answer => exact .inr falls
      · cases cue with
        | task t =>
            obtain ⟨rfl, -⟩ := List.cons.inj enters
            exact absurd rfl standing
        | answer => contradiction
    cases outcome with
    | fail => exact others
    | next first =>
        rw [Outcome.stack, List.forall_mem_cons]
        refine ⟨mine.imp (fun none => ?_) (fun falls => .inl (List.mem_append_right _ falls)),
          others⟩
        simpa [Activation.prospects, none, Outcome.prospects] using calm
    | wait a =>
        rw [Outcome.stack, List.forall_mem_cons]
        refine ⟨mine.imp (fun none => ?_) .inl, others⟩
        simpa [Activation.prospects, none, Outcome.prospects] using calm
  have unlike {p : Phase} (stands : s.phase = p) (other : p ≠ .connected) : False :=
    other (stands.symm.trans connected)
  cases acts with
  | start stands | opened stands | conclude _ stands | retry stands | giveUp stands =>
      exact (unlike stands (by simp)).elim
  | enter other =>
      obtain rfl := still
      exact absurd connected other
  | ended =>
      refine List.forall_mem_cons.mpr ⟨.inr (.inl ?_), others⟩
      simp
  | fallBack => exact List.forall_mem_cons.mpr ⟨.inr (.inr ⟨rfl, _, rfl⟩), others⟩
  | connect =>
      obtain rfl := precedes
      rcases top with none | falls | ⟨-, later, enters⟩
      · simp [Cue.prospects, Task.prospects] at none
      · simp [Cue.activation] at falls
      · simp [Cue.activation] at enters
  | lapse lapses =>
      apply onward rfl
      · rintro rfl
        cases lapses with
        | fallBack other => exact other connected
      · rintro rfl
        generalize eq : Cue.task (.enter .connecting) = cue at lapses
        cases lapses <;> simp_all
  | fault faults => exact onward rfl (by rintro rfl; cases faults) (by rintro rfl; cases faults)
  | queue queues => exact onward rfl (by rintro rfl; cases queues) (by rintro rfl; cases queues)
  | reconnect => exact onward (by simp [Outcome.prospects, connected]) (by simp) (by simp)
  | adopt =>
      refine onward ?_ (by simp) (by simp)
      simp only [Outcome.prospects]
      split <;> rfl
  | _ => exact onward rfl (by simp) (by simp)

/-- What is left of a call, and what is added to it, stays among the prospects. -/
theorem le_underway_stack (outcome : Outcome) (call : Call) (rest : List Task)
    (below : List Activation) (stays : (∀ f, outcome ≠ .fail f) ∨ ahead rest = 0) :
    outcome.prospects + ahead rest + underway below ≤
      underway (outcome.stack call rest below) := by
  cases outcome with
  | fail f =>
      rcases stays with stays | none
      · exact absurd rfl (stays f)
      · simp [Outcome.stack, Outcome.prospects, none]
  | _ => simp [Outcome.stack, Outcome.prospects, Activation.prospects]

/-- What a step adds to the prospects is among them afterwards. -/
theorem prospects_pos_of_added (past : Chronicle) (s : State) (call : Call) (rest : List Task)
    (below : List Activation) (ample : 1 ≤ outcome.prospects) :
    1 ≤ prospects past s (outcome.stack call rest below) := by
  have stays := le_underway_stack outcome call rest below
    (.inl fun f fails => by simp [fails, Outcome.prospects] at ample)
  simp only [prospects]
  omega

/-- A step that takes no prospect from its call, turns away from no connection and cancels no timer
loses none. -/
theorem prospects_pos_of_kept (seen : Seen s cue outcome effects)
    (one : 1 ≤ prospects past s (cue.activation call rest :: below))
    (trade : outcome.prospects = cue.prospects)
    (stays : (∀ f, outcome ≠ .fail f) ∨ ahead rest = 0)
    (generation : after.generation = s.generation)
    (silent : outcome.asked.filterMap Request.dial? = []) (kept : cue.cancels s = []) :
    1 ≤ prospects (⟨m, cue.turn, effects⟩ :: past) after (outcome.stack call rest below) := by
  have calls := le_underway_stack outcome call rest below stays
  have connection := live_of_seen seen m past silent generation
  have timers : past.pending.length ≤
      (Chronicle.pending (⟨m, cue.turn, effects⟩ :: past)).length := by
    rw [seen.pending, kept, List.filter_eq_self.mpr (by simp), List.length_append]
    exact Nat.le_add_right _ _
  simp only [prospects, underway_cons, prospects_activation] at one ⊢
  omega

/-- A call that releases a connection and does not stop the session dials next. -/
theorem prospects_pos_of_released (past : Chronicle) (after : State) (call : Call)
    (below : List Activation) (precedes : (Cue.task .release).Precedes rest)
    (unfinished : .enter .closed ∉ rest) (stays : ∀ f, outcome ≠ .fail f) :
    1 ≤ prospects past after (outcome.stack call rest below) := by
  rcases precedes with rfl | ⟨r, rfl⟩
  · have calls := le_underway_stack outcome call [.dial] below (.inl stays)
    simp only [ahead_cons, ahead_nil, Task.prospects] at calls
    simp only [prospects]
    omega
  · exact absurd (by simp) unfinished

/-- A call of a connected session that has a prospect, and nothing left to do afterwards, is not
about to fall back. -/
theorem not_falling_of_prospect (holds : cue.prospects = 1) (calm : cue ≠ .task .fallBack)
    (standing : cue ≠ .task (.enter .connecting)) :
    ¬ ((cue.activation call []).prospects = 0 ∨ (cue.activation call []).Falling) := by
  rintro (none | falls | ⟨works, later, enters⟩)
  · simp [prospects_activation, holds] at none
  · cases cue with
    | task t => exact calm (by simpa [Cue.activation, eq_comm] using falls)
    | answer => simp [Cue.activation] at falls
  · cases cue with
    | task t =>
        obtain ⟨rfl, -⟩ := List.cons.inj enters
        exact standing rfl
    | answer => contradiction

/-- As long as nothing vital raises and reconnects are reported, a session that runs does not lose
its prospect by a step that leaves its phase alone. -/
theorem prospect_of_acts (acts : Acts setup s cue after outcome)
    (seen : Seen s cue outcome effects)
    (total : ∀ k : Nat, 0 < k → ∃ d, setup.policy.onDisconnect k = .ok d)
    (sound : ∀ a f, cue = .answer a (.raised f) → a.isVital = false)
    (reported : ¬ Entry.Unreported setup
      ⟨⟨s, cue.activation call rest :: below⟩, cue.turn, effects⟩)
    (phases : s.phase = .connecting ∨ s.phase = .connected) (same : after.phase = s.phase)
    (planned : Planned (cue.activation call rest :: below))
    (orderly : OrderlyStack s.phase (cue.activation call rest :: below))
    (falling : s.phase = .connected →
      (cue.activation call rest).prospects = 0 ∨ (cue.activation call rest).Falling)
    (one : 1 ≤ prospects past s (cue.activation call rest :: below)) :
    1 ≤ prospects (⟨m, cue.turn, effects⟩ :: past) after (outcome.stack call rest below) ∨
      ∃ later, front (outcome.stack call rest below) = .enter .closed :: later := by
  have precedes := cue_precedes (planned.planned _ List.mem_cons_self)
  have running : s.phase.isOver = false := by
    rcases phases with phase | phase <;> simp [phase, Phase.isOver]
  have unfinished (other : ∀ p, cue ≠ .task (.enter p)) : .enter .closed ∉ rest := by
    intro finishing
    rw [over_of_finishing orderly finishing other] at running
    contradiction
  have onward (trade : outcome.prospects = cue.prospects)
      (stays : (∀ f, outcome ≠ .fail f) ∨ ahead rest = 0)
      (generation : after.generation = s.generation)
      (silent : outcome.asked.filterMap Request.dial? = []) (kept : cue.cancels s = []) :
      1 ≤ prospects (⟨m, cue.turn, effects⟩ :: past) after (outcome.stack call rest below) :=
    prospects_pos_of_kept seen one trade stays generation silent kept
  -- A connected session holds its prospect itself, or in a call that falls first.
  have fallen (holds : cue.prospects = 1) (alone : rest = []) (calm : cue ≠ .task .fallBack)
      (standing : cue ≠ .task (.enter .connecting)) : s.phase ≠ .connected := by
    subst alone
    exact fun connected => not_falling_of_prospect holds calm standing (falling connected)
  cases acts with
  | start | ended | connect | conclude | retry =>
      refine .inl (prospects_pos_of_added _ _ _ _ _ ?_)
      simp [Outcome.prospects, Task.prospects, Await.prospects]
  | reconnect =>
      obtain rfl := precedes
      have connecting : s.phase = .connecting :=
        phases.resolve_right (fallen rfl rfl (by simp) (by simp))
      refine .inl (prospects_pos_of_added _ _ _ _ _ ?_)
      simp [connecting, Outcome.prospects, Task.prospects]
  | dial =>
      apply Or.inl
      have known : s.generation + 1 ∈
          Chronicle.dialled (⟨m, (Cue.task .dial).turn, effects⟩ :: past) := by
        rw [seen.dialled]
        exact List.mem_append_right _ List.mem_cons_self
      simp only [prospects, live, if_pos known]
      omega
  | turnAway | release =>
      exact .inl (prospects_pos_of_released _ _ _ _ precedes (unfinished (by simp)) (by simp))
  | giveUp => exact .inr ⟨_, rfl⟩
  | unreported connecting retries long =>
      exact absurd ⟨rfl, connecting, ⟨_, retries⟩, (limitShown_eq_error_iff.mp long).2⟩ reported
  | cancelTimer =>
      obtain ⟨r, rfl⟩ := precedes
      exact absurd (by simp) (unfinished (by simp))
  | enter other => exact absurd same.symm other
  | scheduled =>
      apply Or.inl
      simp only [prospects, seen.pending, Cue.sets, Reply.timer?, List.length_append,
        Option.toList_some, List.length_singleton]
      omega
  | lapse lapses =>
      refine .inl (onward ?_ (.inl (by simp)) rfl rfl ?_)
      · cases lapses with
        | conclude _ other | decide other =>
            exact absurd (phases.resolve_left other) (fallen rfl precedes (by simp) (by simp))
        | @ending served _ _ ends =>
            cases served <;> first | rfl | contradiction
        | _ => rfl
      · cases lapses <;> rfl
  | fault faults =>
      cases faults with
      | policy _ fails =>
          obtain ⟨d, decides⟩ := total (s.attempts + 1) (Nat.succ_pos _)
          rw [decides] at fails
          contradiction
      | reclaiming | scheduling => exact absurd (sound _ _ rfl) (by simp [Await.isVital])
      | emptied | draining =>
          refine .inl (onward rfl (.inr ?_) rfl rfl rfl)
          rcases precedes with rfl | rfl <;> rfl
      | _ =>
          obtain rfl := precedes
          exact .inl (onward rfl (.inr rfl) rfl rfl rfl)
  | queue queues => refine .inl (onward ?_ (.inl (by simp)) rfl rfl ?_) <;> cases queues <;> rfl
  | adopt =>
      refine .inl (onward ?_ (.inl (by simp)) rfl rfl rfl)
      simp only [Outcome.prospects]
      split <;> rfl
  | _ => exact .inl (onward rfl (.inl (by simp)) rfl rfl rfl)

/-- While a session is connected, no timer is set. -/
theorem untimed_of_acts (acts : Acts setup s cue after outcome) (seen : Seen s cue outcome effects)
    (precedes : cue.Precedes rest)
    (falling : (cue.activation call rest).prospects = 0 ∨ (cue.activation call rest).Falling)
    (untimed : past.pending = []) : Chronicle.pending (⟨m, cue.turn, effects⟩ :: past) = [] := by
  rw [seen.pending, untimed, List.filter_nil, List.nil_append]
  rcases acts.timer with ⟨-, -, unset, -⟩ | ⟨-, -, unset, -⟩ | ⟨-, rfl⟩ | ⟨k, d, t, -, rfl⟩
  · exact unset
  · exact unset
  · rfl
  · obtain rfl := precedes
    exact absurd falling (not_falling_of_prospect rfl (by simp) (by simp))

/-- A session is connected with no other prospect than its connection. -/
theorem poised_of_enter (opening : live past s = 1)
    (most : prospects past s ((Cue.task (.enter .connected)).activation call rest :: below) ≤ 1)
    (seen : Seen s (.task (.enter .connected)) outcome effects) (p : Phase) :
    Chronicle.pending (⟨m, .work, effects⟩ :: past) = [] ∧
      ∀ a ∈ (⟨call, none, .emit (.phaseChanged p .connected) :: rest⟩ :: below : List Activation),
        a.prospects = 0 ∨ a.Falling := by
  have pending : Chronicle.pending (⟨m, .work, effects⟩ :: past) = past.pending := by
    simpa [Cue.turn, Cue.cancels, Cue.sets, List.filter_eq_self.mpr] using seen.pending m past
  simp only [prospects, underway_cons, prospects_activation, opening] at most
  refine ⟨pending ▸ List.eq_nil_of_length_eq_zero (by omega), fun a among => .inl ?_⟩
  rcases List.mem_cons.mp among with rfl | among
  · have none : ahead rest = 0 := by omega
    simp [Activation.prospects, Task.prospects, none]
  · have mine := le_underway among
    omega

/-- A running phase is entered with a prospect: the one that the call has left, or the connection
that has reported that it is usable. -/
theorem prospects_pos_of_enter {p : Phase} (running : p = .connecting ∨ p = .connected)
    (precedes : (Cue.task (.enter p)).Precedes rest) (opening : p = .connected → live past s = 1)
    (seen : Seen s (.task (.enter p)) (.next [.emit (.phaseChanged s.phase p)]) effects) :
    1 ≤ prospects (⟨m, .work, effects⟩ :: past) { s with phase := p }
      (⟨call, none, .emit (.phaseChanged s.phase p) :: rest⟩ :: below) := by
  have unchanged : live (⟨m, .work, effects⟩ :: past) { s with phase := p } = live past s :=
    live_of_seen seen m past rfl rfl
  rcases running with rfl | rfl
  · have ample : ahead rest = 1 := by rcases precedes with rfl | ⟨e, rfl⟩ <;> rfl
    simp only [prospects, underway_cons, Activation.prospects, ahead_cons]
    omega
  · simp only [prospects, unchanged, opening rfl]
    omega

end

/-- While a session is connected no timer is to fire, and the prospects of its calls are those of a
connection that it lost. -/
theorem poised_of_reached {c : Course} (reached : c.Reached setup allowed) (sane : Sane allowed) :
    c.phase = .connected →
      c.past.pending = [] ∧ ∀ a ∈ c.now.stack, a.prospects = 0 ∨ a.Falling := by
  refine reached.induction (P := fun past s stack => s.phase = .connected →
    past.pending = [] ∧ ∀ a ∈ stack, a.prospects = 0 ∨ a.Falling) ?start ?called ?returned ?acted
  case start => simp
  case called =>
    intro past s stack turn call before ih permitted begun free connected
    obtain ⟨untimed, falling⟩ := ih connected
    have timely := sane.timely _ _ permitted
    cases turn with
    | fire t => simp [Surroundings.Timely, untimed] at timely
    | call served =>
        obtain rfl : served = call := by simpa [Turn.call?] using begun
        refine ⟨by simpa using untimed, List.forall_mem_cons.mpr ⟨.inl ?_, falling⟩⟩
        cases served <;> first | rfl | exact timely.elim
    | _ => contradiction
  case returned =>
    intro past s call below _ ih connected
    obtain ⟨untimed, falling⟩ := ih connected
    exact ⟨by simpa using untimed, fun a among => falling a (.tail _ among)⟩
  case acted =>
    intro past s cue call rest below after outcome effects before ih _ acts seen connected
    have precedes := cue_precedes ((planned_of_reached before).planned _ List.mem_cons_self)
    rcases acts.phase with same | ⟨p, other, rfl, rfl, rfl⟩
    · obtain ⟨untimed, falling⟩ := ih (same ▸ connected)
      exact ⟨untimed_of_acts acts seen precedes (falling _ List.mem_cons_self) untimed,
        falling_of_acts acts (same ▸ connected) connected precedes falling⟩
    · obtain rfl : p = .connected := connected
      exact poised_of_enter (live_of_opening before sane rfl) (prospects_le_one before sane) seen _

theorem continued_of_reached {c : Course} (reached : c.Reached setup allowed) (sane : Sane allowed)
    (sound : ∀ c turn, allowed c turn → Surroundings.Sound (fun a => a.isVital) c turn)
    (total : ∀ k : Nat, 0 < k → ∃ d, setup.policy.onDisconnect k = .ok d) :
    Continued setup c.past c.now.state c.now.stack := by
  have poised := poised_of_reached reached sane
  refine ⟨?_, fun connected => (poised connected).1, fun connected => (poised connected).2⟩
  refine reached.induction (P := fun past s stack => ¬ past.Unreported setup →
    s.phase = .connecting ∨ s.phase = .connected →
    1 ≤ prospects past s stack ∨ ∃ later, front stack = .enter .closed :: later)
    ?start ?called ?returned ?acted
  case start => simp
  case called =>
    intro past s stack turn call before kept permitted begun free reported running
    rw [prospects_called (sane.timely _ _ permitted) begun]
    exact .inl ((kept (fun was => reported (was.cons _)) running).resolve_right
      (by simp [front_of_waiting free]))
  case returned =>
    intro past s call below before kept reported running
    have one := (kept (fun was => reported (was.cons _)) running).resolve_right (by simp)
    exact .inl (by simpa [prospects, live, Activation.prospects] using one)
  case acted =>
    intro past s cue call rest below after outcome effects before kept permitted acts seen reported
      running
    obtain ⟨now, earlier⟩ := not_or.mp (mt unreported_cons.mpr reported)
    have planned : Planned (cue.activation call rest :: below) := planned_of_reached before
    have precedes := cue_precedes (planned.planned _ List.mem_cons_self)
    have falling := fun connected => (poised_of_reached before sane connected).2
    rcases acts.phase with same | ⟨p, other, rfl, rfl, rfl⟩
    · rw [same] at running
      rcases kept earlier running with one | ⟨later, enters⟩
      · refine prospect_of_acts acts seen total (fun a f answers => ?_) now running same planned
          (orderlyStack_of_reached before) (fun connected => falling connected _ List.mem_cons_self)
          one
        subst answers
        have fine := sound _ _ permitted a f rfl
        simpa [Cue.turn] using fine
      · cases cue with
        | answer => contradiction
        | task t =>
            obtain ⟨rfl, -⟩ := List.cons.inj enters
            have closed : s.phase = .closed := same.symm.trans acts.entered
            simp [closed] at running
    · exact .inl (prospects_pos_of_enter running precedes
        (fun opens => live_of_opening before sane (by subst opens; rfl)) seen)

/-! ## Rest -/

namespace Course

/-- No timer of the session is to fire. -/
def Untimed (c : Course) : Prop := c.now.state.timer = none ∧ c.past.pending = []

end Course

/-- A session that connects and has neither a connection nor a timer. -/
structure Course.Stuck (c : Course) : Prop where
  connecting : c.phase = .connecting
  unheld : c.now.state.connection = none
  unheard : c.now.state.generation ∉ c.past.dialled
  untimed : c.Untimed

theorem stuck_of_hopeless {c : Course} (reached : c.Reached setup allowed) (sane : Sane allowed)
    (connecting : c.phase = .connecting)
    (hopeless : prospects c.past c.now.state c.now.stack = 0) : c.Stuck := by
  have unheard : c.now.state.generation ∉ c.past.dialled := by
    intro known
    simp [prospects, live, known] at hopeless
  have empty : c.past.pending = [] := by
    simp only [prospects] at hopeless
    exact List.eq_nil_of_length_eq_zero (by omega)
  refine ⟨connecting, Option.eq_none_iff_forall_ne_some.mpr fun n held => unheard ?_, unheard,
    Option.eq_none_iff_forall_ne_some.mpr fun t set => ?_, empty⟩
  · exact current_of_reached reached sane n held ▸ (numbered_of_reached reached).held n held
  · rcases (timed_of_reached reached sane).due t set with due | fired
    · simp [empty] at due
    · obtain ⟨past, s, stack⟩ := c
      rcases stack with _ | ⟨⟨call, _ | a, tasks⟩, below⟩
      · contradiction
      · obtain rfl : tasks = [.serve .reconnect] := fired
        simp [prospects, Activation.prospects, Task.prospects] at hopeless
      · contradiction

section

variable {c : Course} (reached : c.Reached setup allowed) (sane : Sane allowed)
  (rest : c.now.atRest)

include reached rest

include sane

end

section

variable {policy : ReconnectPolicy Number} {base factor : Int}
  (whole : policy.baseDelay = .int base) (multiple : policy.multiplier = .int factor) (k : Int)

include whole multiple

/-- A policy whose delay and multiplier are integers has a delay at every attempt. -/
theorem delays_of_int : ∃ delay, policy.delayFor k = .ok delay := by
  simp only [ReconnectPolicy.delayFor, whole, multiple]
  exact ⟨_, rfl⟩

/-- Such a policy retries up to its limit. -/
theorem retries_of_int {limit : Int} (limited : policy.maxAttempts = some limit)
    (within : k ≤ limit) : ∃ delay, policy.onDisconnect k = .ok (.retry delay) := by
  obtain ⟨delay, delayed⟩ := delays_of_int whole multiple k
  have unspent : ¬ policy.maxAttempts.any (· < k) = true := by simpa [limited] using within
  rw [ReconnectPolicy.onDisconnect, if_neg unspent, delayed]
  exact ⟨delay, rfl⟩

end

/-- A session that lost its connection before it was usable, and waits for the next attempt. -/
def lost : Course := Course.plays .plain {} [.call .start, .reply .returned,
  .call (.closed 2 .null), .reply (.unsent []), .reply (.scheduled 7)]

/-- A session that may reconnect so often that the number cannot be written. -/
def Setup.tireless : Setup :=
  { Setup.plain with policy := ⟨⟨some (Nat.pow 10 Numeral.digitLimit), .int 2, .int 1, none⟩,
    by decide +kernel⟩ }

theorem lt_length_toDigits {n : Nat} (pos : 0 < n) :
    n < (Nat.toDigits 10 (Nat.pow 10 n)).length :=
  Nat.lt_of_not_le fun short =>
    Nat.lt_irrefl _ ((Nat.length_toDigits_le_iff (by decide) pos).mp short)

theorem unwritable_tireless : Setup.tireless.Unwritable :=
  ⟨_, rfl, by rw [Int.natAbs_natCast]; exact lt_length_toDigits (by decide)⟩

theorem retries_tireless :
    ∃ delay, Setup.tireless.policy.onDisconnect (1 : Nat) = .ok (.retry delay) :=
  retries_of_int rfl rfl 1 rfl (by decide +kernel)

/-- The fault of a connection that cannot be opened. -/
def unreachable : Fault := .raised .runtime "no running event loop"

/-- The session when its first connection could not be opened, and it is to ask its policy. -/
def unopened : Course :=
  let started := Course.play .tireless {} (.call .start)
  Course.settle .tireless 5
    ((started.take? .tireless (.reply (.raised unreachable))).getD started)

/-- The session when it has counted the reconnect, and has failed to write the limit. -/
def forsaken : Course :=
  ⟨⟨unopened.now, .work, [.raises CoercionError.textOfLong.toFault]⟩ :: unopened.past,
    { phase := .connecting, generation := 3, attempts := 1 }, []⟩

theorem take_unopened : unopened.take? .tireless .work = some forsaken := by
  obtain ⟨delay, decided⟩ := retries_tireless
  exact take_of_unreported rfl decided unwritable_tireless

theorem unreported_unopened (effects : List Effect) :
    Entry.Unreported .tireless ⟨unopened.now, .work, effects⟩ :=
  ⟨rfl, rfl, retries_tireless, unwritable_tireless⟩

theorem unreported_forsaken : forsaken.past.Unreported .tireless :=
  ⟨_, List.mem_cons_self, unreported_unopened _⟩

/-- Where the session may be started and its connection may fail to open, it comes to this. -/
theorem reached_forsaken (works : ∀ c, allowed c .work) (starts : allowed {} (.call .start))
    (fails : ∀ c, c.now.awaiting? = some (.dialling 2) →
      allowed c (.reply (.raised unreachable))) : forsaken.Reached .tireless allowed := by
  refine .tail (.trans (Course.leads_play works starts) (.trans (Course.leads_take (fails _ rfl))
    (Course.leads_settle works 5 _))) ⟨.work, works _, take_unopened⟩

end EventStream.Session
