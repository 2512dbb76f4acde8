import EventStream.Proofs.Policy.Backoff
import EventStream.Proofs.Session.Continuity

/-
# Sessions whose policy has no delay

When a connection has ended, a session asks its policy for the delay of the next reconnect. If the
arithmetic of the delay raises, the fault leaves the call before a timer is set. The session then
has no prospect of a connection any more, but it is still connecting: it holds no connection, no
timer is to fire, and unless it is stopped it stays so for good.

Under a capped policy this happens exactly at the attempts at which the delay is computed from a
number that is out of range, and at every attempt if the policy has a limit that cannot be written:
then the session fails when it reports the reconnect. Without a limit only the delay matters.
-/

namespace EventStream.Session

variable {setup : Setup} {allowed : Surroundings}

/-! ## Stranded sessions -/

/-- The tasks after which a session is on its way out. -/
def Task.isParting : Task → Bool
  | .serve .stop | .enter .closing | .enter .closed => true
  | _ => false

/-- A session that connects without a prospect of a connection, and that nothing is to close. -/
structure Stranded (past : Chronicle) (s : State) (stack : List Activation) : Prop where
  connecting : s.phase = .connecting
  hopeless : prospects past s stack = 0
  lasting : ∀ a ∈ stack, ∀ t ∈ a.tasks, t.isParting = false

section

variable {past : Chronicle} {s after : State} {cue : Cue} {call : Call} {rest : List Task}
  {below : List Activation} {outcome : Outcome} {effects : List Effect} {m : Machine}

/-- A step adds tasks that close the session only when it serves a stop or follows a policy that
gives up. -/
theorem Acts.departs (acts : Acts setup s cue after outcome) :
    (∀ t ∈ outcome.tasks, t.isParting = false) ∨ cue = .task (.serve .stop) ∨
      cue.prospects = 1 := by
  cases acts with
  | stop => exact .inr (.inl rfl)
  | giveUp => exact .inr (.inr rfl)
  | reconnect | adopt =>
      left
      simp only [Outcome.tasks]
      split <;> simp [Task.isParting]
  | ended =>
      left
      cases s.connection <;> simp [Outcome.tasks, Task.isParting]
  | _ => exact .inl (by simp [Outcome.tasks, Task.isParting])

theorem prospects_of_stranded (stranded : Stranded past s (cue.activation call rest :: below)) :
    cue.prospects = 0 := by
  have hopeless := stranded.hopeless
  simp only [prospects, underway_cons, prospects_activation] at hopeless
  omega

/-- A stranded session dials nothing and stays where it is. -/
theorem stranded_of_acts
    (before : Course.Reached setup allowed ⟨past, s, cue.activation call rest :: below⟩)
    (sane : Sane allowed) (acts : Acts setup s cue after outcome)
    (seen : Seen s cue outcome effects)
    (stranded : Stranded past s (cue.activation call rest :: below)) :
    Stranded (⟨m, cue.turn, effects⟩ :: past) after (outcome.stack call rest below) ∧
      Chronicle.dialled (⟨m, cue.turn, effects⟩ :: past) = past.dialled := by
  obtain ⟨connecting, hopeless, lasting⟩ := stranded
  have none : cue.prospects = 0 := prospects_of_stranded ⟨connecting, hopeless, lasting⟩
  have mine {t : Task} (stands : cue = .task t) : t.isParting = false := by
    subst stands
    exact lasting _ List.mem_cons_self t List.mem_cons_self
  refine ⟨⟨?_, ?_, fun a among t pending => ?_⟩, ?_⟩
  · rcases acts.phase with same | ⟨p, other, rfl, rfl, rfl⟩
    · exact same.trans connecting
    -- Being connected takes a connection that is listened to, and that would be a prospect.
    · have calm := mine rfl
      cases p with
      | idle => exact (cue_precedes ((planned_of_reached before).planned _ List.mem_cons_self)).elim
      | connecting => rfl
      | connected =>
          have listening : live past s = 1 := live_of_opening before sane rfl
          simp [prospects, listening] at hopeless
      | closing | closed => contradiction
  · have fewer := prospects_stack_le (m := m) before sane acts seen
      fun _ => by simp [connecting]
    omega
  · rcases Outcome.mem_tasks cue among pending with added | ⟨b, was, held⟩
    · rcases acts.departs with calm | stops | one
      · exact calm t added
      · exact absurd (mine stops) (by simp [Task.isParting])
      · omega
    · exact lasting b was t held
  · have silent := acts.undialling (by rintro rfl; contradiction)
    rw [seen.dialled, silent, List.append_nil]

end

/-- The same surroundings, in which nobody stops the session. -/
def Surroundings.Unstopped (allowed : Surroundings) : Surroundings :=
  fun c turn => allowed c turn ∧ turn ≠ .call .stop

theorem stranded_of_next {c d : Course} (reached : c.Reached setup allowed) (sane : Sane allowed)
    (stranded : Stranded c.past c.now.state c.now.stack)
    (next : Course.Next setup allowed.Unstopped c d) :
    Stranded d.past d.now.state d.now.stack ∧ d.past.dialled = c.past.dialled := by
  cases Course.advance_of_next next with
  | @called past s stack turn call permitted begun =>
      refine ⟨⟨stranded.connecting, ?_, List.forall_mem_cons.mpr ⟨?_, stranded.lasting⟩⟩, by simp⟩
      · exact (prospects_called (sane.timely _ _ permitted.1) begun).trans stranded.hopeless
      · intro t serves
        obtain rfl := List.mem_singleton.mp serves
        cases call with
        | stop =>
            cases turn with
            | call served =>
                obtain rfl : served = .stop := by simpa [Turn.call?] using begun
                exact absurd rfl permitted.2
            | _ => simp [Turn.call?] at begun
        | _ => rfl
  | returned =>
      refine ⟨⟨stranded.connecting, ?_, fun a among => stranded.lasting a (.tail _ among)⟩, by simp⟩
      simpa [prospects, live, Activation.prospects] using stranded.hopeless
  | acted _ acts seen => exact stranded_of_acts reached sane acts seen stranded

/-- Only a call that stops it frees a stranded session. -/
theorem stranded_of_leads {c d : Course} (reached : c.Reached setup allowed) (sane : Sane allowed)
    (stranded : Stranded c.past c.now.state c.now.stack)
    (leads : Course.Leads setup allowed.Unstopped c d) :
    d.Reached setup allowed ∧ Stranded d.past d.now.state d.now.stack ∧
      d.past.dialled = c.past.dialled := by
  induction leads with
  | refl => exact ⟨reached, stranded, rfl⟩
  | tail _ next ih =>
      obtain ⟨reached, stranded, same⟩ := ih
      obtain ⟨stranded, unchanged⟩ := stranded_of_next reached sane stranded next
      exact ⟨reached.tail (next.imp fun _ taken => ⟨taken.1.1, taken.2⟩), stranded,
        unchanged.trans same⟩

/-! ## Asking the policy -/

/-- A session whose connection has ended, and that is to ask its policy for the next reconnect. The
policy allows one more. -/
structure Course.Deciding (setup : Setup) (c : Course) : Prop where
  connecting : c.phase = .connecting
  asks : ∃ later, front c.now.stack = .decide :: later
  left : ¬ setup.policy.Spent (c.now.state.attempts + 1 : Nat)

/-- The session goes on to set the timer of its next reconnect, with a delay of at most the cap. -/
def Course.Retries (setup : Setup) (cap : Number) (c : Course) : Prop :=
  ∃ next d, c.take? setup .work = some next ∧ d.AtMost cap ∧
    next.now.state = { c.now.state with attempts := c.now.state.attempts + 1 } ∧
    next.now.awaiting? = some (.scheduling (c.now.state.attempts + 1) d)

/-- A fault leaves the call, and this state is left. Until it is stopped the session dials nothing
and has neither a connection nor a timer. -/
def Course.Fails (setup : Setup) (allowed : Surroundings) (f : Fault) (after : State) (c : Course) :
    Prop :=
  ∃ next, c.take? setup .work = some next ∧
    next.past = ⟨c.now, .work, [.raises f]⟩ :: c.past ∧ next.now.state = after ∧
    ∀ d, Leads setup allowed.Unstopped next d → d.Stuck ∧ d.past.dialled = c.past.dialled

/-- A fault of arithmetic leaves the call, and the session is as it was. -/
def Course.Strands (setup : Setup) (allowed : Surroundings) (c : Course) : Prop :=
  ∃ e : ArithmeticError, c.Fails setup allowed e.toFault c.now.state

section

variable {past : Chronicle} {s : State} {call : Call} {rest : List Task} {below : List Activation}

theorem take_of_raised {f : Fault} (connecting : s.phase = .connecting)
    (raised : setup.policy.onDisconnect (s.attempts + 1 : Nat) = .error f) :
    Course.take? setup ⟨past, s, ⟨call, none, .decide :: rest⟩ :: below⟩ .work =
      some ⟨⟨⟨s, ⟨call, none, .decide :: rest⟩ :: below⟩, .work, [.raises f]⟩ :: past,
        s, below⟩ := by
  have fails : setup.perform s .decide = { state := s, outcome := .fail f } := by
    simp only [Setup.perform, Setup.decide, connecting, if_true, raised]
  simp [Course.take?, Turn.move, Machine.move?, Machine.work?, fails, Machine.take]

theorem take_of_retry {d : Number} (connecting : s.phase = .connecting)
    (decided : setup.policy.onDisconnect (s.attempts + 1 : Nat) = .ok (.retry d))
    (written : ¬ setup.Unwritable) :
    ∃ e, Course.take? setup ⟨past, s, ⟨call, none, .decide :: rest⟩ :: below⟩ .work =
      some ⟨e :: past, { s with attempts := s.attempts + 1 },
        ⟨call, some (.scheduling (s.attempts + 1) d), rest⟩ :: below⟩ := by
  obtain ⟨limit, shown⟩ : ∃ limit, setup.limitShown = .ok limit := by
    cases shown : setup.limitShown with
    | ok limit => exact ⟨limit, rfl⟩
    | error e => exact absurd (limitShown_eq_error_iff.mp shown).2 written
  have waits : setup.perform s .decide = {
      state := { s with attempts := s.attempts + 1 }
      effects := setup.waitReport (s.attempts + 1) d limit
      outcome := .wait (.scheduling (s.attempts + 1) d) } := by
    simp only [Setup.perform, Setup.decide, connecting, if_true, decided, Setup.retry, shown]
  simp [Course.take?, Turn.move, Machine.move?, Machine.work?, waits, Machine.take]

/-- A session is stranded when a fault leaves the call in which it decides: the call was its only
prospect. -/
theorem stranded_of_failed {after : State} {f : Fault} {m : Machine}
    (reached : Course.Reached setup allowed ⟨past, s, ⟨call, none, .decide :: rest⟩ :: below⟩)
    (sane : Sane allowed) (connecting : after.phase = .connecting) (phase : after.phase = s.phase)
    (same : after.generation = s.generation) :
    Stranded (⟨m, .work, [.raises f]⟩ :: past) after below := by
  have seen : Seen s (.task .decide) (.fail f) [.raises f] := ⟨rfl⟩
  have planned := planned_of_reached reached
  have most : prospects past s ((Cue.task .decide).activation call rest :: below) ≤ 1 :=
    prospects_le_one reached sane
  refine ⟨connecting, prospects_forgone seen m most rfl rfl rfl rfl same, fun a among t left => ?_⟩
  -- The calls below wait, and what they have left closes only a session that is on its way out.
  have settled := (orderlyStack_of_reached reached).2 a among
  have plan := planned.planned a (.tail _ among)
  obtain ⟨called, awaiting, tasks⟩ := a
  obtain ⟨w, rfl⟩ := Option.isSome_iff_exists.mp (planned.waiting _ among)
  have late := (Await.Precedes.left plan).isLate t left
  cases t with
  | serve => contradiction
  | enter p =>
      have gone : s.phase.isOver = true := (settled p left).2
      simp [← phase, connecting, Phase.isOver] at gone
  | _ => rfl

theorem fails_of_take {after : State} {f : Fault}
    (reached : Course.Reached setup allowed ⟨past, s, ⟨call, none, .decide :: rest⟩ :: below⟩)
    (sane : Sane allowed) (works : ∀ c, allowed c .work) (connecting : s.phase = .connecting)
    (phase : after.phase = s.phase) (same : after.generation = s.generation)
    (taken : Course.take? setup ⟨past, s, ⟨call, none, .decide :: rest⟩ :: below⟩ .work =
      some ⟨⟨⟨s, ⟨call, none, .decide :: rest⟩ :: below⟩, .work, [.raises f]⟩ :: past, after,
        below⟩) :
    Course.Fails setup allowed f after ⟨past, s, ⟨call, none, .decide :: rest⟩ :: below⟩ := by
  refine ⟨_, taken, rfl, rfl, fun d leads => ?_⟩
  have onward : Course.Reached setup allowed _ := reached.tail ⟨.work, works _, taken⟩
  obtain ⟨known, stranded, dialled⟩ := stranded_of_leads onward sane
    (stranded_of_failed reached sane (phase.trans connecting) phase same) leads
  refine ⟨stuck_of_hopeless known sane stranded.connecting stranded.hopeless, dialled.trans ?_⟩
  exact (Chronicle.dialled_cons _ _).trans (List.append_nil _)

theorem retries_of_retry {cap d : Number} (connecting : s.phase = .connecting)
    (decided : setup.policy.onDisconnect (s.attempts + 1 : Nat) = .ok (.retry d))
    (written : ¬ setup.Unwritable) (least : d.AtMost cap) :
    Course.Retries setup cap ⟨past, s, ⟨call, none, .decide :: rest⟩ :: below⟩ := by
  obtain ⟨e, taken⟩ := take_of_retry connecting decided written
  exact ⟨_, d, taken, least, rfl, rfl⟩

end

/-! ## Sessions under a capped policy -/

section

variable {cap : Number}

/-- A session goes no further in a row than to the last reconnect for which its policy has a
delay. -/
theorem attempts_le (capped : setup.policy.Capped cap) {last : Nat}
    (beyond : ∀ attempt : Int, last < attempt → setup.policy.Outgrown attempt) {c : Course}
    (reached : c.Reached setup allowed) : c.now.state.attempts ≤ last := by
  refine reached.induction (P := fun _ s _ => s.attempts ≤ last) ?start ?called ?returned ?acted
  case start => exact Nat.zero_le last
  case called => exact fun _ ih _ _ _ => ih
  case returned => exact fun _ ih => ih
  case acted =>
    intro past s cue call rest below after outcome effects _ ih _ acts _
    cases acts with
    | opened => exact Nat.zero_le last
    | retry _ decided | unreported _ decided =>
        have near := ReconnectPolicy.not_outgrown_of_retry capped decided
        by_contra further
        exact near (beyond _ (by exact_mod_cast Nat.lt_of_not_le further))
    | _ => exact ih

/-- A session whose policy has a delay at every attempt is never stranded, unless it cannot report a
reconnect. -/
theorem unstranded_of_rest (capped : setup.policy.Capped cap)
    (never : ∀ attempt, ¬ setup.policy.Outgrown attempt) {c : Course}
    (reached : c.Reached setup allowed) (sane : Sane allowed)
    (sound : ∀ c turn, allowed c turn → Surroundings.Sound (fun a => a.isVital) c turn)
    (rest : c.now.atRest) (running : c.phase = .connecting ∨ c.phase = .connected)
    (reported : ¬ c.past.Unreported setup) :
    c.now.state.generation ∈ c.past.dialled ∨ c.past.pending ≠ [] := by
  have none : c.now.stack = [] := by simpa [Machine.atRest] using rest
  have continued := continued_of_reached reached sane sound
    fun k _ => (ReconnectPolicy.decides_iff capped k).mpr (.inr (never k))
  have one : 1 ≤ prospects c.past c.now.state c.now.stack :=
    (continued.kept reported running).resolve_right (by simp [none, front])
  simp only [prospects, none, underway_nil] at one
  by_contra lost
  obtain ⟨unknown, empty⟩ := not_or.mp lost
  simp [live, unknown, not_not.mp empty] at one

/-- A session that is to ask its policy sets a timer within the cap, or it is stranded. -/
theorem retries_or_fails (capped : setup.policy.Capped cap) (sane : Sane allowed)
    (works : ∀ c, allowed c .work) {c : Course} (reached : c.Reached setup allowed)
    (deciding : c.Deciding setup) :
    setup.policy.Outgrown (c.now.state.attempts + 1 : Nat) ∧ c.Strands setup allowed ∨
      ¬ setup.policy.Outgrown (c.now.state.attempts + 1 : Nat) ∧
        (¬ setup.Unwritable ∧ c.Retries setup cap ∨
          setup.Unwritable ∧ c.Fails setup allowed CoercionError.textOfLong.toFault
            { c.now.state with attempts := c.now.state.attempts + 1 }) := by
  obtain ⟨connecting, ⟨later, asks⟩, left⟩ := deciding
  obtain ⟨past, s, stack⟩ := c
  rcases stack with _ | ⟨⟨call, _ | a, tasks⟩, below⟩
  · contradiction
  · obtain rfl : tasks = .decide :: later := asks
    rcases ReconnectPolicy.raises_or_delays capped (s.attempts + 1 : Nat) with
      ⟨far, e, -, raised⟩ | ⟨near, d, -, least, decided⟩
    · exact .inl ⟨far, e, fails_of_take reached sane works connecting rfl rfl
        (take_of_raised connecting (raised left))⟩
    · refine .inr ⟨near, ?_⟩
      by_cases unwritten : setup.Unwritable
      · exact .inr ⟨unwritten, fails_of_take reached sane works connecting rfl rfl
          (take_of_unreported connecting (decided left) unwritten)⟩
      · exact .inl ⟨unwritten, retries_of_retry connecting (decided left) unwritten least⟩
  · contradiction

end

/-- Surroundings in which what reports was dialled, and timers fire once and in time. -/
def Surroundings.Lawful : Surroundings := fun c turn => Genuine c turn ∧ Timely c turn

theorem sane_lawful : Sane Surroundings.Lawful :=
  ⟨fun _ _ allowed => allowed.1, fun _ _ allowed => allowed.2⟩

/-- A policy with a cap has a delay at an attempt, and of at most the cap, unless the delay is
computed from a number that is out of range. It is never outgrown only if it counts in integers
where it grows, and if it doubles it is outgrown from the 1025th attempt on.

A session follows it as long as it has a delay. When it has none the session is stranded, and so it
is if the policy has a limit that cannot be written. -/
theorem capped_or_stranded {cap : Number} (capped : setup.policy.Capped cap) :
    (∀ attempt, setup.policy.Outgrown attempt ∧ setup.policy.Raises attempt ∨
      ¬ setup.policy.Outgrown attempt ∧ setup.policy.Delays cap attempt) ∧
    (∀ attempt, (∃ decision, setup.policy.onDisconnect attempt = .ok decision) ↔
      setup.policy.Spent attempt ∨ ¬ setup.policy.Outgrown attempt) ∧
    ((∀ attempt, ¬ setup.policy.Outgrown attempt) ↔ setup.policy.multiplier.IsInt ∧
      (setup.policy.baseDelay.IsInt ∨ setup.policy.multiplier = .int 1)) ∧
    (Number.AtMost (.int 2) setup.policy.multiplier →
      ¬ (setup.policy.baseDelay.IsInt ∧ setup.policy.multiplier.IsInt) →
      (∀ attempt : Int, 1025 ≤ attempt → setup.policy.Outgrown attempt) ∧
        ∀ c : Course, c.Reached setup .Free → c.now.state.attempts ≤ 1024) ∧
    (∀ c : Course, c.Reached setup .Lawful → c.Deciding setup →
      setup.policy.Outgrown (c.now.state.attempts + 1 : Nat) ∧ c.Strands setup .Lawful ∨
        ¬ setup.policy.Outgrown (c.now.state.attempts + 1 : Nat) ∧
          (¬ setup.Unwritable ∧ c.Retries setup cap ∨
            setup.Unwritable ∧ c.Fails setup .Lawful CoercionError.textOfLong.toFault
              { c.now.state with attempts := c.now.state.attempts + 1 })) ∧
    ((∀ attempt, ¬ setup.policy.Outgrown attempt) → ∀ c : Course,
      (c.Reached setup fun d turn => Surroundings.Lawful d turn ∧
        Surroundings.Sound (fun a => a.isVital) d turn) →
      c.now.atRest → c.phase = .connecting ∨ c.phase = .connected → ¬ c.past.Unreported setup →
      c.now.state.generation ∈ c.past.dialled ∨ c.past.pending ≠ []) := by
  refine ⟨ReconnectPolicy.raises_or_delays capped, ReconnectPolicy.decides_iff capped,
    setup.policy.never_outgrown_iff, fun two double => ?_, fun c reached deciding => ?_,
    fun never c reached rest running reported => ?_⟩
  · have beyond (attempt : Int) (late : 1025 ≤ attempt) : setup.policy.Outgrown attempt :=
      ReconnectPolicy.outgrown_of_two_le two double late
    exact ⟨beyond, fun c reached => attempts_le capped (fun k past => beyond k past) reached⟩
  · exact retries_or_fails capped sane_lawful (fun c => ⟨by simp, trivial⟩) reached deciding
  · have sane : Sane fun d turn => Surroundings.Lawful d turn ∧
        Surroundings.Sound (fun a => a.isVital) d turn :=
      ⟨fun _ _ allowed => allowed.1.1, fun _ _ allowed => allowed.1.2⟩
    exact unstranded_of_rest capped never reached sane (fun _ _ allowed => allowed.2) rest running
      reported

/-! ### A session that is stranded -/

/-- A session without a limit, whose delays grow beyond all doubles at the third reconnect, although
none is to exceed half a minute. -/
def Setup.escalating : Setup where
  endpoint := "ws://localhost/plain"
  decode _ := .nothing []
  policy := ⟨⟨none, .float 1.0, .int (10 ^ 200 : Nat), some (.float 30.0)⟩, by decide +kernel⟩

/-- The turns in which that session is started and reconnects twice, and in which each of its
connections is closed. The last connection gives back what it has not sent. -/
def escalation : List Turn :=
  [.call .start, .reply .returned, .call (.closed 2 .null), .reply (.unsent []),
    .reply (.scheduled 7), .fire 7, .reply .returned, .call (.closed 5 .null), .reply (.unsent []),
    .reply (.scheduled 8), .fire 8, .reply .returned, .call (.closed 8 .null), .reply (.unsent [])]

/-- A course without its last turn. -/
def Course.former (c : Course) : Course :=
  match c.past with
  | [] => {}
  | e :: earlier => ⟨earlier, e.before⟩

theorem Course.Reached.former {c : Course} (reached : c.Reached setup allowed) :
    c.former.Reached setup allowed := by
  obtain ⟨past, now⟩ := c
  cases past with
  | nil => exact .refl
  | cons e earlier => exact (next_of_suffix reached (List.suffix_refl (e :: earlier))).1

/-- The session when it is about to ask its policy for the third time. -/
def undecided : Course := (Course.plays .escalating {} escalation).former

theorem capped_escalating : Setup.escalating.policy.Capped (.float 30.0) :=
  ⟨show Binary64.isFinite 1.0 = true by decide +kernel, trivial,
    show Binary64.isFinite 30.0 = true by decide +kernel, rfl⟩

/-- A connection that was dialled may report that it was closed, and a timer that is due may fire;
the session may be started and answered at any time. -/
theorem permits_escalation : Course.Permits .escalating .Lawful {} escalation := by
  have works (c : Course) : Surroundings.Lawful c .work := ⟨by simp, trivial⟩
  have answered (c : Course) (r : Reply) : Surroundings.Lawful c (.reply r) := ⟨by simp, trivial⟩
  have started (c : Course) : Surroundings.Lawful c (.call .start) :=
    ⟨by simp [Call.reporter?], trivial⟩
  have closed (c : Course) (n : Nat) (known : n ∈ c.past.dialled) :
      Surroundings.Lawful c (.call (.closed n .null)) :=
    ⟨by simp [Call.reporter?, known], trivial⟩
  have fired (c : Course) (t : Nat) (due : t ∈ c.past.pending) :
      Surroundings.Lawful c (.fire t) := by
    refine ⟨fun call n begun reports => ?_, due⟩
    obtain rfl : Call.reconnect = call := by simpa [Turn.call?] using begun
    contradiction
  exact ⟨started _, answered _ _, closed _ 2 (by decide +kernel), answered _ _, answered _ _,
    fired _ 7 (by decide +kernel), answered _ _, closed _ 5 (by decide +kernel), answered _ _,
    answered _ _, fired _ 8 (by decide +kernel), answered _ _, closed _ 8 (by decide +kernel),
    answered _ _, trivial⟩

theorem reached_undecided : undecided.Reached .escalating .Lawful :=
  Course.Reached.former
    (Course.leads_plays (fun c => ⟨by simp, trivial⟩) permits_escalation)

/-- The task of asking the policy. -/
def Task.isDeciding : Task → Bool
  | .decide => true
  | _ => false

theorem exists_of_isDeciding {tasks : List Task} (asks : tasks.head?.any Task.isDeciding = true) :
    ∃ later, tasks = .decide :: later := by
  cases tasks with
  | nil => contradiction
  | cons task later =>
      cases task with
      | decide => exact ⟨later, rfl⟩
      | _ => contradiction

theorem deciding_undecided : undecided.Deciding .escalating := by
  refine ⟨by decide +kernel, exists_of_isDeciding (by decide +kernel), ?_⟩
  rintro ⟨limit, ⟨⟩, -⟩

theorem outgrown_escalating : Setup.escalating.policy.Outgrown 3 := by
  have large : 2 ^ (53 + 970 + 1) ≤ (10 ^ 200) ^ 2 := by decide +kernel
  have far : ((Binary64.overflow : Nat) : Int) ≤ (((10 ^ 200 : Nat) ^ 2 : Nat) : Int) :=
    Int.ofNat_le.mpr (Binary64.overflow_le.trans large)
  rwa [Nat.cast_pow] at far

/-- The third reconnect is never made, and the session is stranded. -/
theorem capped_or_stranded_escalating : Setup.escalating.policy.Capped (.float 30.0) ∧
    undecided.now.state.attempts = 2 ∧ undecided.Strands .escalating .Lawful := by
  have two : undecided.now.state.attempts = 2 := by decide +kernel
  obtain ⟨-, -, -, -, session, -⟩ := capped_or_stranded capped_escalating
  refine ⟨capped_escalating, two, ?_⟩
  rcases session undecided reached_undecided deciding_undecided with ⟨-, strands⟩ | ⟨near, -⟩
  · exact strands
  · rw [two] at near
    exact absurd outgrown_escalating near

end EventStream.Session
