import EventStream.Proofs.Session.Prospects

/-
# What becomes of connections and timers

A session holds the connection that it dialled last, or none, and it has the timer that is to fire,
or none. A connection that was opened and is not held any longer was closed by the session, or it
had reported its end.
-/

namespace EventStream.Session

variable {setup : Setup} {allowed : Surroundings}

/-- A session holds no other connection than the one to which it listens. -/
theorem current_of_reached {c : Course} (reached : c.Reached setup allowed) (sane : Sane allowed) :
    ∀ n, c.now.state.connection = some n → n = c.now.state.generation := by
  refine reached.induction (P := fun _ s _ => ∀ n, s.connection = some n → n = s.generation)
    ?start ?called ?returned ?acted
  case start => simp
  case called => exact fun _ ih _ _ _ => ih
  case returned => exact fun _ ih => ih
  case acted =>
    intro past s cue call rest below after outcome effects before ih _ acts _ n holds
    rcases acts.holds holds with held | ⟨rfl, rfl⟩
    · cases acts with
      | ended | turnAway | release => exact absurd holds (by simp [State.turnAway])
      | dial =>
          -- A call that is about to dial is the only prospect, so nothing is held.
          have one : prospects past s _ ≤ 1 := prospects_le_one before sane
          have known : n ∈ past.dialled := (numbered_of_reached before).held n held
          exact absurd (ih n held ▸ known) (alone_of_prospect one rfl).1
      | _ => exact ih n held
    · cases acts <;> rfl

/-! ## Timers -/

/-- What a step does about the timer. -/
theorem Acts.timer {s after : State} {cue : Cue} {outcome : Outcome}
    (acts : Acts setup s cue after outcome) :
    (after.timer = s.timer ∧ cue.cancels s = [] ∧ cue.sets = [] ∧
        cue ≠ .task (.serve .reconnect)) ∨
      (after.timer = none ∧ cue.cancels s = [] ∧ cue.sets = [] ∧ cue.prospects = 1) ∨
      (after.timer = none ∧ cue = .task .cancelTimer) ∨
      ∃ k d t, after.timer = some t ∧ cue = .answer (.scheduling k d) (.scheduled t) := by
  cases acts with
  | connect | reconnect => exact .inr (.inl ⟨rfl, rfl, rfl, rfl⟩)
  | cancelTimer => exact .inr (.inr (.inl ⟨rfl, rfl⟩))
  | scheduled k d t => exact .inr (.inr (.inr ⟨k, d, t, rfl, rfl⟩))
  | lapse lapses =>
      refine .inl ⟨rfl, ?_⟩
      cases lapses <;> simp_all [Cue.cancels, Cue.sets, Reply.timer?]
      rintro rfl
      contradiction
  | fault faults =>
      refine .inl ⟨rfl, ?_⟩
      cases faults <;> simp [Cue.cancels, Cue.sets, Reply.timer?]
  | queue queues =>
      refine .inl ⟨rfl, ?_⟩
      cases queues <;> simp [Cue.cancels, Cue.sets, Reply.timer?]
  | told _ _ _ unset => exact .inl ⟨rfl, rfl, by simp [Cue.sets, unset], by simp⟩
  | ended known =>
      refine .inl ⟨rfl, rfl, rfl, ?_⟩
      intro same
      cases same
      contradiction
  | _ => exact .inl ⟨rfl, rfl, rfl, by simp⟩

/-- The timer of a session is the one that is to fire, unless it has just fired. -/
structure Timed (past : Chronicle) (s : State) (stack : List Activation) : Prop where
  set : ∀ t ∈ past.pending, s.timer = some t
  due : ∀ t, s.timer = some t → t ∈ past.pending ∨ front stack = [.serve .reconnect]

theorem timed_of_acts {past : Chronicle} {s after : State} {cue : Cue} {call : Call}
    {rest : List Task} {below : List Activation} {outcome : Outcome} {effects : List Effect}
    {m : Machine} (acts : Acts setup s cue after outcome) (seen : Seen s cue outcome effects)
    (one : prospects past s (cue.activation call rest :: below) ≤ 1)
    (timed : Timed past s (cue.activation call rest :: below)) :
    Timed (⟨m, cue.turn, effects⟩ :: past) after (outcome.stack call rest below) := by
  obtain ⟨set, due⟩ := timed
  have pending := seen.pending m past
  -- Where a prospect is traded, no timer is to fire.
  have none (holds : cue.prospects = 1) : past.pending = [] := (alone_of_prospect one holds).2.1
  rcases acts.timer with ⟨same, kept, unset, other⟩ | ⟨gone, kept, unset, holds⟩ | ⟨gone, rfl⟩ |
    ⟨k, d, t, stands, rfl⟩
  · rw [kept, unset, List.append_nil, List.filter_eq_self.mpr (by simp)] at pending
    refine ⟨by rw [pending, same]; exact set, fun t stands => .inl ?_⟩
    rw [pending]
    refine (due t (same ▸ stands)).resolve_right fun fired => ?_
    cases cue with
    | answer => contradiction
    | task u =>
        obtain ⟨rfl, -⟩ := List.cons.inj fired
        exact other rfl
  · rw [none holds, unset] at pending
    exact ⟨by simp [pending], by simp [gone]⟩
  · have cleared : past.pending.filter (· ∉ s.timer.toList) = [] := by
      simpa using fun t waits => set t waits
    rw [Cue.cancels, Cue.sets, cleared] at pending
    exact ⟨by simp [pending], by simp [gone]⟩
  · rw [none rfl] at pending
    refine ⟨?_, fun u same => .inl ?_⟩
    · simp [pending, Cue.sets, Reply.timer?, stands]
    · obtain rfl : t = u := by simpa [stands] using same
      simp [pending, Cue.sets, Reply.timer?]

theorem timed_of_reached {c : Course} (reached : c.Reached setup allowed) (sane : Sane allowed) :
    Timed c.past c.now.state c.now.stack := by
  refine reached.induction (P := Timed) ?start ?called ?returned ?acted
  case start => exact ⟨by simp [Chronicle.pending], by simp⟩
  case called =>
    rintro past s stack turn call before ⟨set, due⟩ permitted begun free
    have waiting := front_of_waiting free
    have timely := sane.timely _ _ permitted
    cases turn with
    | call served =>
        refine ⟨by simpa using set, fun t stands => .inl ?_⟩
        simpa [waiting] using due t stands
    | fire t =>
        obtain rfl : Call.reconnect = call := by simpa [Turn.call?] using begun
        exact ⟨fun u pending => set u (List.mem_of_mem_erase (by simpa using pending)),
          fun _ _ => .inr rfl⟩
    | _ => contradiction
  case returned =>
    rintro past s call below _ ⟨set, due⟩
    exact ⟨by simpa using set, fun t stands => .inl (by simpa using due t stands)⟩
  case acted =>
    intro past s cue call rest below after outcome effects before timed _ acts seen
    exact timed_of_acts acts seen (prospects_le_one before sane) timed

/-! ## Connections -/

/-- A connection that was dialled, and to which the session listens, is held, or it is being
opened, or it could not be opened and this is about to be said. -/
def Attended (past : Chronicle) (s : State) (stack : List Activation) : Prop :=
  s.generation ∈ past.dialled → s.connection = some s.generation ∨
    s.generation ∈ diallings stack ∨ ∃ f, front stack = [.serve (.failed s.generation f)]

section

variable {past : Chronicle} {s after : State} {cue : Cue} {call : Call} {rest : List Task}
  {below : List Activation} {outcome : Outcome} {effects : List Effect} {m : Machine}

/-- A cue that is not about the connection leaves it to be held or opened as it was. -/
theorem Attended.onward (attended : Attended past s (cue.activation call rest :: below))
    (known : s.generation ∈ past.dialled) (opening : ∀ r, cue ≠ .answer (.dialling s.generation) r)
    (failing : ∀ f, cue ≠ .task (.serve (.failed s.generation f))) :
    s.connection = some s.generation ∨ s.generation ∈ diallings below := by
  rcases attended known with held | among | ⟨f, failed⟩
  · exact .inl held
  · cases cue with
    | task => exact .inr among
    | answer a r =>
        simp only [Cue.activation, diallings_waiting, List.mem_append] at among
        refine .inr (among.resolve_left fun waits => ?_)
        cases a with
        | dialling n =>
            obtain rfl : s.generation = n := by simpa [Await.dialling?] using waits
            exact opening r rfl
        | _ => simp [Await.dialling?] at waits
  · cases cue with
    | task t =>
        obtain ⟨rfl, -⟩ := List.cons.inj failed
        exact absurd rfl (failing f)
    | answer => contradiction

end

/-- The end of a connection that is about to be heard was reported, or it is not the one held. -/
theorem ending_of_reached {c : Course} (reached : c.Reached setup allowed) {call : Call} {n : Nat}
    {e : Ending} : front c.now.stack = [.serve call] → call.ending? = some (n, e) →
      n ∈ c.past.ended ∨ c.now.state.connection ≠ some n := by
  refine reached.induction (P := fun past s stack => front stack = [.serve call] →
    call.ending? = some (n, e) → n ∈ past.ended ∨ s.connection ≠ some n)
    ?start ?called ?returned ?acted
  case start => simp [front]
  case called =>
    intro past s stack turn served _ _ _ begun _ serves ends
    obtain rfl : served = call := by simpa using serves
    exact .inl (by simp [Entry.ended?, begun, ends])
  case returned =>
    intro past s served below before _ serves
    have waits : front below = [] := (planned_of_reached before).front_below
    rw [waits] at serves
    contradiction
  case acted =>
    intro past s cue served rest below after outcome effects before _ _ acts _ serves ends
    obtain ⟨first, rfl, -⟩ := (planned_of_reached before).added rfl serves
    obtain ⟨m, f, rfl, rfl, rfl⟩ := acts.origin _ List.mem_cons_self
    obtain rfl : m = n := by simpa using congrArg Prod.fst (Option.some.inj ends)
    exact .inr ((numbered_of_reached before).unclaimed m
      (by simp [Cue.activation, Await.dialling?]))

/-- What opening a connection that has returned looks like. -/
theorem established_iff {s : State} {cue : Cue} {call : Call} {rest : List Task}
    {below : List Activation} {effects : List Effect} {n : Nat} :
    Entry.established? ⟨⟨s, cue.activation call rest :: below⟩, cue.turn, effects⟩ = some n ↔
      cue = .answer (.dialling n) .returned := by
  cases cue with
  | task => simp [Entry.established?, Machine.awaiting?, Cue.activation]
  | answer a r =>
      cases a <;> cases r <;>
        simp [Entry.established?, Machine.awaiting?, Cue.activation, Cue.turn]

/-- Every connection that was opened is held, or the session closed it, or it reported its end. -/
theorem accounted_of_reached {c : Course} (reached : c.Reached setup allowed)
    (sane : Sane allowed) : ∀ n ∈ c.past.established,
      c.now.state.connection = some n ∨ n ∈ c.past.hungUp ∨ n ∈ c.past.ended := by
  refine reached.induction (P := fun past s _ => ∀ n ∈ past.established,
    s.connection = some n ∨ n ∈ past.hungUp ∨ n ∈ past.ended) ?start ?called ?returned ?acted
  case start => simp [Chronicle.established]
  case called =>
    intro past s stack turn call _ ih _ begun _ n opened
    have before : n ∈ past.established := by
      cases turn <;> simp_all [Entry.established?, Turn.call?]
    rcases ih n before with held | closed | ended
    · exact .inl held
    · exact .inr (.inl (by simpa using closed))
    · exact .inr (.inr (by simp [ended]))
  case returned =>
    intro past s call below _ ih n opened
    simpa [Entry.established?, Machine.awaiting?, Entry.ended?, Turn.call?] using
      ih n (by simpa [Entry.established?, Machine.awaiting?] using opened)
  case acted =>
    intro past s cue call rest below after outcome effects before ih _ acts seen n opened
    have unclaimed := (numbered_of_reached before).unclaimed
    rw [seen.hungUp, Chronicle.ended_cons]
    rw [Chronicle.established_cons, List.mem_append, Option.mem_toList, established_iff]
      at opened
    rcases opened with rfl | opened
    · cases acts with
      | adopt => exact .inl rfl
      | discard => exact .inr (.inl (by simp [Outcome.asked, Await.request, Request.hangUp?]))
      | lapse lapses => cases lapses
      | fault faults => cases faults
      | queue queues => cases queues
    · rcases ih n opened with held | closed | ended
      · have current : n = s.generation := current_of_reached before sane n held
        cases acts with
        | adopt =>
            apply absurd held
            rw [current]
            exact unclaimed _ (by simp [Cue.activation, Await.dialling?])
        | release holds =>
            obtain rfl := Option.some.inj (holds.symm.trans held)
            exact .inr (.inl (by simp [Outcome.asked, Await.request, Request.hangUp?]))
        | turnAway none => exact absurd held (by simp [none])
        | ended ends =>
            have alone := cue_precedes ((planned_of_reached before).planned _ List.mem_cons_self)
            obtain rfl := alone
            rcases ending_of_reached before rfl ends with ended | other
            · exact .inr (.inr (List.mem_append_right _ (current ▸ ended)))
            · exact absurd (current ▸ held) other
        | _ => exact .inl held
      · exact .inr (.inl (List.mem_append_left _ closed))
      · exact .inr (.inr (List.mem_append_right _ ended))

theorem prospects_pos {a : Activation} {t : Task} (pending : t ∈ a.tasks)
    (holds : t.prospects = 1) : 1 ≤ a.prospects := by
  have among : t.prospects ≤ ahead a.tasks := by
    obtain ⟨before, later, split⟩ := List.append_of_mem pending
    rw [split, ahead_append, ahead_cons]
    omega
  unfold Activation.prospects
  omega

theorem le_underway {stack : List Activation} {a : Activation} (among : a ∈ stack) :
    a.prospects ≤ underway stack := by
  induction stack with
  | nil => contradiction
  | cons b below ih =>
      rw [underway_cons]
      rcases List.mem_cons.mp among with rfl | among
      · exact Nat.le_add_right _ _
      · exact Nat.le_trans (ih among) (Nat.le_add_left _ _)

/-- A call connects at once, or else nothing was dialled before. -/
theorem undialled_of_connect {c : Course} (reached : c.Reached setup allowed)
    (sane : Sane allowed) : ∀ a ∈ c.now.stack, .connect ∈ a.tasks →
      a.awaiting = none ∧ a.tasks = [.connect] ∨ c.past.dialled = [] := by
  refine reached.induction (P := fun past _ stack => ∀ a ∈ stack, .connect ∈ a.tasks →
    a.awaiting = none ∧ a.tasks = [.connect] ∨ past.dialled = []) ?start ?called ?returned ?acted
  case start => simp
  case called =>
    intro past s stack turn call _ ih _ _ _ a among connects
    rcases List.mem_cons.mp among with rfl | among
    · simp at connects
    · simpa using ih a among connects
  case returned =>
    intro past s call below _ ih a among connects
    simpa using ih a (.tail _ among) connects
  case acted =>
    intro past s cue call rest below after outcome effects before ih _ acts seen a among connects
    have planned : Planned (cue.activation call rest :: below) := planned_of_reached before
    have precedes := cue_precedes (planned.planned _ List.mem_cons_self)
    have one : prospects past s (cue.activation call rest :: below) ≤ 1 :=
      prospects_le_one before sane
    simp only [prospects, underway_cons, prospects_activation] at one
    rw [seen.dialled]
    have onward (none : past.dialled = []) (other : cue ≠ .task .dial) :
        past.dialled ++ outcome.asked.filterMap Request.dial? = [] := by
      rw [none, List.nil_append, acts.undialling other]
    rcases Outcome.mem_stack among with among | ⟨tasks, waits⟩
    · refine .inr (onward ?_ ?_)
      · apply (ih a (.tail _ among) connects).resolve_left
        rintro ⟨works, -⟩
        have waiting := planned.waiting a among
        simp [works] at waiting
      · rintro rfl
        have mine := prospects_pos connects rfl
        have theirs := le_underway among
        simp only [Cue.prospects, Task.prospects] at one
        omega
    · rw [tasks] at connects
      rcases List.mem_append.mp connects with adds | left
      · cases acts with
        | start idle =>
            exact .inr (onward (unstarted_of_reached before sane idle).undialled (by simp))
        | reconnect =>
            obtain rfl := precedes
            simp only [Outcome.tasks] at adds tasks
            split at adds <;> simp at adds
            exact .inl ⟨waits, by simp [*]⟩
        | adopt =>
            simp only [Outcome.tasks] at adds
            split at adds <;> simp at adds
        | _ => simp [Outcome.tasks, Setup.stopping] at adds
      · have none : past.dialled = [] := by
          cases cue with
          | task t =>
              apply (ih _ List.mem_cons_self (List.mem_cons_of_mem t left)).resolve_left
              rintro ⟨-, alone⟩
              obtain ⟨-, rfl⟩ := List.cons.inj alone
              simp at left
          | answer a r =>
              exact (ih _ List.mem_cons_self left).resolve_left (by simp [Cue.activation])
        refine .inr (onward none ?_)
        rintro rfl
        obtain rfl := precedes
        simp at left

theorem Task.Precedes.releases {t : Task} (precedes : t.Precedes [.dial]) : t = .release := by
  cases t with
  | release => rfl
  | enter p => cases p <;> simp [Task.Precedes] at precedes
  | emit | notify => cases precedes
  | _ => simp [Task.Precedes] at precedes

/-- A call that is about to dial does not wait before it dials. -/
theorem working_of_dial {c : Course} (reached : c.Reached setup allowed) (sane : Sane allowed) :
    ∀ a ∈ c.now.stack, .dial ∈ a.tasks → a.awaiting = none := by
  refine reached.induction (P := fun _ _ stack => ∀ a ∈ stack, .dial ∈ a.tasks → a.awaiting = none)
    ?start ?called ?returned ?acted
  case start => simp
  case called =>
    intro past s stack turn call _ ih _ _ _ a among dials
    rcases List.mem_cons.mp among with rfl | among
    · rfl
    · exact ih a among dials
  case returned =>
    intro past s call below _ ih a among dials
    exact ih a (.tail _ among) dials
  case acted =>
    intro past s cue call rest below after outcome effects before ih _ acts _ a among dials
    have planned : Planned (cue.activation call rest :: below) := planned_of_reached before
    have precedes := cue_precedes (planned.planned _ List.mem_cons_self)
    rcases Outcome.mem_stack among with among | ⟨tasks, waits⟩
    · exact ih a (.tail _ among) dials
    · rw [waits]
      rw [tasks] at dials
      rcases List.mem_append.mp dials with adds | left
      · cases outcome with
        | next => rfl
        | _ => simp [Outcome.tasks] at adds
      · obtain rfl : rest = [.dial] := by
          cases precedes.left with
          | told follows => cases follows <;> simp at left
          | dial => rfl
          | _ => simp at left
        cases cue with
        | answer => exact absurd (ih _ List.mem_cons_self left) (by simp [Cue.activation])
        | task t =>
            obtain rfl := Task.Precedes.releases precedes
            cases acts with
            | turnAway => rfl
            | lapse => rfl
            | fault => rfl
            | queue => rfl
            | @release n held =>
                -- The call is the only prospect, so no connection is held that it could wait for.
                have one : prospects past s _ ≤ 1 := prospects_le_one before sane
                have current : n = s.generation := current_of_reached before sane n held
                have known : n ∈ past.dialled := (numbered_of_reached before).held n held
                have listening : live past s = 1 := by simp [live, ← current, known]
                simp only [prospects, underway_cons, prospects_activation, ahead_cons,
                  Task.prospects] at one
                omega

end EventStream.Session
