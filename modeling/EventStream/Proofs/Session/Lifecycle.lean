import EventStream.Proofs.Session.Action

/-
# The life of a session

A session changes its phase in one task only, and that task is never left pending by a call that
waits, unless it is the last step of stopping a session that is on its way out already. So a phase
is entered from the phase in which it was decided to enter it, however many calls are nested in
each other, and the changes of phase are those of `Passage`. Nothing is asked of the surroundings.
-/

namespace EventStream.Session

/-- The changes of phase that a session makes. -/
inductive Passage : Phase → Phase → Prop
  | start : Passage .idle .connecting
  | connect : Passage .connecting .connected
  | drop : Passage .connected .connecting
  | giveUp : Passage .connecting .closed
  | stop {p} : p.isOver = false → Passage p .closing
  | finish : Passage .closing .closed

/-- A closed session stays closed. -/
theorem not_passage_closed (p : Phase) : ¬ Passage .closed p := by
  rintro ⟨⟩
  contradiction

/-- No session is made idle. -/
theorem not_passage_idle (p : Phase) : ¬ Passage p .idle := nofun

/-- Tasks that may be left pending while the session is called again: if they enter a phase, they
finish a session that is on its way out. -/
def Settled (p : Phase) (tasks : List Task) : Prop :=
  ∀ q, .enter q ∈ tasks → q = .closed ∧ p.isOver = true

theorem settled_nil (p : Phase) : Settled p [] := by
  intro q pending
  simp at pending

theorem settled_append {p : Phase} {first rest : List Task} :
    Settled p (first ++ rest) ↔ Settled p first ∧ Settled p rest := by
  simp only [Settled, List.mem_append]
  constructor
  · exact fun settled => ⟨fun q pending => settled q (.inl pending),
      fun q pending => settled q (.inr pending)⟩
  · rintro ⟨former, latter⟩ q (pending | pending)
    · exact former q pending
    · exact latter q pending

theorem Settled.tail {p : Phase} {t : Task} {tasks : List Task}
    (settled : Settled p (t :: tasks)) : Settled p tasks :=
  fun q pending => settled q (.tail t pending)

/-- What is settled in a phase stays so when the phase changes. -/
theorem settled_of_passage {p q : Phase} {tasks : List Task} (settled : Settled p tasks)
    (passage : p = q ∨ Passage p q) : Settled q tasks := by
  intro r pending
  obtain ⟨rfl, gone⟩ := settled r pending
  refine ⟨rfl, ?_⟩
  rcases passage with rfl | passage
  · exact gone
  · cases passage <;> first | rfl | contradiction

/-- A call is orderly if its tasks are settled, or if it is about to enter a phase that may be
entered. -/
def Activation.Orderly (p : Phase) (a : Activation) : Prop :=
  Settled p a.tasks ∨
    a.awaiting = none ∧ ∃ q rest, a.tasks = .enter q :: rest ∧ (p = q ∨ Passage p q) ∧
      Settled q rest

/-- The innermost call is orderly, and what the others left pending is settled. -/
def OrderlyStack (p : Phase) : List Activation → Prop
  | [] => True
  | a :: below => a.Orderly p ∧ ∀ b ∈ below, Settled p b.tasks

/-- What is left after a cue that enters no other phase is settled. -/
theorem Activation.Orderly.rest {p : Phase} {cue : Cue} {call : Call} {rest : List Task}
    (orderly : (cue.activation call rest).Orderly p) (same : ∀ q, cue = .task (.enter q) → p = q) :
    Settled p rest := by
  cases cue with
  | answer a r =>
      rcases orderly with settled | ⟨waiting, -⟩
      · exact settled
      · contradiction
  | task t =>
      rcases orderly with settled | ⟨-, q, later, standing, -, settled⟩
      · exact settled.tail
      · obtain ⟨rfl, rfl⟩ := List.cons.inj standing
        exact same q rfl ▸ settled

/-- A call that enters another phase may do so, and leaves settled tasks behind. -/
theorem Activation.Orderly.enter {p q : Phase} {call : Call} {rest : List Task}
    (orderly : ((Cue.task (.enter q)).activation call rest).Orderly p) (other : p ≠ q) :
    Passage p q ∧ Settled q rest := by
  rcases orderly with settled | ⟨-, r, later, standing, passage, settled⟩
  · obtain ⟨rfl, gone⟩ := settled q List.mem_cons_self
    have closing : p = .closing := by
      cases p <;> first | rfl | contradiction
    subst closing
    exact ⟨.finish, settled_of_passage settled.tail (.inr .finish)⟩
  · obtain ⟨same, rfl⟩ := List.cons.inj standing
    obtain rfl := Task.enter.inj same
    exact ⟨passage.resolve_left other, settled⟩

theorem orderlyStack_of_settled {p : Phase} {call : Call} {rest : List Task}
    {below : List Activation} {outcome : Outcome} (calm : Settled p outcome.tasks)
    (mine : Settled p rest) (theirs : ∀ b ∈ below, Settled p b.tasks) :
    OrderlyStack p (outcome.stack call rest below) := by
  cases outcome with
  | next first => exact ⟨.inl (settled_append.mpr ⟨calm, mine⟩), theirs⟩
  | wait a => exact ⟨.inl mine, theirs⟩
  | fail f =>
      cases below with
      | nil => trivial
      | cons b others =>
          exact ⟨.inl (theirs b List.mem_cons_self),
            fun a waiting => theirs a (List.mem_cons_of_mem b waiting)⟩

/-- A call that is about to enter a phase is orderly if the phase may be entered and what follows
is settled there. -/
theorem orderlyStack_of_enter {p q : Phase} {call : Call} {first rest : List Task}
    {below : List Activation} (passage : p = q ∨ Passage p q) (calm : Settled q first)
    (mine : Settled p rest) (theirs : ∀ b ∈ below, Settled p b.tasks) :
    OrderlyStack p ((Outcome.next (.enter q :: first)).stack call rest below) := by
  have later : Settled q (first ++ rest) :=
    settled_append.mpr ⟨calm, settled_of_passage mine passage⟩
  exact ⟨.inr ⟨rfl, q, first ++ rest, rfl, passage, later⟩, theirs⟩

variable {setup : Setup}

/-- The tasks of stopping are settled once the session is on its way out. -/
theorem settled_stopping {p : Phase} (gone : p.isOver = true) : Settled p setup.stopping.tail := by
  intro q pending
  simp only [Setup.stopping, List.tail_cons, List.mem_cons, reduceCtorEq, Task.enter.injEq,
    List.not_mem_nil, or_false, false_or] at pending
  exact ⟨pending, gone⟩

/-- A call that acts stays orderly, and so do the calls that it leaves waiting. -/
theorem orderlyStack_of_acts {s after : State} {cue : Cue} {call : Call} {rest : List Task}
    {below : List Activation} {outcome : Outcome} (acts : Acts setup s cue after outcome)
    (orderly : OrderlyStack s.phase (cue.activation call rest :: below)) :
    OrderlyStack after.phase (outcome.stack call rest below) := by
  obtain ⟨top, theirs⟩ := orderly
  cases acts with
  | enter other =>
      obtain ⟨passage, mine⟩ := top.enter other
      exact orderlyStack_of_settled (by simp [Settled, Outcome.tasks]) mine
        fun b waiting => settled_of_passage (theirs b waiting) (.inr passage)
  | start idle =>
      exact orderlyStack_of_enter (.inr (idle ▸ .start)) (by simp [Settled])
        (top.rest (by simp)) theirs
  | stop running =>
      refine orderlyStack_of_enter ?_ (settled_stopping rfl) (top.rest (by simp)) theirs
      cases phase : s.phase <;> first
        | exact .inl rfl
        | exact .inr (.stop rfl)
        | exact absurd phase running
  | opened connecting =>
      exact orderlyStack_of_enter (.inr (connecting ▸ .connect)) (by simp [Settled])
        (top.rest (by simp)) theirs
  | fallBack connected =>
      exact orderlyStack_of_enter (.inr (connected ▸ .drop)) (by simp [Settled])
        (top.rest (by simp)) theirs
  | giveUp connecting =>
      exact orderlyStack_of_enter (.inr (connecting ▸ .giveUp)) (by simp [Settled])
        (top.rest (by simp)) theirs
  | lapse lapses =>
      refine orderlyStack_of_settled (settled_nil _) (top.rest fun q standing => ?_) theirs
      subst standing
      cases lapses
      rfl
  | fault faults =>
      refine orderlyStack_of_settled (settled_nil _) (top.rest fun q standing => ?_) theirs
      subst standing
      cases faults
  | queue queues =>
      refine orderlyStack_of_settled (settled_nil _) (top.rest fun q standing => ?_) theirs
      subst standing
      cases queues
  | reconnect =>
      refine orderlyStack_of_settled ?_ (top.rest (by simp)) theirs
      intro q pending
      simp only [Outcome.tasks] at pending
      split at pending <;> simp at pending
  | adopt =>
      refine orderlyStack_of_settled ?_ (top.rest (by simp)) theirs
      intro q pending
      simp only [Outcome.tasks] at pending
      split at pending <;> simp at pending
  | _ =>
      exact orderlyStack_of_settled (by simp [Settled, Outcome.tasks]) (top.rest (by simp)) theirs

/-! ## Courses -/

variable {allowed : Surroundings}

/-- A call that waits left settled tasks. -/
theorem settled_of_waiting {p : Phase} {a : Activation} (orderly : a.Orderly p)
    (waiting : a.awaiting.isSome) : Settled p a.tasks := by
  rcases orderly with settled | ⟨working, -⟩
  · exact settled
  · simp [working] at waiting

theorem orderlyStack_of_reached {c : Course} (reached : c.Reached setup allowed) :
    OrderlyStack c.phase c.now.stack := by
  refine reached.induction (P := fun _ s stack => OrderlyStack s.phase stack)
    ?start ?called ?returned ?acted
  case start => trivial
  case called =>
    intro past s stack turn call _ orderly _ _ free
    refine ⟨.inl (by simp [Settled]), fun b among => ?_⟩
    cases stack with
    | nil => contradiction
    | cons a below =>
        rcases List.mem_cons.mp among with rfl | among
        · exact settled_of_waiting orderly.1 (free _ rfl)
        · exact orderly.2 b among
  case returned =>
    rintro past s call below _ ⟨_, theirs⟩
    cases below with
    | nil => trivial
    | cons b others =>
        exact ⟨.inl (theirs b List.mem_cons_self), fun a among => theirs a (.tail _ among)⟩
  case acted =>
    intro past s cue call rest below after outcome effects _ orderly _ acts _
    exact orderlyStack_of_acts acts orderly

/-- A call that finishes the stop of a session finds it on its way out. -/
theorem over_of_finishing {p : Phase} {cue : Cue} {call : Call} {rest : List Task}
    {below : List Activation} (orderly : OrderlyStack p (cue.activation call rest :: below))
    (finishing : .enter .closed ∈ rest) (other : ∀ q, cue ≠ .task (.enter q)) :
    p.isOver = true := by
  have settled := orderly.1.rest fun q enters => absurd enters (other q)
  exact (settled .closed finishing).2

/-- What a step changes about the phase: nothing, unless it enters one. -/
theorem Acts.phase {s after : State} {cue : Cue} {outcome : Outcome}
    (acts : Acts setup s cue after outcome) :
    after.phase = s.phase ∨ ∃ p, s.phase ≠ p ∧ cue = .task (.enter p) ∧
      after = { s with phase := p } ∧ outcome = .next [.emit (.phaseChanged s.phase p)] := by
  cases acts with
  | enter other => exact .inr ⟨_, other, rfl, rfl, rfl⟩
  | _ => exact .inl rfl

/-- A phase that is to be entered is entered. -/
theorem Acts.entered {s after : State} {p : Phase} {outcome : Outcome}
    (acts : Acts setup s (.task (.enter p)) after outcome) : after.phase = p := by
  cases acts with
  | enter => rfl
  | lapse lapses => cases lapses; rfl
  | fault faults => cases faults
  | queue queues => cases queues

/-- A step of a course leaves the phase alone or makes a passage. -/
theorem Acts.passage {s after : State} {cue : Cue} {call : Call} {rest : List Task}
    {below : List Activation} {outcome : Outcome} (acts : Acts setup s cue after outcome)
    (orderly : OrderlyStack s.phase (cue.activation call rest :: below)) :
    after.phase = s.phase ∨ Passage s.phase after.phase := by
  rcases acts.phase with same | ⟨p, other, rfl, rfl, -⟩
  · exact .inl same
  · exact .inr (orderly.1.enter other).1

/-- A closed session stays closed at every step. -/
theorem Acts.stays_closed {s after : State} {cue : Cue} {call : Call} {rest : List Task}
    {below : List Activation} {outcome : Outcome} (acts : Acts setup s cue after outcome)
    (orderly : OrderlyStack s.phase (cue.activation call rest :: below))
    (closed : s.phase = .closed) : after.phase = .closed := by
  rcases acts.passage orderly with same | passage
  · exact same.trans closed
  · rw [closed] at passage
    exact (not_passage_closed _ passage).elim

/-- Every change of phase is a passage. -/
theorem passage_of_next {c d : Course} (reached : c.Reached setup allowed)
    (next : Course.Next setup allowed c d) : d.phase = c.phase ∨ Passage c.phase d.phase := by
  have orderly := orderlyStack_of_reached reached
  cases Course.advance_of_next next with
  | called => exact .inl rfl
  | returned => exact .inl rfl
  | acted _ acts _ => exact acts.passage orderly

/-- A session that is on its way out, or gone, stays so. -/
theorem Passage.isOver {p q : Phase} (passage : Passage p q) (gone : p.isOver = true) :
    q.isOver = true := by
  cases passage <;> first | rfl | contradiction

end EventStream.Session
