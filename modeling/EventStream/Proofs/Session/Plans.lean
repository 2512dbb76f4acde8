import EventStream.Proofs.Session.Action

/-
# What a call has left to do

A call is worked off in tasks, and few sequences of tasks ever occur: a session that is told to
stop has the same steps before it whoever told it, and what is left when handlers are told is one
of a handful of endings. `Task.Precedes` lists what may stand after a task, `Await.Precedes` what
may stand after a wait, and every call of every course is planned in this way. Only the innermost
call works; the others wait.

A fault takes the rest of its call with it. The plans tell what that can be: no call that is
stopping the session is ever lost to a fault.
-/

namespace EventStream.Session

/-- What may be left when handlers were told of an occurrence. -/
inductive Follows : List Task → Prop
  | nothing : Follows []
  | connect : Follows [.connect]
  | conclude (e) : Follows [.conclude e]
  | decide : Follows [.decide]
  | gaveUp (k) : Follows [.emit (.gaveUp k)]
  | announce : Follows [.announce]
  | opened : Follows [.emit .opened]
  | stop (r) : Follows [.cancelTimer, .release, .discardQueue, .enter .closed, .report r]
  | report (r) : Follows [.report r]

/-- What may stand after a task. -/
def Task.Precedes : Task → List Task → Prop
  | .enter .connecting, rest => rest = [.connect] ∨ ∃ e, rest = [.conclude e]
  | .enter .connected, rest => rest = [.announce]
  | .enter .closing, rest =>
      ∃ r, rest = [.cancelTimer, .release, .discardQueue, .enter .closed, .report r]
  | .enter .closed, rest => (∃ k, rest = [.emit (.gaveUp k)]) ∨ ∃ r, rest = [.report r]
  | .enter .idle, _ => False
  | .emit _, rest | .notify _ _, rest => Follows rest
  | .release, rest => rest = [.dial] ∨ ∃ r, rest = [.discardQueue, .enter .closed, .report r]
  | .flush, rest | .drain _ _, rest => rest = [] ∨ rest = [.emit .opened]
  | .reclaim _, rest => ∃ e, rest = [.fallBack, .conclude e]
  | .fallBack, rest => ∃ e, rest = [.conclude e]
  | .cancelTimer, rest => ∃ r, rest = [.release, .discardQueue, .enter .closed, .report r]
  | .discardQueue, rest => ∃ r, rest = [.enter .closed, .report r]
  | _, rest => rest = []

/-- What may stand after a wait. -/
def Await.Precedes : Await → List Task → Prop
  | .telling .., rest => Follows rest
  | .releasing _, rest => rest = [.dial] ∨ ∃ r, rest = [.discardQueue, .enter .closed, .report r]
  | .draining .., rest => rest = [] ∨ rest = [.emit .opened]
  | .reclaiming _, rest => ∃ e, rest = [.fallBack, .conclude e]
  | _, rest => rest = []

/-- A call that has something to do has what may stand after that, and nothing else. -/
def Activation.Planned : Activation → Prop
  | ⟨_, some a, rest⟩ => a.Precedes rest
  | ⟨_, none, t :: rest⟩ => t.Precedes rest
  | ⟨_, none, []⟩ => True

theorem Follows.planned {rest : List Task} (follows : Follows rest) (call : Call) :
    Activation.Planned ⟨call, none, rest⟩ := by
  cases follows <;> simp [Activation.Planned, Task.Precedes, Follows.nothing]

/-- A cue of a planned call comes before what may stand after it. -/
def Cue.Precedes : Cue → List Task → Prop
  | .task t, rest => t.Precedes rest
  | .answer a _, rest => a.Precedes rest

theorem cue_precedes {cue : Cue} {call : Call} {rest : List Task}
    (planned : (cue.activation call rest).Planned) : cue.Precedes rest := by
  cases cue <;> exact planned

/-- The tasks that may be left while a call waits. The others are done as soon as they are added. -/
def Task.isLate : Task → Bool
  | .serve _ | .notify .. | .flush | .drain .. | .reclaim _ => false
  | .enter p => p = .closed
  | _ => true

/-- What may be left while a call waits. -/
inductive Left : List Task → Prop
  | told {rest} : Follows rest → Left rest
  | dial : Left [.dial]
  | fallBack (e) : Left [.fallBack, .conclude e]
  | release (r) : Left [.release, .discardQueue, .enter .closed, .report r]
  | discardQueue (r) : Left [.discardQueue, .enter .closed, .report r]
  | closed (r) : Left [.enter .closed, .report r]

theorem Task.Precedes.left {t : Task} {rest : List Task} (precedes : t.Precedes rest) :
    Left rest := by
  cases t with
  | enter p =>
      cases p <;> simp only [Task.Precedes] at precedes
      · rcases precedes with rfl | ⟨e, rfl⟩
        · exact .told .connect
        · exact .told (.conclude e)
      · subst precedes
        exact .told .announce
      · obtain ⟨r, rfl⟩ := precedes
        exact .told (.stop r)
      · rcases precedes with ⟨k, rfl⟩ | ⟨r, rfl⟩
        · exact .told (.gaveUp k)
        · exact .told (.report r)
  | emit | notify => exact .told precedes
  | release =>
      rcases precedes with rfl | ⟨r, rfl⟩
      · exact .dial
      · exact .discardQueue r
  | flush | drain =>
      rcases precedes with rfl | rfl
      · exact .told .nothing
      · exact .told .opened
  | reclaim =>
      obtain ⟨e, rfl⟩ := precedes
      exact .fallBack e
  | fallBack =>
      obtain ⟨e, rfl⟩ := precedes
      exact .told (.conclude e)
  | cancelTimer =>
      obtain ⟨r, rfl⟩ := precedes
      exact .release r
  | discardQueue =>
      obtain ⟨r, rfl⟩ := precedes
      exact .closed r
  | _ =>
      obtain rfl := precedes
      exact .told .nothing

theorem Await.Precedes.left {a : Await} {rest : List Task} (precedes : a.Precedes rest) :
    Left rest := by
  cases a with
  | telling => exact .told precedes
  | releasing n => exact Task.Precedes.left (t := .release) precedes
  | draining n p sent => exact Task.Precedes.left (t := .flush) precedes
  | reclaiming n => exact Task.Precedes.left (t := .reclaim n) precedes
  | _ => exact Task.Precedes.left (t := .dial) precedes

theorem Cue.Precedes.left {cue : Cue} {rest : List Task} (precedes : cue.Precedes rest) :
    Left rest := by
  cases cue with
  | task => exact Task.Precedes.left precedes
  | answer => exact Await.Precedes.left precedes

theorem Left.isLate {rest : List Task} (left : Left rest) : ∀ t ∈ rest, t.isLate := by
  cases left with
  | told follows => cases follows <;> simp [Task.isLate]
  | _ => simp [Task.isLate]

variable {setup : Setup} {allowed : Surroundings} {s after : State} {cue : Cue} {call : Call}
  {rest : List Task} {below : List Activation} {outcome : Outcome}

/-- What is left after a cue that leads to nothing is planned. -/
theorem Lapses.planned (lapses : Lapses setup s cue) (precedes : cue.Precedes rest) (call : Call) :
    Activation.Planned ⟨call, none, rest⟩ := by
  cases lapses with
  | notify => exact Follows.planned precedes call
  | enter =>
      simp only [Cue.Precedes] at precedes
      cases phase : s.phase <;> rw [phase] at precedes
      · contradiction
      · rcases precedes with rfl | ⟨e, rfl⟩ <;> rfl
      · obtain rfl := precedes
        rfl
      · obtain ⟨r, rfl⟩ := precedes
        exact ⟨r, rfl⟩
      · rcases precedes with ⟨k, rfl⟩ | ⟨r, rfl⟩
        · exact .nothing
        · rfl
  | flush | drain | halted =>
      rcases precedes with rfl | rfl
      · trivial
      · exact .nothing
  | fallBack | nothingBack =>
      obtain ⟨e, rfl⟩ := precedes
      first | rfl | exact ⟨e, rfl⟩
  | released =>
      rcases precedes with rfl | ⟨r, rfl⟩
      · rfl
      · exact ⟨r, rfl⟩
  | _ =>
      obtain rfl := precedes
      trivial

/-- Wherever a planned call goes on, it stays planned. -/
theorem planned_of_acts (acts : Acts setup s cue after outcome) (precedes : cue.Precedes rest)
    (call : Call) (others : ∀ b ∈ below, b.Planned) :
    ∀ a ∈ outcome.stack call rest below, a.Planned := by
  have onward {a : Activation} (planned : a.Planned) : ∀ b ∈ a :: below, b.Planned := by
    simpa [planned] using others
  cases acts with
  | lapse lapses => exact onward (lapses.planned precedes call)
  | fault | unreported => exact others
  | queue queues =>
      obtain rfl : rest = [] := by cases queues <;> exact precedes
      exact onward trivial
  | emit | notify | told => exact onward precedes
  | @enter p _ =>
      refine onward (show Follows rest from ?_)
      cases p
      · contradiction
      · rcases precedes with rfl | ⟨e, rfl⟩
        · exact .connect
        · exact .conclude e
      · obtain rfl := precedes
        exact .announce
      · obtain ⟨r, rfl⟩ := precedes
        exact .stop r
      · rcases precedes with ⟨k, rfl⟩ | ⟨r, rfl⟩
        · exact .gaveUp k
        · exact .report r
  | turnAway =>
      rcases precedes with rfl | ⟨r, rfl⟩
      · exact onward rfl
      · exact onward ⟨r, rfl⟩
  | release | flush | drain | drained | reclaim => exact onward precedes
  | fallBack =>
      obtain ⟨e, rfl⟩ := precedes
      exact onward (.inr ⟨e, rfl⟩)
  | cancelTimer =>
      obtain ⟨r, rfl⟩ := precedes
      exact onward (.inr ⟨r, rfl⟩)
  | discardQueue =>
      obtain ⟨r, rfl⟩ := precedes
      exact onward (.inr ⟨r, rfl⟩)
  | takeBack =>
      obtain ⟨e, rfl⟩ := precedes
      exact onward ⟨e, rfl⟩
  | start | connect =>
      obtain rfl := precedes
      exact onward (.inl rfl)
  | stop =>
      obtain rfl := precedes
      exact onward ⟨_, rfl⟩
  | ended =>
      obtain rfl := precedes
      cases s.connection <;> exact onward ⟨_, rfl⟩
  | reconnect =>
      obtain rfl := precedes
      split
      · exact onward rfl
      · exact onward trivial
  | adopt =>
      obtain rfl := precedes
      split
      · exact onward (.inl rfl)
      · exact onward trivial
  | announce =>
      obtain rfl := precedes
      exact onward (.inr rfl)
  | conclude =>
      obtain rfl := precedes
      exact onward .decide
  | giveUp =>
      obtain rfl := precedes
      exact onward (.inl ⟨_, rfl⟩)
  | received | scheduled =>
      obtain rfl := precedes
      exact onward .nothing
  | _ =>
      obtain rfl := precedes
      first | exact onward rfl | exact onward trivial

/-- Every call of a course is planned, and only the innermost one works. -/
structure Planned (stack : List Activation) : Prop where
  planned : ∀ a ∈ stack, a.Planned
  waiting : ∀ a ∈ stack.tail, a.awaiting.isSome

theorem planned_of_reached {c : Course} (reached : c.Reached setup allowed) :
    Planned c.now.stack := by
  refine reached.induction (P := fun _ _ stack => Planned stack) ?start ?called ?returned ?acted
  case start => constructor <;> simp
  case called =>
    rintro past s stack turn call _ ⟨planned, waiting⟩ _ _ free
    refine ⟨?_, ?_⟩
    · simpa [Activation.Planned, Task.Precedes] using planned
    · cases stack with
      | nil => simp
      | cons a below => simpa using ⟨free a rfl, waiting⟩
  case returned =>
    rintro past s call below _ ⟨planned, waiting⟩
    exact ⟨fun a among => planned a (.tail _ among),
      fun a among => waiting a (List.mem_of_mem_tail among)⟩
  case acted =>
    rintro past s cue call rest below after outcome effects _ ⟨planned, waiting⟩ _ acts _
    refine ⟨planned_of_acts acts (cue_precedes (planned _ List.mem_cons_self)) call
      fun b among => planned b (.tail _ among), ?_⟩
    cases outcome with
    | fail => exact fun a among => waiting a (List.mem_of_mem_tail among)
    | _ => exact waiting

/-- The tasks of the innermost call, if it works. -/
def front : List Activation → List Task
  | ⟨_, none, tasks⟩ :: _ => tasks
  | _ => []

@[simp] theorem front_working (call : Call) (tasks : List Task) (below : List Activation) :
    front (⟨call, none, tasks⟩ :: below) = tasks := rfl

@[simp] theorem front_waiting (call : Call) (a : Await) (tasks : List Task)
    (below : List Activation) : front (⟨call, some a, tasks⟩ :: below) = [] := rfl

theorem front_of_waiting {stack : List Activation}
    (waiting : ∀ a ∈ stack.head?, a.awaiting.isSome) : front stack = [] := by
  rcases stack with _ | ⟨⟨call, _ | a, tasks⟩, below⟩
  · rfl
  · simp at waiting
  · rfl

/-- When a call has returned or failed, the next one waits. -/
theorem Planned.front_below {a : Activation} {below : List Activation}
    (planned : Planned (a :: below)) : front below = [] :=
  front_of_waiting fun b top => planned.waiting b (List.mem_of_mem_head? top)

/-- What is at the front and may not be left there was added by the last step. -/
theorem Planned.added {t : Task} {later : List Task}
    (planned : Planned (cue.activation call rest :: below)) (early : t.isLate = false)
    (stands : front (outcome.stack call rest below) = t :: later) :
    ∃ first, outcome = .next (t :: first) ∧ later = first ++ rest := by
  have precedes := cue_precedes (planned.planned _ List.mem_cons_self)
  cases outcome with
  | next first =>
      cases first with
      | nil =>
          have stands : rest = t :: later := stands
          have late := precedes.left.isLate t (by simp [stands])
          simp [early] at late
      | cons u first =>
          obtain ⟨rfl, rfl⟩ := List.cons.inj stands
          exact ⟨first, rfl, rfl⟩
  | wait => contradiction
  | fail =>
      have waits : front below = [] := planned.front_below
      rw [Outcome.stack, waits] at stands
      contradiction

/-! ## Waits that are not interrupted -/

/-- If no call comes while something is waited for, then what waits for it is the innermost call. -/
theorem uninterrupted_of_reached {c : Course} {p : Await → Prop}
    (reached : c.Reached setup allowed)
    (quiet : ∀ c turn, allowed c turn → Surroundings.Quiet p c turn) :
    ∀ a ∈ c.now.stack.tail, ∀ w, a.awaiting = some w → ¬ p w := by
  refine reached.induction
    (P := fun _ _ stack => ∀ a ∈ stack.tail, ∀ w, a.awaiting = some w → ¬ p w)
    ?start ?called ?returned ?acted
  case start => simp
  case called =>
    intro past s stack turn call _ ih permitted begun free a among w waits
    cases stack with
    | nil => contradiction
    | cons top below =>
        rcases List.mem_cons.mp among with rfl | among
        · intro prompt
          have none := quiet _ _ permitted w waits prompt
          simp [none] at begun
        · exact ih a among w waits
  case returned =>
    intro past s call below _ ih a among
    exact ih a (List.mem_of_mem_tail among)
  case acted =>
    intro past s cue call rest below after outcome effects _ ih _ _ _ a among
    cases outcome with
    | fail => exact ih a (List.mem_of_mem_tail among)
    | _ => exact ih a among

/-- What the innermost call waits for. -/
def awaited (stack : List Activation) : Option Await := stack.head?.bind (·.awaiting)

/-- A wait that is not interrupted has just begun when it is met. -/
theorem awaited_of_acts {p : Await → Prop} {w : Await}
    (others : ∀ a ∈ below, ∀ w, a.awaiting = some w → ¬ p w) (prompt : p w)
    (waits : awaited (outcome.stack call rest below) = some w) : outcome = .wait w := by
  cases outcome with
  | next => contradiction
  | wait => exact congrArg Outcome.wait (Option.some.inj waits)
  | fail =>
      obtain ⟨a, top, waits⟩ := Option.bind_eq_some_iff.mp waits
      exact absurd prompt (others a (List.mem_of_mem_head? top) w waits)

/-- When a call has returned, what the next one waits for is not to be met at once. -/
theorem not_awaited_below {p : Await → Prop} {w : Await}
    (others : ∀ a ∈ below, ∀ w, a.awaiting = some w → ¬ p w) (prompt : p w) :
    awaited below ≠ some w := by
  intro waits
  obtain ⟨a, top, waits⟩ := Option.bind_eq_some_iff.mp waits
  exact others a (List.mem_of_mem_head? top) w waits prompt

/-- Payloads are taken back from a connection. -/
def Reclaims (n : Nat) (stack : List Activation) : Prop :=
  (∃ later, front stack = .reclaim n :: later) ∨ awaited stack = some (.reclaiming n)

end EventStream.Session
