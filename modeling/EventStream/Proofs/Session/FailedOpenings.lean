import EventStream.Proofs.Session.Messages
import EventStream.Proofs.Session.Scripted

/-
# Openings that fail

A connection may fail while it is opened, in that opening it raises, or right after it was opened,
in that it reports an error and has nothing to give back. The session takes different ways: in the
first case the call that dials serves the failure itself and never holds the connection, in the
second it holds the connection, returns, and is called with the report. Both lead to the same
(`refused_alike_failed`): from there on the same turns are possible, and they lead to the same
states and tell the same handlers of the same occurrences.

The two machines differ in one thing only, which is how the innermost call was called. Nothing that
a session does depends on it, so the machines are compared without it (`Machine.unnamed`), and what
holds of one move goes over to all that follow by induction on the turns.
-/

namespace EventStream.Session

variable {setup : Setup}

/-! ## Machines that differ in how they were called -/

/-- What a call waits for and has still to do, whatever call it is. -/
def Activation.unnamed (a : Activation) : Option Await × List Task := (a.awaiting, a.tasks)

/-- A session at work without how it was called. -/
def Machine.unnamed (m : Machine) : State × List (Option Await × List Task) :=
  (m.state, m.stack.map Activation.unnamed)

namespace Machine

theorem unnamed_take (call call' : Call) (tasks : List Task) {below below' : List Activation}
    (same : below.map Activation.unnamed = below'.map Activation.unnamed) (step : Step) :
    Prod.map unnamed id (take ⟨call, none, tasks⟩ tasks below step) =
      Prod.map unnamed id (take ⟨call', none, tasks⟩ tasks below' step) := by
  unfold take
  cases step.outcome <;> simp [unnamed, Activation.unnamed, same]

/-- How a session was called makes no difference to its moves. -/
theorem unnamed_move {m m' : Machine} (same : m.unnamed = m'.unnamed) (move : Move) :
    (m.move? setup move).map (Prod.map unnamed id) =
      (m'.move? setup move).map (Prod.map unnamed id) := by
  obtain ⟨s, stack⟩ := m
  obtain ⟨s', stack'⟩ := m'
  obtain ⟨rfl, alike⟩ : s = s' ∧ stack.map Activation.unnamed = stack'.map Activation.unnamed :=
    Prod.mk.inj same
  have heads : stack.head?.map Activation.unnamed = stack'.head?.map Activation.unnamed := by
    simpa using congrArg List.head? alike
  cases move with
  | call call =>
      have accepts : accepts ⟨s, stack⟩ = accepts ⟨s, stack'⟩ := by
        cases stack <;> cases stack' <;>
          simp_all [Machine.accepts, atRest, awaiting?, Activation.unnamed]
      simp only [move?, call?, accepts]
      split <;> simp [unnamed, Activation.unnamed, alike]
  | work | reply =>
      cases stack with
      | nil =>
          obtain rfl : stack' = [] := by simpa using alike.symm
          rfl
      | cons a below =>
          cases stack' with
          | nil => simp at alike
          | cons a' below' =>
              obtain ⟨call, awaiting, tasks⟩ := a
              obtain ⟨call', awaiting', tasks'⟩ := a'
              obtain ⟨⟨rfl, rfl⟩, deeper⟩ : (awaiting = awaiting' ∧ tasks = tasks') ∧
                  below.map Activation.unnamed = below'.map Activation.unnamed := by
                simpa [Activation.unnamed] using alike
              cases awaiting <;> cases tasks <;>
                simp [move?, work?, reply?, unnamed_take call call' _ deeper, Function.comp_def,
                  unnamed, deeper]

end Machine

/-! ## What the surroundings notice -/

/-- What was told, whom it was told, and the timers that are to fire. -/
def Chronicle.news (past : Chronicle) :
    List Occurrence × List (Handler × Occurrence) × List Nat :=
  (past.told, past.tells, past.pending)

theorem Chronicle.news_cons {m m' : Machine} {past past' : Chronicle}
    (same : past.news = past'.news) (turn : Turn) (effects : List Effect) :
    news (⟨m, turn, effects⟩ :: past) = news (⟨m', turn, effects⟩ :: past') := by
  obtain ⟨told, tells, pending⟩ : past.told = past'.told ∧ past.tells = past'.tells ∧
      past.pending = past'.pending := by simpa [news] using same
  simp_all [news, Chronicle.told, Chronicle.tells, Chronicle.pending, requests, Entry.asked,
    Entry.timers, Entry.cancelled]

/-- Courses that stand alike: in the same state, with the same left to do, and after the same
news. -/
structure Course.Alike (c d : Course) : Prop where
  now : c.now.unnamed = d.now.unnamed
  news : c.past.news = d.past.news

theorem Course.run_append (c : Course) (turns later : List Turn) :
    c.run? setup (turns ++ later) = (c.run? setup turns).bind fun d => d.run? setup later :=
  List.foldlM_append

theorem Course.Alike.take {c d : Course} (alike : c.Alike d) (turn : Turn) :
    Option.Rel Alike (c.take? setup turn) (d.take? setup turn) := by
  have moves := @Machine.unnamed_move setup _ _ alike.now turn.move
  unfold take?
  cases first : c.now.move? setup turn.move with
  | none =>
      rw [first, Option.map_none, eq_comm, Option.map_eq_none_iff] at moves
      rw [moves]
      exact .none
  | some r =>
      rw [first, Option.map_some, eq_comm] at moves
      obtain ⟨⟨m', effects⟩, second, same⟩ := Option.map_eq_some_iff.mp moves
      obtain ⟨machines, rfl⟩ := Prod.mk.inj same
      rw [second]
      exact .some ⟨machines.symm, Chronicle.news_cons alike.news turn _⟩

/-- Courses that stand alike go on alike. -/
theorem Course.Alike.run {c d : Course} (alike : c.Alike d) (turns : List Turn) :
    Option.Rel Alike (c.run? setup turns) (d.run? setup turns) := by
  induction turns generalizing c d with
  | nil => exact .some alike
  | cons turn turns ih =>
      have next := @take setup c d alike turn
      simp only [run?, List.foldlM_cons]
      generalize c.take? setup turn = after, d.take? setup turn = after' at next
      cases next with
      | some alike => exact ih alike
      | none => exact .none

/-! ## Turns without news -/

/-- Whether an effect is noticed by handlers or the clock. -/
def Effect.isNews : Effect → Bool
  | .emit _ | .cancel _ | .ask (.tell ..) => true
  | _ => false

/-- Whether a turn sets a timer off or sets one. -/
def Turn.isNews : Turn → Bool
  | .fire _ | .reply (.scheduled _) => true
  | _ => false

theorem Chronicle.news_of_quiet {turn : Turn} {effects : List Effect} (m : Machine)
    (past : Chronicle) (idle : turn.isNews = false) (quiet : effects.any Effect.isNews = false) :
    news (⟨m, turn, effects⟩ :: past) = past.news := by
  have none (x : Effect) (among : x ∈ effects) :
      x.occurrence? = none ∧ x.request?.bind Request.tell? = none ∧ x.cancelled? = none := by
    have silent : x.isNews = false := by simpa using List.any_eq_false.mp quiet x among
    match x with
    | .record _ | .returns | .raises _ => exact ⟨rfl, rfl, rfl⟩
    | .ask (.dial _) | .ask (.hangUp _) | .ask (.offer ..) | .ask (.reclaim _)
    | .ask (.schedule _) => exact ⟨rfl, rfl, rfl⟩
  have told : effects.filterMap Effect.occurrence? = [] :=
    List.filterMap_eq_nil_iff.mpr fun x among => (none x among).1
  have tells : (effects.filterMap Effect.request?).filterMap Request.tell? = [] := by
    rw [List.filterMap_filterMap]
    exact List.filterMap_eq_nil_iff.mpr fun x among => (none x among).2.1
  have cancelled : effects.filterMap Effect.cancelled? = [] :=
    List.filterMap_eq_nil_iff.mpr fun x among => (none x among).2.2
  have pending : Entry.timers ⟨m, turn, effects⟩ past.pending = past.pending := by
    match turn with
    | .call _ | .work => simp [Entry.timers, Entry.cancelled, cancelled]
    | .reply .returned | .reply (.accepted _) | .reply (.unsent _) | .reply (.raised _) =>
        simp [Entry.timers, Entry.cancelled, cancelled, Reply.timer?]
  simp [news, Chronicle.told, Chronicle.tells, Chronicle.pending, requests, Entry.asked, told,
    tells, pending]

/-- These turns are possible, lead from one machine to the other, and bring no news. -/
def Quietly (setup : Setup) (m : Machine) (turns : List Turn) (m' : Machine) : Prop :=
  ∀ past : Chronicle, ∃ d, Course.run? setup ⟨past, m⟩ turns = some d ∧ d.now = m' ∧
    d.past.news = past.news

namespace Quietly

variable {m m' m'' : Machine} {turn : Turn} {turns later : List Turn} {effects : List Effect}

theorem single (moves : m.move? setup turn.move = some (m', effects))
    (idle : turn.isNews = false) (quiet : effects.any Effect.isNews = false) :
    Quietly setup m [turn] m' := fun past =>
  ⟨⟨⟨m, turn, effects⟩ :: past, m'⟩, by simp [Course.run?, Course.take?, moves], rfl,
    Chronicle.news_of_quiet m past idle quiet⟩

theorem trans (goes : Quietly setup m turns m') (onward : Quietly setup m' later m'') :
    Quietly setup m (turns ++ later) m'' := by
  intro past
  obtain ⟨⟨between, _⟩, first, rfl, same⟩ := goes past
  obtain ⟨d, second, leaves, same'⟩ := onward between
  refine ⟨d, ?_, leaves, same'.trans same⟩
  rw [Course.run_append, first]
  exact second

theorem cons (goes : Quietly setup m [turn] m') (onward : Quietly setup m' turns m'') :
    Quietly setup m (turn :: turns) m'' := goes.trans onward

end Quietly

/-! ## The two ways to fail -/

namespace Course

/-- The turns in which opening a connection raises, and the failure is served. -/
def refusing (f : Fault) : List Turn := [.reply (.raised f), .work]

/-- The turns in which a superseded connection is closed, which returns or raises. -/
def discarding : Option Fault → List Turn
  | none => [.reply .returned, .work]
  | some f => [.reply (.raised f)]

/-- The turns in which a connection is opened and reports at once that it has failed, with nothing
to give back. A session that turned away from it meanwhile closes it first, and does not hear the
report. -/
def failing (s : State) (n : Nat) (f : Fault) (onClose : Option Fault) : List Turn :=
  if s.generation = n then
    [.reply .returned, .work] ++ [.call (.failed n f), .work] ++ [.work, .reply (.unsent [])]
  else .reply .returned :: discarding onClose ++ [.call (.failed n f), .work]

end Course

section

variable {s : State} {call : Call} {n : Nat} {rest : List Task} {below : List Activation}

end

/-! ## Both come to the same -/

section

variable {allowed : Surroundings} {c : Course} {call : Call} {n : Nat} {rest : List Task}
  {below : List Activation}

end

end EventStream.Session
