import EventStream.Proofs.Session.Appointments
import EventStream.Proofs.Session.Calls
import EventStream.Proofs.Session.Continuity
import EventStream.Proofs.Session.Delivery
import EventStream.Proofs.Session.Returning

/-
# Connections that cannot be opened

When opening a connection raises, the session treats it as the end of that connection: it reports
the failure once, and then sets a timer for the next attempt or gives up. The report is left out if
the session listens to another connection by then or does not connect any more, and so is what
follows it if a handler of the report has stopped the session (`Surfaces`).

All of this happens inside the call that opened the connection, and four things that it does may
raise: closing a connection that was superseded while it was opened, writing the limit of the policy
in the report of a reconnect, setting the timer, and draining a queue that was emptied while its
head was offered. Nothing guards them. These are the only faults that leave the start of a session
or a reconnect (`Entry.Unguarded`), as long as the policy decides at every attempt and what
connections take and give back does not raise.

The turns of a call are considered by themselves. Others may do anything to the session while the
call waits, and so a turn may find any state (`Runs`); what the call does next depends on that state
and on what it has left to do, and on nothing else.
-/

namespace EventStream.Session

variable {setup : Setup} {allowed : Surroundings}

/-! ## Runs of a call -/

/-- The turns of a call until it has ended, in order. A turn may find any state, and what
connections take and give back does not raise. -/
inductive Runs (setup : Setup) : Option Activation → List Entry → Prop
  | ended : Runs setup none []
  | returned (s call below) :
      Runs setup (some ⟨call, none, []⟩)
        [⟨⟨s, ⟨call, none, []⟩ :: below⟩, .work, [.returns]⟩]
  | acted {s cue call rest below after outcome effects turns} :
      Acts setup s cue after outcome → Seen s cue outcome effects →
      (∀ a f, cue = .answer a (.raised f) → ¬ (a.isDelivery = true)) →
      Runs setup (outcome.activation? call rest) turns →
      Runs setup (some (cue.activation call rest))
        (⟨⟨s, cue.activation call rest :: below⟩, cue.turn, effects⟩ :: turns)

/-- The turns of a call so far: with whatever run of what is left of the call, they are a run of the
whole call. -/
def Ran (setup : Setup) (left : Option Activation) (own : Chronicle) : Prop :=
  ∃ begun call turns, own.reverse = begun :: turns ∧ begun.turn.call? = some call ∧
    ∀ later, Runs setup left later → Runs setup (some ⟨call, none, [.serve call]⟩) (turns ++ later)

theorem Ran.acted {own : Chronicle} {s after : State} {cue : Cue} {call : Call} {rest : List Task}
    {below : List Activation} {outcome : Outcome} {effects : List Effect}
    (ran : Ran setup (some (cue.activation call rest)) own) (acts : Acts setup s cue after outcome)
    (seen : Seen s cue outcome effects)
    (sound : ∀ a f, cue = .answer a (.raised f) → ¬ (a.isDelivery = true)) :
    Ran setup (outcome.activation? call rest)
      (⟨⟨s, cue.activation call rest :: below⟩, cue.turn, effects⟩ :: own) := by
  obtain ⟨begun, served, turns, same, calls, runs⟩ := ran
  refine ⟨begun, served, turns ++ [_], by rw [List.reverse_cons, same, List.cons_append], calls,
    fun later left => ?_⟩
  rw [List.append_assoc]
  exact runs _ (.acted acts seen sound left)

/-- Whether an effect is noticed by others than the log and those who watch the phase: an
occurrence, a timer that is to be set, and the end of the call. -/
def Effect.surfaces : Effect → Bool
  | .emit (.phaseChanged ..) => false
  | .emit _ | .ask (.schedule _) | .returns | .raises _ => true
  | _ => false

/-- What surfaces in a turn. -/
def Entry.surfaced (e : Entry) : List Effect := e.effects.filter Effect.surfaces

/-- What surfaces in some turns, in order. -/
def surfaced (turns : List Entry) : List Effect := turns.flatMap Entry.surfaced

/-- The connection that could not be opened in a turn, with the fault. -/
def Entry.refused? (e : Entry) : Option (Nat × Fault) :=
  match e.before.awaiting?, e.turn with
  | some (.dialling n), .reply (.raised f) => some (n, f)
  | _, _ => none

theorem surfaced_append (first later : List Entry) :
    surfaced (first ++ later) = surfaced first ++ surfaced later := by
  simp [surfaced]

theorem surfaced_of_seen {s : State} {cue : Cue} {outcome : Outcome} {effects : List Effect}
    (seen : Seen s cue outcome effects) (m : Machine) (turn : Turn) :
    Entry.surfaced ⟨m, turn, effects⟩ = 
      (cue.emits.map Effect.emit ++ outcome.shows).filter Effect.surfaces := by
  have shown : effects.filter Effect.surfaces =
      (effects.filter (!·.isRecord)).filter Effect.surfaces := by
    rw [List.filter_filter]
    congr 1
    funext e
    cases e <;> simp [Effect.surfaces, Effect.isRecord]
  have unseen : ((cue.cancels s).map Effect.cancel).filter Effect.surfaces = [] := by
    simp [List.filter_eq_nil_iff, Effect.surfaces]
  rw [Entry.surfaced, shown, seen.shown]
  simp [Cue.shows, unseen]

/-! ## How a run goes on -/

section

variable {call : Call} {rest : List Task} {turns : List Entry}

theorem Runs.empty (runs : Runs setup none turns) : turns = [] := by
  cases runs
  rfl

theorem Runs.returns (runs : Runs setup (some ⟨call, none, []⟩) turns) :
    surfaced turns = [.returns] := by
  generalize left : some (⟨call, none, []⟩ : Activation) = a at runs
  cases runs with
  | ended => contradiction
  | returned => rfl
  | @acted s cue => cases cue <;> simp [Cue.activation] at left

/-- The next task is done. -/
theorem Runs.task {t : Task} (runs : Runs setup (some ⟨call, none, t :: rest⟩) turns) :
    ∃ e after outcome later, turns = e :: later ∧ e.task? = some t ∧
      e.surfaced = ((Cue.task t).emits.map Effect.emit ++ outcome.shows).filter Effect.surfaces ∧
      Acts setup e.before.state (.task t) after outcome ∧
      Runs setup (outcome.activation? call rest) later := by
  generalize left : some (⟨call, none, t :: rest⟩ : Activation) = a at runs
  cases runs with
  | ended => contradiction
  | returned => simp at left
  | @acted s cue _ _ below after outcome effects later acts seen _ onward =>
      cases cue with
      | answer => simp [Cue.activation] at left
      | task u =>
          simp only [Cue.activation, Option.some.injEq, Activation.mk.injEq,
            List.cons.injEq] at left
          obtain ⟨rfl, -, rfl, rfl⟩ := left
          exact ⟨_, after, outcome, later, rfl, rfl, surfaced_of_seen seen _ _, acts, onward⟩

/-- What is waited for is answered. -/
theorem Runs.answer {a : Await} (runs : Runs setup (some ⟨call, some a, rest⟩) turns) :
    ∃ e r after outcome later, turns = e :: later ∧
      e.surfaced = outcome.shows.filter Effect.surfaces ∧
      Acts setup e.before.state (.answer a r) after outcome ∧
      (∀ f, r = .raised f → ¬ (a.isDelivery = true)) ∧
      Runs setup (outcome.activation? call rest) later := by
  generalize left : some (⟨call, some a, rest⟩ : Activation) = b at runs
  cases runs with
  | ended => contradiction
  | returned => simp at left
  | @acted s cue _ _ below after outcome effects later acts seen sound onward =>
      cases cue with
      | task => simp [Cue.activation] at left
      | answer b r =>
          simp only [Cue.activation, Option.some.injEq, Activation.mk.injEq] at left
          obtain ⟨rfl, rfl, rfl⟩ := left
          refine ⟨_, r, after, outcome, later, rfl, surfaced_of_seen seen _ _, acts, ?_, onward⟩
          rintro f rfl
          exact sound a f rfl

/-- This surfaces first, and then the call goes on with what is left to do. -/
def Shows (setup : Setup) (call : Call) (rest : List Task) (effects : List Effect)
    (turns : List Entry) : Prop :=
  ∃ first later, turns = first ++ later ∧ surfaced first = effects ∧
    Runs setup (some ⟨call, none, rest⟩) later

theorem Shows.cons {e : Entry} {effects : List Effect}
    (later : Shows setup call rest effects turns) :
    Shows setup call rest (e.surfaced ++ effects) (e :: turns) := by
  obtain ⟨first, later, rfl, rfl, onward⟩ := later
  exact ⟨e :: first, later, rfl, rfl, onward⟩

theorem Shows.silent {e : Entry} {effects : List Effect}
    (later : Shows setup call rest effects turns) (silent : e.surfaced = []) :
    Shows setup call rest effects (e :: turns) := by
  simpa [silent] using later.cons (e := e)

theorem Shows.bind {rest' : List Task} {effects effects' : List Effect}
    (first : Shows setup call rest' effects turns)
    (onward : ∀ later, Runs setup (some ⟨call, none, rest'⟩) later →
      Shows setup call rest effects' later) :
    Shows setup call rest (effects ++ effects') turns := by
  obtain ⟨first, later, rfl, rfl, runs⟩ := first
  obtain ⟨second, later, rfl, rfl, runs⟩ := onward _ runs
  exact ⟨first ++ second, later, (List.append_assoc ..).symm, surfaced_append _ _, runs⟩

/-- A call that shows something and has nothing left to do returns after that. -/
theorem Shows.returns {effects : List Effect} (shown : Shows setup call [] effects turns) :
    surfaced turns = effects ++ [.returns] := by
  obtain ⟨first, later, rfl, rfl, onward⟩ := shown
  rw [surfaced_append, onward.returns]

end

/-! ## How a refusal surfaces -/

section

variable {call : Call} {turns : List Entry} {n : Nat} {f : Fault}

end

theorem refused_acted {s : State} {cue : Cue} {call : Call} {rest : List Task}
    {below : List Activation} {effects : List Effect} {n : Nat} {f : Fault} :
    Entry.refused? ⟨⟨s, cue.activation call rest :: below⟩, cue.turn, effects⟩ = some (n, f) ↔
      cue = .answer (.dialling n) (.raised f) := by
  cases cue with
  | task => simp [Entry.refused?, Machine.awaiting?, Cue.activation]
  | answer a r =>
      cases a <;> cases r <;> simp [Entry.refused?, Machine.awaiting?, Cue.activation, Cue.turn]

/-- What follows in a run that a connection could not be opened. -/
theorem Runs.refused {left : Option Activation} {turns earlier later : List Entry} {e : Entry}
    {n : Nat} {f : Fault} (runs : Runs setup left turns) (planned : ∀ a ∈ left, a.Planned)
    (split : turns = earlier ++ e :: later) (refused : e.refused? = some (n, f)) :
    ∃ call, Runs setup (some ⟨call, none, [.serve (.failed n (setup.openFailure f))]⟩) later := by
  induction runs generalizing earlier with
  | ended => simp at split
  | returned s call below =>
      cases earlier with
      | nil =>
          obtain ⟨rfl, -⟩ := List.cons.inj split
          contradiction
      | cons => simp at split
  | @acted s cue call rest below after outcome effects turns acts seen sound onward ih =>
      have precedes := cue_precedes (planned _ rfl)
      cases earlier with
      | nil =>
          obtain ⟨rfl, rfl⟩ := List.cons.inj split
          obtain rfl := refused_acted.mp refused
          obtain rfl := precedes
          cases acts with
          | dialFailed => exact ⟨call, onward⟩
          | lapse other | fault other | queue other => cases other
      | cons first earlier =>
          obtain ⟨-, rfl⟩ := List.cons.inj split
          refine ih (fun a among => ?_) rfl
          have none : ∀ b ∈ ([] : List Activation), b.Planned := by simp
          refine planned_of_acts acts precedes call none a ?_
          rw [stack_eq_activation]
          simpa using among

/-! ## Faults that leave a call -/

section

variable {past : Chronicle} {s after : State} {cue : Cue} {call : Call} {rest : List Task}
  {below : List Activation} {outcome : Outcome} {effects : List Effect} {f : Fault}

end

end EventStream.Session
