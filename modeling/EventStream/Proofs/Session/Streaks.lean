import EventStream.Proofs.Session.Stopping

/-
# Reconnects are numbered

Each time a session sets the timer of a reconnect it makes the reconnect known, with its number and
its delay. The numbers begin with one after the session was started, and again whenever it was
connected: what lies between two such points is a streak. The state of the session carries a
counter only, which is set back when a connection reports that it is usable, and which has been
raised before the reconnect is made known. So the counter agrees with what was announced up to a
reconnect that is promised, whose timer is being set or which is about to be told, and not at all
while the session is about to make known that it is connected. This is the invariant `Announced`.
A reconnect that cannot be reported is counted and never made known; the counter is ahead by one
from then on.

A session gives up when its counter has reached the limit of its policy. It then has no prospects
left, and so it never gives up twice.
-/

namespace EventStream.Session

variable {setup : Setup} {allowed : Surroundings}

/-! ## Reconnects that follow a policy -/

section

variable {policy : ReconnectPolicy Number} {k : Int}

/-- A policy that retries does so within its limit, and after the delay of its law. -/
theorem delayFor_of_retry {d : Number} (decided : policy.onDisconnect k = .ok (.retry d)) :
    policy.delayFor k = .ok d ∧ ∀ limit, policy.maxAttempts = some limit → k ≤ limit := by
  unfold ReconnectPolicy.onDisconnect at decided
  split at decided
  case isTrue => simp at decided
  case isFalse within =>
    constructor
    · cases delay : policy.delayFor k with
      | error f => simp [delay, Except.map] at decided
      | ok e => simpa [delay, Except.map] using decided
    · intro limit limited
      simpa [limited] using within

/-- A policy that gives up has a limit, which the next reconnect would exceed. -/
theorem limited_of_giveUp {n : Int} (decided : policy.onDisconnect k = .ok (.giveUp n)) :
    n = k - 1 ∧ ∃ limit, policy.maxAttempts = some limit ∧ limit < k := by
  unfold ReconnectPolicy.onDisconnect at decided
  split at decided
  case isTrue beyond =>
    refine ⟨by simpa [eq_comm] using decided, ?_⟩
    simpa [Option.any_eq_true] using beyond
  case isFalse =>
    cases delay : policy.delayFor k <;> simp [delay, Except.map] at decided

/-- The limit of a policy is not negative. -/
theorem limit_nonneg {limit : Int} (limited : policy.maxAttempts = some limit) : 0 ≤ limit := by
  have sound : policy.toBackoff.flaw? = none := policy.accepted
  unfold Backoff.flaw? at sound
  split at sound
  case isTrue => contradiction
  case isFalse fine => simpa [limited] using fine

end

/-- Reconnects that are numbered from one and that the policy decided, each with its delay. -/
structure InTurn (policy : ReconnectPolicy Number) (reconnects : List (Nat × Number)) : Prop where
  numbered : reconnects.map Prod.fst = List.range' 1 reconnects.length
  decided : ∀ r ∈ reconnects, policy.onDisconnect (r.1 : Nat) = .ok (.retry r.2)

namespace InTurn

variable {policy : ReconnectPolicy Number} {reconnects later : List (Nat × Number)}

theorem nil : InTurn policy [] := ⟨rfl, by simp⟩

/-- The next reconnect has the next number. -/
theorem concat {d : Number} (inTurn : InTurn policy reconnects)
    (decided : policy.onDisconnect (reconnects.length + 1 : Nat) = .ok (.retry d)) :
    InTurn policy (reconnects ++ [(reconnects.length + 1, d)]) where
  numbered := by
    simp [inTurn.numbered, List.range'_concat, Nat.add_comm]
  decided r among := by
    rcases List.mem_append.mp among with among | among
    · exact inTurn.decided r among
    · obtain rfl := List.mem_singleton.mp among
      exact decided

theorem initial (inTurn : InTurn policy (reconnects ++ later)) : InTurn policy reconnects where
  numbered := by
    have numbered := inTurn.numbered
    rw [List.map_append, List.length_append, ← List.range'_append_1] at numbered
    exact (List.append_inj numbered (by simp)).1
  decided r among := inTurn.decided r (List.mem_append_left _ among)

theorem delayed (inTurn : InTurn policy reconnects) :
    ∀ r ∈ reconnects, policy.delayFor (r.1 : Nat) = .ok r.2 :=
  fun r among => (delayFor_of_retry (inTurn.decided r among)).1

/-- There are no more reconnects in turn than the policy allows. -/
theorem length_le (inTurn : InTurn policy reconnects) {limit : Int}
    (limited : policy.maxAttempts = some limit) : (reconnects.length : Int) ≤ limit := by
  rcases Nat.eq_zero_or_pos reconnects.length with empty | ample
  · simpa [empty] using limit_nonneg limited
  · have last : reconnects.length ∈ reconnects.map Prod.fst := by
      rw [inTurn.numbered, List.mem_range'_1]
      omega
    obtain ⟨r, among, same⟩ := List.mem_map.mp last
    exact same ▸ (delayFor_of_retry (inTurn.decided r among)).2 limit limited

end InTurn

/-! ## What is announced -/

/-- The reconnect that is made known. -/
def Occurrence.reconnect? : Occurrence → Option (Nat × Number)
  | .reconnecting k d => some (k, d)
  | _ => none

/-- The number of reconnects with which a session gives up. -/
def Occurrence.surrender? : Occurrence → Option Int
  | .gaveUp k => some k
  | _ => none

/-- Reconnects by the streak in which they were made known, oldest first. -/
structure Streaks where
  current : List (Nat × Number) := []
  /-- The streaks that a connection ended, the latest first. -/
  earlier : List (List (Nat × Number)) := []

namespace Streaks

variable (streaks : Streaks)

/-- What an occurrence adds: a reconnect, or the end of a streak. -/
def tell : Occurrence → Streaks
  | .reconnecting k d => { streaks with current := streaks.current ++ [(k, d)] }
  | .phaseChanged _ .connected => ⟨[], streaks.current :: streaks.earlier⟩
  | _ => streaks

/-- All streaks, the latest first. -/
def all : List (List (Nat × Number)) := streaks.current :: streaks.earlier

/-- Other occurrences add nothing. -/
theorem tell_of_other {o : Occurrence} (unnumbered : o.reconnect? = none)
    (apart : ∀ p, o ≠ .phaseChanged p .connected) : streaks.tell o = streaks := by
  cases o with
  | reconnecting => contradiction
  | phaseChanged p q => cases q <;> first | rfl | exact absurd rfl (apart p)
  | _ => rfl

end Streaks

namespace Chronicle

/-- What was told, in order. -/
def told : Chronicle → List Occurrence
  | [] => []
  | e :: past => told past ++ e.effects.filterMap Effect.occurrence?

/-- The reconnects that were made known. -/
def announced (past : Chronicle) : List (Nat × Number) :=
  past.told.filterMap Occurrence.reconnect?

/-- The same, by streak. -/
def streaks (past : Chronicle) : Streaks := past.told.foldl Streaks.tell {}

variable (past : Chronicle) (m : Machine)

@[simp] theorem told_called (turn : Turn) : told (⟨m, turn, []⟩ :: past) = told past := by
  simp [told]

@[simp] theorem told_returned : told (⟨m, .work, [.returns]⟩ :: past) = told past := by
  simp [told, Effect.occurrence?]

@[simp] theorem announced_called (turn : Turn) :
    announced (⟨m, turn, []⟩ :: past) = announced past := by
  simp [announced]

@[simp] theorem announced_returned :
    announced (⟨m, .work, [.returns]⟩ :: past) = announced past := by
  simp [announced]

@[simp] theorem streaks_called (turn : Turn) :
    streaks (⟨m, turn, []⟩ :: past) = streaks past := by
  simp [streaks]

@[simp] theorem streaks_returned : streaks (⟨m, .work, [.returns]⟩ :: past) = streaks past := by
  simp [streaks]

end Chronicle

section

variable {s : State} {cue : Cue} {outcome : Outcome} {effects : List Effect}

theorem Seen.told (seen : Seen s cue outcome effects) (m : Machine) (past : Chronicle) :
    Chronicle.told (⟨m, cue.turn, effects⟩ :: past) = past.told ++ cue.emits := by
  simp [Chronicle.told, seen.emitted]

theorem Seen.announced (seen : Seen s cue outcome effects) (m : Machine) (past : Chronicle) :
    Chronicle.announced (⟨m, cue.turn, effects⟩ :: past) =
      past.announced ++ cue.emits.filterMap Occurrence.reconnect? := by
  rw [Chronicle.announced, seen.told, List.filterMap_append, Chronicle.announced]

theorem Seen.streaks (seen : Seen s cue outcome effects) (m : Machine) (past : Chronicle) :
    Chronicle.streaks (⟨m, cue.turn, effects⟩ :: past) =
      cue.emits.foldl Streaks.tell past.streaks := by
  simp [Chronicle.streaks, seen.told m past]

end

/-! ## Reconnects that are promised -/

/-- The reconnect whose timer is being set. -/
def Await.promise? : Await → Option (Nat × Number)
  | .scheduling k d => some (k, d)
  | _ => none

/-- The reconnect that is about to be made known. -/
def Task.promise? : Task → Option (Nat × Number)
  | .emit o => o.reconnect?
  | _ => none

/-- The reconnects that a call has promised. -/
def Activation.promised (a : Activation) : List (Nat × Number) :=
  (a.awaiting.bind Await.promise?).toList ++ a.tasks.filterMap Task.promise?

/-- The reconnects that the calls in progress have promised, those of the innermost first. -/
def promised (stack : List Activation) : List (Nat × Number) := stack.flatMap Activation.promised

/-- The promises of what a call goes on with. -/
def Cue.promised : Cue → List (Nat × Number)
  | .task t => t.promise?.toList
  | .answer a _ => a.promise?.toList

theorem Cue.eq_of_emits {cue : Cue} {o : Occurrence} (emits : o ∈ cue.emits) :
    cue = .task (.emit o) := by
  cases cue with
  | answer => simp [Cue.emits] at emits
  | task t => cases t <;> simp_all [Cue.emits]

/-- The promises of what comes of it. -/
def Outcome.promised : Outcome → List (Nat × Number)
  | .next first => first.filterMap Task.promise?
  | .wait a => a.promise?.toList
  | .fail _ => []

/-- Reconnects are made known at once, so nothing that is left promises one. -/
theorem Left.unpromised {rest : List Task} (left : Left rest) :
    rest.filterMap Task.promise? = [] := by
  cases left with
  | told follows => cases follows <;> simp [Task.promise?, Occurrence.reconnect?]
  | _ => simp [Task.promise?]

section

variable {cue : Cue} {call : Call} {rest : List Task} {below : List Activation}

theorem promised_activation (unpromised : rest.filterMap Task.promise? = []) :
    promised (cue.activation call rest :: below) = cue.promised ++ promised below := by
  cases cue with
  | task t =>
      cases promise : t.promise? <;>
        simp [promised, Cue.activation, Activation.promised, Cue.promised, promise, unpromised]
  | answer =>
      simp [promised, Cue.activation, Activation.promised, Cue.promised, unpromised]

theorem promised_stack (outcome : Outcome) (unpromised : rest.filterMap Task.promise? = []) :
    promised (outcome.stack call rest below) = outcome.promised ++ promised below := by
  cases outcome <;>
    simp [promised, Outcome.stack, Activation.promised, Outcome.promised, unpromised]

/-- Calls that wait, and have no prospects, promise nothing. -/
theorem unpromised_below {a : Activation} (planned : Planned (a :: below))
    (none : underway below = 0) : promised below = [] := by
  refine List.flatMap_eq_nil_iff.mpr fun b among => ?_
  have mine := le_underway among
  obtain ⟨call, awaiting, tasks⟩ := b
  cases awaiting with
  | none => simpa using planned.waiting _ among
  | some w =>
      have precedes : w.Precedes tasks := planned.planned _ (List.mem_cons_of_mem a among)
      simp only [Activation.prospects, Option.elim_some] at mine
      cases w with
      | scheduling =>
          simp only [Await.prospects] at mine
          omega
      | _ => simp [Activation.promised, Await.promise?, precedes.left.unpromised]

end

/-! ## The counter -/

/-- The session is about to make known that it is connected. -/
def Opening (stack : List Activation) : Prop :=
  (∃ later, front stack = .enter .connected :: later) ∨
    ∃ p later, front stack = .emit (.phaseChanged p .connected) :: later

theorem not_opening_of_waiting {stack : List Activation} (waits : front stack = []) :
    ¬ Opening stack := by
  rintro (⟨later, stands⟩ | ⟨p, later, stands⟩) <;> simp [waits] at stands

/-- What a step does about the counter, and about what is promised. -/
theorem Acts.announces {s after : State} {cue : Cue} {outcome : Outcome}
    (acts : Acts setup s cue after outcome) :
    (outcome.promised = cue.promised ∧ outcome.asked.filterMap Request.delay? = [] ∧
        (∀ o ∈ cue.emits, o.reconnect? = none) ∧
        (after.attempts = s.attempts ∨ outcome = .next [.enter .connected, .announce] ∨
          ∀ call rest below effects, Entry.Unreported setup
            ⟨⟨s, cue.activation call rest :: below⟩, cue.turn, effects⟩)) ∨
      (∃ d, cue = .task .decide ∧ after.attempts = s.attempts + 1 ∧
        setup.policy.onDisconnect (s.attempts + 1 : Nat) = .ok (.retry d) ∧
        outcome = .wait (.scheduling (s.attempts + 1) d)) ∨
      (∃ k d, cue = .task (.emit (.reconnecting k d)) ∧ after = s ∧ outcome.promised = [] ∧
        outcome.asked = []) ∨
      ∃ k d f, cue = .answer (.scheduling k d) (.raised f) := by
  cases acts with
  | retry _ decided => exact .inr (.inl ⟨_, rfl, rfl, decided, rfl⟩)
  | unreported connecting retries long =>
      exact .inl ⟨rfl, rfl, by simp [Cue.emits],
        .inr (.inr fun _ _ _ _ =>
          ⟨rfl, connecting, ⟨_, retries⟩, (limitShown_eq_error_iff.mp long).2⟩)⟩
  | emit o =>
      cases o with
      | reconnecting k d => exact .inr (.inr (.inl ⟨k, d, rfl, rfl, rfl, rfl⟩))
      | _ => exact .inl ⟨rfl, rfl, by simp [Cue.emits, Occurrence.reconnect?], .inl rfl⟩
  | lapse lapses =>
      refine .inl ⟨?promised, rfl, ?emits, .inl rfl⟩
      case promised => cases lapses <;> rfl
      case emits => cases lapses <;> simp [Cue.emits]
  | fault faults =>
      cases faults with
      | scheduling k d => exact .inr (.inr (.inr ⟨k, d, _, rfl⟩))
      | _ => exact .inl ⟨rfl, rfl, by simp [Cue.emits], .inl rfl⟩
  | queue queues =>
      refine .inl ⟨?promised, rfl, ?emits, .inl rfl⟩
      case promised => cases queues <;> rfl
      case emits => cases queues <;> simp [Cue.emits]
  | opened => exact .inl ⟨rfl, rfl, by simp [Cue.emits], .inr (.inl rfl)⟩
  | ended =>
      refine .inl ⟨?_, rfl, by simp [Cue.emits], .inl rfl⟩
      cases s.connection <;> rfl
  | conclude e => exact .inl ⟨by cases e <;> rfl, rfl, by simp [Cue.emits], .inl rfl⟩
  | reconnect | adopt =>
      refine .inl ⟨?_, rfl, by simp [Cue.emits], .inl rfl⟩
      split <;> rfl
  | _ => exact .inl ⟨rfl, rfl, by simp [Cue.emits], .inl rfl⟩

/-- A report that the connection is usable that leads to something opens the session. -/
theorem Acts.opens {s after : State} {outcome : Outcome}
    (acts : Acts setup s (.task (.serve (.opened s.generation))) after outcome)
    (some : outcome.tasks ≠ []) :
    s.phase = .connecting ∧ after.attempts = 0 ∧
      outcome = .next [.enter .connected, .announce] := by
  cases acts with
  | opened connecting => exact ⟨connecting, rfl, rfl⟩
  | ended ends => contradiction
  | _ => exact absurd rfl some

/-- A change of phase is made known when the phase is entered. -/
theorem Acts.changes {s after : State} {cue : Cue} {outcome : Outcome} {p q : Phase}
    (acts : Acts setup s cue after outcome) (adds : .emit (.phaseChanged p q) ∈ outcome.tasks) :
    cue = .task (.enter q) ∧ after.attempts = s.attempts ∧
      outcome = .next [.emit (.phaseChanged s.phase q)] := by
  cases acts with
  | enter =>
      obtain ⟨-, rfl⟩ : p = s.phase ∧ q = _ := by simpa [Outcome.tasks] using adds
      exact ⟨rfl, rfl, rfl⟩
  | ended => cases held : s.connection <;> simp [Outcome.tasks, held] at adds
  | reconnect | adopt =>
      simp only [Outcome.tasks] at adds
      split at adds <;> simp at adds
  | conclude e => cases e <;> simp [Outcome.tasks, Ending.occurrence] at adds
  | _ => simp [Outcome.tasks, Setup.stopping] at adds

/-- A session comes to be opening when its connection reports that it is usable, and stays so when
it enters the phase. -/
theorem opening_of_acts {s after : State} {cue : Cue} {call : Call} {rest : List Task}
    {below : List Activation} {outcome : Outcome} (acts : Acts setup s cue after outcome)
    (planned : Planned (cue.activation call rest :: below))
    (opening : Opening (outcome.stack call rest below)) :
    (cue = .task (.serve (.opened s.generation)) ∧ s.phase = .connecting ∧ after.attempts = 0 ∧
        outcome = .next [.enter .connected, .announce]) ∨
      cue = .task (.enter .connected) ∧ after.attempts = s.attempts ∧
        outcome = .next [.emit (.phaseChanged s.phase .connected)] := by
  have left := (cue_precedes (planned.planned _ List.mem_cons_self)).left
  rcases opening with ⟨later, stands⟩ | ⟨p, later, stands⟩
  · obtain ⟨first, rfl, -⟩ := planned.added rfl stands
    obtain ⟨rfl, -⟩ := acts.origin _ List.mem_cons_self
    exact .inl ⟨rfl, acts.opens (List.cons_ne_nil _ _)⟩
  · cases outcome with
    | wait => contradiction
    | fail =>
        have waits : front below = [] := planned.front_below
        simp [Outcome.stack, waits] at stands
    | next first =>
        cases first with
        | nil =>
            -- Nothing that is left makes the phase known.
            obtain rfl : rest = .emit (.phaseChanged p .connected) :: later := stands
            cases left with
            | told follows => cases follows
        | cons u first =>
            obtain ⟨rfl, -⟩ := List.cons.inj stands
            exact .inr (acts.changes List.mem_cons_self)

/-- A session is about to be connected only while it connects. -/
theorem connecting_of_opening {c : Course} (reached : c.Reached setup allowed) {later : List Task} :
    front c.now.stack = .enter .connected :: later → c.phase = .connecting := by
  refine reached.induction
    (P := fun _ s stack => front stack = .enter .connected :: later → s.phase = .connecting)
    ?start ?called ?returned ?acted
  case start => simp [front]
  case called => simp
  case returned =>
    intro past s call below before _ stands
    have waits : front below = [] := (planned_of_reached before).front_below
    simp [waits] at stands
  case acted =>
    intro past s cue call rest below after outcome effects before _ _ acts _ stands
    have planned : Planned (cue.activation call rest :: below) := planned_of_reached before
    rcases opening_of_acts acts planned (.inl ⟨later, stands⟩) with
      ⟨rfl, connecting, -⟩ | ⟨-, -, rfl⟩
    · rcases acts.phase with same | ⟨p, -, enters, -⟩
      · exact same.trans connecting
      · simp at enters
    · simp [Outcome.stack] at stands

/-- What was announced agrees with the counter, unless a reconnect could not be reported, and the
timers agree with what was announced. -/
structure Announced (setup : Setup) (past : Chronicle) (s : State) (stack : List Activation) :
    Prop where
  streaks : ∀ streak ∈ past.streaks.all, InTurn setup.policy streak
  inTurn : ¬ Opening stack → InTurn setup.policy (past.streaks.current ++ promised stack)
  counted : ¬ Opening stack → ¬ past.Unreported setup →
    (past.streaks.current ++ promised stack).length = s.attempts
  opening : Opening stack → s.attempts = 0 ∧ promised stack = []
  asked : past.requests.filterMap Request.delay? =
    (past.announced ++ promised stack).map Prod.snd

section

variable {past : Chronicle} {s after : State} {cue : Cue} {call : Call} {rest : List Task}
  {below : List Activation} {outcome : Outcome} {effects : List Effect} {m : Machine}

/-- A session that makes known that it is connected begins a new streak. -/
theorem opened_of_acts (acts : Acts setup s cue after outcome) (seen : Seen s cue outcome effects)
    (connecting : cue = .task (.enter .connected) → s.phase = .connecting)
    (was : Opening (cue.activation call rest :: below))
    (opens : ¬ Opening (outcome.stack call rest below)) :
    after.attempts = s.attempts ∧ outcome.promised = [] ∧
      Chronicle.streaks (⟨m, cue.turn, effects⟩ :: past) =
        ⟨[], past.streaks.current :: past.streaks.earlier⟩ := by
  rcases was with ⟨later, stands⟩ | ⟨p, later, stands⟩
  · cases cue with
    | answer => contradiction
    | task t =>
        obtain ⟨rfl, rfl⟩ := List.cons.inj stands
        cases acts with
        | enter => exact absurd (.inr ⟨_, _, rfl⟩) opens
        | lapse lapses =>
            generalize enters : Cue.task (.enter .connected) = cue at lapses
            cases lapses <;> simp_all
        | fault faults => cases faults
        | queue queues => cases queues
  · cases cue with
    | answer => contradiction
    | task t =>
        obtain ⟨rfl, rfl⟩ := List.cons.inj stands
        cases acts with
        | emit => exact ⟨rfl, rfl, seen.streaks m past⟩
        | lapse lapses => cases lapses
        | fault faults => cases faults
        | queue queues => cases queues

/-- The delays of the timers that were asked for are those announced or promised. -/
theorem asked_of_acts (acts : Acts setup s cue after outcome) (seen : Seen s cue outcome effects)
    (planned : Planned (cue.activation call rest :: below))
    (alone : cue = .task .decide → promised below = [])
    (sound : ∀ k d f, cue ≠ .answer (.scheduling k d) (.raised f))
    (asked : past.requests.filterMap Request.delay? =
      (past.announced ++ promised (cue.activation call rest :: below)).map Prod.snd) :
    (Chronicle.requests (⟨m, cue.turn, effects⟩ :: past)).filterMap Request.delay? =
      (Chronicle.announced (⟨m, cue.turn, effects⟩ :: past) ++
        promised (outcome.stack call rest below)).map Prod.snd := by
  have unpromised := (cue_precedes (planned.planned _ List.mem_cons_self)).left.unpromised
  have requests : Chronicle.requests (⟨m, cue.turn, effects⟩ :: past) =
      past.requests ++ outcome.asked := by
    rw [Chronicle.requests, Entry.asked, seen.asked]
  rw [promised_activation unpromised] at asked
  rw [promised_stack outcome unpromised, requests, seen.announced, List.filterMap_append, asked]
  rcases acts.announces with ⟨same, silent, calm, -⟩ | ⟨d, rfl, -, -, rfl⟩ |
    ⟨k, d, rfl, -, same, silent⟩ | ⟨k, d, f, rfl⟩
  · have untold : cue.emits.filterMap Occurrence.reconnect? = [] :=
      List.filterMap_eq_nil_iff.mpr calm
    rw [same, silent, untold, List.append_nil, List.append_nil]
  · simp [alone rfl, Cue.promised, Task.promise?, Outcome.asked, Await.request, Request.delay?,
      Cue.emits, Outcome.promised, Await.promise?]
  · simp [same, silent, Cue.promised, Task.promise?, Occurrence.reconnect?, Cue.emits]
  · exact absurd rfl (sound k d f)

/-- Away from an opening, what announces no reconnect leaves the streaks as they are. -/
theorem tell_of_calm {streaks : Streaks} (calm : ∀ o ∈ cue.emits, o.reconnect? = none)
    (closed : ¬ Opening (cue.activation call rest :: below)) :
    cue.emits.foldl Streaks.tell streaks = streaks := by
  cases emits : cue.emits with
  | nil => rfl
  | cons o others =>
      obtain rfl := Cue.eq_of_emits (emits ▸ List.mem_cons_self)
      obtain rfl : [] = others := (List.cons.inj emits).2
      exact Streaks.tell_of_other _ (calm o List.mem_cons_self)
        fun p same => closed (.inr ⟨p, rest, by rw [same]; rfl⟩)

/-- Away from an opening the counter moves with what is announced or promised. -/
theorem counted_of_acts (acts : Acts setup s cue after outcome) (seen : Seen s cue outcome effects)
    (planned : Planned (cue.activation call rest :: below))
    (alone : cue = .task .decide → promised below = [] ∧ ¬ past.Unreported setup)
    (sound : ∀ k d f, cue ≠ .answer (.scheduling k d) (.raised f))
    (was : ¬ Opening (cue.activation call rest :: below))
    (opens : ¬ Opening (outcome.stack call rest below))
    (inTurn : InTurn setup.policy
      (past.streaks.current ++ promised (cue.activation call rest :: below)))
    (count : ¬ past.Unreported setup →
      (past.streaks.current ++ promised (cue.activation call rest :: below)).length = s.attempts) :
    ∃ current, Chronicle.streaks (⟨⟨s, cue.activation call rest :: below⟩, cue.turn, effects⟩ ::
        past) = { past.streaks with current := current } ∧
      InTurn setup.policy (current ++ promised (outcome.stack call rest below)) ∧
      (¬ Chronicle.Unreported setup
          (⟨⟨s, cue.activation call rest :: below⟩, cue.turn, effects⟩ :: past) →
        (current ++ promised (outcome.stack call rest below)).length = after.attempts) := by
  have unpromised := (cue_precedes (planned.planned _ List.mem_cons_self)).left.unpromised
  have counted (reported : ¬ Chronicle.Unreported setup
      (⟨⟨s, cue.activation call rest :: below⟩, cue.turn, effects⟩ :: past)) :=
    count fun unreported => reported (unreported.cons _)
  rw [promised_activation unpromised] at inTurn count counted
  rw [promised_stack outcome unpromised, seen.streaks]
  rcases acts.announces with ⟨same, -, calm, kept⟩ | ⟨d, rfl, raised, decided, rfl⟩ |
    ⟨k, d, rfl, rfl, same, -⟩ | ⟨k, d, f, rfl⟩
  · refine ⟨past.streaks.current, tell_of_calm calm was, same ▸ inTurn, fun reported => ?_⟩
    rcases kept with kept | opened | unreported
    · rw [same, kept, counted reported]
    · exact absurd (.inl ⟨_, by rw [opened]; rfl⟩) opens
    · exact absurd (unreported_cons.mpr (.inl (unreported _ _ _ _))) reported
  · obtain ⟨alone, reported⟩ := alone rfl
    have count := count reported
    simp only [alone, Cue.promised, Task.promise?, Option.toList_none, List.append_nil]
      at inTurn count
    refine ⟨past.streaks.current, rfl, ?_, fun _ => ?_⟩
    · simpa [alone, Outcome.promised, Await.promise?, count] using
        inTurn.concat (count ▸ decided)
    · simp [alone, Outcome.promised, Await.promise?, count, raised]
  · refine ⟨past.streaks.current ++ [(k, d)], rfl, ?_, fun reported => ?_⟩
    · simpa [same, Cue.promised, Task.promise?, Occurrence.reconnect?] using inTurn
    · simpa [same, Cue.promised, Task.promise?, Occurrence.reconnect?] using counted reported
  · exact absurd rfl (sound k d f)

/-- Steps keep what was announced in agreement, as long as no timer that is to be set raises. -/
theorem announced_of_acts (announced : Announced setup past s (cue.activation call rest :: below))
    (planned : Planned (cue.activation call rest :: below))
    (acts : Acts setup s cue after outcome) (seen : Seen s cue outcome effects)
    (most : prospects past s (cue.activation call rest :: below) ≤ 1)
    (reported : cue = .task .decide → ¬ past.Unreported setup)
    (heard : cue = .task (.serve (.opened s.generation)) → live past s = 1)
    (connecting : cue = .task (.enter .connected) → s.phase = .connecting)
    (sound : ∀ k d f, cue ≠ .answer (.scheduling k d) (.raised f)) :
    Announced setup (⟨⟨s, cue.activation call rest :: below⟩, cue.turn, effects⟩ :: past) after
      (outcome.stack call rest below) := by
  let e : Entry := ⟨⟨s, cue.activation call rest :: below⟩, cue.turn, effects⟩
  have unpromised := (cue_precedes (planned.planned _ List.mem_cons_self)).left.unpromised
  have earlier : promised (cue.activation call rest :: below) = cue.promised ++ promised below :=
    promised_activation unpromised
  have later : promised (outcome.stack call rest below) = outcome.promised ++ promised below :=
    promised_stack outcome unpromised
  have streaks : Chronicle.streaks (e :: past) = cue.emits.foldl Streaks.tell past.streaks :=
    seen.streaks _ past
  obtain ⟨streaked, inTurn, counted, opening, asked⟩ := announced
  have alone (decides : cue = .task .decide) : promised below = [] :=
    unpromised_below planned (alone_of_prospect most (decides ▸ rfl)).2.2
  have asked := asked_of_acts (m := e.before) acts seen planned alone sound asked
  by_cases opens : Opening (outcome.stack call rest below)
  · rcases opening_of_acts acts planned opens with ⟨rfl, -, reset, rfl⟩ | ⟨rfl, same, rfl⟩
    · have none : promised below = [] := by
        refine unpromised_below planned ?_
        have listening := heard rfl
        simp only [prospects, underway_cons] at most
        omega
      refine ⟨?_, fun closed => absurd opens closed, fun closed => absurd opens closed,
        fun _ => ⟨reset, ?_⟩, asked⟩
      · simpa [e, streaks, Cue.emits] using streaked
      · simp [later, none, Outcome.promised, Task.promise?]
    · obtain ⟨reset, none⟩ := opening (.inl ⟨rest, rfl⟩)
      rw [earlier] at none
      refine ⟨?_, fun closed => absurd opens closed, fun closed => absurd opens closed,
        fun _ => ⟨same.trans reset, ?_⟩, asked⟩
      · simpa [e, streaks, Cue.emits] using streaked
      · simpa [later, Outcome.promised, Task.promise?, Occurrence.reconnect?] using
          (List.append_eq_nil_iff.mp none).2
  by_cases was : Opening (cue.activation call rest :: below)
  · obtain ⟨same, calm, fresh⟩ := opened_of_acts (m := e.before) acts seen connecting was opens
    obtain ⟨reset, none⟩ := opening was
    rw [earlier] at none
    have silent : promised (outcome.stack call rest below) = [] := by
      rw [later, calm, (List.append_eq_nil_iff.mp none).2]
      rfl
    refine ⟨?_, fun _ => ?_, fun _ _ => ?_, fun opening => absurd opening opens, asked⟩
    · rw [fresh]
      exact List.forall_mem_cons.mpr ⟨.nil, streaked⟩
    · rw [fresh, silent]
      exact .nil
    · rw [fresh, silent]
      exact (same.trans reset).symm
  · obtain ⟨current, moved, ordered, count⟩ := counted_of_acts acts seen planned
      (fun decides => ⟨alone decides, reported decides⟩) sound was opens (inTurn was) (counted was)
    refine ⟨?_, fun _ => ?_, fun _ reported => ?_, fun opening => absurd opening opens, asked⟩
    · rw [moved]
      exact List.forall_mem_cons.mpr
        ⟨ordered.initial, fun streak among => streaked streak (.tail _ among)⟩
    · exact moved ▸ ordered
    · exact moved ▸ count reported

end

/-- The surroundings set every timer that they are asked for. -/
def Punctual (allowed : Surroundings) : Prop :=
  ∀ c turn, allowed c turn → Surroundings.Sound (fun a => ∃ k d, a = .scheduling k d) c turn

/-- A session that is opened listens to a connection that it dialled. -/
theorem live_of_heard {past : Chronicle} {s : State} {cue : Cue} {call : Call} {rest : List Task}
    {below : List Activation}
    (before : Course.Reached setup allowed ⟨past, s, cue.activation call rest :: below⟩)
    (sane : Sane allowed) (opens : cue = .task (.serve (.opened s.generation))) :
    live past s = 1 := by
  subst opens
  have known : s.generation ∈ past.dialled :=
    heard_of_reached before sane.genuine _ List.mem_cons_self _ _ List.mem_cons_self rfl
  simp [live, known]

/-- A session that is to ask its policy has reported every reconnect so far. -/
theorem reported_of_deciding {past : Chronicle} {s : State} {call : Call} {rest : List Task}
    {below : List Activation}
    (reached : Course.Reached setup allowed
      ⟨past, s, (Cue.task .decide).activation call rest :: below⟩) (sane : Sane allowed) :
    ¬ past.Unreported setup := by
  intro unreported
  have none := (hopeless_of_unreported reached sane unreported).1
  simp [prospects, Cue.activation, Activation.prospects, Task.prospects] at none

theorem announced_of_reached {c : Course} (reached : c.Reached setup allowed) (sane : Sane allowed)
    (punctual : Punctual allowed) :
    Announced setup c.past c.now.state c.now.stack := by
  refine reached.induction (P := Announced setup) ?start ?called ?returned ?acted
  case start =>
    refine ⟨?_, fun _ => .nil, fun _ _ => rfl, ?_, rfl⟩
    · simpa [Streaks.all, Chronicle.streaks, Chronicle.told] using .nil
    · exact fun opening => absurd opening (not_opening_of_waiting rfl)
  case called =>
    rintro past s stack turn call _ ⟨streaked, inTurn, counted, -, asked⟩ _ _ free
    have waits := not_opening_of_waiting (front_of_waiting free)
    have same : promised (⟨call, none, [.serve call]⟩ :: stack) = promised stack := by
      simp [promised, Activation.promised, Task.promise?]
    refine ⟨by simpa using streaked, fun _ => ?_, fun _ reported => ?_, ?_, ?_⟩
    · simpa [same] using inTurn waits
    · simpa [same] using counted waits fun was => reported (was.cons _)
    · rintro (⟨later, stands⟩ | ⟨p, later, stands⟩) <;> simp at stands
    · simpa [same, Chronicle.requests] using asked
  case returned =>
    rintro past s call below before ⟨streaked, inTurn, counted, -, asked⟩
    have waits : front below = [] := (planned_of_reached before).front_below
    refine ⟨by simpa using streaked, fun _ => ?_, fun _ reported => ?_, fun opening => ?_, ?_⟩
    · simpa [promised, Activation.promised] using inTurn (not_opening_of_waiting rfl)
    · simpa [promised, Activation.promised] using
        counted (not_opening_of_waiting rfl) fun was => reported (was.cons _)
    · exact absurd opening (not_opening_of_waiting waits)
    · simpa [promised, Activation.promised, Chronicle.requests] using asked
  case acted =>
    intro past s cue call rest below after outcome effects before announced permitted acts seen
    refine announced_of_acts announced (planned_of_reached before) acts seen
      (prospects_le_one before sane) ?_ (fun opens => live_of_heard before sane opens) ?_ ?_
    · rintro rfl
      exact reported_of_deciding before sane
    · rintro rfl
      exact connecting_of_opening before rfl
    · rintro k d f rfl
      exact punctual _ _ permitted _ f rfl ⟨k, d, rfl⟩ rfl

/-! ## Sessions that give up -/

/-- The number of reconnects with which the session is about to make known that it gives up. -/
def Task.surrender? : Task → Option Int
  | .emit o => o.surrender?
  | _ => none

/-- The surrenders that calls in progress are going to make known. -/
def surrendering (stack : List Activation) : List Int :=
  stack.flatMap fun a => a.tasks.filterMap Task.surrender?

/-- The surrenders that were made known. -/
def Chronicle.surrenders (past : Chronicle) : List Int :=
  past.told.filterMap Occurrence.surrender?

/-- A session gives up when its policy says so, and in no other step. -/
theorem Acts.surrenders {s after : State} {cue : Cue} {outcome : Outcome}
    (acts : Acts setup s cue after outcome) :
    outcome.tasks.filterMap Task.surrender? = [] ∨
      ∃ k, cue = .task .decide ∧ s.phase = .connecting ∧ after = s.clearQueue ∧
        setup.policy.onDisconnect (s.attempts + 1 : Nat) = .ok (.giveUp k) ∧
        outcome = .next [.enter .closed, .emit (.gaveUp k)] := by
  cases acts with
  | giveUp connecting decided => exact .inr ⟨_, rfl, connecting, rfl, decided, rfl⟩
  | ended =>
      left
      cases s.connection <;> rfl
  | reconnect | adopt =>
      left
      simp only [Outcome.tasks]
      split <;> rfl
  | conclude e =>
      left
      cases e <;> rfl
  | _ => exact .inl rfl

section

variable {past : Chronicle} {s after : State} {cue : Cue} {call : Call} {rest : List Task}
  {below : List Activation} {outcome : Outcome} {effects : List Effect} {m : Machine}

theorem surrendering_activation (cue : Cue) (call : Call) (rest : List Task)
    (below : List Activation) :
    surrendering (cue.activation call rest :: below) =
      cue.emits.filterMap Occurrence.surrender? ++ rest.filterMap Task.surrender? ++
        surrendering below := by
  cases cue with
  | answer => simp [surrendering, Cue.activation, Cue.emits]
  | task t =>
      have mine : (Cue.task t).emits.filterMap Occurrence.surrender? = t.surrender?.toList := by
        cases t with
        | emit o => cases told : o.surrender? <;> simp [Cue.emits, Task.surrender?, told]
        | _ => rfl
      rw [mine]
      cases due : t.surrender? <;> simp [surrendering, Cue.activation, due]

/-- A surrender that is due is made known, whatever happens to the call. -/
theorem surrendering_stack (acts : Acts setup s cue after outcome) (precedes : cue.Precedes rest)
    (below : List Activation) :
    surrendering (outcome.stack call rest below) =
      outcome.tasks.filterMap Task.surrender? ++ rest.filterMap Task.surrender? ++
        surrendering below := by
  cases outcome with
  | next | wait => simp [surrendering, Outcome.stack, Outcome.tasks]
  | fail =>
      have none : rest.filterMap Task.surrender? = [] := by
        rcases acts.rest_of_fail precedes with rfl | rfl | ⟨e, rfl⟩ <;> rfl
      simp [Outcome.stack, Outcome.tasks, none]

theorem surrendering_subset (acts : Acts setup s cue after outcome) (precedes : cue.Precedes rest)
    (calm : outcome.tasks.filterMap Task.surrender? = []) (below : List Activation) :
    surrendering (outcome.stack call rest below) ⊆
      surrendering (cue.activation call rest :: below) := by
  rw [surrendering_stack acts precedes, surrendering_activation, calm, List.nil_append,
    List.append_assoc]
  exact List.subset_append_right _ _

/-- A session gives up once, with the number of reconnects that its policy allows, each of which it
has reported, and it is closed when it makes this known. -/
structure Surrendered (setup : Setup) (past : Chronicle) (s : State) (stack : List Activation) :
    Prop where
  once : (past.surrenders ++ surrendering stack).length ≤ 1
  spent : past.surrenders ++ surrendering stack ≠ [] → prospects past s stack = 0 ∧ s.phase ≠ .idle
  reported : past.surrenders ++ surrendering stack ≠ [] → ¬ past.Unreported setup
  limited : ∀ k ∈ surrendering stack, setup.policy.maxAttempts = some k ∧ (s.attempts : Int) = k
  closed : surrendering stack ≠ [] → s.phase = .closed ∨
    ∃ k, front stack = [.enter .closed, .emit (.gaveUp k)]

/-- A session that follows its policy gives up at its limit. -/
theorem limit_of_giveUp {policy : ReconnectPolicy Number} {reconnects : List (Nat × Number)}
    {k : Int} (inTurn : InTurn policy reconnects)
    (decided : policy.onDisconnect (reconnects.length + 1 : Nat) = .ok (.giveUp k)) :
    policy.maxAttempts = some k ∧ (reconnects.length : Int) = k := by
  obtain ⟨rfl, limit, limited, beyond⟩ := limited_of_giveUp decided
  have within := inTurn.length_le limited
  have same : limit = reconnects.length := by omega
  subst same
  exact ⟨by simpa using limited, by simp⟩

/-- A session without prospects, that was started, changes neither its counter nor its mind. -/
theorem attempts_of_spent (acts : Acts setup s cue after outcome)
    (none : prospects past s (cue.activation call rest :: below) = 0)
    (heard : cue = .task (.serve (.opened s.generation)) → live past s = 1) :
    after.attempts = s.attempts ∧ cue ≠ .task .decide := by
  simp only [prospects, underway_cons, prospects_activation] at none
  have undecided : cue ≠ .task .decide := by
    rintro rfl
    simp only [Cue.prospects, Task.prospects] at none
    omega
  refine ⟨?_, undecided⟩
  cases acts with
  | opened =>
      have listening := heard rfl
      omega
  | retry | unreported => exact absurd rfl undecided
  | _ => rfl

/-- A step gives up, or leaves the surrenders as they are. -/
theorem surrenders_of_acts (acts : Acts setup s cue after outcome)
    (seen : Seen s cue outcome effects) (precedes : cue.Precedes rest)
    (calm : outcome.tasks.filterMap Task.surrender? = []) :
    Chronicle.surrenders (⟨m, cue.turn, effects⟩ :: past) ++
        surrendering (outcome.stack call rest below) =
      past.surrenders ++ surrendering (cue.activation call rest :: below) := by
  rw [surrendering_activation, surrendering_stack acts precedes, calm, Chronicle.surrenders,
    seen.told, List.filterMap_append, Chronicle.surrenders, List.nil_append]
  simp only [List.append_assoc]

end

/-- A session that gives up has no prospects left, and gives up at its limit. -/
theorem surrendered_of_giveUp {past : Chronicle} {s : State} {call : Call}
    {below : List Activation} {effects : List Effect} {m : Machine} {k : Int}
    (most : prospects past s ((Cue.task .decide).activation call [] :: below) ≤ 1)
    (seen : Seen s (.task .decide) (.next [.enter .closed, .emit (.gaveUp k)]) effects)
    (connecting : s.phase = .connecting)
    (limit : setup.policy.maxAttempts = some k ∧ (s.attempts : Int) = k)
    (reported : ¬ Chronicle.Unreported setup (⟨m, .work, effects⟩ :: past))
    (untold : past.surrenders = []) (undue : surrendering below = []) :
    Surrendered setup (⟨m, .work, effects⟩ :: past) s.clearQueue
      (⟨call, none, [.enter .closed, .emit (.gaveUp k)]⟩ :: below) := by
  have told : Chronicle.surrenders (⟨m, .work, effects⟩ :: past) = [] := by
    have same : Chronicle.told (⟨m, .work, effects⟩ :: past) = past.told ++ [] := seen.told m past
    simpa [Chronicle.surrenders, same] using untold
  have due : surrendering (⟨call, none, [.enter .closed, .emit (.gaveUp k)]⟩ :: below) = [k] := by
    change [k] ++ surrendering below = [k]
    rw [undue, List.append_nil]
  refine ⟨by simp [told, due], fun _ => ⟨prospects_forgone seen m most rfl rfl rfl rfl rfl, ?_⟩,
    fun _ => reported, ?_, fun _ => .inr ⟨k, rfl⟩⟩
  · simp [State.clearQueue, connecting]
  · rw [due]
    intro j among
    obtain rfl := List.mem_singleton.mp among
    exact limit

theorem surrendered_of_reached {c : Course} (reached : c.Reached setup allowed)
    (sane : Sane allowed) (punctual : Punctual allowed) :
    Surrendered setup c.past c.now.state c.now.stack := by
  refine reached.induction (P := Surrendered setup) ?start ?called ?returned ?acted
  case start => constructor <;> simp [surrendering, Chronicle.surrenders, Chronicle.told]
  case called =>
    rintro past s stack turn call before ⟨once, spent, reported, limited, closed⟩ permitted begun
      free
    have same : surrendering (⟨call, none, [.serve call]⟩ :: stack) = surrendering stack := by
      simp [surrendering, Task.surrender?]
    have told : Chronicle.surrenders (⟨⟨s, stack⟩, turn, []⟩ :: past) = past.surrenders := by
      simp [Chronicle.surrenders]
    rw [← told, ← same] at once spent reported
    refine ⟨once, fun due => ?_, fun due unreported => ?_, by rwa [same], fun due => .inl ?_⟩
    · rw [prospects_called (sane.timely _ _ permitted) begun]
      exact spent due
    · exact reported due (unreported_of_undone (Entry.task_call begun) unreported)
    · rw [same] at due
      refine (closed due).resolve_right ?_
      rintro ⟨k, stands⟩
      simp [front_of_waiting free] at stands
  case returned =>
    rintro past s call below before ⟨once, spent, reported, limited, closed⟩
    have told : Chronicle.surrenders (⟨⟨s, ⟨call, none, []⟩ :: below⟩, .work, [.returns]⟩ :: past) =
        past.surrenders := by simp [Chronicle.surrenders]
    rw [← told] at once spent reported
    refine ⟨once, fun due => ?_, fun due unreported => ?_, limited, fun due => .inl ?_⟩
    · simpa [prospects, live, Activation.prospects] using spent due
    · exact reported due (unreported_of_undone rfl unreported)
    · refine (closed due).resolve_right ?_
      rintro ⟨k, stands⟩
      simp at stands
  case acted =>
    rintro past s cue call rest below after outcome effects before
      ⟨once, spent, reported, limited, closed⟩ _ acts seen
    have planned : Planned (cue.activation call rest :: below) := planned_of_reached before
    have precedes := cue_precedes (planned.planned _ List.mem_cons_self)
    have orderly : OrderlyStack s.phase (cue.activation call rest :: below) :=
      orderlyStack_of_reached before
    rcases acts.surrenders with calm | ⟨k, rfl, connecting, rfl, decided, rfl⟩
    · have same : Chronicle.surrenders
            (⟨⟨s, cue.activation call rest :: below⟩, cue.turn, effects⟩ :: past) ++
            surrendering (outcome.stack call rest below) =
          past.surrenders ++ surrendering (cue.activation call rest :: below) :=
        surrenders_of_acts acts seen precedes calm
      have fewer : surrendering (outcome.stack call rest below) ⊆
          surrendering (cue.activation call rest :: below) :=
        surrendering_subset acts precedes calm below
      have wasDue (due : surrendering (outcome.stack call rest below) ≠ []) :
          surrendering (cue.activation call rest :: below) ≠ [] :=
        fun none => due (List.subset_nil.mp (none ▸ fewer))
      have kept (due : past.surrenders ++ surrendering (cue.activation call rest :: below) ≠ []) :=
        attempts_of_spent acts (spent due).1 fun opens => live_of_heard before sane opens
      refine ⟨by rwa [same], fun due => ?_, fun due unreported => ?_, fun k among => ?_,
        fun due => ?_⟩
      · obtain ⟨none, started⟩ := spent (same ▸ due)
        refine ⟨Nat.le_zero.mp (none ▸ prospects_stack_le before sane acts seen fun _ => started),
          fun idle => ?_⟩
        rcases acts.passage orderly with kept | passage
        · exact started (kept.symm.trans idle)
        · rw [idle] at passage
          exact not_passage_idle _ passage
      · rw [same] at due
        rcases unreported_cons.mp unreported with now | earlier
        · exact (kept due).2 (acts.counted now).1
        · exact reported due earlier
      · obtain ⟨limit, count⟩ := limited k (fewer among)
        have same := (kept fun empty => List.ne_nil_of_mem (fewer among)
          (List.append_eq_nil_iff.mp empty).2).1
        exact ⟨limit, same ▸ count⟩
      · rcases closed (wasDue due) with gone | ⟨k, stands⟩
        · exact .inl (acts.stays_closed orderly gone)
        · cases cue with
          | answer => contradiction
          | task t =>
              obtain ⟨rfl, -⟩ := List.cons.inj stands
              exact .inl acts.entered
    · obtain rfl := precedes
      have most : prospects past s _ ≤ 1 := prospects_le_one before sane
      have undecided : past.surrenders ++
          surrendering ((Cue.task .decide).activation call [] :: below) = [] := by
        refine Decidable.byContradiction fun due => ?_
        exact (attempts_of_spent acts (spent due).1 (by simp)).2 rfl
      obtain ⟨untold, undue⟩ := List.append_eq_nil_iff.mp undecided
      rw [surrendering_activation] at undue
      have announced := announced_of_reached before sane punctual
      have closing : ¬ Opening ((Cue.task .decide).activation call [] :: below) := by
        simp [Opening, Cue.activation]
      have reported := reported_of_deciding before sane
      have count := announced.counted closing reported
      have limit := limit_of_giveUp (announced.inTurn closing) (count ▸ decided)
      rw [count] at limit
      refine surrendered_of_giveUp most seen connecting limit (fun unreported => ?_) untold
        (List.append_eq_nil_iff.mp undue).2
      obtain ⟨-, -, fails⟩ :=
        acts.counted ((unreported_cons.mp unreported).resolve_right reported)
      contradiction

/-! ## Reconnects that were not made known -/

/-- A step of a session without prospects announces nothing, if it has promised nothing. -/
theorem streaks_of_hopeless {past : Chronicle} {s after : State} {cue : Cue} {call : Call}
    {rest : List Task} {below : List Activation} {outcome : Outcome} {effects : List Effect}
    (acts : Acts setup s cue after outcome) (seen : Seen s cue outcome effects) (m : Machine)
    (planned : Planned (cue.activation call rest :: below))
    (hopeless : prospects past s (cue.activation call rest :: below) = 0)
    (unpromised : promised (cue.activation call rest :: below) = [])
    (closed : ¬ Opening (cue.activation call rest :: below)) :
    Chronicle.streaks (⟨m, cue.turn, effects⟩ :: past) = past.streaks ∧
      promised (outcome.stack call rest below) = [] := by
  have left := (cue_precedes (planned.planned _ List.mem_cons_self)).left.unpromised
  rw [promised_activation left] at unpromised
  obtain ⟨mine, others⟩ := List.append_eq_nil_iff.mp unpromised
  have none : cue.prospects = 0 := by
    simp only [prospects, underway_cons, prospects_activation] at hopeless
    omega
  rw [promised_stack outcome left, others, List.append_nil, seen.streaks]
  rcases acts.announces with ⟨same, -, calm, -⟩ | ⟨d, rfl, -⟩ | ⟨k, d, rfl, -⟩ | ⟨k, d, f, rfl⟩
  · exact ⟨tell_of_calm calm closed, same.trans mine⟩
  all_goals contradiction

/-- When a reconnect could not be reported the counter is ahead of what was made known by one, and
it stays so. -/
theorem attempts_of_unreported {c : Course} (reached : c.Reached setup allowed)
    (sane : Sane allowed) (punctual : Punctual allowed) : c.past.Unreported setup →
      promised c.now.stack = [] ∧ c.past.streaks.current.length + 1 = c.now.state.attempts := by
  refine reached.induction (P := fun past s stack => past.Unreported setup →
    promised stack = [] ∧ past.streaks.current.length + 1 = s.attempts)
    ?start ?called ?returned ?acted
  case start =>
    rintro ⟨e, among, -⟩
    contradiction
  case called =>
    intro past s stack turn call _ ih _ begun _ unreported
    obtain ⟨none, count⟩ := ih (unreported_of_undone (Entry.task_call begun) unreported)
    exact ⟨by simpa [promised, Activation.promised, Task.promise?] using none, by simpa using count⟩
  case returned =>
    intro past s call below _ ih unreported
    obtain ⟨none, count⟩ := ih (unreported_of_undone rfl unreported)
    exact ⟨by simpa [promised, Activation.promised] using none, by simpa using count⟩
  case acted =>
    intro past s cue call rest below after outcome effects before ih _ acts seen unreported
    have planned : Planned (cue.activation call rest :: below) := planned_of_reached before
    have announced := announced_of_reached before sane punctual
    rcases unreported_cons.mp unreported with now | earlier
    · obtain ⟨rfl, rfl, rfl⟩ := acts.counted now
      have most : prospects past s _ ≤ 1 := prospects_le_one before sane
      have none : promised below = [] := unpromised_below planned (alone_of_prospect most rfl).2.2
      have left := (cue_precedes (planned.planned _ List.mem_cons_self)).left.unpromised
      have count := announced.counted (by simp [Opening, Cue.activation])
        (reported_of_deciding before sane)
      rw [promised_activation left, none] at count
      refine ⟨none, ?_⟩
      rw [seen.streaks]
      simpa [Cue.emits, Cue.promised, Task.promise?] using count
    · obtain ⟨none, count⟩ := ih earlier
      have hopeless := (hopeless_of_unreported before sane earlier).1
      have closed : ¬ Opening (cue.activation call rest :: below) := fun opening => by
        have reset : s.attempts = 0 := (announced.opening opening).1
        omega
      obtain ⟨same, unpromised⟩ := streaks_of_hopeless acts seen
        ⟨s, cue.activation call rest :: below⟩ planned hopeless none closed
      have kept := (attempts_of_spent acts hopeless fun opens => live_of_heard before sane opens).1
      exact ⟨unpromised, by rw [same, kept, count]⟩

/-! ## The past of a course -/

theorem eq_of_front {stack : List Activation} {t : Task} {later : List Task}
    (stands : front stack = t :: later) :
    ∃ call below, stack = (Cue.task t).activation call later :: below := by
  rcases stack with _ | ⟨⟨call, _ | a, tasks⟩, below⟩
  · contradiction
  · obtain rfl : tasks = t :: later := stands
    exact ⟨call, below, rfl⟩
  · contradiction

/-- What is told in a turn was to be told next. -/
theorem front_of_told {c : Course} (reached : c.Reached setup allowed) {e : Entry}
    {earlier : Chronicle} (suffix : e :: earlier <:+ c.past) {o : Occurrence}
    (tells : .emit o ∈ e.effects) : ∃ later, front e.before.stack = .emit o :: later := by
  obtain ⟨-, d, next, turns⟩ := next_of_suffix reached suffix
  generalize before : Course.mk earlier e.before = b at next
  cases Course.advance_of_next next with
  | called =>
      obtain ⟨rfl, -⟩ := List.cons.inj turns
      simp at tells
  | returned =>
      obtain ⟨rfl, -⟩ := List.cons.inj turns
      simp at tells
  | @acted _ _ cue _ rest _ _ _ effects _ _ seen =>
      obtain ⟨rfl, -⟩ := List.cons.inj turns
      have emits : o ∈ cue.emits := by
        rw [← seen.emitted, List.mem_filterMap]
        exact ⟨_, tells, rfl⟩
      obtain rfl := Cue.eq_of_emits emits
      exact ⟨rest, rfl⟩

/-- When a session makes known that it gives up, it is closed, and it has made known as many
reconnects as its policy allows since it was last connected. -/
theorem limit_of_told {c : Course} (reached : c.Reached setup allowed) (sane : Sane allowed)
    (punctual : Punctual allowed) {e : Entry} {earlier : Chronicle}
    (suffix : e :: earlier <:+ c.past) {k : Int} (tells : .emit (.gaveUp k) ∈ e.effects) :
    setup.policy.maxAttempts = some k ∧ (earlier.streaks.current.length : Int) = k ∧
      e.before.state.phase = .closed := by
  obtain ⟨before, -⟩ := next_of_suffix reached suffix
  obtain ⟨later, stands⟩ := front_of_told reached suffix tells
  obtain ⟨⟨s, stack⟩, turn, effects⟩ := e
  obtain ⟨call, below, rfl⟩ : ∃ call below, stack =
      (Cue.task (.emit (.gaveUp k))).activation call later :: below := eq_of_front stands
  have planned : Planned ((Cue.task (.emit (.gaveUp k))).activation call later :: below) :=
    planned_of_reached before
  obtain ⟨-, spent, reported, limited, closed⟩ := surrendered_of_reached before sane punctual
  have due : k ∈ surrendering ((Cue.task (.emit (.gaveUp k))).activation call later :: below) := by
    rw [surrendering_activation]
    simp [Cue.emits, Occurrence.surrender?]
  obtain ⟨limit, count⟩ := limited k due
  have spending := List.ne_nil_of_mem (List.mem_append_right earlier.surrenders due)
  refine ⟨limit, ?_, (closed (List.ne_nil_of_mem due)).resolve_right (by simp [Cue.activation])⟩
  -- Nothing is promised, so what was made known agrees with the counter.
  have none : promised ((Cue.task (.emit (.gaveUp k))).activation call later :: below) = [] := by
    have zero := (spent spending).1
    simp only [prospects, underway_cons] at zero
    rw [promised_activation (cue_precedes (planned.planned _ List.mem_cons_self)).left.unpromised,
      unpromised_below planned (by omega)]
    rfl
  have counted := (announced_of_reached before sane punctual).counted
    (by simp [Opening, Cue.activation]) (reported spending)
  simp only [none, List.append_nil] at counted
  rw [counted, count]

end EventStream.Session
