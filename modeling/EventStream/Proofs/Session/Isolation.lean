import EventStream.Proofs.Session.Calls
import EventStream.Proofs.Session.LateReports
import Mathlib.Data.List.Nodup

/-
# Handlers are isolated

An occurrence is told to the handlers that are registered for its kind when it begins to be told,
to each of them once and in the order in which they were registered. Handlers may register and
remove handlers meanwhile, and may call the session so that other occurrences are told first: none
of this changes the round that has begun. The list of handlers is taken when the round begins
(`Entry.round`), and what a call still has to tell is the rest of it (`Activation.notices`).

A handler that raises ends nothing but itself. Its fault is written to the log, and the session
goes on to the same machine as if the handler had returned. This compares two runs, whose turns
differ in nothing but how some handlers end (`Course.Faltering`).
-/

namespace EventStream.Session

variable {setup : Setup} {allowed : Surroundings}

/-! ## Registrations -/

/-- The handlers of a kind when a call was served. -/
def Call.registers (k : EventKind) (handlers : List Handler) : Call → List Handler
  | .on event h =>
    if EventKind.ofName? event = some k ∧ h ∉ handlers then handlers ++ [h] else handlers
  | .off event h => if EventKind.ofName? event = some k then handlers.erase h else handlers
  | _ => handlers

/-- The handlers of a kind when all calls so far were served: the first registration counts, until
the handler is removed. -/
def Chronicle.registered (k : EventKind) : Chronicle → List Handler
  | [] => []
  | e :: past =>
    match e.served? with
    | some call => call.registers k (registered k past)
    | none => registered k past

theorem nodup_registers {k : EventKind} {handlers : List Handler} (distinct : handlers.Nodup)
    (call : Call) : (call.registers k handlers).Nodup := by
  cases call with
  | on event h =>
      rw [Call.registers]
      split
      case isTrue absent =>
        refine List.nodup_append.mpr ⟨distinct, List.nodup_singleton h, fun g among _ added => ?_⟩
        obtain rfl := List.mem_singleton.mp added
        rintro rfl
        exact absent.2 among
      case isFalse => exact distinct
  | off event h =>
      rw [Call.registers]
      split
      · exact distinct.erase h
      · exact distinct
  | _ => exact distinct

/-- No handler is registered twice. -/
theorem nodup_registered (k : EventKind) (past : Chronicle) : (past.registered k).Nodup := by
  induction past with
  | nil => exact List.nodup_nil
  | cons e past ih =>
      rw [Chronicle.registered]
      split
      · exact nodup_registers ih _
      · exact ih

section

variable (s : State) (k kind : EventKind) (h : Handler)

theorem mem_handlers : h ∈ s.handlers k ↔ (k, h) ∈ s.registrations := by
  simp [State.handlers, List.mem_filterMap]

/-- A handler is put behind the others of its kind, unless it is among them. -/
theorem handlers_register : (s.register k h).handlers kind =
    if k = kind ∧ h ∉ s.handlers kind then s.handlers kind ++ [h] else s.handlers kind := by
  by_cases already : (k, h) ∈ s.registrations
  · have known : k = kind → h ∈ s.handlers kind := by
      rintro rfl
      exact (mem_handlers s k h).mpr already
    rw [if_neg fun other => other.2 (known other.1)]
    simp [State.register, already]
  · by_cases same : k = kind
    · subst same
      rw [if_pos ⟨rfl, mt (mem_handlers s k h).mp already⟩]
      simp [State.register, State.handlers, already]
    · rw [if_neg (by simp [same])]
      simp [State.register, State.handlers, already, same]

theorem filterMap_erase (registrations : List (EventKind × Handler)) :
    (registrations.erase (k, h)).filterMap
        (fun (given, g) => if given = kind then some g else none) =
      if k = kind then
        (registrations.filterMap fun (given, g) => if given = kind then some g else none).erase h
      else registrations.filterMap fun (given, g) => if given = kind then some g else none := by
  induction registrations with
  | nil => simp
  | cons r rest ih =>
      obtain ⟨given, g⟩ := r
      by_cases same : (given, g) = (k, h)
      · obtain ⟨rfl, rfl⟩ := Prod.mk.inj same
        by_cases mine : given = kind <;> simp [mine]
      · rw [List.erase_cons_tail (by simpa using same), List.filterMap_cons, List.filterMap_cons,
          ih]
        by_cases mine : given = kind
        · subst mine
          by_cases yours : k = given
          · subst yours
            have other : g ≠ h := fun alike => same (by rw [alike])
            simp [List.erase_cons_tail, other]
          · simp [yours]
        · simp [mine]

theorem handlers_unregister : (s.unregister k h).handlers kind =
    if k = kind then (s.handlers kind).erase h else s.handlers kind :=
  filterMap_erase k kind h s.registrations

end

/-- The call that is served at a cue. -/
def Cue.served? : Cue → Option Call
  | .task (.serve call) => some call
  | _ => none

section

variable {past : Chronicle} {s after : State} {cue : Cue} {call : Call} {rest : List Task}
  {below : List Activation} {outcome : Outcome} {effects : List Effect} {m : Machine}

theorem served_acted :
    Entry.served? ⟨⟨s, cue.activation call rest :: below⟩, cue.turn, effects⟩ = cue.served? := by
  cases cue with
  | task t => cases t <;> rfl
  | answer => rfl

theorem served_called {turn : Turn} (begun : turn.call? = some call) :
    Entry.served? ⟨m, turn, effects⟩ = none := by
  unfold Entry.served?
  cases turn <;> first | contradiction | split <;> first | contradiction | rfl

/-- Only calls that register or remove handlers change what is registered. -/
theorem Acts.handlers (acts : Acts setup s cue after outcome) (k : EventKind) :
    after.handlers k =
      match cue.served? with
      | some call => call.registers k (s.handlers k)
      | none => s.handlers k := by
  have ending {served : Call} {n : Nat} {e : Ending} (ends : served.ending? = some (n, e)) :
      served.registers k (s.handlers k) = s.handlers k := by
    cases served <;> first | rfl | contradiction
  cases acts with
  | register h known =>
      rw [← State.register_eq, handlers_register]
      simp [Cue.served?, Call.registers, known]
  | unregister h known =>
      rw [handlers_unregister]
      simp [Cue.served?, Call.registers, known]
  | lapse lapses =>
      cases lapses with
      | ending ends => exact (ending ends).symm
      | _ => rfl
  | fault faults =>
      cases faults with
      | on h unknown | off h unknown => simp [Cue.served?, Call.registers, unknown]
      | _ => rfl
  | queue queues => cases queues <;> rfl
  | ended ends => exact (ending ends).symm
  | _ => rfl

end

/-- The handlers that a session has are those that the calls registered and did not remove. -/
theorem handlers_of_reached {c : Course} (reached : c.Reached setup allowed) (k : EventKind) :
    c.now.state.handlers k = c.past.registered k := by
  refine reached.induction (P := fun past s _ => s.handlers k = past.registered k)
    ?start ?called ?returned ?acted
  case start => rfl
  case called =>
    intro past s stack turn call _ same _ begun _
    rw [same, Chronicle.registered, served_called begun]
  case returned => exact fun _ same => same
  case acted =>
    intro past s cue call rest below after outcome effects _ same _ acts _
    rw [acts.handlers, Chronicle.registered, served_acted, same]

/-! ## Rounds -/

/-- Whether an effect has to do with telling: an occurrence begins to be told, or a handler is. -/
def Effect.isNotice : Effect → Bool
  | .emit _ | .ask (.tell ..) => true
  | _ => false

/-- The requests of telling handlers one after the other. -/
def tellings (o : Occurrence) (handlers : List Handler) : List Effect :=
  handlers.map fun h => .ask (.tell h o)

/-- An occurrence that begins to be told, and the handlers that are registered for it then. -/
def Entry.round (e : Entry) : List Effect :=
  (e.effects.filterMap Effect.occurrence?).flatMap fun o =>
    .emit o :: tellings o (e.before.state.handlers o.kind)

namespace Chronicle

/-- What was told, in order: each occurrence when it began to be told, and each handler. -/
def notices : Chronicle → List Effect
  | [] => []
  | e :: past => notices past ++ e.effects.filter Effect.isNotice

/-- What is to be told if every occurrence is told to all its handlers at once. -/
def rounds : Chronicle → List Effect
  | [] => []
  | e :: past => rounds past ++ e.round

end Chronicle

/-- What a task is still to tell of a round that has begun. -/
def Task.notices : Task → List Effect
  | .notify o handlers => tellings o handlers
  | _ => []

/-- What is still to be told of a round after a wait. -/
def Await.notices : Await → List Effect
  | .telling _ o next => tellings o next
  | _ => []

/-- What a call is still to tell of a round that has begun. -/
def Activation.notices (a : Activation) : List Effect :=
  (a.awaiting.elim [] Await.notices) ++ a.tasks.flatMap Task.notices

/-- What is still to be told at a cue. -/
def Cue.notices : Cue → List Effect
  | .task t => t.notices
  | .answer a _ => a.notices

section

variable {past : Chronicle} {s after : State} {cue : Cue} {call : Call} {rest : List Task}
  {below : List Activation} {outcome : Outcome} {effects : List Effect}

/-- Rounds are told at once, so nothing that is left belongs to one. -/
theorem Left.notices (left : Left rest) : rest.flatMap Task.notices = [] := by
  cases left with
  | told follows => cases follows <;> rfl
  | _ => rfl

theorem notices_activation (left : Left rest) :
    (cue.activation call rest).notices = cue.notices := by
  cases cue <;> simp [Cue.activation, Activation.notices, Cue.notices, left.notices]

theorem notices_of_seen (seen : Seen s cue outcome effects) :
    effects.filter Effect.isNotice =
      cue.emits.map .emit ++ outcome.shows.filter Effect.isNotice := by
  have shown : effects.filter Effect.isNotice =
      (effects.filter (!·.isRecord)).filter Effect.isNotice := by
    rw [List.filter_filter]
    congr 1
    funext e
    cases e <;> simp [Effect.isRecord, Effect.isNotice]
  rw [shown, seen.shown]
  simp [Cue.shows, List.filter_map, Function.comp_def, Effect.isNotice]

/-- What is told in a step, and what is left to be told of a round, is what was left of one before,
or all of a round that the step begins. -/
theorem Acts.notices (acts : Acts setup s cue after outcome) (call : Call) :
    cue.emits.map .emit ++ outcome.shows.filter Effect.isNotice ++
        ((outcome.activation? call []).elim [] Activation.notices) =
      cue.notices ++ cue.emits.flatMap fun o => .emit o :: tellings o (s.handlers o.kind) := by
  cases acts with
  | lapse lapses => cases lapses <;> rfl
  | fault faults => cases faults <;> rfl
  | queue queues => cases queues <;> rfl
  | emit | notify | told =>
      simp [Cue.emits, Cue.notices, Outcome.shows, Outcome.activation?, Activation.notices,
        Task.notices, Await.notices, tellings, Effect.isNotice, Await.request, List.filter_cons]
  | ended => cases held : s.connection <;> rfl
  | reconnect =>
      by_cases connecting : s.phase = .connecting <;> simp only [connecting] <;> rfl
  | adopt => by_cases connected : s.isConnected <;> simp only [connected] <;> rfl
  | _ => rfl

/-- The round that begins in a turn. -/
theorem round_acted (seen : Seen s cue outcome effects) (stack : List Activation) (turn : Turn) :
    Entry.round ⟨⟨s, stack⟩, turn, effects⟩ =
      cue.emits.flatMap fun o => .emit o :: tellings o (s.handlers o.kind) := by
  rw [Entry.round, seen.emitted]

/-- What a call has told is, round by round, what is to be told, up to what is left of a round. -/
theorem notices_append_acted {own : Chronicle} (acts : Acts setup s cue after outcome)
    (seen : Seen s cue outcome effects) (left : Left rest)
    (told : own.notices ++ (cue.activation call rest).notices = own.rounds)
    (stack : List Activation) :
    Chronicle.notices (⟨⟨s, stack⟩, cue.turn, effects⟩ :: own) ++
        (outcome.activation? call rest).elim [] Activation.notices =
      Chronicle.rounds (⟨⟨s, stack⟩, cue.turn, effects⟩ :: own) := by
  have due : (outcome.activation? call rest).elim [] Activation.notices =
      (outcome.activation? call []).elim [] Activation.notices := by
    cases outcome <;> simp [Outcome.activation?, Activation.notices, left.notices]
  rw [notices_activation left] at told
  rw [Chronicle.notices, Chronicle.rounds, round_acted seen, notices_of_seen seen, due, ← told]
  simp only [List.append_assoc] at acts ⊢
  rw [← acts.notices call]
  simp only [List.append_assoc]

end

/-- What each call has told is what its rounds ask for, once it has ended, and a beginning of that
while it is in progress. -/
theorem notices_of_reached {c : Course} (reached : c.Reached setup allowed) :
    List.Forall₂ (fun own a => own.notices ++ a.notices = own.rounds) c.past.ongoing c.now.stack ∧
      ∀ own ∈ c.past.finished, own.notices = own.rounds := by
  refine reached.own ?begun ?returned ?acted ?failed
  case begun => exact fun _ _ _ => rfl
  case returned =>
    intro past s call below own _ told
    have silent : Entry.round ⟨⟨s, ⟨call, none, []⟩ :: below⟩, .work, [.returns]⟩ = [] := rfl
    simpa [Chronicle.notices, Chronicle.rounds, silent, Effect.isNotice, Activation.notices] using
      told
  case acted =>
    intro past s cue call rest below after outcome effects own a before told _ acts seen goes
    have left := (cue_precedes ((planned_of_reached before).planned _ List.mem_cons_self)).left
    simpa [goes] using notices_append_acted acts seen left told _
  case failed =>
    intro past s cue call rest below after f effects own before told _ acts seen
    have left := (cue_precedes ((planned_of_reached before).planned _ List.mem_cons_self)).left
    simpa [Outcome.activation?] using notices_append_acted acts seen left told _

/-- What handlers were told in a course: every occurrence was told to the handlers that the calls
had registered for it when it began to be told, to each of them once and in that order. -/
structure Chronicle.ToldInRounds (past : Chronicle) : Prop where
  /-- The handlers that a turn finds are those that the calls before it registered. -/
  registered : ∀ e (earlier : Chronicle), e :: earlier <:+ past → ∀ k,
    e.before.state.handlers k = earlier.registered k ∧ (earlier.registered k).Nodup
  /-- All turns are turns of the calls, of those that have ended and of those in progress. -/
  all : (past.finished.flatten ++ past.ongoing.flatten).Perm past
  /-- A call that has ended has told its rounds to the end. -/
  ended : ∀ own ∈ past.finished, own.notices = own.rounds
  /-- A call in progress is within its last round, or between two. -/
  going : ∀ own ∈ past.ongoing, own.notices <+: own.rounds

/-! ## Handlers that raise -/

/-- The latter turns are the former, but some of the handlers that return in the former raise in
the latter. -/
inductive Course.Faltering (setup : Setup) : Course → List Turn → List Turn → Prop
  | done {c} : Faltering setup c [] []
  | turn {c d turn turns later} : c.take? setup turn = some d → Faltering setup d turns later →
      Faltering setup c (turn :: turns) (turn :: later)
  | falters {c d h o next turns later} (f : Fault) : c.now.awaiting? = some (.telling h o next) →
      c.take? setup (.reply .returned) = some d → Faltering setup d turns later →
      Faltering setup c (.reply .returned :: turns) (.reply (.raised f) :: later)

/-- What a turn found and what was seen of it, records apart. -/
def Entry.unlogged (e : Entry) : Machine × List Effect :=
  (e.before, e.effects.filter (!·.isRecord))

/-- A handler that raises leaves the machine that it would have left. -/
theorem take_raised {c c' d : Course} {h : Handler} {o : Occurrence} {next : List Handler}
    (waits : c.now.awaiting? = some (.telling h o next))
    (taken : c.take? setup (.reply .returned) = some d) (same : c'.now = c.now) (f : Fault) :
    ∃ d', c'.take? setup (.reply (.raised f)) = some d' ∧ d'.now = d.now ∧
      d.past = ⟨c.now, .reply .returned, []⟩ :: c.past ∧
      d'.past = ⟨c.now, .reply (.raised f), [setup.handlerReport h o]⟩ :: c'.past := by
  obtain ⟨past, s, stack⟩ := c
  obtain ⟨past', now'⟩ := c'
  obtain rfl : now' = ⟨s, stack⟩ := same
  rcases stack with _ | ⟨⟨call, awaiting, rest⟩, below⟩
  · contradiction
  · obtain rfl : awaiting = some (.telling h o next) := waits
    obtain rfl := Option.some.inj taken
    exact ⟨_, rfl, rfl, rfl, rfl⟩

theorem run_faltering {c c' d : Course} {turns later : List Turn}
    (faltering : Course.Faltering setup c turns later) (ran : c.run? setup turns = some d)
    (same : c'.now = c.now) (alike : c'.past.map Entry.unlogged = c.past.map Entry.unlogged) :
    ∃ d', c'.run? setup later = some d' ∧ d'.now = d.now ∧
      d'.past.map Entry.unlogged = d.past.map Entry.unlogged := by
  induction faltering generalizing c' with
  | done =>
      obtain rfl := Option.some.inj ran
      exact ⟨c', rfl, same, alike⟩
  | @turn c b turn turns later taken _ ih =>
      simp only [Course.run?, List.foldlM_cons, taken, Option.bind_eq_bind, Option.bind_some] at ran
      obtain ⟨⟨m, effects⟩, moved, rfl⟩ := Option.map_eq_some_iff.mp taken
      have taken' : c'.take? setup turn = some ⟨⟨c'.now, turn, effects⟩ :: c'.past, m⟩ := by
        simp [Course.take?, same, moved]
      obtain ⟨d', ran', both⟩ := @ih ⟨⟨c'.now, turn, effects⟩ :: c'.past, m⟩ ran rfl
        (by simp [Entry.unlogged, same, alike])
      exact ⟨d', by simpa [Course.run?, taken'] using ran', both⟩
  | @falters c b h o next turns later f waits taken _ ih =>
      simp only [Course.run?, List.foldlM_cons, taken, Option.bind_eq_bind, Option.bind_some] at ran
      obtain ⟨b', taken', same', past, past'⟩ := take_raised waits taken same f
      obtain ⟨d', ran', both⟩ := ih ran same'
        (by simp [past, past', Entry.unlogged, Setup.handlerReport, Setup.say, Effect.isRecord,
          alike])
      exact ⟨d', by simpa [Course.run?, taken'] using ran', both⟩

/-- Handlers are told in rounds, and their faults are isolated: if some of the handlers that return
raise instead, the same turns lead to the same machine, and each of them finds the same machine and
shows the same apart from the log. -/
theorem rounds_and_isolation {c : Course} (reached : c.Reached setup Surroundings.Free) :
    c.past.ToldInRounds ∧
      ∀ turns later d, Course.Faltering setup c turns later → c.run? setup turns = some d →
        ∃ d', c.run? setup later = some d' ∧ d'.now = d.now ∧
          d'.past.map Entry.unlogged = d.past.map Entry.unlogged := by
  constructor
  · obtain ⟨going, ended⟩ := notices_of_reached reached
    refine ⟨fun e earlier suffix k => ?_, perm_finished_append_ongoing reached, ended, ?_⟩
    · obtain ⟨before, -⟩ := next_of_suffix reached suffix
      exact ⟨handlers_of_reached before k, nodup_registered k earlier⟩
    · intro own among
      obtain ⟨a, -, told⟩ := exists_call going own among
      exact ⟨a.notices, told⟩
  · intro turns later d faltering ran
    exact run_faltering faltering ran rfl rfl

/-- Two handlers of which the first removes the second one. -/
def usurper : Handler := ⟨0, "usurper"⟩

@[inherit_doc usurper] def heir : Handler := ⟨1, "heir"⟩

/-- A session that begins to connect; the first handler was registered twice. -/
def proclaimed : Course := Course.plays .plain {} [.call (.on "state_change" usurper),
  .call (.on "state_change" usurper), .call (.on "state_change" heir), .call .start]

/-- The first handler removes the second one, and both end; the session dials. -/
def succession (end₁ end₂ : Reply) : List Turn :=
  [.call (.off "state_change" heir), .work, .work, .reply end₁, .work, .reply end₂, .work, .work,
    .work, .work]

/-- The course that this leads to. -/
def succeeded (end₁ end₂ : Reply) : Course :=
  (proclaimed.run? .plain (succession end₁ end₂)).getD proclaimed

theorem rounds_and_isolation_proclaimed :
    proclaimed.past.registered .phaseChange = [usurper, heir] ∧
      (succeeded .returned .returned).past.requests =
        [.tell usurper (.phaseChanged .idle .connecting),
          .tell heir (.phaseChanged .idle .connecting), .dial 2] ∧
      ∀ f g : Fault, (succeeded (.raised f) (.raised g)).now = (succeeded .returned .returned).now ∧
        (succeeded (.raised f) (.raised g)).past.map Entry.unlogged =
          (succeeded .returned .returned).past.map Entry.unlogged := by
  have reached : proclaimed.Reached .plain Surroundings.Free := Course.leads_plays_free _ _
  obtain ⟨-, isolated⟩ := rounds_and_isolation reached
  refine ⟨rfl, rfl, fun f g => ?_⟩
  have faltering : Course.Faltering .plain proclaimed (succession .returned .returned)
      (succession (.raised f) (.raised g)) :=
    .turn rfl <| .turn rfl <| .turn rfl <| .falters f rfl rfl <| .turn rfl <|
      .falters g rfl rfl <| .turn rfl <| .turn rfl <| .turn rfl <| .turn rfl .done
  obtain ⟨d', ran, both⟩ := isolated _ _ (succeeded .returned .returned) faltering rfl
  obtain rfl : succeeded (.raised f) (.raised g) = d' := by rw [succeeded, ran]; rfl
  exact both

end EventStream.Session
