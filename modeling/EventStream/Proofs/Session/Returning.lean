import EventStream.Proofs.Session.Action

/-
# Calls come to an end

A session works off what it has to do, and waits for handlers, connections and timers. It never
waits for an answer that it would not take, and it never works or waits forever: if no other calls
come, all calls in progress are over after finitely many turns, whatever the answers are
(`acc_of_idle`). How many turns it takes depends on the answers, since a connection that gives back
payloads makes a queue longer that is drained.

Nothing is counted for that. A task passes if every call that ends without the task ends also if it
does the task first, and this goes from the tasks to which a task leads to the task itself. Only two
tasks lead back to themselves: telling handlers, which leaves fewer of them, and draining the queue,
which leaves a shorter one.
-/

namespace EventStream.Session

/-- No call comes. -/
def Surroundings.Idle : Surroundings := fun _ turn => turn.call? = none

section

variable (setup : Setup)

/-- If no other calls come, the calls in progress end. -/
def Ends (s : State) (stack : List Activation) : Prop :=
  ∀ past, Acc (fun d c => Course.Next setup Surroundings.Idle c d) ⟨past, s, stack⟩

/-- A call ends that does a task first, if it ends without the task. -/
def Passes (t : Task) : Prop :=
  ∀ call rest below, (∀ s, Ends setup s (⟨call, none, rest⟩ :: below)) →
    (∀ s, Ends setup s below) → ∀ s, Ends setup s (⟨call, none, t :: rest⟩ :: below)

/-- A call ends that waits, if it ends without waiting. -/
def Answers (a : Await) : Prop :=
  ∀ call rest below, (∀ s, Ends setup s (⟨call, none, rest⟩ :: below)) →
    (∀ s, Ends setup s below) → ∀ s, Ends setup s (⟨call, some a, rest⟩ :: below)

/-- A call ends that goes on like this, if it ends without going on. -/
def Outcome.Passes : Outcome → Prop
  | .next first => ∀ t ∈ first, Session.Passes setup t
  | .wait a => Answers setup a
  | .fail _ => True

end

variable {setup : Setup} {s : State} {call : Call} {rest : List Task} {below : List Activation}

/-! ## From what follows to what precedes -/

/-- Calls end if they end after whatever turn comes next. -/
theorem ends_of_advance {stack : List Activation}
    (returned : ∀ call below, stack = ⟨call, none, []⟩ :: below → Ends setup s below)
    (acted : ∀ cue call rest below after outcome, stack = cue.activation call rest :: below →
      Acts setup s cue after outcome → Ends setup after (outcome.stack call rest below)) :
    Ends setup s stack := by
  refine fun past => ⟨_, fun d next => ?_⟩
  cases Course.advance_of_next next with
  | called idle begun =>
      rw [idle] at begun
      contradiction
  | returned => exact returned _ _ rfl _
  | acted _ acts _ => exact acted _ _ _ _ _ _ rfl acts _

theorem ends_nil : Ends setup s [] :=
  ends_of_advance (fun _ _ none => by simp at none) fun _ _ _ _ _ _ none => by simp at none

theorem ends_of_return (ends : Ends setup s below) : Ends setup s (⟨call, none, []⟩ :: below) := by
  refine ends_of_advance (fun _ _ same => ?_) fun cue _ _ _ _ _ other => ?_
  · obtain ⟨-, rfl⟩ := List.cons.inj same
    exact ends
  · cases cue <;> simp [Cue.activation] at other

theorem ends_of_task {t : Task} (onward : ∀ after outcome, Acts setup s (.task t) after outcome →
    Ends setup after (outcome.stack call rest below)) :
    Ends setup s (⟨call, none, t :: rest⟩ :: below) := by
  refine ends_of_advance (fun _ _ other => by simp at other) fun cue _ _ _ _ _ same => ?_
  cases cue with
  | task =>
      simp only [Cue.activation, List.cons.injEq, Activation.mk.injEq] at same
      obtain ⟨⟨rfl, -, rfl, rfl⟩, rfl⟩ := same
      exact onward _ _
  | answer => simp [Cue.activation] at same

theorem ends_of_await {a : Await} (onward : ∀ r after outcome,
    Acts setup s (.answer a r) after outcome →
      Ends setup after (outcome.stack call rest below)) :
    Ends setup s (⟨call, some a, rest⟩ :: below) := by
  refine ends_of_advance (fun _ _ other => by simp at other) fun cue _ _ _ _ _ same => ?_
  cases cue with
  | task => simp [Cue.activation] at same
  | answer =>
      simp only [Cue.activation, List.cons.injEq, Activation.mk.injEq, Option.some.injEq] at same
      obtain ⟨⟨rfl, rfl, rfl⟩, rfl⟩ := same
      exact onward _ _ _

theorem Outcome.Passes.ends {outcome : Outcome} (passes : outcome.Passes setup)
    (later : ∀ s, Ends setup s (⟨call, none, rest⟩ :: below)) (others : ∀ s, Ends setup s below)
    (s : State) : Ends setup s (outcome.stack call rest below) := by
  cases outcome with
  | next first =>
      induction first generalizing s with
      | nil => exact later s
      | cons t first ih =>
          have onward (s : State) := ih s fun u later => passes u (.tail _ later)
          exact passes t List.mem_cons_self _ _ _ onward others s
  | wait a => exact passes call rest below later others s
  | fail => exact others s

theorem passes_of_acts {t : Task} (onward : ∀ s after outcome,
    Acts setup s (.task t) after outcome → outcome.Passes setup) : Passes setup t :=
  fun _ _ _ later others s => ends_of_task fun after outcome acts =>
    (onward s after outcome acts).ends later others after

theorem answers_of_acts {a : Await} (onward : ∀ s r after outcome,
    Acts setup s (.answer a r) after outcome → outcome.Passes setup) : Answers setup a :=
  fun _ _ _ later others s => ends_of_await fun r after outcome acts =>
    (onward s r after outcome acts).ends later others after

/-! ## Task by task -/

theorem answers_releasing (n : Nat) : Answers setup (.releasing n) := by
  refine answers_of_acts fun s r after outcome acts => ?_
  cases acts <;> simp [Outcome.Passes]

theorem answers_discarding (n : Nat) : Answers setup (.discarding n) := by
  refine answers_of_acts fun s r after outcome acts => ?_
  cases acts <;> simp [Outcome.Passes]

theorem answers_sending (n : Nat) (p : Value) : Answers setup (.sending n p) := by
  refine answers_of_acts fun s r after outcome acts => ?_
  cases acts <;> simp [Outcome.Passes]

theorem answers_reclaiming (n : Nat) : Answers setup (.reclaiming n) := by
  refine answers_of_acts fun s r after outcome acts => ?_
  cases acts <;> simp [Outcome.Passes]

theorem answers_telling {h : Handler} {o : Occurrence} {next : List Handler}
    (onward : Passes setup (.notify o next)) : Answers setup (.telling h o next) := by
  refine answers_of_acts fun s r after outcome acts => ?_
  cases acts with
  | told => simpa [Outcome.Passes] using onward
  | _ => simp [Outcome.Passes]

/-- Handlers are told, each time fewer of them. -/
theorem passes_notify (o : Occurrence) (handlers : List Handler) :
    Passes setup (.notify o handlers) := by
  induction handlers with
  | nil =>
      refine passes_of_acts fun s after outcome acts => ?_
      cases acts <;> simp [Outcome.Passes]
  | cons h next ih =>
      refine passes_of_acts fun s after outcome acts => ?_
      cases acts with
      | notify => exact answers_telling ih
      | _ => simp [Outcome.Passes]

theorem passes_emit (o : Occurrence) : Passes setup (.emit o) := by
  refine passes_of_acts fun s after outcome acts => ?_
  cases acts with
  | emit => simpa [Outcome.Passes] using passes_notify o _
  | _ => simp [Outcome.Passes]

theorem passes_enter (p : Phase) : Passes setup (.enter p) := by
  refine passes_of_acts fun s after outcome acts => ?_
  cases acts with
  | enter => simpa [Outcome.Passes] using passes_emit _
  | _ => simp [Outcome.Passes]

/-- The queue is drained, and gets shorter. -/
theorem passes_drain (n sent : Nat) : Passes setup (.drain n sent) := by
  intro call rest below later others s
  obtain ⟨size, same⟩ : ∃ size, s.queue.size = size := ⟨_, rfl⟩
  induction size generalizing s sent with
  | zero =>
      refine ends_of_task fun after outcome acts => ?_
      cases acts with
      | @drain _ _ m head => simp_all [Outbound.Queue.size, Outbound.Queue.head?]
      | lapse => exact later s
      | fault => exact others s
      | queue queues => cases queues
  | succ size ih =>
      refine ends_of_task fun after outcome acts => ?_
      cases acts with
      | drain _ _ head =>
          refine ends_of_await fun r after outcome acts => ?_
          cases acts with
          | drained =>
              exact ih (sent + 1) _ (by simp_all [Outbound.Queue.size, Outbound.Queue.dropHead])
          | lapse => exact later s
          | fault => exact others s
          | queue queues => cases queues
      | lapse => exact later s
      | fault => exact others s
      | queue queues => cases queues

theorem answers_draining (n : Nat) (p : Value) (sent : Nat) :
    Answers setup (.draining n p sent) := by
  refine answers_of_acts fun s r after outcome acts => ?_
  cases acts with
  | drained => simpa [Outcome.Passes] using passes_drain n (sent + 1)
  | _ => simp [Outcome.Passes]

theorem passes_flush : Passes setup .flush := by
  refine passes_of_acts fun s after outcome acts => ?_
  cases acts with
  | flush => simpa [Outcome.Passes] using passes_drain _ 0
  | _ => simp [Outcome.Passes]

theorem passes_announce : Passes setup .announce := by
  refine passes_of_acts fun s after outcome acts => ?_
  cases acts with
  | announce => simpa [Outcome.Passes] using ⟨passes_flush, passes_emit .opened⟩
  | _ => simp [Outcome.Passes]

/-- Tasks that lead to nothing else. -/
theorem passes_of_last {t : Task}
    (last : t = .cancelTimer ∨ t = .discardQueue ∨ ∃ r, t = .report r) : Passes setup t := by
  refine passes_of_acts fun s after outcome acts => ?_
  rcases last with rfl | rfl | ⟨r, rfl⟩ <;> cases acts <;> simp [Outcome.Passes]

theorem passes_release : Passes setup .release := by
  refine passes_of_acts fun s after outcome acts => ?_
  cases acts with
  | release => exact answers_releasing _
  | _ => simp [Outcome.Passes]

theorem passes_reclaim (n : Nat) : Passes setup (.reclaim n) := by
  refine passes_of_acts fun s after outcome acts => ?_
  cases acts with
  | reclaim => exact answers_reclaiming n
  | _ => simp [Outcome.Passes]

theorem answers_scheduling (k : Nat) (d : Number) : Answers setup (.scheduling k d) := by
  refine answers_of_acts fun s r after outcome acts => ?_
  cases acts with
  | scheduled => simpa [Outcome.Passes] using passes_emit _
  | _ => simp [Outcome.Passes]

theorem passes_decide : Passes setup .decide := by
  refine passes_of_acts fun s after outcome acts => ?_
  cases acts with
  | giveUp => simpa [Outcome.Passes] using ⟨passes_enter .closed, passes_emit _⟩
  | retry => exact answers_scheduling _ _
  | _ => simp [Outcome.Passes]

theorem passes_conclude (e : Ending) : Passes setup (.conclude e) := by
  refine passes_of_acts fun s after outcome acts => ?_
  cases acts with
  | conclude => simpa [Outcome.Passes] using ⟨passes_emit _, passes_decide⟩
  | _ => simp [Outcome.Passes]

theorem passes_fallBack : Passes setup .fallBack := by
  refine passes_of_acts fun s after outcome acts => ?_
  cases acts with
  | fallBack => simpa [Outcome.Passes] using passes_enter .connecting
  | _ => simp [Outcome.Passes]

/-- What is left to do when a connection has ended. -/
theorem passes_ended (held : Option Nat) (e : Ending) :
    Outcome.Passes setup (.next ((held.map Task.reclaim).toList ++ [.fallBack, .conclude e])) := by
  cases held with
  | none => simpa [Outcome.Passes] using ⟨passes_fallBack, passes_conclude e⟩
  | some n => simpa [Outcome.Passes] using ⟨passes_reclaim n, passes_fallBack, passes_conclude e⟩

theorem passes_failed (n : Nat) (f : Fault) : Passes setup (.serve (.failed n f)) := by
  refine passes_of_acts fun s after outcome acts => ?_
  cases acts with
  | ended => exact passes_ended _ _
  | _ => simp [Outcome.Passes]

/-- A connection was opened, or could not be opened. -/
theorem answers_dialling (n : Nat) : Answers setup (.dialling n) := by
  refine answers_of_acts fun s r after outcome acts => ?_
  cases acts with
  | adopt =>
      intro t among
      obtain ⟨-, rfl⟩ : s.isConnected = true ∧ t = .flush := by simpa using among
      exact passes_flush
  | discard => exact answers_discarding n
  | dialFailed => simpa [Outcome.Passes] using passes_failed n _
  | _ => simp [Outcome.Passes]

theorem passes_dial : Passes setup .dial := by
  refine passes_of_acts fun s after outcome acts => ?_
  cases acts with
  | dial => exact answers_dialling _
  | _ => simp [Outcome.Passes]

theorem passes_connect : Passes setup .connect := by
  refine passes_of_acts fun s after outcome acts => ?_
  cases acts with
  | connect => simpa [Outcome.Passes] using ⟨passes_release, passes_dial⟩
  | _ => simp [Outcome.Passes]

theorem passes_stopping : Outcome.Passes setup (.next setup.stopping) := by
  simpa [Outcome.Passes, Setup.stopping] using ⟨passes_enter .closing, passes_of_last (.inl rfl),
    passes_release, passes_of_last (.inr (.inl rfl)), passes_enter .closed,
    passes_of_last (.inr (.inr ⟨_, rfl⟩))⟩

theorem passes_serve (served : Call) : Passes setup (.serve served) := by
  refine passes_of_acts fun s after outcome acts => ?_
  cases acts with
  | start => simpa [Outcome.Passes] using ⟨passes_enter .connecting, passes_connect⟩
  | stop => exact passes_stopping
  | send => exact answers_sending _ _
  | opened => simpa [Outcome.Passes] using ⟨passes_enter .connected, passes_announce⟩
  | received => simpa [Outcome.Passes] using passes_emit _
  | ended => exact passes_ended _ _
  | reconnect =>
      intro t among
      obtain ⟨-, rfl⟩ : s.phase = .connecting ∧ t = .connect := by simpa using among
      exact passes_connect
  | _ => simp [Outcome.Passes]

/-- Every task passes. -/
theorem passes (t : Task) : Passes setup t := by
  cases t with
  | serve served => exact passes_serve served
  | enter p => exact passes_enter p
  | emit o => exact passes_emit o
  | notify o handlers => exact passes_notify o handlers
  | connect => exact passes_connect
  | dial => exact passes_dial
  | release => exact passes_release
  | announce => exact passes_announce
  | flush => exact passes_flush
  | drain n sent => exact passes_drain n sent
  | reclaim n => exact passes_reclaim n
  | fallBack => exact passes_fallBack
  | conclude e => exact passes_conclude e
  | decide => exact passes_decide
  | cancelTimer => exact passes_of_last (.inl rfl)
  | discardQueue => exact passes_of_last (.inr (.inl rfl))
  | report r => exact passes_of_last (.inr (.inr ⟨r, rfl⟩))

theorem answers (a : Await) : Answers setup a := by
  cases a with
  | telling h o next => exact answers_telling (passes_notify o next)
  | dialling n => exact answers_dialling n
  | releasing n => exact answers_releasing n
  | discarding n => exact answers_discarding n
  | sending n p => exact answers_sending n p
  | draining n p sent => exact answers_draining n p sent
  | reclaiming n => exact answers_reclaiming n
  | scheduling k d => exact answers_scheduling k d

/-! ## Call by call -/

theorem ends (s : State) (stack : List Activation) : Ends setup s stack := by
  induction stack generalizing s with
  | nil => exact ends_nil
  | cons a below ih =>
      obtain ⟨call, awaiting, tasks⟩ := a
      have works (s : State) : Ends setup s (⟨call, none, tasks⟩ :: below) := by
        induction tasks generalizing s with
        | nil => exact ends_of_return (ih s)
        | cons t rest later => exact passes t call rest below later ih s
      cases awaiting with
      | none => exact works s
      | some a => exact answers a call tasks below works ih s

/-- Whether a reply answers what is waited for: everything may fail, and what does not fail has its
own form of reply. -/
def Await.takes : Await → Reply → Bool
  | _, .raised _ => true
  | .telling .., .returned | .dialling _, .returned => true
  | .releasing _, .returned | .discarding _, .returned => true
  | .sending .., .accepted _ | .draining .., .accepted _ => true
  | .reclaiming _, .unsent _ => true
  | .scheduling .., .scheduled _ => true
  | _, _ => false

end EventStream.Session
