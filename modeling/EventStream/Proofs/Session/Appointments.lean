import EventStream.Proofs.Session.Continuity
import EventStream.Proofs.Session.Streaks

/-
# Connections are dialled by appointment

A session dials once when it is started. Every other time it dials because a timer fires that it
had set for a reconnect: it made an appointment. An appointment is kept at most once, and a session
makes no further one before the last was kept, so appointments and connections alternate. Which
timer made a session dial is told by the chronicle: it is the turn with which the call began that
dials, and nothing else than a firing timer, or the start, begins such a call.
-/

namespace EventStream.Session

variable {setup : Setup} {allowed : Surroundings}

/-! ## Appointments -/

/-- A timer that was set for a reconnect, and the connections that were dialled when it fired. -/
structure Appointment where
  attempt : Nat
  delay : Number
  timer : Nat
  dialled : List Nat := []

/-- The reconnect for which an appointment was made, as it is announced. -/
def Appointment.reconnect (a : Appointment) : Nat × Number := (a.attempt, a.delay)

/-- The appointment that is made in a turn: the answer to the request to set a timer. -/
def Entry.appointed? (e : Entry) : Option Appointment :=
  match e.before.awaiting?, e.turn with
  | some (.scheduling k d), .reply (.scheduled t) => some { attempt := k, delay := d, timer := t }
  | _, _ => none

/-- Put connections down to the latest appointment with a timer. -/
def credit (timer : Nat) (connections : List Nat) : List Appointment → List Appointment
  | [] => []
  | a :: earlier =>
    if a.timer = timer then { a with dialled := a.dialled ++ connections } :: earlier
    else a :: credit timer connections earlier

@[simp] theorem credit_nil (timer : Nat) (as : List Appointment) : credit timer [] as = as := by
  induction as with
  | nil => rfl
  | cons a earlier ih =>
      simp only [credit, ih, List.append_nil]
      split <;> rfl

namespace Chronicle

/-- The turn with which the call began that has so many calls below it. -/
def beginning (depth : Nat) : Chronicle → Option Turn
  | [] => none
  | e :: past =>
    if e.turn.call?.isSome ∧ e.before.stack.length = depth then some e.turn
    else beginning depth past

/-- The turn with which the innermost call of a machine began. -/
def caller (past : Chronicle) (m : Machine) : Option Turn := past.beginning (m.stack.length - 1)

/-- The appointments that were made, the latest first. -/
def appointments : Chronicle → List Appointment
  | [] => []
  | e :: past =>
    match e.appointed?, caller past e.before with
    | some a, _ => a :: appointments past
    | none, some (.fire t) => credit t (e.asked.filterMap Request.dial?) (appointments past)
    | none, _ => appointments past

/-- The connections that were dialled by a call to start. -/
def dialledByStart : Chronicle → List Nat
  | [] => []
  | e :: past =>
    match caller past e.before with
    | some (.call .start) => dialledByStart past ++ e.asked.filterMap Request.dial?
    | _ => dialledByStart past

/-- The connections that were dialled by appointment, in order. -/
def dialledByAppointment (past : Chronicle) : List Nat :=
  past.appointments.reverse.flatMap Appointment.dialled

variable {past : Chronicle} {e : Entry}

/-- A turn in which nothing is dialled, and no appointment made, leaves the appointments alone. -/
theorem appointments_of_silent (unset : e.appointed? = none)
    (silent : e.asked.filterMap Request.dial? = []) :
    appointments (e :: past) = appointments past := by
  simp only [appointments, unset, silent]
  split <;> simp_all

theorem dialledByStart_of_silent (silent : e.asked.filterMap Request.dial? = []) :
    dialledByStart (e :: past) = dialledByStart past := by
  simp only [dialledByStart, silent]
  split <;> simp

end Chronicle

/-! ## The calls that connect -/

theorem Outcome.suffix_stack {outcome : Outcome} {call : Call} {rest : List Task}
    {below later : List Activation} {a : Activation}
    (suffix : a :: later <:+ outcome.stack call rest below) :
    a :: later <:+ below ∨
      later = below ∧ a.call = call ∧ a.tasks = outcome.tasks ++ rest := by
  cases outcome with
  | next | wait =>
      rcases List.suffix_cons_iff.mp suffix with same | deeper
      · obtain ⟨rfl, rfl⟩ := List.cons.inj same
        exact .inr ⟨rfl, rfl, rfl⟩
      · exact .inl deeper
  | fail => exact .inl suffix

theorem Outcome.call_of_mem_stack {outcome : Outcome} {call : Call} {rest : List Task}
    {below : List Activation} {a : Activation} (among : a ∈ outcome.stack call rest below) :
    a ∈ below ∨ a.call = call ∧ a.tasks = outcome.tasks ++ rest := by
  obtain ⟨earlier, later, split⟩ := List.append_of_mem among
  rcases Outcome.suffix_stack ⟨earlier, split.symm⟩ with deeper | ⟨-, mine⟩
  · exact .inl (deeper.subset List.mem_cons_self)
  · exact .inr mine

@[simp] theorem Cue.call_activation (cue : Cue) (call : Call) (rest : List Task) :
    (cue.activation call rest).call = call := by
  cases cue <;> rfl

namespace Chronicle

@[simp] theorem beginning_acted (depth : Nat) (past : Chronicle) (m : Machine) (cue : Cue)
    (effects : List Effect) :
    beginning depth (⟨m, cue.turn, effects⟩ :: past) = beginning depth past := by
  cases cue <;> simp [beginning, Cue.turn, Turn.call?]

@[simp] theorem beginning_returned (depth : Nat) (past : Chronicle) (m : Machine)
    (effects : List Effect) :
    beginning depth (⟨m, .work, effects⟩ :: past) = beginning depth past := by
  simp [beginning, Turn.call?]

theorem beginning_called {past : Chronicle} {s : State} {stack : List Activation} {turn : Turn}
    {call : Call} (begun : turn.call? = some call) (depth : Nat) :
    beginning depth (⟨⟨s, stack⟩, turn, []⟩ :: past) =
      if stack.length = depth then some turn else beginning depth past := by
  simp [beginning, begun]

end Chronicle

/-- Every call in progress began with a turn that is found in the chronicle. -/
theorem begun_of_reached {c : Course} (reached : c.Reached setup allowed) :
    ∀ a below, a :: below <:+ c.now.stack →
      ∃ turn, c.past.beginning below.length = some turn ∧ turn.call? = some a.call := by
  refine reached.induction (P := fun past _ stack => ∀ a below, a :: below <:+ stack →
    ∃ turn, past.beginning below.length = some turn ∧ turn.call? = some a.call)
    ?start ?called ?returned ?acted
  case start => simp
  case called =>
    intro past s stack turn call _ ih _ begun _ a below suffix
    rw [Chronicle.beginning_called begun]
    rcases List.suffix_cons_iff.mp suffix with same | deeper
    · obtain ⟨rfl, rfl⟩ := List.cons.inj same
      exact ⟨turn, if_pos rfl, begun⟩
    · have shorter := deeper.length_le
      rw [List.length_cons] at shorter
      rw [if_neg (by omega)]
      exact ih a below deeper
  case returned =>
    intro past s call below _ ih a later suffix
    simpa using ih a later (suffix.trans (List.suffix_cons _ _))
  case acted =>
    intro past s cue call rest below after outcome effects _ ih _ _ _ a later suffix
    rw [Chronicle.beginning_acted]
    rcases Outcome.suffix_stack suffix with deeper | ⟨rfl, rfl, -⟩
    · exact ih a later (deeper.trans (List.suffix_cons _ _))
    · simpa using ih _ later (List.suffix_refl _)

/-- What a call serves is itself, or the end of a connection that it could not open. -/
theorem own_of_serving {c : Course} (reached : c.Reached setup allowed) :
    ∀ a ∈ c.now.stack, ∀ served, .serve served ∈ a.tasks →
      served = a.call ∨ ∃ n f, served = .failed n f := by
  refine reached.induction (P := fun _ _ stack => ∀ a ∈ stack, ∀ served, .serve served ∈ a.tasks →
    served = a.call ∨ ∃ n f, served = .failed n f) ?start ?called ?returned ?acted
  case start => simp
  case called =>
    intro past s stack turn call _ ih _ _ _ a among served serves
    rcases List.mem_cons.mp among with rfl | among
    · exact .inl (by simpa using serves)
    · exact ih a among served serves
  case returned => exact fun _ ih a among => ih a (.tail _ among)
  case acted =>
    intro past s cue call rest below after outcome effects before ih _ acts _ a among served serves
    rcases Outcome.call_of_mem_stack among with deeper | ⟨rfl, tasks⟩
    · exact ih a (.tail _ deeper) served serves
    · rw [tasks] at serves
      rcases List.mem_append.mp serves with adds | left
      · obtain ⟨n, f, fails, -⟩ := acts.origin _ adds
        exact .inr ⟨n, _, fails⟩
      · simpa using ih _ List.mem_cons_self served (cue.mem_activation left)

/-- Only the start of a session, before it dialled, and a timer that fires come to connect. -/
theorem caller_of_connecting {c : Course} (reached : c.Reached setup allowed)
    (sane : Sane allowed) : ∀ a ∈ c.now.stack, a.Connecting →
      a.call = .start ∧ c.past.dialled = [] ∨ a.call = .reconnect := by
  refine reached.induction (P := fun past _ stack => ∀ a ∈ stack, a.Connecting →
    a.call = .start ∧ past.dialled = [] ∨ a.call = .reconnect) ?start ?called ?returned ?acted
  case start => simp
  case called =>
    intro past s stack turn call _ ih _ _ _ a among connecting
    rcases List.mem_cons.mp among with rfl | among
    · simp [Activation.Connecting] at connecting
    · simpa using ih a among connecting
  case returned =>
    intro past s call below _ ih a among connecting
    simpa using ih a (.tail _ among) connecting
  case acted =>
    intro past s cue call rest below after outcome effects before ih _ acts seen a among connecting
    have precedes := cue_precedes ((planned_of_reached before).planned _ List.mem_cons_self)
    rw [seen.dialled]
    have onward (other : cue ≠ .task .dial) {b : Activation}
        (was : b.call = .start ∧ past.dialled = [] ∨ b.call = .reconnect) :
        b.call = .start ∧ past.dialled ++ outcome.asked.filterMap Request.dial? = [] ∨
          b.call = .reconnect := by
      rwa [acts.undialling other, List.append_nil]
    have serving (served : Call) (serves : cue = .task (.serve served))
        (silent : ∀ n f, served ≠ .failed n f) : served = call := by
      have own := own_of_serving before _ List.mem_cons_self served
        (by simp [serves, Cue.activation])
      rcases own with same | ⟨n, f, fails⟩
      · simpa using same
      · exact absurd fails (silent n f)
    rcases Outcome.call_of_mem_stack among with deeper | ⟨same, tasks⟩
    · refine onward ?_ (ih a (.tail _ deeper) connecting)
      rintro rfl
      have one : prospects past s _ ≤ 1 := prospects_le_one before sane
      obtain ⟨-, -, zero⟩ := alone_of_prospect one rfl
      have mine := prospects_of_connecting connecting
      have theirs := le_underway deeper
      omega
    · have earlier : .connect ∈ outcome.tasks ∨ (cue.activation call rest).Connecting ∧
          cue ≠ .task .dial := by
        have left {t : Task} (later : t ∈ rest) : cue ≠ .task .dial := by
          rintro rfl
          obtain rfl := precedes
          simp at later
        simp only [Activation.Connecting, tasks, List.mem_append] at connecting
        rcases connecting with (adds | later) | (adds | later)
        · exact .inl adds
        · exact .inr ⟨.inl (cue.mem_activation later), left later⟩
        · obtain rfl := acts.origin _ adds
          exact .inr ⟨.inl List.mem_cons_self, by simp⟩
        · exact .inr ⟨.inr (cue.mem_activation later), left later⟩
      rcases earlier with adds | ⟨connecting, other⟩
      · rcases acts.origin _ adds with ⟨rfl, idle⟩ | ⟨rfl, -⟩
        · refine onward (by simp) (.inl ⟨?_, (unstarted_of_reached before sane idle).undialled⟩)
          rw [same, ← serving .start rfl (by simp)]
        · exact .inr (by rw [same, ← serving .reconnect rfl (by simp)])
      · refine onward other ?_
        simpa [same] using ih _ List.mem_cons_self connecting

/-! ## How appointments are kept -/

/-- The latest appointment has this timer, and was not kept yet. -/
def Due (timer : Nat) : List Appointment → Prop
  | [] => False
  | a :: _ => a.timer = timer ∧ a.dialled = []

/-- A call that a timer brought, and that is about to dial. -/
def Activation.Redialling (a : Activation) : Prop :=
  a.call = .reconnect ∧ (.serve .reconnect ∈ a.tasks ∨ a.Connecting)

/-- A call that knows the end of a connection, and may set a timer for the next one. -/
def Activation.Deciding (a : Activation) : Prop :=
  (∃ k d, a.awaiting = some (.scheduling k d)) ∨ .decide ∈ a.tasks ∨ ∃ e, .conclude e ∈ a.tasks

theorem prospects_of_redialling {a : Activation} (redialling : a.Redialling) : 1 ≤ a.prospects := by
  rcases redialling.2 with serves | connecting
  · exact prospects_pos serves rfl
  · exact prospects_of_connecting connecting

theorem prospects_of_deciding {a : Activation} (deciding : a.Deciding) : 1 ≤ a.prospects := by
  rcases deciding with ⟨k, d, waits⟩ | decides | ⟨e, concludes⟩
  · simp [Activation.prospects, waits, Await.prospects]
  · exact prospects_pos decides rfl
  · exact prospects_pos concludes rfl

/-- The books of a session: every connection was dialled by the start, once, or by appointment,
and every appointment was kept once, unless it is the latest. -/
structure WellKept (past : Chronicle) : Prop where
  earlier : ∀ a ∈ past.appointments.tail, a.dialled.length = 1
  once : ∀ a ∈ past.appointments, a.dialled.length ≤ 1
  fresh : past.dialled = [] → past.appointments = []
  dialled : past.dialled = past.dialledByStart ++ past.dialledByAppointment
  started : past.dialledByStart.length ≤ 1

/-- The books agree with the session: what is to fire, and the calls of timers that have fired,
stand for the latest appointment, and when the session listens to a connection, or decides what
follows it, none is left. -/
structure Appointed (past : Chronicle) (s : State) (stack : List Activation) : Prop
    extends WellKept past where
  waiting : ∀ t ∈ past.pending, Due t past.appointments
  redialling : ∀ a below, a :: below <:+ stack → a.Redialling →
    ∃ t, past.beginning below.length = some (.fire t) ∧ Due t past.appointments
  kept : (s.generation ∈ past.dialled ∨ ∃ a ∈ stack, a.Deciding) →
    past.dialled ≠ [] ∧ ∀ a ∈ past.appointments, a.dialled.length = 1

/-- A turn in which nothing is dialled, and no appointment made, leaves the books as they are. -/
theorem WellKept.silent {past : Chronicle} {e : Entry} (books : WellKept past)
    (unset : e.appointed? = none) (silent : e.asked.filterMap Request.dial? = []) :
    WellKept (e :: past) := by
  obtain ⟨earlier, once, fresh, dialled, started⟩ := books
  have same : Chronicle.dialled (e :: past) = past.dialled := by
    rw [Chronicle.dialled_cons, silent, List.append_nil]
  constructor <;> simpa [same, Chronicle.dialledByAppointment,
    Chronicle.appointments_of_silent unset silent, Chronicle.dialledByStart_of_silent silent]

section

variable {past : Chronicle} {s after : State} {cue : Cue} {call : Call} {rest : List Task}
  {below : List Activation} {outcome : Outcome} {effects : List Effect}

/-- The appointment that a cue makes. -/
def Cue.appointed? : Cue → Option Appointment
  | .answer (.scheduling k d) (.scheduled t) => some { attempt := k, delay := d, timer := t }
  | _ => none

theorem appointed_acted : Entry.appointed? ⟨⟨s, cue.activation call rest :: below⟩, cue.turn,
    effects⟩ = cue.appointed? := by
  cases cue with
  | task => simp [Entry.appointed?, Machine.awaiting?, Cue.activation, Cue.appointed?]
  | answer a r =>
      cases a <;> cases r <;>
        simp [Entry.appointed?, Machine.awaiting?, Cue.activation, Cue.turn, Cue.appointed?]

theorem Cue.prospects_of_appointed {a : Appointment} (made : cue.appointed? = some a) :
    cue.prospects = 1 := by
  cases cue with
  | task => contradiction
  | answer w r => cases w <;> cases r <;> first | rfl | contradiction

theorem Acts.unset (acts : Acts setup s cue after outcome)
    (other : cue.appointed? = none) : cue.sets = [] := by
  rcases acts.timer with ⟨-, -, unset, -⟩ | ⟨-, -, unset, -⟩ | ⟨-, rfl⟩ | ⟨k, d, t, -, rfl⟩
  · exact unset
  · exact unset
  · rfl
  · contradiction

/-- A call that is about to dial after a step was so before it. -/
theorem redialling_of_acts {allowed : Surroundings}
    (before : Course.Reached setup allowed ⟨past, s, cue.activation call rest :: below⟩)
    (acts : Acts setup s cue after outcome) {a : Activation} (same : a.call = call)
    (tasks : a.tasks = outcome.tasks ++ rest) (redialling : a.Redialling) :
    (cue.activation call rest).Redialling := by
  obtain ⟨fired, goes⟩ := redialling
  obtain rfl : call = .reconnect := same.symm.trans fired
  refine ⟨by simp, ?_⟩
  simp only [Activation.Connecting, tasks, List.mem_append] at goes
  rcases goes with (adds | left) | (adds | left) | (adds | left)
  · obtain ⟨n, f, fails, -⟩ := acts.origin _ adds
    contradiction
  · exact .inl (cue.mem_activation left)
  · rcases acts.origin _ adds with ⟨rfl, -⟩ | ⟨rfl, -⟩
    · have own := own_of_serving before _ List.mem_cons_self .start List.mem_cons_self
      simp at own
    · exact .inl List.mem_cons_self
  · exact .inr (.inl (cue.mem_activation left))
  · obtain rfl := acts.origin _ adds
    exact .inr (.inl List.mem_cons_self)
  · exact .inr (.inr (cue.mem_activation left))

/-- A step comes to decide what follows a connection only from there, or from a connection to which
the session listens. -/
theorem Acts.deciding (acts : Acts setup s cue after outcome) {a : Activation}
    (tasks : a.tasks = outcome.tasks ++ rest) (awaiting : a.awaiting = outcome.await?)
    (deciding : a.Deciding) :
    (cue.activation call rest).Deciding ∨
      ∃ served e, cue = .task (.serve served) ∧ served.ending? = some (s.generation, e) := by
  have onward (decides : (∃ k d, outcome = .wait (.scheduling k d)) ∨ .decide ∈ outcome.tasks ∨
      ∃ e, .conclude e ∈ outcome.tasks) :
      (cue.activation call rest).Deciding ∨
        ∃ served e, cue = .task (.serve served) ∧ served.ending? = some (s.generation, e) := by
    cases acts with
    | ended ends => exact .inr ⟨_, _, rfl, ends⟩
    | conclude e => exact .inl (.inr (.inr ⟨e, List.mem_cons_self⟩))
    | retry => exact .inl (.inr (.inl List.mem_cons_self))
    | reconnect | adopt =>
        simp only [Outcome.tasks] at decides
        split at decides <;> simp at decides
    | _ => simp [Outcome.tasks, Setup.stopping] at decides
  simp only [Activation.Deciding, tasks, awaiting, List.mem_append] at deciding
  rcases deciding with ⟨k, d, waits⟩ | (adds | left) | ⟨e, adds | left⟩
  · cases outcome with
    | wait w =>
        obtain rfl := Option.some.inj waits
        exact onward (.inl ⟨k, d, rfl⟩)
    | _ => contradiction
  · exact onward (.inr (.inl adds))
  · exact .inl (.inr (.inl (cue.mem_activation left)))
  · exact onward (.inr (.inr ⟨e, adds⟩))
  · exact .inl (.inr (.inr ⟨e, cue.mem_activation left⟩))

/-- A step that makes no appointment, and dials nothing, keeps them as they are. -/
theorem appointed_of_acts
    (before : Course.Reached setup allowed ⟨past, s, cue.activation call rest :: below⟩)
    (sane : Sane allowed) (acts : Acts setup s cue after outcome)
    (seen : Seen s cue outcome effects) (dials : cue ≠ .task .dial)
    (other : cue.appointed? = none)
    (appointed : Appointed past s (cue.activation call rest :: below)) :
    Appointed (⟨⟨s, cue.activation call rest :: below⟩, cue.turn, effects⟩ :: past) after
      (outcome.stack call rest below) := by
  obtain ⟨books, waiting, redialling, kept⟩ := appointed
  have silent := acts.undialling dials
  let e : Entry := ⟨⟨s, cue.activation call rest :: below⟩, cue.turn, effects⟩
  have asked : e.asked.filterMap Request.dial? = [] := by rw [Entry.asked, seen.asked, silent]
  have appointments : Chronicle.appointments (e :: past) = past.appointments :=
    Chronicle.appointments_of_silent (appointed_acted.trans other) asked
  have same : Chronicle.dialled (e :: past) = past.dialled := by
    rw [seen.dialled, silent, List.append_nil]
  refine ⟨books.silent (appointed_acted.trans other) asked, fun t pending => ?_,
    fun a later suffix goes => ?_, fun reason => ?_⟩
  · rw [seen.pending, acts.unset other, List.append_nil] at pending
    rw [appointments]
    exact waiting t (List.mem_filter.mp pending).1
  · rw [appointments, Chronicle.beginning_acted]
    rcases Outcome.suffix_stack suffix with deeper | ⟨rfl, called, tasks⟩
    · exact redialling a later (deeper.trans (List.suffix_cons _ _)) goes
    · exact redialling _ later (List.suffix_refl _)
        (redialling_of_acts before acts called tasks goes)
  · rw [appointments, same]
    apply kept
    rcases reason with known | ⟨a, among, deciding⟩
    · left
      have bounded : ∀ n ∈ past.dialled, n ≤ s.generation := (numbered_of_reached before).bounded
      exact ((acts.still_known seen bounded known).resolve_left dials).2
    · rcases Outcome.mem_stack among with deeper | ⟨tasks, awaiting⟩
      · exact .inr ⟨a, .tail _ deeper, deciding⟩
      · rcases acts.deciding tasks awaiting deciding with deciding | ⟨served, e, rfl, ends⟩
        · exact .inr ⟨_, List.mem_cons_self, deciding⟩
        · left
          exact heard_of_reached before sane.genuine _ List.mem_cons_self served _
            List.mem_cons_self (Call.reporter_of_ending ends)

/-- A timer that is set is an appointment, made when all others were kept. -/
theorem appointed_scheduled {k t : Nat} {d : Number}
    (before : Course.Reached setup allowed
      ⟨past, s, (Cue.answer (.scheduling k d) (.scheduled t)).activation call [] :: below⟩)
    (sane : Sane allowed)
    (seen : Seen s (.answer (.scheduling k d) (.scheduled t))
      (.next [.emit (.reconnecting k d)]) effects)
    (appointed : Appointed past s
      ((Cue.answer (.scheduling k d) (.scheduled t)).activation call [] :: below)) :
    Appointed (⟨⟨s, (Cue.answer (.scheduling k d) (.scheduled t)).activation call [] :: below⟩,
        .reply (.scheduled t), effects⟩ :: past) { s with timer := some t }
      (⟨call, none, [.emit (.reconnecting k d)]⟩ :: below) := by
  obtain ⟨⟨earlier, once, fresh, dialled, started⟩, -, -, kept⟩ := appointed
  let e : Entry := ⟨⟨s, (Cue.answer (.scheduling k d) (.scheduled t)).activation call [] :: below⟩,
    .reply (.scheduled t), effects⟩
  have asked : e.asked.filterMap Request.dial? = [] := by
    rw [Entry.asked, seen.asked]
    rfl
  have appointments : Chronicle.appointments (e :: past) = ⟨k, d, t, []⟩ :: past.appointments := rfl
  have byStart : Chronicle.dialledByStart (e :: past) = past.dialledByStart :=
    Chronicle.dialledByStart_of_silent asked
  have same : Chronicle.dialled (e :: past) = past.dialled := by
    rw [Chronicle.dialled_cons, asked, List.append_nil]
  obtain ⟨some, all⟩ := kept (.inr ⟨_, List.mem_cons_self, .inl ⟨k, d, rfl⟩⟩)
  have one : prospects past s _ ≤ 1 := prospects_le_one before sane
  obtain ⟨unheard, none, zero⟩ := alone_of_prospect one rfl
  have idle {a : Activation} (deeper : a ∈ below) : a.prospects = 0 := by
    have theirs := le_underway deeper
    omega
  refine ⟨⟨appointments ▸ all, ?_, fun empty => absurd (same ▸ empty) some, ?_, byStart ▸ started⟩,
    fun u pending => ?_, fun a later suffix goes => ?_, fun reason => ?_⟩
  · rw [appointments]
    exact List.forall_mem_cons.mpr ⟨Nat.zero_le 1, once⟩
  · rw [same, byStart, Chronicle.dialledByAppointment, appointments]
    simpa [Chronicle.dialledByAppointment] using dialled
  · obtain rfl : u = t := by
      have pending' := seen.pending e.before past
      simp only [none, List.filter_nil, List.nil_append, Cue.turn] at pending'
      simpa [e, pending', Cue.sets, Reply.timer?] using pending
    exact ⟨rfl, rfl⟩
  · rcases List.suffix_cons_iff.mp suffix with same | deeper
    · obtain ⟨rfl, rfl⟩ := List.cons.inj same
      simp [Activation.Redialling, Activation.Connecting] at goes
    · have mine := prospects_of_redialling goes
      have theirs := idle (deeper.subset List.mem_cons_self)
      omega
  · exfalso
    rcases reason with known | ⟨a, among, deciding⟩
    · exact unheard (same ▸ known)
    · rcases List.mem_cons.mp among with rfl | deeper
      · simp [Activation.Deciding] at deciding
      · have mine := prospects_of_deciding deciding
        have theirs := idle deeper
        omega

/-- A connection that is dialled is dialled by the start of the session, or keeps the latest
appointment. -/
theorem appointed_dialled
    (before : Course.Reached setup allowed ⟨past, s, (Cue.task .dial).activation call [] :: below⟩)
    (sane : Sane allowed)
    (seen : Seen s (.task .dial) (.wait (.dialling (s.generation + 1))) effects)
    (appointed : Appointed past s ((Cue.task .dial).activation call [] :: below)) :
    Appointed (⟨⟨s, (Cue.task .dial).activation call [] :: below⟩, .work, effects⟩ :: past)
      { s with generation := s.generation + 1 }
      (⟨call, some (.dialling (s.generation + 1)), []⟩ :: below) := by
  obtain ⟨⟨earlier, once, fresh, dialled, started⟩, -, redialling, -⟩ := appointed
  let e : Entry := ⟨⟨s, (Cue.task .dial).activation call [] :: below⟩, .work, effects⟩
  have asked : e.asked.filterMap Request.dial? = [s.generation + 1] := by
    rw [Entry.asked, seen.asked]
    rfl
  have unset : e.appointed? = none := rfl
  have same : Chronicle.dialled (e :: past) = past.dialled ++ [s.generation + 1] := by
    rw [Chronicle.dialled_cons, asked]
  have one : prospects past s _ ≤ 1 := prospects_le_one before sane
  obtain ⟨-, empty, zero⟩ := alone_of_prospect one rfl
  have none : Chronicle.pending (e :: past) = [] := by
    have pending : Chronicle.pending (e :: past) = _ := seen.pending e.before past
    simp [pending, empty, Cue.sets]
  have idle {a : Activation} (goes : a.Redialling) (deeper : a ∈ below) : False := by
    have mine := prospects_of_redialling goes
    have theirs := le_underway deeper
    omega
  have done (a : Activation) (later : List Activation)
      (suffix : a :: later <:+ ⟨call, some (.dialling (s.generation + 1)), []⟩ :: below) :
      ¬ a.Redialling := by
    intro goes
    rcases List.suffix_cons_iff.mp suffix with same | deeper
    · obtain ⟨rfl, rfl⟩ := List.cons.inj same
      simp [Activation.Redialling, Activation.Connecting] at goes
    · exact idle goes (deeper.subset List.mem_cons_self)
  obtain ⟨turn, begins, called⟩ := begun_of_reached before _ below (List.suffix_refl _)
  have calls : Chronicle.caller past e.before = some turn := begins
  obtain ⟨all, split, few⟩ : (∀ a ∈ Chronicle.appointments (e :: past), a.dialled.length = 1) ∧
      Chronicle.dialled (e :: past) = Chronicle.dialledByStart (e :: past) ++
        Chronicle.dialledByAppointment (e :: past) ∧
      (Chronicle.dialledByStart (e :: past)).length ≤ 1 := by
    rw [same]
    simp only [Chronicle.appointments, Chronicle.dialledByStart, Chronicle.dialledByAppointment,
      unset, asked, calls]
    rcases caller_of_connecting before sane _ List.mem_cons_self (.inr List.mem_cons_self) with
      ⟨starts, undialled⟩ | reconnects
    · obtain rfl : turn = .call .start := by
        cases turn <;> simp_all [Turn.call?]
      have empty := fresh undialled
      have first : past.dialledByStart = [] :=
        (List.append_eq_nil_iff.mp (dialled.symm.trans undialled)).1
      simp [empty, undialled, first]
    · obtain ⟨t, fires, due⟩ := redialling _ below (List.suffix_refl _)
        ⟨reconnects, .inr (.inr List.mem_cons_self)⟩
      obtain rfl : turn = .fire t := Option.some.inj (begins.symm.trans fires)
      rw [Chronicle.dialledByAppointment] at dialled
      cases made : past.appointments with
      | nil =>
          rw [made] at due
          exact due.elim
      | cons a others =>
          rw [made] at due earlier dialled
          obtain ⟨rfl, unkept⟩ := due
          simp only [credit, if_pos, unkept, List.nil_append]
          refine ⟨List.forall_mem_cons.mpr ⟨rfl, earlier⟩, ?_, started⟩
          simp [dialled, unkept]
  exact {
    waiting := by simp [none, e]
    redialling := fun a later suffix goes => absurd goes (done a later suffix)
    kept := fun _ => ⟨by simp [same, e], all⟩
    earlier := fun a among => all a (List.mem_of_mem_tail among)
    once := fun a among => Nat.le_of_eq (all a among)
    fresh := fun empty => absurd (same.symm.trans empty) (by simp)
    dialled := split
    started := few }

end

/-- A turn that begins a call makes no appointment. -/
theorem appointed_begun {m : Machine} {turn : Turn} {call : Call} {effects : List Effect}
    (begun : turn.call? = some call) : Entry.appointed? ⟨m, turn, effects⟩ = none := by
  unfold Entry.appointed?
  cases turn <;> first | contradiction | split <;> first | contradiction | rfl

/-- A timer that fires, when the session waits for it, brings a call that is about to dial. -/
theorem appointed_called {past : Chronicle} {s : State} {stack : List Activation} {turn : Turn}
    {call : Call} (timely : Surroundings.Timely ⟨past, s, stack⟩ turn)
    (begun : turn.call? = some call) (appointed : Appointed past s stack) :
    Appointed (⟨⟨s, stack⟩, turn, []⟩ :: past) s (⟨call, none, [.serve call]⟩ :: stack) := by
  obtain ⟨books, waiting, redialling, kept⟩ := appointed
  let e : Entry := ⟨⟨s, stack⟩, turn, []⟩
  have unset : e.appointed? = none := appointed_begun begun
  have appointments : Chronicle.appointments (e :: past) = past.appointments :=
    Chronicle.appointments_of_silent unset rfl
  have same : Chronicle.dialled (e :: past) = past.dialled := by simp [e]
  refine ⟨books.silent unset rfl, fun t pending => ?_, fun a below suffix goes => ?_,
    fun reason => ?_⟩
  · rw [appointments]
    cases turn with
    | call served => exact waiting t (by simpa using pending)
    | fire u => exact waiting t (List.mem_of_mem_erase (by simpa using pending))
    | _ => contradiction
  · rw [appointments, Chronicle.beginning_called begun]
    rcases List.suffix_cons_iff.mp suffix with top | deeper
    · obtain ⟨rfl, rfl⟩ := List.cons.inj top
      obtain rfl : call = .reconnect := goes.1
      cases turn with
      | call served =>
          obtain rfl : served = .reconnect := Option.some.inj begun
          exact timely.elim
      | fire t => exact ⟨t, if_pos rfl, waiting t timely⟩
      | _ => contradiction
    · have shorter := deeper.length_le
      rw [List.length_cons] at shorter
      rw [if_neg (by omega)]
      exact redialling a below deeper goes
  · rw [appointments, same]
    apply kept
    rcases reason with known | ⟨a, among, deciding⟩
    · exact .inl (same ▸ known)
    · refine .inr ⟨a, (List.mem_cons.mp among).resolve_left ?_, deciding⟩
      rintro rfl
      simp [Activation.Deciding] at deciding

theorem appointed_of_reached {c : Course} (reached : c.Reached setup allowed)
    (sane : Sane allowed) : Appointed c.past c.now.state c.now.stack := by
  refine reached.induction (P := Appointed) ?start ?called ?returned ?acted
  case start =>
    have books : WellKept [] := by
      constructor <;> simp [Chronicle.dialled, Chronicle.requests, Chronicle.appointments,
        Chronicle.dialledByStart, Chronicle.dialledByAppointment]
    exact ⟨books, by simp [Chronicle.pending], by simp,
      by simp [Chronicle.dialled, Chronicle.requests]⟩
  case called =>
    exact fun _ appointed permitted begun _ =>
      appointed_called (sane.timely _ _ permitted) begun appointed
  case returned =>
    rintro past s call below _ ⟨books, waiting, redialling, kept⟩
    let e : Entry := ⟨⟨s, ⟨call, none, []⟩ :: below⟩, .work, [.returns]⟩
    have appointments : Chronicle.appointments (e :: past) = past.appointments :=
      Chronicle.appointments_of_silent rfl rfl
    have same : Chronicle.dialled (e :: past) = past.dialled := by simp [e]
    refine ⟨books.silent rfl rfl, by simpa [appointments, e] using waiting,
      fun a later suffix goes => ?_, fun reason => ?_⟩
    · rw [appointments, Chronicle.beginning_returned]
      exact redialling a later (suffix.trans (List.suffix_cons _ _)) goes
    · rw [appointments, same]
      rcases reason with known | ⟨a, among, deciding⟩
      · exact kept (.inl (same ▸ known))
      · exact kept (.inr ⟨a, .tail _ among, deciding⟩)
  case acted =>
    intro past s cue call rest below after outcome effects before appointed _ acts seen
    have precedes := cue_precedes ((planned_of_reached before).planned _ List.mem_cons_self)
    by_cases dials : cue = .task .dial
    · subst dials
      obtain rfl := precedes
      obtain rfl := acts.dialling
      obtain ⟨-, -, rfl⟩ := acts.dials
      exact appointed_dialled before sane seen appointed
    cases made : cue.appointed? with
    | none => exact appointed_of_acts before sane acts seen dials made appointed
    | some a =>
        cases acts with
        | scheduled =>
            obtain rfl := precedes
            exact appointed_scheduled before sane seen appointed
        | lapse lapses => cases lapses <;> contradiction
        | fault faults => cases faults <;> contradiction
        | queue queues => cases queues <;> contradiction
        | _ => contradiction

/-! ## What is announced of appointments -/

/-- An appointment is announced as soon as it is made. -/
theorem Acts.makes {s after : State} {cue : Cue} {outcome : Outcome}
    (acts : Acts setup s cue after outcome) :
    outcome.tasks.filterMap Task.promise? =
      (cue.appointed?.map Appointment.reconnect).toList := by
  cases acts with
  | lapse lapses => cases lapses <;> rfl
  | fault faults => cases faults <;> rfl
  | queue queues => cases queues <;> rfl
  | ended => cases s.connection <;> rfl
  | conclude e => cases e <;> rfl
  | reconnect | adopt =>
      simp only [Outcome.tasks]
      split <;> rfl
  | _ => rfl

theorem credit_reconnect (timer : Nat) (connections : List Nat) (as : List Appointment) :
    (credit timer connections as).map Appointment.reconnect = as.map Appointment.reconnect := by
  induction as with
  | nil => rfl
  | cons a earlier ih =>
      simp only [credit]
      split
      · rfl
      · rw [List.map_cons, ih, List.map_cons]

/-- What an appointment is for does not change when it is kept. -/
theorem reconnects_cons (past : Chronicle) (e : Entry) :
    (Chronicle.appointments (e :: past)).map Appointment.reconnect =
      (e.appointed?.map Appointment.reconnect).toList ++
        past.appointments.map Appointment.reconnect := by
  simp only [Chronicle.appointments]
  split
  case h_1 made => simp [made]
  case h_2 made _ => simp [made, credit_reconnect]
  case h_3 made _ => simp [made]

theorem promises_cons (t : Task) (rest : List Task) :
    (t :: rest).filterMap Task.promise? =
      (Cue.task t).emits.filterMap Occurrence.reconnect? ++ rest.filterMap Task.promise? := by
  cases t with
  | emit o => cases told : o.reconnect? <;> simp [Cue.emits, Task.promise?, told]
  | _ => rfl

/-- Every appointment is announced, in order; the latest may be about to be. -/
theorem announced_of_appointments {c : Course} (reached : c.Reached setup allowed) :
    c.past.appointments.reverse.map Appointment.reconnect =
      c.past.announced ++ (front c.now.stack).filterMap Task.promise? := by
  rw [List.map_reverse]
  refine reached.induction (P := fun past _ stack =>
    (past.appointments.map Appointment.reconnect).reverse =
      past.announced ++ (front stack).filterMap Task.promise?) ?start ?called ?returned ?acted
  case start => rfl
  case called =>
    intro past s stack turn call _ ih _ begun free
    have unset : Entry.appointed? ⟨⟨s, stack⟩, turn, []⟩ = none := appointed_begun begun
    rw [front_of_waiting free] at ih
    rw [reconnects_cons, unset, Chronicle.announced_called]
    exact ih
  case returned =>
    intro past s call below before ih
    have waits : front below = [] := (planned_of_reached before).front_below
    rw [reconnects_cons, Chronicle.announced_returned, waits]
    exact ih
  case acted =>
    intro past s cue call rest below after outcome effects before ih _ acts seen
    have planned : Planned (cue.activation call rest :: below) := planned_of_reached before
    have unpromised := (cue_precedes (planned.planned _ List.mem_cons_self)).left.unpromised
    have earlier : (front (cue.activation call rest :: below)).filterMap Task.promise? =
        cue.emits.filterMap Occurrence.reconnect? := by
      cases cue with
      | answer => rfl
      | task t =>
          rw [Cue.activation, front_working, promises_cons, unpromised, List.append_nil]
    have later : (front (outcome.stack call rest below)).filterMap Task.promise? =
        outcome.tasks.filterMap Task.promise? := by
      cases outcome with
      | next first => simp [Outcome.stack, Outcome.tasks, unpromised]
      | wait => rfl
      | fail =>
          have waits : front below = [] := planned.front_below
          simp [Outcome.stack, Outcome.tasks, waits]
    rw [earlier] at ih
    rw [reconnects_cons, appointed_acted, List.reverse_append, ih, seen.announced, later,
      acts.makes]
    cases cue.appointed? <;> rfl

/-- A session that gives up has kept all its appointments. -/
theorem kept_of_surrendering {c : Course} (reached : c.Reached setup allowed) (sane : Sane allowed)
    (punctual : Punctual allowed) : surrendering c.now.stack ≠ [] →
      ∀ a ∈ c.past.appointments, a.dialled.length = 1 := by
  refine reached.induction (P := fun past _ stack => surrendering stack ≠ [] →
    ∀ a ∈ past.appointments, a.dialled.length = 1) ?start ?called ?returned ?acted
  case start => simp [surrendering]
  case called =>
    intro past s stack turn call _ ih _ begun _ due
    rw [Chronicle.appointments_of_silent (appointed_begun begun) rfl]
    exact ih (by simpa [surrendering, Task.surrender?] using due)
  case returned =>
    intro past s call below _ ih due
    rw [Chronicle.appointments_of_silent rfl rfl]
    exact ih due
  case acted =>
    intro past s cue call rest below after outcome effects before ih _ acts seen due
    have precedes := cue_precedes ((planned_of_reached before).planned _ List.mem_cons_self)
    have appointed := appointed_of_reached before sane
    have onward (dials : cue ≠ .task .dial) (made : cue.appointed? = none)
        (kept : ∀ a ∈ past.appointments, a.dialled.length = 1) :
        ∀ a ∈ Chronicle.appointments
          (⟨⟨s, cue.activation call rest :: below⟩, cue.turn, effects⟩ :: past),
            a.dialled.length = 1 := by
      rw [Chronicle.appointments_of_silent (appointed_acted.trans made)]
      · exact kept
      · rw [Entry.asked, seen.asked, acts.undialling dials]
    rcases acts.surrenders with calm | ⟨k, rfl, -⟩
    · have was : surrendering (cue.activation call rest :: below) ≠ [] := fun none =>
        due (List.subset_nil.mp (none ▸ surrendering_subset acts precedes calm below))
      have zero := ((surrendered_of_reached before sane punctual).spent
        fun empty => was (List.append_eq_nil_iff.mp empty).2).1
      simp only [prospects, underway_cons, prospects_activation] at zero
      refine onward ?_ ?_ (ih was)
      · rintro rfl
        simp only [Cue.prospects, Task.prospects] at zero
        omega
      · rw [Option.eq_none_iff_forall_ne_some]
        intro a made
        have holds := Cue.prospects_of_appointed made
        omega
    · exact onward (by simp) rfl
        (appointed.kept (.inr ⟨_, List.mem_cons_self, .inr (.inl List.mem_cons_self)⟩)).2

/-! ## Runs -/

/-- What can be said of the reconnects of a session. In every streak they are numbered 1, 2, ...,
each with the delay of the law, and no more of them than the policy allows; when no call is in
progress, the counter is the length of the streak, unless a reconnect could not be reported: then it
is ahead by one. Every connection was dialled by the start of the session, at most once, or by the
firing of a timer that was set with an announced reconnect and its delay, at most once for each. The
session gives up at most once, when its policy allows no further reconnect than those of the streak,
and when each of them was made. -/
structure Course.Reconnects (setup : Setup) (c : Course) : Prop where
  numbered : ∀ streak ∈ c.past.streaks.all,
    streak.map Prod.fst = List.range' 1 streak.length
  delayed : ∀ streak ∈ c.past.streaks.all, ∀ r ∈ streak,
    setup.policy.delayFor (r.1 : Nat) = .ok r.2
  limited : ∀ streak ∈ c.past.streaks.all, ∀ limit, setup.policy.maxAttempts = some limit →
    (streak.length : Int) ≤ limit
  counted : c.now.atRest → ¬ c.past.Unreported setup →
    c.past.streaks.current.length = c.now.state.attempts
  ahead : c.past.Unreported setup → c.past.streaks.current.length + 1 = c.now.state.attempts
  appointed : c.past.appointments.reverse.map Appointment.reconnect =
    c.past.announced ++ (front c.now.stack).filterMap Task.promise?
  asked : c.past.requests.filterMap Request.delay? =
    (c.past.announced ++ promised c.now.stack).map Prod.snd
  dialled : c.past.dialled = c.past.dialledByStart ++ c.past.dialledByAppointment
  started : c.past.dialledByStart.length ≤ 1
  once : ∀ a ∈ c.past.appointments, a.dialled.length ≤ 1
  gaveUp : c.past.surrenders.length ≤ 1
  exhausted : ∀ (e : Entry) (earlier : Chronicle) (k : Int), e :: earlier <:+ c.past →
    .emit (.gaveUp k) ∈ e.effects →
      e.before.state.phase = .closed ∧ setup.policy.maxAttempts = some k ∧
        (earlier.streaks.current.length : Int) = k ∧
        ∀ a ∈ earlier.appointments, a.dialled.length = 1

/-- Every session reconnects in this way, as long as what reports is a connection that it dialled,
timers fire once and not after they were cancelled, and every timer that is asked for is set. -/
theorem reconnects_of_reached {c : Course}
    (reached : c.Reached setup fun d turn => Surroundings.Genuine d turn ∧
      Surroundings.Timely d turn ∧
      Surroundings.Sound (fun a => ∃ k d, a = .scheduling k d) d turn) :
    c.Reconnects setup := by
  have sane : Sane fun d turn => Surroundings.Genuine d turn ∧ Surroundings.Timely d turn ∧
      Surroundings.Sound (fun a => ∃ k d, a = .scheduling k d) d turn :=
    ⟨fun _ _ allowed => allowed.1, fun _ _ allowed => allowed.2.1⟩
  have punctual : Punctual fun d turn => Surroundings.Genuine d turn ∧
      Surroundings.Timely d turn ∧
      Surroundings.Sound (fun a => ∃ k d, a = .scheduling k d) d turn :=
    fun _ _ allowed => allowed.2.2
  have announced := announced_of_reached reached sane punctual
  have appointed := appointed_of_reached reached sane
  exact {
    numbered := fun streak among => (announced.streaks streak among).numbered
    delayed := fun streak among => (announced.streaks streak among).delayed
    limited := fun streak among _ limit => (announced.streaks streak among).length_le limit
    counted := by
      intro rest reported
      have none : c.now.stack = [] := by simpa [Machine.atRest] using rest
      have count := announced.counted (not_opening_of_waiting (by simp [none, front])) reported
      simpa [none, promised] using count
    ahead := fun unreported => (attempts_of_unreported reached sane punctual unreported).2
    appointed := announced_of_appointments reached
    asked := announced.asked
    dialled := appointed.dialled
    started := appointed.started
    once := appointed.once
    gaveUp := by
      have once := (surrendered_of_reached reached sane punctual).once
      rw [List.length_append] at once
      omega
    exhausted := by
      intro e earlier k suffix tells
      obtain ⟨limit, count, closed⟩ := limit_of_told reached sane punctual suffix tells
      obtain ⟨before, -⟩ := next_of_suffix reached suffix
      refine ⟨closed, limit, count, kept_of_surrendering before sane punctual ?_⟩
      obtain ⟨later, stands⟩ := front_of_told reached suffix tells
      obtain ⟨call, below, stack⟩ := eq_of_front stands
      simp [stack, surrendering_activation, Cue.emits, Occurrence.surrender?] }

/-- A session that may reconnect once before it gives up. -/
def Setup.impatient : Setup :=
  { Setup.plain with policy := ⟨⟨some 1, .int 2, .int 3, none⟩, by decide⟩ }

/-- Its connection is lost, and so is the next one after it was usable; the one after that is lost
at once. -/
def exhausted : Course := Course.plays .impatient {} [.call .start, .reply .returned,
  .call (.closed 2 .null), .reply (.unsent []), .reply (.scheduled 7), .fire 7, .reply .returned,
  .call (.opened 5), .call (.closed 5 .null), .reply (.unsent []), .reply (.scheduled 7), .fire 7,
  .reply .returned, .call (.closed 8 .null), .reply (.unsent [])]

theorem reconnects_exhausted :
    (exhausted.past.streaks.all.map (·.map Prod.fst) = [[1], [1]] ∧
      exhausted.past.dialledByStart = [2] ∧ exhausted.past.dialledByAppointment = [5, 8] ∧
      exhausted.past.surrenders = [1] ∧ exhausted.Reconnects .impatient) ∧
    forsaken.now.atRest ∧ forsaken.past.streaks.current.length = 0 ∧
      forsaken.now.state.attempts = 1 ∧ forsaken.Reconnects .tireless := by
  constructor
  · refine ⟨by decide +kernel, by decide +kernel, by decide +kernel, by decide +kernel,
      @reconnects_of_reached .impatient exhausted (Course.leads_plays (fun c => by simp) ?permits)⟩
    refine ⟨⟨by simp [Call.reporter?], trivial, by simp⟩, by simp [Surroundings.Sound],
      ⟨?lost, trivial, by simp⟩, by simp [Surroundings.Sound], by simp [Surroundings.Sound],
      ⟨?fired, ?due, by simp [Surroundings.Sound]⟩, by simp [Surroundings.Sound],
      ⟨?opened, trivial, by simp⟩, ⟨?dropped, trivial, by simp⟩, by simp [Surroundings.Sound],
      by simp [Surroundings.Sound], ⟨?again, ?dueAgain, by simp [Surroundings.Sound]⟩,
      by simp [Surroundings.Sound], ⟨?failed, trivial, by simp⟩, by simp [Surroundings.Sound],
      trivial⟩
    case fired | again => rintro _ _ ⟨⟩ ⟨⟩
    case due | dueAgain => change _ ∈ Chronicle.pending _; decide +kernel
    all_goals rintro _ _ ⟨⟩ ⟨⟩; decide +kernel
  · have reconnects := @reconnects_of_reached .tireless forsaken (reached_forsaken (by simp)
      (by simp [Call.reporter?, Surroundings.Timely])
      (fun c dials => ⟨by simp, trivial, by rintro _ _ waits ⟨k, d, rfl⟩; simp [dials] at waits⟩))
    exact ⟨rfl, Nat.succ.inj (reconnects.ahead unreported_forsaken), rfl, reconnects⟩

end EventStream.Session
