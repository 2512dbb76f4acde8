import EventStream.Session.Machine
import Mathlib.Logic.Relation

/-
# The course of a session

A session at work is moved from outside: subscribers call it, its connections report, a timer
fires, a request is answered. A course is the chronicle of these turns together with the machine
that they led to. What is said of a run is said of its chronicle: which payloads were handed over,
which connections were dialled, what each of them took and gave back, which timers are to fire.

Nothing in a course restricts the surroundings. What a theorem asks of them is a predicate on the
next turn, and the predicates are named one by one at the end of this file, so that every theorem
lists what it relies on. A turn that is not the answer to a request says nothing about it; a
handler that is told something may call the session again, and so may an opener.
-/

namespace EventStream.Session

/-! ## Turns and chronicles -/

/-- What moves a session at work. -/
inductive Turn where
  | call (call : Call)
  /-- A timer fires, for which the session reconnects. -/
  | fire (timer : Nat)
  | work
  | reply (reply : Reply)

namespace Turn

/-- The move that a turn makes. -/
def move : Turn → Move
  | .call c => .call c
  | .fire _ => .call .reconnect
  | .work => .work
  | .reply r => .reply r

/-- The call that begins with a turn. -/
def call? : Turn → Option Call
  | .call c => some c
  | .fire _ => some .reconnect
  | _ => none

end Turn

namespace Call

/-- The payload that a call hands over. -/
def payload? : Call → Option Value
  | .send p => some p
  | _ => none

/-- The connection that reports with a call. -/
def reporter? : Call → Option Nat
  | .opened n | .received n _ | .closed n _ | .failed n _ => some n
  | _ => none

/-- The connection that reports its end with a call, and how it ended. -/
def ending? : Call → Option (Nat × Ending)
  | .closed n code => some (n, .closed code)
  | .failed n f => some (n, .failed f)
  | _ => none

theorem reporter_of_ending {call : Call} {n : Nat} {e : Ending}
    (ends : call.ending? = some (n, e)) : call.reporter? = some n := by
  cases call <;> simp_all [ending?, reporter?]

end Call

/-- The event that a frame was decoded to. -/
def Decoded.event? : Decoded → Option Event
  | .event e => some e
  | _ => none

/-- The timer that was set. -/
def Reply.timer? : Reply → Option Nat
  | .scheduled t => some t
  | _ => none

/-- The request among what is seen of a session. -/
def Effect.request? : Effect → Option Request
  | .ask r => some r
  | _ => none

/-- The timer that is cancelled. -/
def Effect.cancelled? : Effect → Option Nat
  | .cancel t => some t
  | _ => none

/-- The occurrence that begins to be told. -/
def Effect.occurrence? : Effect → Option Occurrence
  | .emit o => some o
  | _ => none

/-- Whether an effect is a record of the log. -/
def Effect.isRecord : Effect → Bool
  | .record _ => true
  | _ => false

namespace Request

/-- The connection that is to be opened. -/
def dial? : Request → Option Nat
  | .dial n => some n
  | _ => none

/-- The connection that is to be closed. -/
def hangUp? : Request → Option Nat
  | .hangUp n => some n
  | _ => none

/-- The connection to which a payload is offered, with the payload. -/
def offer? : Request → Option (Nat × Value)
  | .offer n p => some (n, p)
  | _ => none

/-- The delay of a timer that is to be set. -/
def delay? : Request → Option Number
  | .schedule d => some d
  | _ => none

end Request

/-- One turn of a course: the machine that it met, and what was seen of the session. -/
structure Entry where
  before : Machine
  turn : Turn
  effects : List Effect

namespace Entry

variable (e : Entry)

/-- What the session asked for. -/
def asked : List Request := e.effects.filterMap Effect.request?

/-- The timers that the session cancelled. -/
def cancelled : List Nat := e.effects.filterMap Effect.cancelled?

/-- The task that is done, if one is. -/
def task? : Option Task :=
  match e.before.stack, e.turn with
  | ⟨_, none, t :: _⟩ :: _, .work => some t
  | _, _ => none

/-- The connection that was opened, if opening one returned. -/
def established? : Option Nat :=
  match e.before.awaiting?, e.turn with
  | some (.dialling n), .reply .returned => some n
  | _, _ => none

/-- The payload that a connection accepted, with the connection. -/
def accepted? : Option (Nat × Value) :=
  match e.before.awaiting?, e.turn with
  | some (.sending n p), .reply (.accepted true) => some (n, p)
  | some (.draining n p _), .reply (.accepted true) => some (n, p)
  | _, _ => none

/-- The payloads that a connection gave back, with the connection. -/
def returned? : Option (Nat × List Value) :=
  match e.before.awaiting?, e.turn with
  | some (.reclaiming n), .reply (.unsent ps) => some (n, ps)
  | _, _ => none

/-- The connection that reports its end, if one does. -/
def ended? : Option Nat := (e.turn.call?.bind Call.ending?).map Prod.fst

@[simp] theorem asked_call (m : Machine) (t : Turn) : asked ⟨m, t, []⟩ = [] := rfl

@[simp] theorem asked_return (m : Machine) : asked ⟨m, .work, [.returns]⟩ = [] := rfl

/-- A turn that begins a call does no task. -/
theorem task_call {m : Machine} {t : Turn} {call : Call} {effects : List Effect}
    (begun : t.call? = some call) : task? ⟨m, t, effects⟩ = none := by
  unfold task?
  cases t <;> first | contradiction | split <;> first | contradiction | rfl

/-- A turn that begins a call answers nothing. -/
theorem accepted_call {m : Machine} {t : Turn} {call : Call} {effects : List Effect}
    (begun : t.call? = some call) : accepted? ⟨m, t, effects⟩ = none := by
  unfold accepted?
  cases t <;> first | contradiction | split <;> first | contradiction | rfl

theorem returned_call {m : Machine} {t : Turn} {call : Call} {effects : List Effect}
    (begun : t.call? = some call) : returned? ⟨m, t, effects⟩ = none := by
  unfold returned?
  cases t <;> first | contradiction | split <;> first | contradiction | rfl

@[simp] theorem accepted_work (m : Machine) (effects : List Effect) :
    accepted? ⟨m, .work, effects⟩ = none := by
  unfold accepted?
  split <;> first | contradiction | rfl

@[simp] theorem returned_work (m : Machine) (effects : List Effect) :
    returned? ⟨m, .work, effects⟩ = none := by
  unfold returned?
  split <;> first | contradiction | rfl

/-- The timers that are to fire after a turn. -/
def timers (pending : List Nat) : List Nat :=
  let left := pending.filter (· ∉ e.cancelled)
  match e.turn with
  | .fire t => left.erase t
  | .reply r => left ++ r.timer?.toList
  | _ => left

end Entry

/-- The turns of a course, the latest first. -/
abbrev Chronicle := List Entry

namespace Chronicle

/-- The payloads that were handed over, in the order of the calls. -/
def submitted : Chronicle → List Value
  | [] => []
  | e :: past => submitted past ++ (e.turn.call?.bind Call.payload?).toList

/-- The requests, in order. -/
def requests : Chronicle → List Request
  | [] => []
  | e :: past => requests past ++ e.asked

/-- The timers that were set and have neither fired nor been cancelled. -/
def pending : Chronicle → List Nat
  | [] => []
  | e :: past => e.timers (pending past)

variable (past : Chronicle)

/-- The connections that were dialled, in order. -/
def dialled : List Nat := past.requests.filterMap Request.dial?

/-- The connections that the session closed. -/
def hungUp : List Nat := past.requests.filterMap Request.hangUp?

/-- The connections that were opened. -/
def established : List Nat := past.filterMap Entry.established?

/-- The connections that reported their end. -/
def ended : List Nat := past.filterMap Entry.ended?

/-- The payloads that connections accepted. -/
def accepted : List (Nat × Value) := past.filterMap Entry.accepted?

/-- The payloads that a connection accepted and did not give back, oldest first. What it gives
back comes off the end. -/
def kept (n : Nat) : Chronicle → List Value
  | [] => []
  | e :: past =>
    match e.accepted?, e.returned? with
    | some (m, p), _ => if m = n then kept n past ++ [p] else kept n past
    | none, some (m, ps) =>
      if m = n then (kept n past).take ((kept n past).length - ps.length) else kept n past
    | none, none => kept n past

variable (e : Entry)

@[simp] theorem dialled_cons :
    dialled (e :: past) = dialled past ++ e.asked.filterMap Request.dial? := by
  simp [dialled, requests]

@[simp] theorem hungUp_cons :
    hungUp (e :: past) = hungUp past ++ e.asked.filterMap Request.hangUp? := by
  simp [hungUp, requests]

@[simp] theorem pending_called (m : Machine) (call : Call) :
    pending (⟨m, .call call, []⟩ :: past) = pending past := by
  simp [pending, Entry.timers, Entry.cancelled]

@[simp] theorem pending_fired (m : Machine) (t : Nat) :
    pending (⟨m, .fire t, []⟩ :: past) = (pending past).erase t :=
  congrArg (List.erase · t) (List.filter_eq_self.mpr (by simp [Entry.cancelled]))

@[simp] theorem pending_returned (m : Machine) :
    pending (⟨m, .work, [.returns]⟩ :: past) = pending past := by
  simp [pending, Entry.timers, Entry.cancelled, Effect.cancelled?]

@[simp] theorem established_cons :
    established (e :: past) = e.established?.toList ++ established past := by
  cases opened : e.established? <;> simp [established, opened]

@[simp] theorem accepted_cons :
    accepted (e :: past) = e.accepted?.toList ++ accepted past := by
  cases took : e.accepted? <;> simp [accepted, took]

@[simp] theorem ended_cons : ended (e :: past) = e.ended?.toList ++ ended past := by
  cases gone : e.ended? <;> simp [ended, gone]

@[simp] theorem submitted_cons :
    submitted (e :: past) = submitted past ++ (e.turn.call?.bind Call.payload?).toList := rfl

end Chronicle

/-! ## Courses -/

/-- A chronicle and the machine that it led to. -/
structure Course where
  past : Chronicle := []
  now : Machine := {}

/-- What the surroundings may do next. -/
abbrev Surroundings := Course → Turn → Prop

namespace Course

variable (setup : Setup)

/-- Where a session stands. -/
def phase (c : Course) : Phase := c.now.state.phase

/-- Take a turn, if it is possible. -/
def take? (c : Course) (turn : Turn) : Option Course :=
  (c.now.move? setup turn.move).map fun (m, effects) => ⟨⟨c.now, turn, effects⟩ :: c.past, m⟩

/-- One turn that the surroundings may take. -/
def Next (allowed : Surroundings) (c d : Course) : Prop :=
  ∃ turn, allowed c turn ∧ c.take? setup turn = some d

/-- Any number of turns. -/
def Leads (allowed : Surroundings) : Course → Course → Prop :=
  Relation.ReflTransGen (Next setup allowed)

/-- A course of a new session. -/
def Reached (allowed : Surroundings) (c : Course) : Prop := Leads setup allowed {} c

/-! ### Courses that are played -/

/-- Let the session work until it waits or rests, or these many turns are over. -/
def settle : Nat → Course → Course
  | 0, c => c
  | turns + 1, c =>
    match c.take? setup .work with
    | some d => settle turns d
    | none => c

/-- Take a turn from outside, and let the session work. -/
def play (c : Course) (turn : Turn) : Course := settle setup 20 ((c.take? setup turn).getD c)

/-- Take turns from outside, one after the other. -/
def plays (c : Course) (turns : List Turn) : Course := turns.foldl (play setup) c

/-- Whether these turns are allowed when they are taken one after the other. -/
def Permits (allowed : Surroundings) : Course → List Turn → Prop
  | _, [] => True
  | c, turn :: turns => allowed c turn ∧ Permits allowed (c.play setup turn) turns

variable {setup} {allowed : Surroundings}

/-- A call comes. -/
theorem take_of_accepts {c : Course} (accepts : c.now.accepts) (call : Call) :
    c.take? setup (.call call) =
      some ⟨⟨c.now, .call call, []⟩ :: c.past, c.now.state,
        ⟨call, none, [.serve call]⟩ :: c.now.stack⟩ := by
  simp [take?, Turn.move, Machine.move?, Machine.call?, accepts]

theorem leads_settle (works : ∀ c, allowed c .work) (turns : Nat) (c : Course) :
    Leads setup allowed c (settle setup turns c) := by
  induction turns generalizing c with
  | zero => exact .refl
  | succ turns ih =>
      simp only [settle]
      split
      case h_1 d taken => exact .head ⟨.work, works c, taken⟩ (ih d)
      case h_2 => exact .refl

theorem leads_take {c : Course} {turn : Turn} (permitted : allowed c turn) :
    Leads setup allowed c ((c.take? setup turn).getD c) := by
  cases taken : c.take? setup turn with
  | none => exact .refl
  | some d => exact .single ⟨turn, permitted, taken⟩

theorem leads_play (works : ∀ c, allowed c .work) {c : Course} {turn : Turn}
    (permitted : allowed c turn) : Leads setup allowed c (c.play setup turn) :=
  .trans (leads_take permitted) (leads_settle works 20 _)

theorem leads_plays (works : ∀ c, allowed c .work) {c : Course} {turns : List Turn}
    (permits : Permits setup allowed c turns) : Leads setup allowed c (c.plays setup turns) := by
  induction turns generalizing c with
  | nil => exact .refl
  | cons turn turns ih => exact .trans (leads_play works permits.1) (ih permits.2)

end Course

/-- Every turn of a course was taken in a course. -/
theorem next_of_suffix {setup : Setup} {allowed : Surroundings} {c : Course}
    (reached : c.Reached setup allowed) {e : Entry}
    {earlier : Chronicle} (suffix : e :: earlier <:+ c.past) :
    Course.Reached setup allowed ⟨earlier, e.before⟩ ∧
      ∃ d, Course.Next setup allowed ⟨earlier, e.before⟩ d ∧ d.past = e :: earlier := by
  induction reached with
  | refl => simp at suffix
  | @tail before after sofar next ih =>
      have split := next
      obtain ⟨turn, -, taken⟩ := split
      obtain ⟨⟨m, effects⟩, -, rfl⟩ := Option.map_eq_some_iff.mp taken
      rcases List.suffix_cons_iff.mp suffix with same | suffix
      · obtain ⟨rfl, rfl⟩ := List.cons.inj same
        exact ⟨sofar, _, next, rfl⟩
      · exact ih suffix

/-! ## Surroundings -/

namespace Surroundings

/-- Surroundings that do anything at any time. -/
def Free : Surroundings := fun _ _ => True

/-- What reports is a connection that was dialled. -/
def Genuine : Surroundings := fun c turn =>
  ∀ call n, turn.call? = some call → call.reporter? = some n → n ∈ c.past.dialled

/-- A timer fires at most once, and not after it was cancelled. -/
def Timely : Surroundings := fun c turn =>
  match turn with
  | .fire t => t ∈ c.past.pending
  | .call .reconnect => False
  | _ => True

/-- What a connection gives back it had accepted. -/
def Honest : Surroundings := fun c turn =>
  ∀ n ps, c.now.awaiting? = some (.reclaiming n) → turn = .reply (.unsent ps) →
    ∀ p ∈ ps, (n, p) ∈ c.past.accepted

/-- What a connection gives back is the end of what it accepted and still keeps. -/
def LastFirst : Surroundings := fun c turn =>
  ∀ n ps, c.now.awaiting? = some (.reclaiming n) → turn = .reply (.unsent ps) →
    ps <:+ c.past.kept n

/-- No call comes while this is waited for. -/
def Quiet (w : Await → Prop) : Surroundings := fun c turn =>
  ∀ a, c.now.awaiting? = some a → w a → turn.call? = none

/-- Nothing is raised in answer to this wait. -/
def Sound (w : Await → Prop) : Surroundings := fun c turn =>
  ∀ a f, c.now.awaiting? = some a → w a → turn ≠ .reply (.raised f)

/-! Work and answers are always allowed where only calls are restricted. -/

section

variable (c : Course) (r : Reply) (w : Await → Prop)

@[simp] theorem genuine_work : Genuine c .work := by simp [Genuine, Turn.call?]

@[simp] theorem genuine_reply : Genuine c (.reply r) := by simp [Genuine, Turn.call?]

@[simp] theorem genuine_call (call : Call) :
    Genuine c (.call call) ↔ ∀ n, call.reporter? = some n → n ∈ c.past.dialled :=
  ⟨fun genuine n => genuine call n rfl, fun known _ n begun => Option.some.inj begun ▸ known n⟩

@[simp] theorem timely_work : Timely c .work := trivial

@[simp] theorem timely_reply : Timely c (.reply r) := trivial

@[simp] theorem quiet_work : Quiet w c .work := fun _ _ _ => rfl

@[simp] theorem quiet_reply : Quiet w c (.reply r) := fun _ _ _ => rfl

@[simp] theorem sound_work : Sound w c .work := by simp [Sound]

@[simp] theorem sound_call (call : Call) : Sound w c (.call call) := by simp [Sound]

@[simp] theorem honest_work : Honest c .work := by simp [Honest]

@[simp] theorem honest_call (call : Call) : Honest c (.call call) := by simp [Honest]

@[simp] theorem lastFirst_work : LastFirst c .work := by simp [LastFirst]

@[simp] theorem lastFirst_call (call : Call) : LastFirst c (.call call) := by simp [LastFirst]

end

end Surroundings

/-- Surroundings that do anything permit whatever is played. -/
theorem Course.leads_plays_free {setup : Setup} (c : Course) (turns : List Turn) :
    Leads setup Surroundings.Free c (c.plays setup turns) := by
  refine leads_plays (fun _ => trivial) ?_
  induction turns generalizing c with
  | nil => trivial
  | cons turn turns ih => exact ⟨trivial, ih (c.play setup turn)⟩

/-! ## A plain session -/

/-- A session to which no frame is an event, and which reconnects after two seconds each time. -/
def Setup.plain : Setup where
  endpoint := "ws://localhost/plain"
  decode _ := .nothing []
  policy := ⟨⟨none, .int 2, .int 1, none⟩, by decide⟩

end EventStream.Session
