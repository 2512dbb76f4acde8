import EventStream.Proofs.Session.Continuity
import EventStream.Proofs.Session.LateReports
import EventStream.Proofs.Session.Streaks

/-
# Messages are the frames that were heard

A session hears a frame if it is connected and the frame comes from the current connection, which
is the one that was dialled last, as long as its end was not served. This is said of the chronicle
alone (`Course.Hears`); the session itself compares numbers. The two agree while the session is
connected (`current_iff`): it turns away from a connection either when the connection has ended,
or in order to dial, or in order to close, and a connected session does neither of the latter.

Every frame that is heard is decoded once and in the order of the reports, and what is told as
messages is what the frames were decoded to (`messages_of_frames`). A frame that is not heard, or
that is no event, changes nothing at all.
-/

namespace EventStream.Session

variable {setup : Setup} {allowed : Surroundings}

/-! ## The current connection -/

namespace Chronicle

variable (past : Chronicle)

/-- The connection that was dialled last, as long as its end was not served. -/
def current? : Option Nat := past.dialled.getLast?.filter (· ∉ past.parted)

/-- A connection has reported that it is usable. -/
def Opened (n : Nat) : Prop := ∃ e ∈ past, e.turn = .call (.opened n)

end Chronicle

/-- A session hears the current connection while it is connected. -/
def Course.Hears (c : Course) (n : Nat) : Prop :=
  c.phase = .connected ∧ c.past.current? = some n

instance (c : Course) (n : Nat) : Decidable (c.Hears n) :=
  inferInstanceAs (Decidable (c.phase = .connected ∧ c.past.current? = some n))

/-- A session that listens to a connection that was dialled listens to the one that was dialled
last. -/
theorem Numbered.last {past : Chronicle} {s : State} {stack : List Activation}
    (numbered : Numbered past s stack) (known : s.generation ∈ past.dialled) :
    past.dialled.getLast? = some s.generation := by
  obtain ⟨earlier, later, split⟩ := List.append_of_mem known
  have none : later = [] := by
    refine List.eq_nil_iff_forall_not_mem.mpr fun n among => ?_
    have sorted := numbered.sorted
    rw [split, List.pairwise_append, List.pairwise_cons] at sorted
    have above := sorted.2.1.1 n among
    have below := numbered.bounded n (split ▸ by simp [among])
    omega
  simp [split, none]

section

variable {past : Chronicle} {s after : State} {cue : Cue} {call : Call} {rest : List Task}
  {below : List Activation} {outcome : Outcome} {effects : List Effect} {m : Machine}

/-- When a session turns to another connection. -/
theorem Acts.turns (acts : Acts setup s cue after outcome) :
    after.generation = s.generation ∨ cue = .task .dial ∨ cue = .task .release ∨
      ∃ served e, cue = .task (.serve served) ∧ served.ending? = some (s.generation, e) := by
  cases acts with
  | ended ends => exact .inr (.inr (.inr ⟨_, _, rfl, ends⟩))
  | dial => exact .inr (.inl rfl)
  | turnAway | release => exact .inr (.inr (.inl rfl))
  | _ => exact .inl rfl

/-- A connected session neither dials nor releases its connection. -/
theorem steady_of_connected
    (reached : Course.Reached setup allowed ⟨past, s, cue.activation call rest :: below⟩)
    (sane : Sane allowed) (connected : s.phase = .connected) :
    cue ≠ .task .dial ∧ cue ≠ .task .release := by
  have precedes := cue_precedes ((planned_of_reached reached).planned _ List.mem_cons_self)
  have falling : ∀ a ∈ cue.activation call rest :: below, a.prospects = 0 ∨ a.Falling :=
    (poised_of_reached reached sane connected).2
  have mine := falling _ List.mem_cons_self
  constructor
  · rintro rfl
    obtain rfl := precedes
    exact not_falling_of_prospect rfl (by simp) (by simp) mine
  · rintro rfl
    rcases precedes with rfl | ⟨r, rfl⟩
    · simp [Activation.prospects, Activation.Falling, Cue.activation, Task.prospects] at mine
    · have gone : s.phase.isOver = true :=
        over_of_finishing (orderlyStack_of_reached reached) (by simp) (by simp)
      simp [connected, Phase.isOver] at gone

end

/-- While a session is connected, it listens to the connection that was dialled last, or that one
has ended. -/
theorem last_of_connected {c : Course} (reached : c.Reached setup allowed) (sane : Sane allowed) :
    c.phase = .connected → ∀ n, c.past.dialled.getLast? = some n →
      n = c.now.state.generation ∨ n ∈ c.past.parted := by
  refine reached.induction (P := fun past s _ => s.phase = .connected →
    ∀ n, past.dialled.getLast? = some n → n = s.generation ∨ n ∈ past.parted)
    ?start ?called ?returned ?acted
  case start => simp
  case called =>
    intro past s stack turn call _ ih _ begun _ connected n last
    simpa [parted_called begun] using ih connected n (by simpa using last)
  case returned =>
    intro past s call below _ ih connected n last
    simpa [Entry.parted?] using ih connected n (by simpa using last)
  case acted =>
    intro past s cue call rest below after outcome effects before ih _ acts seen connected n last
    rcases acts.phase with same | ⟨p, -, rfl, rfl, rfl⟩
    · have still : s.phase = .connected := same ▸ connected
      obtain ⟨undialling, unreleasing⟩ := steady_of_connected before sane still
      rw [seen.dialled, acts.undialling undialling, List.append_nil] at last
      rw [parted_cons, List.mem_append]
      rcases ih still n last with rfl | gone
      · rcases acts.turns with listens | dials | releases | ⟨served, e, rfl, ends⟩
        · exact .inl listens.symm
        · exact absurd dials undialling
        · exact absurd releases unreleasing
        · exact .inr (.inl (Option.mem_toList.mpr (parted_acted.mpr ⟨served, e, rfl, ends⟩)))
      · exact .inr (.inr gone)
    · obtain rfl : p = .connected := connected
      have listening : live past s = 1 := live_of_opening before sane rfl
      have known : s.generation ∈ past.dialled := by
        by_contra unknown
        simp [live, unknown] at listening
      have same := (numbered_of_reached before).last known
      rw [seen.dialled] at last
      exact .inl (Option.some.inj (last.symm.trans (by simpa [Outcome.asked] using same)))

/-- A connected session listens to the current connection. -/
theorem current_iff {c : Course} (reached : c.Reached setup allowed) (sane : Sane allowed)
    (connected : c.phase = .connected) {n : Nat} (known : n ∈ c.past.dialled) :
    c.past.current? = some n ↔ c.now.state.generation = n := by
  rw [Chronicle.current?, Option.filter_eq_some_iff, decide_eq_true_eq]
  constructor
  · rintro ⟨last, present⟩
    exact ((last_of_connected reached sane connected n last).resolve_right present).symm
  · rintro rfl
    refine ⟨(numbered_of_reached reached).last known, fun gone => ?_⟩
    exact Nat.lt_irrefl _ (left_of_parted reached sane.genuine _ gone)

/-! ## Connections that were opened -/

/-- What is served as the report that a connection is usable was reported. -/
theorem opened_of_serving {c : Course} (reached : c.Reached setup allowed) :
    ∀ a ∈ c.now.stack, ∀ n, .serve (.opened n) ∈ a.tasks → c.past.Opened n := by
  refine reached.induction (P := fun past _ stack => ∀ a ∈ stack, ∀ n,
    .serve (.opened n) ∈ a.tasks → past.Opened n) ?start ?called ?returned ?acted
  case start => simp
  case called =>
    intro past s stack turn call _ ih _ begun _ a among n serves
    rcases List.mem_cons.mp among with rfl | among
    · obtain rfl : .opened n = call := by simpa using serves
      refine ⟨_, List.mem_cons_self, ?_⟩
      cases turn <;> simp_all [Turn.call?]
    · obtain ⟨e, earlier, opens⟩ := ih a among n serves
      exact ⟨e, List.mem_cons_of_mem _ earlier, opens⟩
  case returned =>
    intro past s call below _ ih a among n serves
    obtain ⟨e, earlier, opens⟩ := ih a (.tail _ among) n serves
    exact ⟨e, List.mem_cons_of_mem _ earlier, opens⟩
  case acted =>
    intro past s cue call rest below after outcome effects _ ih _ acts _ a among n serves
    rcases Outcome.mem_tasks cue among serves with adds | ⟨b, among, left⟩
    · obtain ⟨m, f, other, -⟩ := acts.origin _ adds
      contradiction
    · obtain ⟨e, earlier, opens⟩ := ih b among n left
      exact ⟨e, List.mem_cons_of_mem _ earlier, opens⟩

/-- The connection to which a connected session listens has reported that it is usable. -/
theorem opened_of_connected {c : Course} (reached : c.Reached setup allowed)
    (sane : Sane allowed) :
    (c.phase = .connected ∨ ∃ later, front c.now.stack = .enter .connected :: later) →
      c.now.state.generation ∈ c.past.dialled → c.past.Opened c.now.state.generation := by
  have onward {past : Chronicle} {n : Nat} (e : Entry) : past.Opened n →
      Chronicle.Opened (e :: past) n :=
    fun ⟨o, earlier, opens⟩ => ⟨o, List.mem_cons_of_mem e earlier, opens⟩
  refine reached.induction (P := fun past s stack =>
    (s.phase = .connected ∨ ∃ later, front stack = .enter .connected :: later) →
      s.generation ∈ past.dialled → past.Opened s.generation) ?start ?called ?returned ?acted
  case start => simp [Chronicle.dialled, Chronicle.requests]
  case called =>
    intro past s stack turn call _ ih _ _ _ connected known
    exact onward _ (ih (.inl (connected.resolve_right (by simp))) (by simpa using known))
  case returned =>
    intro past s call below before ih connected known
    have waits : front below = [] := (planned_of_reached before).front_below
    exact onward _ (ih (.inl (connected.resolve_right (by simp [waits]))) (by simpa using known))
  case acted =>
    intro past s cue call rest below after outcome effects before ih _ acts seen connected known
    rcases connected with connected | ⟨later, enters⟩
    · have was : s.phase = .connected ∨
          ∃ later, front (cue.activation call rest :: below) = .enter .connected :: later := by
        rcases acts.phase with same | ⟨p, -, rfl, rfl, -⟩
        · exact .inl (same ▸ connected)
        · obtain rfl : p = .connected := connected
          exact .inr ⟨rest, rfl⟩
      rcases acts.still_known seen (numbered_of_reached before).bounded known with
        rfl | ⟨same, known⟩
      · have still : s.phase = .connected := was.resolve_right (by simp [Cue.activation])
        exact absurd rfl (steady_of_connected before sane still).1
      · exact same ▸ onward _ (ih was known)
    · obtain ⟨first, rfl, -⟩ := (planned_of_reached before).added rfl enters
      obtain ⟨rfl, same⟩ := acts.origin _ List.mem_cons_self
      rw [same]
      exact onward _ (opened_of_serving before _ List.mem_cons_self _ List.mem_cons_self)

/-! ## Messages -/

/-- The message that is told. -/
def Occurrence.message? : Occurrence → Option Event
  | .message e => some e
  | _ => none

namespace Chronicle

/-- The messages that were told, in order. -/
def messages (past : Chronicle) : List Event := past.told.filterMap Occurrence.message?

/-- The frames that the session heard, in the order in which they were reported. -/
def frames : Chronicle → List Value
  | [] => []
  | e :: past =>
    match e.turn with
    | .call (.received n frame) =>
      if Course.Hears ⟨past, e.before⟩ n then frames past ++ [frame] else frames past
    | _ => frames past

end Chronicle

section

variable {past : Chronicle} {s after : State} {cue : Cue} {call : Call} {rest : List Task}
  {below : List Activation} {outcome : Outcome} {effects : List Effect} {m : Machine}

/-- The message to which a task is about to lead. -/
def Task.message? (setup : Setup) (s : State) : Task → Option Event
  | .serve (.received n frame) =>
    if s.generation = n ∧ s.phase = .connected then (setup.decode frame).event? else none
  | .emit o => o.message?
  | _ => none

/-- The message to which the innermost call is about to lead. -/
def due (setup : Setup) (s : State) (stack : List Activation) : List Event :=
  ((front stack).head?.bind (Task.message? setup s)).toList

theorem due_of_waiting {stack : List Activation} (waits : front stack = []) :
    due setup s stack = [] := by
  simp [due, waits]

/-- Messages are told at once, so nothing that is left leads to one. -/
theorem Left.unspoken (left : Left rest) : rest.head?.bind (Task.message? setup s) = none := by
  cases left with
  | told follows => cases follows <;> rfl
  | _ => rfl

/-- A step tells the message that is due, or leads to it. -/
theorem Acts.messages (acts : Acts setup s cue after outcome)
    (planned : Planned (cue.activation call rest :: below)) :
    cue.emits.filterMap Occurrence.message? ++ due setup after (outcome.stack call rest below) =
      due setup s (cue.activation call rest :: below) := by
  have left : Left rest := (cue_precedes (planned.planned _ List.mem_cons_self)).left
  have calm (s : State) : rest.head?.bind (Task.message? setup s) = none := left.unspoken
  cases acts with
  | lapse lapses =>
      cases lapses with
      | received n frame ignored =>
          have none : (if s.generation = n ∧ s.phase = .connected then
              (setup.decode frame).event? else none) = none := by
            split
            case isTrue heard => exact ignored heard.1 heard.2
            case isFalse => rfl
          simp [due, Cue.emits, Cue.activation, Outcome.stack, Task.message?, calm, none]
      | @ending served n e ends =>
          cases served <;> simp_all [due, Cue.emits, Cue.activation, Outcome.stack, Task.message?,
            Call.ending?]
      | _ => simp [due, Cue.emits, Cue.activation, Outcome.stack, Task.message?, calm]
  | fault faults =>
      cases faults <;>
        simp [due, Cue.emits, Cue.activation, Outcome.stack, Task.message?, planned.front_below]
  | unreported =>
      simp [due, Cue.emits, Cue.activation, Outcome.stack, Task.message?, planned.front_below]
  | queue queues =>
      cases queues <;> simp [due, Cue.emits, Cue.activation, Outcome.stack, Task.message?, calm]
  | received frame connected decoded =>
      simp [due, Cue.emits, Cue.activation, Outcome.stack, Task.message?, connected, decoded,
        Decoded.event?, Occurrence.message?]
  | @ended served e ends =>
      cases held : s.connection <;> cases served <;>
        simp_all [due, Cue.emits, Cue.activation, Outcome.stack, Task.message?, Call.ending?]
  | emit o =>
      cases message : o.message? <;>
        simp [due, Cue.emits, Cue.activation, Outcome.stack, Task.message?, message]
  | reconnect =>
      by_cases connecting : s.phase = .connecting <;>
        simp [due, Cue.emits, Cue.activation, Outcome.stack, Task.message?, connecting, calm]
  | adopt =>
      by_cases connected : s.isConnected <;>
        simp [due, Cue.emits, Cue.activation, Outcome.stack, Task.message?, connected, calm]
  | conclude e =>
      cases e <;>
        simp [due, Cue.emits, Cue.activation, Outcome.stack, Task.message?, Ending.occurrence,
          Occurrence.message?]
  | _ =>
      simp [due, Cue.emits, Cue.activation, Outcome.stack, Task.message?, Occurrence.message?,
        Setup.stopping, calm]

end

/-- The messages that were told, and the one that is due, are the events that the frames were
decoded to. -/
theorem messages_append_due {c : Course} (reached : c.Reached setup allowed) (sane : Sane allowed) :
    c.past.messages ++ due setup c.now.state c.now.stack =
      c.past.frames.filterMap fun frame => (setup.decode frame).event? := by
  refine reached.induction (P := fun past s stack => past.messages ++ due setup s stack =
    past.frames.filterMap fun frame => (setup.decode frame).event?) ?start ?called ?returned ?acted
  case start => rfl
  case called =>
    intro past s stack turn call before ih permitted begun free
    rw [due_of_waiting (front_of_waiting free), List.append_nil] at ih
    rw [Chronicle.messages, Chronicle.told_called, ← Chronicle.messages, ih]
    cases turn with
    | call served =>
        obtain rfl : served = call := Option.some.inj begun
        cases served with
        | received n frame =>
            have known : n ∈ past.dialled := sane.genuine _ _ permitted _ n rfl rfl
            have listens : Course.Hears ⟨past, s, stack⟩ n ↔
                s.generation = n ∧ s.phase = .connected := by
              rw [Course.Hears, and_comm]
              exact and_congr_left fun connected => current_iff before sane connected known
            by_cases heard : s.generation = n ∧ s.phase = .connected
            · cases decoded : (setup.decode frame).event? <;>
                simp [due, Task.message?, Chronicle.frames, listens, heard, decoded]
            · simp [due, Task.message?, Chronicle.frames, listens, heard]
        | _ => simp [due, Task.message?, Chronicle.frames]
    | fire t =>
        obtain rfl : Call.reconnect = call := Option.some.inj begun
        simp [due, Task.message?, Chronicle.frames]
    | _ => contradiction
  case returned =>
    intro past s call below before ih
    rw [due_of_waiting (planned_of_reached before).front_below]
    simpa [due, Chronicle.messages, Chronicle.frames] using ih
  case acted =>
    intro past s cue call rest below after outcome effects before ih _ acts seen
    have silent : Chronicle.frames (⟨⟨s, cue.activation call rest :: below⟩, cue.turn, effects⟩ ::
        past) = past.frames := by
      cases cue <;> rfl
    rw [Chronicle.messages, seen.told, List.filterMap_append, List.append_assoc,
      acts.messages (planned_of_reached before), silent, ← Chronicle.messages, ih]

/-- Serving a frame that is not heard, or that is no event, leaves nothing but records. -/
theorem serve_ignored {s : State} {n : Nat} {frame : Value}
    (ignored : s.generation = n → s.phase = .connected → (setup.decode frame).event? = none) :
    ∃ effects, OnlyRecords effects ∧
      setup.serve s (.received n frame) = { state := s, effects } := by
  have records : OnlyRecords (setup.serve s (.received n frame)).effects := onlyRecords_serve _
  refine ⟨_, records, ?_⟩
  simp only [Setup.serve, Setup.serveFrame]
  split
  case isTrue heard =>
    obtain ⟨rfl, connected⟩ : s.generation = n ∧ s.phase = .connected := by
      simpa [State.listensTo, State.isConnected] using heard
    have none := ignored rfl connected
    split
    case h_1 decoded => simp [decoded, Decoded.event?] at none
    case h_2 => rfl
    case h_3 => rfl
  case isFalse => rfl

/-- The messages that a session tells are the frames that it heard, as they were decoded, in the
order in which they were reported. A connection is heard only after it has reported that it is
usable. A frame that is not heard, or that is no event, leaves the session as it was. -/
theorem messages_of_frames {c : Course}
    (reached : c.Reached setup fun d turn => Surroundings.Genuine d turn ∧
      Surroundings.Timely d turn)
    (accepts : c.now.accepts) :
    c.past.messages = c.past.frames.filterMap (fun frame => (setup.decode frame).event?) ∧
      (∀ n, c.Hears n → c.past.Opened n) ∧
      ∀ n frame, n ∈ c.past.dialled → (c.Hears n → (setup.decode frame).event? = none) →
        ∃ d, c.run? setup (Course.reporting (.received n frame)) = some d ∧ d.now = c.now ∧
          d.past.told = c.past.told ∧ d.past.requests = c.past.requests ∧
          d.past.pending = c.past.pending := by
  have sane : Sane fun d turn => Surroundings.Genuine d turn ∧ Surroundings.Timely d turn :=
    ⟨fun _ _ allowed => allowed.1, fun _ _ allowed => allowed.2⟩
  refine ⟨?_, fun n ⟨connected, current⟩ => ?_, fun n frame known ignored => ?_⟩
  · have waits : front c.now.stack = [] := by
      apply front_of_waiting
      intro a top
      obtain ⟨past, s, stack⟩ := c
      cases stack with
      | nil => contradiction
      | cons b below =>
          obtain rfl : b = a := by simpa using top
          simpa [Machine.accepts, Machine.atRest, Machine.awaiting?] using accepts
    simpa [due_of_waiting waits] using messages_append_due reached sane
  · have last : c.past.dialled.getLast? = some n := (Option.filter_eq_some_iff.mp current).1
    have known : n ∈ c.past.dialled := List.mem_of_getLast? last
    obtain rfl := (current_iff reached sane connected known).mp current
    exact opened_of_connected reached sane (.inl connected) known
  · have unheard (current : c.now.state.generation = n) (connected : c.phase = .connected) :
        (setup.decode frame).event? = none :=
      ignored ⟨connected, (current_iff reached sane connected known).mpr current⟩
    obtain ⟨effects, records, inert⟩ := serve_ignored unheard
    obtain ⟨m, served, ran⟩ := run_inert accepts inert
    have seen : Seen c.now.state (.task (.serve (.received n frame))) (.next []) effects :=
      seen_of_onlyRecords records rfl rfl
    let past : Chronicle := ⟨c.now, .call (.received n frame), []⟩ :: c.past
    have told : Chronicle.told (⟨m, .work, effects⟩ :: past) = c.past.told := by
      simpa [Cue.emits, Cue.turn, past] using seen.told m past
    have pending : Chronicle.pending (⟨m, .work, effects⟩ :: past) = c.past.pending := by
      simpa [Cue.cancels, Cue.sets, Cue.turn, past, List.filter_eq_self.mpr] using
        seen.pending m past
    refine ⟨_, ran, rfl, ?_, ?_, ?_⟩
    · rw [Chronicle.told_returned, told]
    · simp [Chronicle.requests, Entry.asked, seen.asked, Outcome.asked, Effect.request?]
    · rw [Chronicle.pending_returned, pending]

/-- A session to which every text is an event, and which cannot decode other frames. -/
def Setup.telegraph : Setup where
  endpoint := "ws://localhost/telegraph"
  decode
    | .text t => .event (.text t)
    | _ => .failed (.raised .type "not a text")
  policy := Setup.plain.policy

/-- The session hears a text and another frame, loses its connection, and hears a text over the next
one. Its connections also report when they are not heard: before they are usable, and after they
have ended. -/
def telegraphed : Course := Course.plays .telegraph {} [.call .start, .reply .returned,
  .call (.received 2 (.text "early")), .call (.opened 2), .call (.received 2 (.text "a")),
  .call (.received 2 .null), .call (.closed 2 .null), .reply (.unsent []), .reply (.scheduled 7),
  .call (.received 2 (.text "late")), .fire 7, .reply .returned, .call (.opened 5),
  .call (.received 2 (.text "late")), .call (.received 5 (.text "b"))]

theorem frames_telegraphed : telegraphed.past.frames = [.text "a", .null, .text "b"] := by
  decide +kernel

theorem messages_of_frames_telegraphed : telegraphed.now.accepts ∧
    telegraphed.past.frames = [.text "a", .null, .text "b"] ∧
    telegraphed.past.messages = [.text "a", .text "b"] ∧ telegraphed.past.Opened 5 ∧
    ∃ d, telegraphed.run? .telegraph (Course.reporting (.received 5 .null)) = some d ∧
      d.now = telegraphed.now := by
  have messages := @messages_of_frames .telegraph telegraphed
    (Course.leads_plays (fun c => by simp) ?permits) (by decide +kernel)
  · obtain ⟨told, opened, ignored⟩ := messages
    refine ⟨by decide +kernel, frames_telegraphed, told.trans (by rw [frames_telegraphed]; rfl),
      opened 5 (by decide +kernel), ?_⟩
    obtain ⟨d, ran, same, -⟩ := ignored 5 .null (by decide +kernel) fun _ => rfl
    exact ⟨d, ran, same⟩
  case permits =>
    have report (c : Course) (call : Call) (n : Nat) (reports : call.reporter? = some n)
        (known : n ∈ c.past.dialled) : Surroundings.Genuine c (.call call) ∧
          Surroundings.Timely c (.call call) := by
      refine ⟨(Surroundings.genuine_call c call).mpr fun m again => ?_, ?_⟩
      · obtain rfl := Option.some.inj (reports.symm.trans again)
        exact known
      · cases call <;> trivial
    exact ⟨⟨by simp [Call.reporter?], trivial⟩, by simp, report _ _ 2 rfl (by decide +kernel),
      report _ _ 2 rfl (by decide +kernel), report _ _ 2 rfl (by decide +kernel),
      report _ _ 2 rfl (by decide +kernel), report _ _ 2 rfl (by decide +kernel), by simp, by simp,
      report _ _ 2 rfl (by decide +kernel),
      ⟨by rintro _ _ ⟨⟩ ⟨⟩, show 7 ∈ Chronicle.pending _ by decide +kernel⟩, by simp,
      report _ _ 5 rfl (by decide +kernel), report _ _ 2 rfl (by decide +kernel),
      report _ _ 5 rfl (by decide +kernel), trivial⟩

end EventStream.Session
