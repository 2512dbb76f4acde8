import EventStream.Proofs.Session.Numbering
import EventStream.Proofs.Session.Stopping
import Mathlib.Data.List.Basic

/-
# Payloads are delivered in order

A payload that is handed over is sent at once, or queued and sent later, or it is sent, comes back
and is sent again. Wherever it goes, what the connections keep, in the order in which they were
dialled, followed by what is queued and by the payload that is just being handed over, is what was
handed over: nothing is lost, doubled or overtaken, until the session is on its way out.

The reason is that only the last connection that ever took a payload is held. So a payload that is
taken joins the end of what was kept, and what comes back was at the end.
-/

namespace EventStream.Session

variable {setup : Setup} {allowed : Surroundings}

/-! ## What connections keep -/

namespace Cue

/-- The payload that is accepted at a cue, with the connection. -/
def accepts? : Cue → Option (Nat × Value)
  | .answer (.sending n p) (.accepted true) => some (n, p)
  | .answer (.draining n p _) (.accepted true) => some (n, p)
  | _ => none

/-- The payloads that are given back at a cue, with the connection. -/
def returns? : Cue → Option (Nat × List Value)
  | .answer (.reclaiming n) (.unsent ps) => some (n, ps)
  | _ => none

theorem accepts_iff {cue : Cue} {n : Nat} {p : Value} : cue.accepts? = some (n, p) ↔
    cue = .answer (.sending n p) (.accepted true) ∨
      ∃ k, cue = .answer (.draining n p k) (.accepted true) := by
  constructor
  · intro accepts
    unfold accepts? at accepts
    split at accepts
    case h_1 => simpa using accepts
    case h_2 => simpa using accepts
    case h_3 => contradiction
  · rintro (rfl | ⟨k, rfl⟩) <;> rfl

theorem returns_iff {cue : Cue} {n : Nat} {ps : List Value} : cue.returns? = some (n, ps) ↔
    cue = .answer (.reclaiming n) (.unsent ps) := by
  constructor
  · intro returns
    unfold returns? at returns
    split at returns
    case h_1 => simpa using returns
    case h_2 => contradiction
  · rintro rfl
    rfl

end Cue

section

variable (s : State) (cue : Cue) (call : Call) (rest : List Task) (below : List Activation)
  (effects : List Effect)

/-- The turn in which the innermost call goes on at a cue. -/
abbrev Cue.entry : Entry := ⟨⟨s, cue.activation call rest :: below⟩, cue.turn, effects⟩

theorem accepted_acted : (cue.entry s call rest below effects).accepted? = cue.accepts? := by
  cases cue with
  | task => rfl
  | answer a r =>
      cases a <;> cases r <;> first | rfl | (rename_i yes; cases yes <;> rfl)

theorem returned_acted : (cue.entry s call rest below effects).returned? = cue.returns? := by
  cases cue with
  | task => rfl
  | answer a r => cases a <;> cases r <;> rfl

end

section

variable (past : Chronicle) {e : Entry} {n : Nat}

/-- What is kept changes only when something is accepted or given back. -/
theorem kept_of_silent (unaccepted : e.accepted? = none) (unreturned : e.returned? = none)
    (m : Nat) : Chronicle.kept m (e :: past) = past.kept m := by
  simp [Chronicle.kept, unaccepted, unreturned]

theorem kept_of_accepted {p : Value} (accepted : e.accepted? = some (n, p)) (m : Nat) :
    Chronicle.kept m (e :: past) = if n = m then past.kept m ++ [p] else past.kept m := by
  simp [Chronicle.kept, accepted]

theorem kept_of_returned {ps : List Value} (unaccepted : e.accepted? = none)
    (returned : e.returned? = some (n, ps)) (m : Nat) :
    Chronicle.kept m (e :: past) =
      if n = m then (past.kept m).take ((past.kept m).length - ps.length) else past.kept m := by
  simp [Chronicle.kept, unaccepted, returned]

variable {past} in
/-- A connection keeps something only if it kept something before, or accepts it now. -/
theorem kept_ne_nil {m : Nat} (keeps : Chronicle.kept m (e :: past) ≠ []) :
    past.kept m ≠ [] ∨ ∃ p, e.accepted? = some (m, p) := by
  cases accepted : e.accepted? with
  | some taken =>
      obtain ⟨n, p⟩ := taken
      rw [kept_of_accepted past accepted] at keeps
      split at keeps
      case isTrue same => exact .inr ⟨p, by rw [same]⟩
      case isFalse => exact .inl keeps
  | none =>
      apply Or.inl
      cases returned : e.returned? with
      | none => rwa [kept_of_silent past accepted returned] at keeps
      | some given =>
          obtain ⟨n, ps⟩ := given
          rw [kept_of_returned past accepted returned] at keeps
          split at keeps
          case isTrue => exact fun none => keeps (by simp [none])
          case isFalse => exact keeps

end

/-! ## Only the last connection takes payloads -/

/-- A connection was dialled, and none that was dialled later keeps anything. -/
def Chronicle.LastKeeper (n : Nat) (past : Chronicle) : Prop :=
  n ∈ past.dialled ∧ ∀ m, past.kept m ≠ [] → m ≤ n

/-- The connection that is held is the last one that keeps anything, and whoever sends over a
connection, or takes payloads back, does so over the last one. -/
structure Keeping (past : Chronicle) (s : State) (stack : List Activation) : Prop where
  known : ∀ m, past.kept m ≠ [] → m ∈ past.dialled
  latest : ∀ n, s.connection = some n → past.LastKeeper n
  sending : ∀ n p, awaited stack = some (.sending n p) →
    s.connection = some n ∧ s.queue.payloads = []
  drain : ∀ n k later, front stack = .drain n k :: later → s.connection = some n
  draining : ∀ n p k, awaited stack = some (.draining n p k) →
    s.connection = some n ∧ s.queue.payloads.head? = some p
  reclaims : ∀ n, Reclaims n stack → past.LastKeeper n

/-- The waits for what a connection takes or gives back. -/
def Await.isDelivery : Await → Bool
  | .sending .. | .draining .. | .reclaiming _ => true
  | _ => false

section

variable {past : Chronicle} {s after : State} {cue : Cue} {call : Call} {rest : List Task}
  {below : List Activation} {outcome : Outcome} {effects : List Effect}

/-- Whoever accepts a payload is the connection that is held. -/
theorem Keeping.taker (keeping : Keeping past s (cue.activation call rest :: below)) {n : Nat}
    {p : Value} (accepts : cue.accepts? = some (n, p)) : s.connection = some n := by
  rcases Cue.accepts_iff.mp accepts with rfl | ⟨k, rfl⟩
  · exact (keeping.sending n p rfl).1
  · exact (keeping.draining n p k rfl).1

theorem kept_acted {m : Nat}
    (keeps : Chronicle.kept m (cue.entry s call rest below effects :: past) ≠ []) :
    past.kept m ≠ [] ∨ ∃ p, cue.accepts? = some (m, p) := by
  simpa [accepted_acted] using kept_ne_nil keeps

/-- Only what was dialled before a step keeps anything after it. -/
theorem Keeping.dialled (keeping : Keeping past s (cue.activation call rest :: below)) {m : Nat}
    (keeps : Chronicle.kept m (cue.entry s call rest below effects :: past) ≠ []) :
    m ∈ past.dialled := by
  rcases kept_acted keeps with keeps | ⟨p, accepts⟩
  · exact keeping.known m keeps
  · exact (keeping.latest m (keeping.taker accepts)).1

/-- The last keeper stays the last one when it accepts a payload, or none is accepted. -/
theorem Chronicle.LastKeeper.acted {n : Nat} (last : past.LastKeeper n)
    (seen : Seen s cue outcome effects)
    (takes : ∀ m p, cue.accepts? = some (m, p) → m = n) :
    LastKeeper n (cue.entry s call rest below effects :: past) := by
  refine ⟨?_, fun m keeps => ?_⟩
  · rw [seen.dialled]
    exact List.mem_append_left _ last.1
  · rcases kept_acted keeps with keeps | ⟨p, accepts⟩
    · exact last.2 m keeps
    · exact Nat.le_of_eq (takes m p accepts)

theorem keeping_of_acts (acts : Acts setup s cue after outcome) (seen : Seen s cue outcome effects)
    (planned : Planned (cue.activation call rest :: below))
    (numbered : Numbered past s (cue.activation call rest :: below))
    (others : ∀ a ∈ below, ∀ w, a.awaiting = some w → ¬ (w.isDelivery = true))
    (keeping : Keeping past s (cue.activation call rest :: below)) :
    Keeping (cue.entry s call rest below effects :: past) after
      (outcome.stack call rest below) := by
  constructor
  case known =>
    intro m keeps
    rw [seen.dialled]
    exact List.mem_append_left _ (keeping.dialled keeps)
  case latest =>
    intro n holds
    rcases acts.holds holds with held | ⟨rfl, rfl⟩
    · refine (keeping.latest n held).acted seen fun m p accepts => ?_
      exact Option.some.inj ((keeping.taker accepts).symm.trans held)
    · have adopted : s.generation ∈ past.dialled :=
        numbered.waiting s.generation (by simp [Cue.activation, Await.dialling?])
      have last : past.LastKeeper s.generation :=
        ⟨adopted, fun m keeps => numbered.bounded m (keeping.known m keeps)⟩
      exact last.acted seen fun m p accepts => by contradiction
  case sending =>
    intro n p waits
    obtain rfl := awaited_of_acts others rfl waits
    cases acts with
    | send _ _ empty held =>
        refine ⟨held, ?_⟩
        simpa [Outbound.Queue.payloads, Outbound.Queue.isEmpty] using empty
  case drain =>
    intro n k later stands
    obtain ⟨first, rfl, -⟩ := planned.added rfl stands
    obtain ⟨same, held | ⟨p, j, rfl⟩⟩ := acts.origin _ List.mem_cons_self
    · exact same.trans held
    · exact same.trans (keeping.draining n p j rfl).1
  case draining =>
    intro n p k waits
    obtain rfl := awaited_of_acts others rfl waits
    cases acts with
    | drain _ _ head =>
        refine ⟨keeping.drain n k rest rfl, ?_⟩
        rw [← Outbound.Queue.payload_head?, head]
        rfl
  case reclaims =>
    rintro n (⟨later, stands⟩ | waits)
    · obtain ⟨first, rfl, -⟩ := planned.added rfl stands
      obtain ⟨held, call, rfl⟩ := acts.origin _ List.mem_cons_self
      exact (keeping.latest n held).acted seen fun m p accepts => by contradiction
    · obtain rfl := awaited_of_acts others rfl waits
      cases acts with
      | reclaim =>
          have last : past.LastKeeper n := keeping.reclaims n (.inl ⟨rest, rfl⟩)
          exact last.acted seen fun m p accepts => by contradiction

end

theorem keeping_of_reached {c : Course} (reached : c.Reached setup allowed)
    (quiet : ∀ c turn, allowed c turn → Surroundings.Quiet (fun a => a.isDelivery) c turn) :
    Keeping c.past c.now.state c.now.stack := by
  refine reached.induction (P := Keeping) ?start ?called ?returned ?acted
  case start => constructor <;> simp [Chronicle.kept, awaited, front, Reclaims]
  case called =>
    rintro past s stack turn call _ ⟨known, latest, _, _, _, _⟩ _ begun _
    have same := kept_of_silent past (e := ⟨⟨s, stack⟩, turn, []⟩)
      (Entry.accepted_call begun) (Entry.returned_call begun)
    constructor <;> simp_all [awaited, Reclaims, Chronicle.LastKeeper]
  case returned =>
    rintro past s call below before ⟨known, latest, _, _, _, _⟩
    have same := kept_of_silent past
      (e := ⟨⟨s, ⟨call, none, []⟩ :: below⟩, .work, [.returns]⟩) (by simp) (by simp)
    have others : ∀ a ∈ below, ∀ w, a.awaiting = some w → ¬ (w.isDelivery = true) :=
      uninterrupted_of_reached before quiet
    have idle : front below = [] := (planned_of_reached before).front_below
    refine ⟨fun m kept => ?_, fun n held => ⟨?_, fun m kept => ?_⟩,
      fun n p waits => absurd waits (not_awaited_below others rfl), by simp [idle],
      fun n p k waits => absurd waits (not_awaited_below others rfl), fun n reclaiming => ?_⟩
    · simpa using known m (same m ▸ kept)
    · simpa using (latest n held).1
    · exact (latest n held).2 m (same m ▸ kept)
    · rcases reclaiming with ⟨later, stands⟩ | waits
      · simp [idle] at stands
      · exact absurd waits (not_awaited_below others rfl)
  case acted =>
    intro past s cue call rest below after outcome effects before keeping _ acts seen
    exact keeping_of_acts acts seen (planned_of_reached before) (numbered_of_reached before)
      (uninterrupted_of_reached before quiet) keeping

/-! ## What connections keep, one after the other -/

/-- What connections keep, in the order in which they were dialled. -/
def Chronicle.keptByAll (past : Chronicle) : List Value := past.dialled.flatMap (kept · past)

/-- In a list of numbers that grow, what belongs to a number stands at the end if nothing belongs
to later ones. -/
theorem flatMap_last {numbers : List Nat} (sorted : numbers.Pairwise (· < ·)) {n : Nat}
    (among : n ∈ numbers) : ∃ earlier : List Nat, n ∉ earlier ∧ ∀ f : Nat → List Value,
      (∀ m, n < m → f m = []) → numbers.flatMap f = earlier.flatMap f ++ f n := by
  obtain ⟨earlier, later, rfl⟩ := List.append_of_mem among
  rw [List.pairwise_append, List.pairwise_cons] at sorted
  obtain ⟨-, ⟨above, -⟩, below⟩ := sorted
  refine ⟨earlier, fun again => ?_, fun f none => ?_⟩
  · exact Nat.lt_irrefl n (below n again n List.mem_cons_self)
  · have nothing : later.flatMap f = [] :=
      List.flatMap_eq_nil_iff.mpr fun m follows => none m (above m follows)
    rw [List.flatMap_append, List.flatMap_cons, nothing, List.append_nil]

/-- A turn that concerns only what the last connection keeps changes the end of what is kept. -/
theorem keptByAll_of_last {past : Chronicle} {e : Entry} {n : Nat}
    (sorted : past.dialled.Pairwise (· < ·)) (last : past.LastKeeper n)
    (others : ∀ m, n ≠ m → Chronicle.kept m (e :: past) = past.kept m) :
    ∃ before, past.keptByAll = before ++ past.kept n ∧
      past.dialled.flatMap (Chronicle.kept · (e :: past)) =
        before ++ Chronicle.kept n (e :: past) := by
  obtain ⟨earlier, absent, ends⟩ := flatMap_last sorted last.1
  have none (m : Nat) (above : n < m) : past.kept m = [] :=
    Decidable.byContradiction fun keeps => Nat.not_le_of_gt above (last.2 m keeps)
  refine ⟨earlier.flatMap (Chronicle.kept · past), ends _ none, ?_⟩
  have same : earlier.flatMap (Chronicle.kept · (e :: past)) =
      earlier.flatMap (Chronicle.kept · past) :=
    List.flatMap_congr fun m early => others m fun is => absent (is ▸ early)
  rw [ends _ fun m above => (others m (Nat.ne_of_lt above)).trans (none m above), same]

section

variable {past : Chronicle} {s after : State} {cue : Cue} {call : Call} {rest : List Task}
  {below : List Activation} {outcome : Outcome} {effects : List Effect}

/-- A connection that is dialled in a step keeps nothing yet. -/
theorem keptByAll_acted (acts : Acts setup s cue after outcome)
    (seen : Seen s cue outcome effects)
    (numbered : Numbered past s (cue.activation call rest :: below))
    (keeping : Keeping past s (cue.activation call rest :: below)) :
    Chronicle.keptByAll (cue.entry s call rest below effects :: past) =
      past.dialled.flatMap (Chronicle.kept · (cue.entry s call rest below effects :: past)) := by
  unfold Chronicle.keptByAll
  rw [seen.dialled, List.flatMap_append, List.append_right_eq_self, List.flatMap_eq_nil_iff]
  intro n dials
  refine Decidable.byContradiction fun keeps => ?_
  have known : n ≤ s.generation := numbered.bounded n (keeping.dialled keeps)
  obtain rfl := mem_dials_iff.mp dials
  obtain ⟨-, rfl, -⟩ := acts.dials
  exact Nat.not_succ_le_self _ known

/-- The payloads that are accepted at a cue. -/
def Cue.taken (cue : Cue) : List Value := cue.accepts?.toList.map Prod.snd

/-- The payloads that are given back at a cue. -/
def Cue.given (cue : Cue) : List Value := cue.returns?.toList.flatMap Prod.snd

/-- What is accepted joins the end of what is kept, and what is given back comes off the end. -/
theorem keptByAll_of_acts (acts : Acts setup s cue after outcome)
    (seen : Seen s cue outcome effects)
    (numbered : Numbered past s (cue.activation call rest :: below))
    (keeping : Keeping past s (cue.activation call rest :: below))
    (lastFirst : ∀ n ps, cue = .answer (.reclaiming n) (.unsent ps) → ps <:+ past.kept n) :
    Chronicle.keptByAll (cue.entry s call rest below effects :: past) ++ cue.given =
        past.keptByAll ++ cue.taken ∧ (cue.given = [] ∨ cue.taken = []) := by
  rw [keptByAll_acted acts seen numbered keeping]
  have accepted := accepted_acted s cue call rest below effects
  have returned := returned_acted s cue call rest below effects
  cases accepts : cue.accepts? with
  | some taken =>
      obtain ⟨n, p⟩ := taken
      have held : s.connection = some n := keeping.taker accepts
      have kept := kept_of_accepted past (accepted.trans accepts)
      obtain ⟨before, former, latter⟩ := keptByAll_of_last numbered.sorted
        (keeping.latest n held) fun m other => (kept m).trans (if_neg other)
      have nothing : cue.given = [] := by
        rcases Cue.accepts_iff.mp accepts with rfl | ⟨k, rfl⟩ <;> rfl
      refine ⟨?_, .inl nothing⟩
      rw [latter, former, nothing, kept n, if_pos rfl]
      simp [Cue.taken, accepts]
  | none =>
      have nothing : cue.taken = [] := by simp [Cue.taken, accepts]
      refine ⟨?_, .inr nothing⟩
      cases returns : cue.returns? with
      | some given =>
          obtain ⟨n, ps⟩ := given
          have kept := kept_of_returned past (accepted.trans accepts)
            (returned.trans returns)
          obtain rfl := Cue.returns_iff.mp returns
          obtain ⟨stays, whole⟩ := lastFirst n ps rfl
          obtain ⟨before, former, latter⟩ := keptByAll_of_last numbered.sorted
            (keeping.reclaims n (.inr rfl)) fun m other => (kept m).trans (if_neg other)
          rw [latter, former, nothing, kept n, if_pos rfl, ← whole]
          simp [Cue.given, Cue.returns?]
      | none =>
          have same := kept_of_silent past (accepted.trans accepts)
            (returned.trans returns)
          simp only [same]
          simp [Cue.given, returns, nothing, Chronicle.keptByAll]

end

/-! ## The ledger -/

/-- The payload that is handed over at a cue, or that is being sent there. -/
def Cue.inHand : Cue → List Value
  | .task (.serve (.send p)) => [p]
  | .answer (.sending _ p) _ => [p]
  | _ => []

/-- The payload that an outcome sends. -/
def Outcome.inHand : Outcome → List Value
  | .wait (.sending _ p) => [p]
  | _ => []

/-- The payload that the innermost call is handing over. -/
def inHand : List Activation → List Value
  | ⟨_, none, .serve (.send p) :: _⟩ :: _ => [p]
  | ⟨_, some (.sending _ p), _⟩ :: _ => [p]
  | _ => []

theorem inHand_activation (cue : Cue) (call : Call) (rest : List Task) (below : List Activation) :
    inHand (cue.activation call rest :: below) = cue.inHand := by
  cases cue with
  | task t =>
      cases t with
      | serve served => cases served <;> rfl
      | _ => rfl
  | answer a r => cases a <;> rfl

theorem inHand_eq_nil {stack : List Activation}
    (unserved : ∀ p later, front stack ≠ .serve (.send p) :: later)
    (unsent : ∀ n p, awaited stack ≠ some (.sending n p)) : inHand stack = [] := by
  unfold inHand
  split
  case h_1 => exact absurd rfl (unserved _ _)
  case h_2 => exact absurd rfl (unsent _ _)
  case h_3 => rfl

/-- A call that ends a connection hands nothing over. -/
theorem Call.inHand_of_ending {call : Call} {n : Nat} {e : Ending}
    (ends : call.ending? = some (n, e)) : (Cue.task (.serve call)).inHand = [] := by
  cases call <;> first | rfl | contradiction

section

variable {past : Chronicle} {s after : State} {cue : Cue} {call : Call} {rest : List Task}
  {below : List Activation} {outcome : Outcome} {effects : List Effect}

/-- After a step, something is in hand only if the step sends it. -/
theorem inHand_stack (acts : Acts setup s cue after outcome)
    (planned : Planned (cue.activation call rest :: below))
    (others : ∀ a ∈ below, ∀ w, a.awaiting = some w → ¬ (w.isDelivery = true)) :
    inHand (outcome.stack call rest below) = outcome.inHand := by
  cases outcome with
  | next first =>
      refine inHand_eq_nil (fun p later stands => ?_) fun n p waits => by contradiction
      obtain ⟨more, added, -⟩ := planned.added rfl stands
      obtain ⟨n, f, reports, -⟩ := acts.origin (.serve (.send p))
        (by rw [added]; exact List.mem_cons_self)
      contradiction
  | wait a => cases a <;> rfl
  | fail f =>
      refine inHand_eq_nil (fun p later stands => ?_) fun n p => not_awaited_below others rfl
      have idle : front below = [] := planned.front_below
      simp [Outcome.stack, idle] at stands

/-- What comes into the queue or into hand at a step leaves the other, or was given back; what
leaves both is accepted. -/
theorem Acts.balance (acts : Acts setup s cue after outcome) (outbound : setup.outbound = true)
    (keeping : Keeping past s (cue.activation call rest :: below))
    (sound : ∀ a f, cue = .answer a (.raised f) → ¬ (a.isDelivery = true))
    (running : s.phase.isOver = false) (stays : cue ≠ .task .discardQueue)
    (onward : ∀ first, outcome ≠ .next (.enter .closed :: first)) :
    cue.given ++ (s.queue.payloads ++ cue.inHand) =
      cue.taken ++ (after.queue.payloads ++ outcome.inHand) := by
  cases acts with
  | lapse lapses =>
      cases lapses with
      | send p gone => simp [gone] at running
      | ending ends => rw [Call.inHand_of_ending ends]; rfl
      | sent n p =>
          obtain ⟨-, empty⟩ := keeping.sending n p rfl
          rw [empty]
          rfl
      | _ => rfl
  | fault faults =>
      cases faults with
      | receiveOnly p closed => simp [closed] at outbound
      | emptied n p k empty =>
          obtain ⟨-, head⟩ := keeping.draining n p k rfl
          simp_all [Outbound.Queue.isEmpty, Outbound.Queue.payloads]
      | sending n p f => exact absurd rfl (sound _ _ rfl)
      | draining n p k f => exact absurd rfl (sound _ _ rfl)
      | reclaiming n f => exact absurd rfl (sound _ _ rfl)
      | _ => rfl
  | queue queues =>
      cases queues <;>
        simp [Cue.given, Cue.taken, Cue.inHand, Cue.accepts?, Cue.returns?, Outcome.inHand,
          State.enqueue, Outbound.Queue.payloads_enqueue]
  | ended ends => rw [Call.inHand_of_ending ends]; rfl
  | drained n p k =>
      obtain ⟨-, head⟩ := keeping.draining n p k rfl
      obtain ⟨others, queued⟩ := List.head?_eq_some_iff.mp head
      simp [Cue.given, Cue.taken, Cue.inHand, Cue.accepts?, Cue.returns?, Outcome.inHand,
        Outbound.Queue.payloads_dropHead, queued]
  | takeBack n =>
      simp [Cue.given, Cue.taken, Cue.inHand, Cue.accepts?, Cue.returns?, Outcome.inHand,
        State.requeue, Outbound.Queue.payloads_requeue]
  | discardQueue => exact absurd rfl stays
  | giveUp => exact absurd rfl (onward _)
  | _ => rfl

end

/-- Everything that was handed over is kept, queued or in hand. -/
def Balanced (past : Chronicle) (s : State) (stack : List Activation) : Prop :=
  past.submitted = past.keptByAll ++ (s.queue.payloads ++ inHand stack)

/-- A session is on its way out, or about to be closed. -/
def Leaving (s : State) (stack : List Activation) : Prop :=
  s.phase.isOver = true ∨ ∃ later, front stack = .enter .closed :: later

section

variable {past : Chronicle} {s after : State} {cue : Cue} {call : Call} {rest : List Task}
  {below : List Activation} {outcome : Outcome} {effects : List Effect}

/-- A session that is leaving does not turn back. -/
theorem leaving_of_acts (acts : Acts setup s cue after outcome)
    (orderly : OrderlyStack s.phase (cue.activation call rest :: below))
    (leaving : Leaving s (cue.activation call rest :: below)) :
    Leaving after (outcome.stack call rest below) := by
  rcases leaving with gone | ⟨later, stands⟩
  · apply Or.inl
    rcases acts.passage orderly with same | passage
    · rwa [same]
    · exact passage.isOver gone
  · cases cue with
    | answer => contradiction
    | task t =>
        obtain ⟨rfl, -⟩ := List.cons.inj stands
        exact .inl (by rw [acts.entered]; rfl)

/-- A call that begins takes the payload that is handed over in hand. -/
theorem Balanced.called {stack : List Activation} {turn : Turn}
    (balanced : Balanced past s stack) (begun : turn.call? = some call)
    (idle : inHand stack = []) :
    Balanced (⟨⟨s, stack⟩, turn, []⟩ :: past) s (⟨call, none, [.serve call]⟩ :: stack) := by
  have same := kept_of_silent past (e := ⟨⟨s, stack⟩, turn, []⟩)
    (Entry.accepted_call begun) (Entry.returned_call begun)
  have submits : Chronicle.submitted (⟨⟨s, stack⟩, turn, []⟩ :: past) =
      past.submitted ++ inHand (⟨call, none, [.serve call]⟩ :: stack) := by
    rw [Chronicle.submitted_cons, begun]
    cases call <;> rfl
  unfold Balanced at balanced ⊢
  rw [submits, balanced, idle, List.append_nil]
  simp [Chronicle.keptByAll, same]

theorem Balanced.returned (balanced : Balanced past s (⟨call, none, []⟩ :: below))
    (idle : inHand below = []) :
    Balanced (⟨⟨s, ⟨call, none, []⟩ :: below⟩, .work, [.returns]⟩ :: past) s below := by
  have same := kept_of_silent past
    (e := ⟨⟨s, ⟨call, none, []⟩ :: below⟩, .work, [.returns]⟩) (by simp) (by simp)
  unfold Balanced at balanced ⊢
  rw [idle]
  simpa [Chronicle.keptByAll, same, Turn.call?, inHand] using balanced

/-- A step keeps the balance, unless the session leaves. -/
theorem balanced_of_acts (acts : Acts setup s cue after outcome) (seen : Seen s cue outcome effects)
    (outbound : setup.outbound = true)
    (planned : Planned (cue.activation call rest :: below))
    (orderly : OrderlyStack s.phase (cue.activation call rest :: below))
    (numbered : Numbered past s (cue.activation call rest :: below))
    (keeping : Keeping past s (cue.activation call rest :: below))
    (others : ∀ a ∈ below, ∀ w, a.awaiting = some w → ¬ (w.isDelivery = true))
    (sound : ∀ a f, cue = .answer a (.raised f) → ¬ (a.isDelivery = true))
    (lastFirst : ∀ n ps, cue = .answer (.reclaiming n) (.unsent ps) → ps <:+ past.kept n)
    (balanced : Balanced past s (cue.activation call rest :: below)) :
    Balanced (cue.entry s call rest below effects :: past) after (outcome.stack call rest below) ∨
      Leaving after (outcome.stack call rest below) := by
  by_cases gone : s.phase.isOver = true
  · exact .inr (leaving_of_acts acts orderly (.inl gone))
  by_cases closes : ∃ first, outcome = .next (.enter .closed :: first)
  · obtain ⟨first, rfl⟩ := closes
    exact .inr (.inr ⟨first ++ rest, rfl⟩)
  -- The queue is dropped only by a session that is on its way out.
  have stays : cue ≠ .task .discardQueue := by
    rintro rfl
    obtain ⟨r, rfl⟩ := cue_precedes (planned.planned _ List.mem_cons_self)
    exact gone (over_of_finishing orderly List.mem_cons_self (by simp))
  have queue := acts.balance outbound keeping sound (by simpa using gone) stays
    fun first adds => closes ⟨first, adds⟩
  obtain ⟨kept, one⟩ := keptByAll_of_acts acts seen numbered keeping lastFirst
  have same : Chronicle.submitted (cue.entry s call rest below effects :: past) =
      past.submitted := by
    cases cue <;> simp [Cue.turn, Turn.call?]
  apply Or.inl
  unfold Balanced at balanced ⊢
  rw [inHand_activation] at balanced
  rw [same, balanced, inHand_stack acts planned others]
  rcases one with none | none
  · rw [none, List.append_nil] at kept
    rw [none, List.nil_append] at queue
    rw [kept, queue, List.append_assoc]
  · rw [none, List.append_nil] at kept
    rw [← kept, List.append_assoc, queue, none, List.nil_append]

end

/-- Surroundings that send as connections do: a connection answers at once and raises nothing, and
what it gives back is the end of what it keeps. -/
structure Faithful (allowed : Surroundings) : Prop where
  quiet : ∀ c turn, allowed c turn → Surroundings.Quiet (fun a => a.isDelivery) c turn
  sound : ∀ c turn, allowed c turn → Surroundings.Sound (fun a => a.isDelivery) c turn
  lastFirst : ∀ c turn, allowed c turn → Surroundings.LastFirst c turn

/-- Until a session leaves, every payload is accounted for. -/
theorem balanced_of_reached {c : Course} (outbound : setup.outbound = true)
    (reached : c.Reached setup allowed) (faithful : Faithful allowed) :
    Balanced c.past c.now.state c.now.stack ∨ Leaving c.now.state c.now.stack := by
  refine reached.induction (P := fun past s stack => Balanced past s stack ∨ Leaving s stack)
    ?start ?called ?returned ?acted
  case start => exact .inl rfl
  case called =>
    intro past s stack turn call before ih permitted begun free
    rcases ih with balanced | gone | ⟨later, stands⟩
    · refine .inl (balanced.called begun (inHand_eq_nil ?_ fun n p waits => ?_))
      · simp [front_of_waiting free]
      · have none := faithful.quiet _ _ permitted (.sending n p) waits rfl
        simp [none] at begun
    · exact .inr (.inl gone)
    · simp [front_of_waiting free] at stands
  case returned =>
    intro past s call below before ih
    have planned : Planned (⟨call, none, []⟩ :: below) := planned_of_reached before
    rcases ih with balanced | gone | ⟨later, stands⟩
    · refine .inl (balanced.returned (inHand_eq_nil ?_ fun n p => ?_))
      · simp [planned.front_below]
      · exact not_awaited_below (uninterrupted_of_reached before faithful.quiet) rfl
    · exact .inr (.inl gone)
    · contradiction
  case acted =>
    intro past s cue call rest below after outcome effects before ih permitted acts seen
    rcases ih with balanced | leaving
    · refine balanced_of_acts acts seen outbound (planned_of_reached before)
        (orderlyStack_of_reached before) (numbered_of_reached before)
        (keeping_of_reached before faithful.quiet)
        (uninterrupted_of_reached before faithful.quiet) (fun a f raised prompt => ?_)
        (fun n ps back => ?_) balanced
      · subst raised
        exact faithful.sound _ _ permitted a f rfl prompt rfl
      · subst back
        exact faithful.lastFirst _ _ permitted n ps rfl rfl
    · exact .inr (leaving_of_acts acts (orderlyStack_of_reached before) leaving)

/-- When no call is in progress and the session is not closed, what its connections keep, in the
order in which they were dialled, and what is queued is exactly what was handed over, in order. -/
theorem kept_append_queued (outbound : setup.outbound = true) {c : Course}
    (reached : c.Reached setup fun d turn =>
      Surroundings.Quiet (fun a => a.isDelivery) d turn ∧
      Surroundings.Sound (fun a => a.isDelivery) d turn ∧ Surroundings.LastFirst d turn)
    (rest : c.now.atRest) (unclosed : c.phase ≠ .closed) :
    c.past.dialled.flatMap (Chronicle.kept · c.past) ++ c.now.state.queue.payloads =
      c.past.submitted := by
  have faithful : Faithful fun d turn => Surroundings.Quiet (fun a => a.isDelivery) d turn ∧
      Surroundings.Sound (fun a => a.isDelivery) d turn ∧ Surroundings.LastFirst d turn :=
    ⟨fun _ _ permitted => permitted.1, fun _ _ permitted => permitted.2.1,
      fun _ _ permitted => permitted.2.2⟩
  have none : c.now.stack = [] := by simpa [Machine.atRest] using rest
  rcases balanced_of_reached outbound reached faithful with balanced | gone | ⟨later, stands⟩
  · unfold Balanced at balanced
    rw [balanced, none]
    simp [Chronicle.keptByAll, inHand]
  · -- A session that is on its way out at rest is closed, since a stop is never left unfinished.
    refine absurd ?_ unclosed
    cases phase : c.phase with
    | closed => rfl
    | closing =>
        obtain ⟨a, among, -⟩ := halting_of_closing reached phase
        simp [none] at among
    | _ => rw [show c.now.state.phase = c.phase from rfl, phase] at gone; contradiction
  · simp [none, front] at stands

/-- A session that lost its connection while a payload was on its way, and was handed another. -/
def interrupted : Course := Course.plays .plain {} [.call .start, .reply .returned,
  .call (.opened 2), .call (.send (.int 1)), .reply (.accepted true), .call (.send (.int 2)),
  .reply (.accepted true), .call (.closed 2 .null), .reply (.unsent [.int 2]),
  .reply (.scheduled 7), .call (.send (.int 3))]

theorem kept_append_queued_interrupted : interrupted.phase = .connecting ∧
    interrupted.past.submitted = [.int 1, .int 2, .int 3] ∧
    interrupted.now.state.queue.payloads = [.int 2, .int 3] ∧
    interrupted.past.dialled.flatMap (Chronicle.kept · interrupted.past) ++
      interrupted.now.state.queue.payloads = interrupted.past.submitted := by
  refine ⟨rfl, rfl, rfl, @kept_append_queued .plain rfl interrupted
    (Course.leads_plays (fun c => ?_) ?_) rfl (by decide)⟩
  · simp
  · have calm {c : Course} {turn : Turn} (resting : c.now.awaiting? = none) :
        Surroundings.Quiet (fun a => a.isDelivery) c turn := by
      intro a waits
      simp [resting] at waits
    refine ⟨⟨calm rfl, by simp⟩, by simp [Surroundings.Sound, Surroundings.LastFirst],
      ⟨calm rfl, by simp⟩, ⟨calm rfl, by simp⟩,
      by simp [Surroundings.Sound, Surroundings.LastFirst], ⟨calm rfl, by simp⟩,
      by simp [Surroundings.Sound, Surroundings.LastFirst], ⟨calm rfl, by simp⟩,
      ⟨by simp, by simp [Surroundings.Sound], ?gives⟩,
      by simp [Surroundings.Sound, Surroundings.LastFirst], ⟨calm rfl, by simp⟩, trivial⟩
    rintro _ _ ⟨⟩ ⟨⟩
    exact ⟨[.int 1], rfl⟩
end EventStream.Session
