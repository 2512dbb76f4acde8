import EventStream.Proofs.Session.Action

/-
# Connections are told apart by number

Every connection is dialled under a number that no earlier one had, and the numbers grow. The
session holds only connections that it dialled, and two calls never wait for the same one. These
facts ask nothing of the surroundings. If what reports is a connection that was dialled, then so
is every connection whose report is still to be served.
-/

namespace EventStream.Session

variable {setup : Setup} {allowed : Surroundings}

theorem mem_dials_iff {outcome : Outcome} {n : Nat} :
    n ∈ outcome.asked.filterMap Request.dial? ↔ outcome = .wait (.dialling n) := by
  cases outcome with
  | wait a => cases a <;> simp [Outcome.asked, Await.request, Request.dial?, eq_comm]
  | _ => simp [Outcome.asked]

/-- The only task that dials takes the next number. -/
theorem Acts.dials {s after : State} {cue : Cue} {n : Nat}
    (acts : Acts setup s cue after (.wait (.dialling n))) :
    cue = .task .dial ∧ n = s.generation + 1 ∧ after = { s with generation := n } := by
  cases acts with
  | dial => exact ⟨rfl, rfl, rfl⟩

/-- A call that is to dial does so. -/
theorem Acts.dialling {s after : State} {outcome : Outcome}
    (acts : Acts setup s (.task .dial) after outcome) :
    outcome = .wait (.dialling (s.generation + 1)) := by
  cases acts with
  | dial => rfl
  | lapse lapses => cases lapses
  | fault faults => cases faults
  | queue queues => cases queues

/-- Only the task that dials does. -/
theorem Acts.undialling {s after : State} {cue : Cue} {outcome : Outcome}
    (acts : Acts setup s cue after outcome) (other : cue ≠ .task .dial) :
    outcome.asked.filterMap Request.dial? = [] := by
  refine List.eq_nil_iff_forall_not_mem.mpr fun n dials => other ?_
  obtain rfl := mem_dials_iff.mp dials
  exact acts.dials.1

theorem Acts.releases {s after : State} {outcome : Outcome}
    (acts : Acts setup s (.task .release) after outcome) : after = s.turnAway := by
  cases acts with
  | turnAway | release => rfl
  | lapse lapses => cases lapses
  | fault faults => cases faults
  | queue queues => cases queues

/-- The number of the connection to which a session listens never falls. -/
theorem Acts.generation_le {s after : State} {cue : Cue} {outcome : Outcome}
    (acts : Acts setup s cue after outcome) : s.generation ≤ after.generation := by
  cases acts with
  | ended | dial | turnAway | release => exact Nat.le_succ _
  | _ => exact Nat.le_refl _

/-- A step that leaves the session listening to a connection that was dialled either dials it, or
leaves everything about it as it was. -/
theorem Acts.still_known {past : Chronicle} {s after : State} {cue : Cue} {outcome : Outcome}
    {effects : List Effect} {m : Machine} (acts : Acts setup s cue after outcome)
    (seen : Seen s cue outcome effects) (bounded : ∀ n ∈ past.dialled, n ≤ s.generation)
    (known : after.generation ∈ Chronicle.dialled (⟨m, cue.turn, effects⟩ :: past)) :
    cue = .task .dial ∨ after.generation = s.generation ∧ s.generation ∈ past.dialled := by
  rw [seen.dialled] at known
  rcases List.mem_append.mp known with known | dials
  · have same := Nat.le_antisymm (bounded _ known) acts.generation_le
    exact .inr ⟨same, same ▸ known⟩
  · obtain rfl := mem_dials_iff.mp dials
    exact .inl acts.dials.1

/-- A connection that is held was held before, or opening it has just returned. -/
theorem Acts.holds {s after : State} {cue : Cue} {outcome : Outcome} {n : Nat}
    (acts : Acts setup s cue after outcome) (held : after.connection = some n) :
    s.connection = some n ∨ n = s.generation ∧ cue = .answer (.dialling n) .returned := by
  cases acts with
  | ended | turnAway | release => exact absurd held (by simp [State.turnAway])
  | adopt =>
      obtain rfl := Option.some.inj held
      exact .inr ⟨rfl, rfl⟩
  | _ => exact .inl held

/-! ## Calls that wait for a connection -/

/-- The connection that is waited for while it is opened. -/
def Await.dialling? : Await → Option Nat
  | .dialling n => some n
  | _ => none

/-- The connections that are being opened, the latest first. -/
def diallings (stack : List Activation) : List Nat :=
  stack.filterMap fun a => a.awaiting.bind Await.dialling?

@[simp] theorem diallings_working (call : Call) (tasks : List Task) (below : List Activation) :
    diallings (⟨call, none, tasks⟩ :: below) = diallings below := rfl

@[simp] theorem diallings_waiting (call : Call) (a : Await) (tasks : List Task)
    (below : List Activation) :
    diallings (⟨call, some a, tasks⟩ :: below) = a.dialling?.toList ++ diallings below := by
  cases a <;> rfl

theorem diallings_stack (outcome : Outcome) (call : Call) (rest : List Task)
    (below : List Activation) :
    diallings (outcome.stack call rest below) =
      outcome.asked.filterMap Request.dial? ++ diallings below := by
  cases outcome with
  | wait a => cases a <;> rfl
  | _ => rfl

theorem diallings_sublist (a : Activation) (below : List Activation) :
    (diallings below).Sublist (diallings (a :: below)) :=
  (List.sublist_cons_self a below).filterMap _

/-- The numbers of the connections of a course are in order. -/
structure Numbered (past : Chronicle) (s : State) (stack : List Activation) : Prop where
  bounded : ∀ n ∈ past.dialled, n ≤ s.generation
  sorted : past.dialled.Pairwise (· < ·)
  waiting : ∀ n ∈ diallings stack, n ∈ past.dialled
  distinct : (diallings stack).Nodup
  held : ∀ n, s.connection = some n → n ∈ past.dialled
  unclaimed : ∀ n ∈ diallings stack, s.connection ≠ some n

theorem numbered_of_reached {c : Course} (reached : c.Reached setup allowed) :
    Numbered c.past c.now.state c.now.stack := by
  refine reached.induction (P := Numbered) ?start ?called ?returned ?acted
  case start => constructor <;> simp [diallings, Chronicle.dialled, Chronicle.requests]
  case called =>
    rintro past s stack turn call _ ⟨bounded, sorted, waiting, distinct, held, unclaimed⟩ _ _ _
    constructor <;> simpa
  case returned =>
    rintro past s call below _ ⟨bounded, sorted, waiting, distinct, held, unclaimed⟩
    constructor <;> simpa
  case acted =>
    rintro past s cue call rest below after outcome effects _
      ⟨bounded, sorted, waiting, distinct, held, unclaimed⟩ _ acts seen
    have others := diallings_sublist (cue.activation call rest) below
    -- The number that is dialled, if one is, lies above all others.
    have fresh (n : Nat) (dials : n ∈ outcome.asked.filterMap Request.dial?) :
        n = after.generation ∧ ∀ m ∈ past.dialled, m < n := by
      obtain rfl := mem_dials_iff.mp dials
      obtain ⟨-, rfl, rfl⟩ := acts.dials
      exact ⟨rfl, fun m known => Nat.lt_succ_of_le (bounded m known)⟩
    have single : (outcome.asked.filterMap Request.dial?).Pairwise (fun _ _ => False) := by
      cases outcome with
      | wait a => cases a <;> first | exact .nil | exact List.pairwise_singleton _ _
      | _ => exact .nil
    constructor
    · rw [seen.dialled]
      intro n known
      rcases List.mem_append.mp known with known | dials
      · exact Nat.le_trans (bounded n known) acts.generation_le
      · exact Nat.le_of_eq (fresh n dials).1
    · rw [seen.dialled, List.pairwise_append]
      exact ⟨sorted, single.imp fun none => none.elim,
        fun m known n dials => (fresh n dials).2 m known⟩
    · rw [seen.dialled, diallings_stack]
      intro n among
      rcases List.mem_append.mp among with dials | among
      · exact List.mem_append_right _ dials
      · exact List.mem_append_left _ (waiting n (others.subset among))
    · rw [diallings_stack, List.nodup_append]
      refine ⟨single.imp fun none => none.elim, distinct.sublist others, fun n dials m among => ?_⟩
      exact Nat.ne_of_gt ((fresh n dials).2 m (waiting m (others.subset among)))
    · rw [seen.dialled]
      intro n holds
      apply List.mem_append_left
      rcases acts.holds holds with before | ⟨-, rfl⟩
      · exact held n before
      · exact waiting n (by simp [Cue.activation, Await.dialling?])
    · rw [diallings_stack]
      intro n among holds
      rcases acts.holds holds with before | ⟨-, rfl⟩
      · rcases List.mem_append.mp among with dials | among
        · exact Nat.lt_irrefl n ((fresh n dials).2 n (held n before))
        · exact unclaimed n (others.subset among) before
      · rcases List.mem_append.mp among with dials | among
        · exact Nat.lt_irrefl n
            ((fresh n dials).2 n (waiting n (by simp [Cue.activation, Await.dialling?])))
        · simp [Cue.activation, Await.dialling?, among] at distinct

/-! ## Reports -/

/-- What reports is a connection that was dialled, whether it called or could not be opened. -/
theorem heard_of_reached {c : Course} (reached : c.Reached setup allowed)
    (genuine : ∀ c turn, allowed c turn → Surroundings.Genuine c turn) :
    ∀ a ∈ c.now.stack, ∀ call n, .serve call ∈ a.tasks → call.reporter? = some n →
      n ∈ c.past.dialled := by
  refine reached.induction (P := fun past _ stack => ∀ a ∈ stack, ∀ call n,
    .serve call ∈ a.tasks → call.reporter? = some n → n ∈ past.dialled)
    ?start ?called ?returned ?acted
  case start => simp
  case called =>
    intro past s stack turn call _ ih permitted begun _ a among
    simp only [Chronicle.dialled_cons, Entry.asked_call, List.filterMap_nil, List.append_nil]
    rcases List.mem_cons.mp among with rfl | among
    · intro served n serves reports
      obtain rfl : served = call := by simpa using serves
      exact genuine _ _ permitted _ n begun reports
    · exact ih a among
  case returned =>
    intro past s call below _ ih a among
    simpa using ih a (.tail _ among)
  case acted =>
    intro past s cue call rest below after outcome effects before ih _ acts seen
      a among served n serves reports
    rw [seen.dialled]
    apply List.mem_append_left
    rcases Outcome.mem_tasks cue among serves with serves | ⟨b, among, serves⟩
    · obtain ⟨m, f, rfl, rfl, -⟩ := acts.origin _ serves
      obtain rfl : m = n := by simpa [Call.reporter?] using reports
      exact (numbered_of_reached before).waiting m (by simp [Cue.activation, Await.dialling?])
    · exact ih b among served n serves reports

end EventStream.Session
